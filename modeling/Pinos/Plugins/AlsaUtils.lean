import Pinos.Client.TransportArea
import Pinos.Spa.Ringbuffer

/-
`spa/plugins/alsa/alsa-utils.c`: the frames that a sink pulls from its buffers.

Sizes are natural numbers, with what a `size_t` makes of a negative one; the area of the device
is in memory.
-/

namespace Pinos

open ByteMem

/-- A buffer with its data, the chunk in it, and its ringbuffer when it has one. -/
structure SpaALSABuffer where
  id : UInt32
  data : Mem
  maxsize : UInt32
  chunkOffset : UInt32
  chunkSize : UInt32
  rb : Option SpaRingbuffer

structure SpaRange where
  offset : Nat
  minSize : Nat
  maxSize : Nat
  deriving DecidableEq

structure SpaALSAState where
  frameSize : Nat
  threshold : Nat
  sampleCount : Nat
  io : SpaPortIO
  range : SpaRange
  ready : List SpaALSABuffer
  readyOffset : Nat
  /-- The buffers for which `reuse_buffer` was called. -/
  reused : List UInt32

namespace SpaALSABuffer

/-- What was copied of a buffer, and whether it can be reused. -/
structure Copied where
  nBytes : Nat
  bytes : List UInt8
  buffer : SpaALSABuffer
  readyOffset : Nat
  reuse : Bool

/-- `pull_frames` for a ringbuffer. -/
def copyRing (b : SpaALSABuffer) (rb : SpaRingbuffer) (readyOffset room : Nat) : Copied :=
  let (avail, index) := rb.getReadIndex
  let avail := avail.toInt64.toUInt64.toNat
  let nBytes := min avail room
  { nBytes
    bytes := rb.readData b.data (index &&& rb.mask) (.ofNat nBytes)
    buffer := { b with rb := some (rb.readUpdate (index + .ofNat nBytes)) }
    readyOffset
    reuse := avail = nBytes }

/-- `pull_frames` for a chunk.  What is left of it is counted from `offs`. -/
def copyChunk (b : SpaALSABuffer) (readyOffset room : Nat) : Copied :=
  let offs := min (b.chunkOffset.toNat + readyOffset) b.maxsize.toNat
  let size := (min b.chunkSize.toNat b.maxsize.toNat + 2 ^ 64 - offs) % 2 ^ 64
  let nBytes := min size room
  { nBytes
    bytes := b.data.read offs nBytes
    buffer := b
    readyOffset := readyOffset + nBytes
    reuse := size ≤ readyOffset + nBytes }

def copy (b : SpaALSABuffer) (readyOffset room : Nat) : Copied :=
  match b.rb with
  | some rb => b.copyRing rb readyOffset room
  | none => b.copyChunk readyOffset room

end SpaALSABuffer

/-- `pull_frames` in its loop. -/
structure PullState where
  state : SpaALSAState
  totalFrames : Nat
  toWrite : Nat
  /-- Where bytes were copied to in the area, and which. -/
  writes : List (Nat × List UInt8)

namespace PullState

/-- A turn of the loop. -/
def pullBuffer (dst : Nat) (s : PullState) : PullState :=
  match s.state.ready with
  | [] => s
  | b :: rest =>
    let copied := b.copy s.state.readyOffset (s.toWrite * s.state.frameSize)
    let nFrames := min s.toWrite (copied.nBytes / s.state.frameSize)
    { state :=
        if copied.reuse then
          { s.state with
            ready := rest
            readyOffset := 0
            io := { s.state.io with bufferId := b.id }
            reused := s.state.reused ++ [b.id] }
        else { s.state with ready := copied.buffer :: rest, readyOffset := copied.readyOffset }
      totalFrames := s.totalFrames + nFrames
      toWrite := s.toWrite - nFrames
      writes := s.writes ++ [(dst, copied.bytes)] }

/-- The loop, with the turns it may take. -/
def pullLoop (dst : Nat) : Nat → PullState → PullState
  | 0, s => s
  | turns + 1, s =>
    if s.state.ready = [] ∨ s.toWrite = 0 then s else pullLoop dst turns (s.pullBuffer dst)

end PullState

/-- What `pull_frames` copies to the area, how many frames of silence it puts there, and what it
returns. -/
structure PulledFrames where
  writes : List (Nat × List UInt8)
  silence : Nat
  totalFrames : Nat

namespace SpaALSAState

/-- `need_input` is called when nothing is ready; some buffers may be queued then. -/
def needInput (s : SpaALSAState) (frames : Nat) (doPull : Bool) (queued : List SpaALSABuffer) :
    SpaALSAState :=
  if s.ready = [] ∧ doPull then
    { s with
      io := { s.io with status := .needBuffer }
      range :=
        { offset := s.sampleCount * s.frameSize
          minSize := s.threshold * s.frameSize
          maxSize := frames * s.frameSize }
      ready := queued }
  else s

def pullStart (s : SpaALSAState) (frames : Nat) (doPull : Bool) (queued : List SpaALSABuffer) :
    PullState where
  state := s.needInput frames doPull queued
  totalFrames := 0
  toWrite := frames
  writes := []

/-- `pull_frames`; the loop has a turn for each buffer. -/
def pullFrames (s : SpaALSAState) (offset frames : Nat) (doPull : Bool)
    (queued : List SpaALSABuffer) : SpaALSAState × PulledFrames :=
  let start := s.pullStart frames doPull queued
  let s := start.pullLoop (offset * s.frameSize) start.state.ready.length
  if s.totalFrames = 0 ∧ doPull then
    let silence := min frames s.state.threshold
    (s.state, ⟨s.writes, silence, silence⟩)
  else (s.state, ⟨s.writes, 0, s.totalFrames⟩)

end SpaALSAState
end Pinos
