import Mathlib.Logic.Function.Basic
import Pinos.Lib.Run
import Pinos.Plugins.V4l2EnumFormat
import Pinos.Plugins.Volume

/-
`plugins/v4l2/v4l2-source.c` with what `v4l2-utils.c` does with the buffers: they go to the queue of
the device, come back filled, and go to the other side of the port until that is done with them.

What the device answers comes with each call.  The data of the buffers is not modelled.
-/

namespace Pinos

def SpaResult.wrongState : SpaResult := 0xFFFFFFE3

/-! ## The device -/

/-- `enum v4l2_memory`. -/
inductive V4l2Memory where
  | mmap
  | userptr
  | dmabuf
  deriving DecidableEq

/-- What a device has: as many buffers as it made, some of them in its queue, and some that it was
given and would not take. -/
structure V4l2Queue where
  count : Nat
  queued : List Nat
  refused : List Nat
  streaming : Bool

namespace V4l2Queue

/-- `VIDIOC_REQBUFS`: the buffers that it had are gone. -/
def reqbufs (count : Nat) : V4l2Queue := ⟨count, [], [], false⟩

/-- `VIDIOC_QBUF`, which fails for a buffer that is in the queue. -/
def qbuf (device : V4l2Queue) (takes : Bool) (i : Nat) : V4l2Queue :=
  if i < device.count ∧ i ∉ device.queued then
    if takes then { device with queued := device.queued ++ [i] }
    else { device with refused := device.refused ++ [i] }
  else device

/-- `VIDIOC_DQBUF`, when buffer `i` is full. -/
def dqbuf (device : V4l2Queue) (i : Nat) : Option V4l2Queue :=
  if device.streaming ∧ i ∈ device.queued then
    some { device with queued := device.queued.erase i }
  else none

def streamOff (device : V4l2Queue) : V4l2Queue :=
  { device with queued := [], streaming := false }

end V4l2Queue

structure V4l2Capability where
  streaming : Bool
  readwrite : Bool

structure V4l2PixFormat where
  pixelformat : UInt32
  width : UInt32
  height : UInt32
  deriving DecidableEq

/-- What the device answers in one call: what it can do, unless it cannot be opened; the format
and the rate that it sets; how many buffers it makes; and which other requests succeed. -/
structure V4l2Answers where
  cap : Option V4l2Capability
  setFmt : V4l2PixFormat → Option V4l2PixFormat
  setParm : SpaFraction → SpaFraction
  reqbufs : V4l2Memory → Nat → Option Nat
  querybuf : Nat → Bool
  /-- `VIDIOC_EXPBUF`, or `mmap`. -/
  maps : Nat → Bool
  qbuf : Nat → Bool
  streamOn : Bool
  streamOff : Bool

/-! ## The source -/

/-- `datas[0].type`. -/
inductive V4l2DataType where
  | memPtr
  | memFd
  | dmaBuf
  | other
  deriving DecidableEq

structure SpaVideoBuffer where
  id : UInt32
  nDatas : Nat
  type : V4l2DataType
  hasData : Bool

/-- `index` is that of the `v4l2_buffer`. -/
structure V4l2Buffer where
  id : UInt32
  outstanding : Bool
  allocated : Bool
  index : Nat

structure SpaVideoInfo where
  mediaType : UInt32
  mediaSubtype : UInt32
  format : UInt32
  size : SpaRectangle
  framerate : SpaFraction

/-- A format, with what its parser makes of it. -/
structure SpaVideoFormat where
  info : SpaVideoInfo
  parses : Bool

inductive V4l2Command where
  | start
  | pause
  | clockUpdate
  | other
  deriving DecidableEq

/-- `data` are the commands that the data loop was asked for, and `main` those that the main loop
is to complete. -/
structure SpaV4l2Source where
  seq : UInt32
  exportBuf : Bool
  started : Bool
  haveFormat : Bool
  currentFormat : SpaVideoInfo
  opened : Bool
  cap : V4l2Capability
  memtype : V4l2Memory
  buffers : Nat → V4l2Buffer
  nBuffers : Nat
  sourceEnabled : Bool
  io : Option SpaPortIO
  data : List V4l2Command
  main : List V4l2Command
  device : V4l2Queue
  /-- The array of buffers was left, or a buffer or an io was used that is not there. -/
  fault : Bool

namespace SpaV4l2Source

/-- `MAX_BUFFERS`. -/
def maxBuffers : Nat := 64

/-- `v4l2_source_init`, in memory that was cleared. -/
def init : SpaV4l2Source where
  seq := 0
  exportBuf := true
  started := false
  haveFormat := false
  currentFormat := ⟨0, 0, 0, ⟨0, 0⟩, ⟨0, 1, by decide⟩⟩
  opened := false
  cap := ⟨false, false⟩
  memtype := .mmap
  buffers _ := ⟨0, false, false, 0⟩
  nBuffers := 0
  sourceEnabled := false
  io := none
  data := []
  main := []
  device := .reqbufs 0
  fault := false

variable (s : SpaV4l2Source) (a : V4l2Answers)

def crash : SpaV4l2Source := { s with fault := true }

def setBuffer (i : Nat) (b : V4l2Buffer) : SpaV4l2Source :=
  if i < maxBuffers then { s with buffers := Function.update s.buffers i b } else s.crash

/-! ## `v4l2-utils.c` -/

/-- `spa_v4l2_open`. -/
def openDevice : Option SpaV4l2Source :=
  if s.opened then some s
  else a.cap.map fun cap => { s with cap := cap, opened := true }

def qbuf (i : Nat) : SpaV4l2Source :=
  { s with device := s.device.qbuf (a.qbuf (s.buffers i).index) (s.buffers i).index }

/-- `spa_v4l2_buffer_recycle`. -/
def bufferRecycle (i : Nat) : SpaV4l2Source :=
  if maxBuffers ≤ i then s.crash
  else if (s.buffers i).outstanding then
    (s.setBuffer i { s.buffers i with outstanding := false }).qbuf a i
  else s

def reqbufs (n : Nat) : Option (Nat × SpaV4l2Source) :=
  (a.reqbufs s.memtype n).map fun got =>
    let count := if n = 0 then 0 else got
    (count, { s with device := .reqbufs count })

/-- `spa_v4l2_clear_buffers`; what was mapped is unmapped. -/
def clearBuffers : SpaV4l2Source :=
  if s.nBuffers = 0 then s
  else
    let s := (List.range s.nBuffers).foldl (fun s i => s.bufferRecycle a i) s
    let s := match s.reqbufs a 0 with
      | none => s
      | some (_, s) => s
    { s with nBuffers := 0 }

/-- `spa_v4l2_port_set_enabled`. -/
def setEnabled (enabled : Bool) : SpaV4l2Source := { s with sourceEnabled := enabled }

/-- `spa_v4l2_close`. -/
def closeDevice : SpaV4l2Source :=
  if ¬ s.opened ∨ 0 < s.nBuffers then s
  else { s.setEnabled false with opened := false, device := .reqbufs 0 }

/-- `spa_v4l2_set_format`, with the format that is set when it succeeds. -/
def setFormat (types : V4l2Types) (info : SpaVideoInfo) (tryOnly : Bool) :
    SpaV4l2Source × Option SpaVideoInfo :=
  let subtype := info.mediaSubtype
  let format := if subtype = types.id .raw then info.format else types.id .encoded
  match findFormatInfoByMediaType types info.mediaType subtype format 0 with
  | none => (s, none)
  | some fmt =>
    if subtype ∉ [.raw, .mjpg, .jpeg, .h264].map types.id then (s, none)
    else match s.openDevice a with
      | none => (s, none)
      | some s =>
        let request : V4l2PixFormat := ⟨fmt.fourcc, info.size.width, info.size.height⟩
        if a.setFmt request = some request then
          (s, some (if tryOnly then info else { info with framerate := a.setParm info.framerate }))
        else (s, none)

/-- `mmap_read`, when the device has filled buffer `i`. -/
def mmapRead (i : Nat) : SpaV4l2Source :=
  match s.device.dqbuf i with
  | none => s
  | some device =>
    let s := { s with device := device }
    if s.nBuffers ≤ i then s.crash
    else match s.io with
      | none => s.crash
      | some io =>
        { s.setBuffer i { s.buffers i with outstanding := true } with
          io := some { io with bufferId := (s.buffers i).id, status := .haveBuffer } }

/-- `v4l2_on_fd_events`, where a buffer may be full. -/
def onFdEvents (full : Option Nat) : SpaV4l2Source :=
  match full with
  | some i => if s.sourceEnabled then s.mmapRead i else s
  | none => s

/-- The memory for which buffers are used, if there is one. -/
def memoryFor (buffers : List SpaVideoBuffer) : Option V4l2Memory :=
  match buffers with
  | [] => some s.memtype
  | b :: _ =>
    if (b.type = .memPtr ∨ b.type = .memFd) ∧ b.hasData then some .userptr
    else if b.type = .dmaBuf then some .dmabuf
    else none

/-- The loop of `spa_v4l2_use_buffers`. -/
def importBuffers (count : Nat) : SpaV4l2Source → Nat → List SpaVideoBuffer →
    SpaV4l2Source × SpaResult
  | s, i, [] => if i < count then (s.crash, .error) else (s, .ok)
  | s, i, b :: bs =>
    if i < count then
      let s := s.setBuffer i { s.buffers i with
        id := b.id, outstanding := true, allocated := false }
      if b.nDatas < 1 then (s, .error)
      else
        let s := s.setBuffer i { s.buffers i with index := i }
        importBuffers count (s.bufferRecycle a b.id.toNat) (i + 1) bs
    else (s, .ok)

/-- `spa_v4l2_use_buffers`. -/
def useBuffers (buffers : List SpaVideoBuffer) : SpaV4l2Source × SpaResult :=
  match s.memoryFor buffers with
  | none => (s, .error)
  | some memory =>
    let s := { s with memtype := memory }
    match s.reqbufs a buffers.length with
    | none => (s, .error)
    | some (count, s) =>
      if count < 2 then (s, .error)
      else match importBuffers a count s 0 buffers with
        | (s, res) => if res.isError then (s, res) else ({ s with nBuffers := count }, .ok)

/-- The loop of `mmap_init`. -/
def mapBuffers (count : Nat) : SpaV4l2Source → Nat → List SpaVideoBuffer →
    SpaV4l2Source × SpaResult
  | s, i, [] => if i < count then (s.crash, .error) else (s, .ok)
  | s, i, b :: bs =>
    if i < count then
      if b.nDatas < 1 then (s, .error)
      else
        let s := s.setBuffer i { id := b.id, outstanding := true, allocated := true, index := i }
        if ¬ a.querybuf i then (s, .error)
        else mapBuffers count (if a.maps i then s.bufferRecycle a i else s) (i + 1) bs
    else (s, .ok)

/-- `mmap_init`. -/
def mmapInit (buffers : List SpaVideoBuffer) : SpaV4l2Source × SpaResult :=
  let s := { s with memtype := .mmap }
  match s.reqbufs a buffers.length with
  | none => (s, .error)
  | some (count, s) =>
    if count < 2 then (s, .error)
    else match mapBuffers a count s 0 buffers with
      | (s, res) => if res.isError then (s, res) else ({ s with nBuffers := count }, .ok)

/-- `spa_v4l2_alloc_buffers`; `userptr_init` and `read_init` are not implemented. -/
def allocBuffers (buffers : List SpaVideoBuffer) : SpaV4l2Source × SpaResult :=
  if 0 < s.nBuffers then (s, .error)
  else if s.cap.streaming then
    match s.mmapInit a buffers with
    | (s, res) => (s, if res.isError then .notImplemented else .ok)
  else if s.cap.readwrite then (s, .notImplemented)
  else (s, .error)

/-- `spa_v4l2_stream_on`; a device without buffers does not stream. -/
def streamOn : SpaV4l2Source × SpaResult :=
  if s.started then (s, .ok)
  else if a.streamOn ∧ s.device.count ≠ 0 then
    ({ s with device.streaming := true, started := true }, .ok)
  else (s, .error)

/-- `spa_v4l2_stream_off`: the device gives back all that it has in its queue. -/
def streamOff : SpaV4l2Source × SpaResult :=
  if ¬ s.started then (s, .ok)
  else
    let s := s.setEnabled false
    if ¬ a.streamOff then (s, .error)
    else
      let s := { s with device := s.device.streamOff }
      let s := (List.range s.nBuffers).foldl
        (fun s i => if (s.buffers i).outstanding then s else s.qbuf a i) s
      ({ s with started := false }, .ok)

/-! ## `v4l2-source.c` -/

/-- The formats that do not count as a change. -/
def isCurrent (types : V4l2Types) (info : SpaVideoInfo) : Bool :=
  s.haveFormat && info.mediaType == s.currentFormat.mediaType &&
    info.mediaSubtype == s.currentFormat.mediaSubtype &&
    (info.mediaSubtype != types.id .raw || info.format == s.currentFormat.format) &&
    info.size == s.currentFormat.size

/-- `spa_v4l2_source_node_port_set_format`. -/
def portSetFormat (types : V4l2Types) (format : Option SpaVideoFormat) (testOnly : Bool) :
    SpaV4l2Source × SpaResult :=
  match format with
  | none =>
    let s := ((s.streamOff a).1.clearBuffers a).closeDevice
    ({ s with haveFormat := false }, .ok)
  | some format =>
    let info := format.info
    let parsed := info.mediaSubtype ∈ [.raw, .mjpg, .h264].map types.id
    if info.mediaType ≠ types.id .video then (s, .invalidMediaType)
    else if parsed ∧ ¬ format.parses then (s, .invalidMediaType)
    else if parsed ∧ s.isCurrent types info then (s, .ok)
    else
      let s := if s.haveFormat ∧ ¬ testOnly then { (s.useBuffers a []).1 with haveFormat := false }
        else s
      match s.setFormat a types info testOnly with
      | (s, none) => (s, .invalidMediaType)
      | (s, some info) =>
        if testOnly then (s, .ok) else ({ s with currentFormat := info, haveFormat := true }, .ok)

/-- `spa_v4l2_source_node_port_use_buffers`. -/
def portUseBuffers (buffers : Option (List SpaVideoBuffer)) : SpaV4l2Source × SpaResult :=
  if ¬ s.haveFormat then (s, .noFormat)
  else
    let s := if s.nBuffers = 0 then s else (s.streamOff a).1.clearBuffers a
    match buffers with
    | none => (s, .ok)
    | some buffers => s.useBuffers a buffers

/-- `spa_v4l2_source_node_port_alloc_buffers`. -/
def portAllocBuffers (buffers : List SpaVideoBuffer) : SpaV4l2Source × SpaResult :=
  if ¬ s.haveFormat then (s, .noFormat) else s.allocBuffers a buffers

/-- `spa_v4l2_source_node_port_set_io`. -/
def portSetIo (io : Option SpaPortIO) : SpaV4l2Source := { s with io := io }

/-- `spa_v4l2_source_node_port_reuse_buffer`. -/
def portReuseBuffer (id : UInt32) : SpaV4l2Source × SpaResult :=
  if s.nBuffers = 0 then (s, .noBuffers)
  else if s.nBuffers ≤ id.toNat then (s, .invalidBufferId)
  else (s.bufferRecycle a id.toNat, .ok)

/-- `spa_v4l2_source_node_port_send_command`. -/
def portSendCommand (command : V4l2Command) : SpaV4l2Source × SpaResult :=
  match command with
  | .pause => (s.setEnabled false, .ok)
  | .start => (s.setEnabled true, .ok)
  | _ => (s, .notImplemented)

/-- `spa_v4l2_source_node_send_command`. -/
def sendCommand (command : V4l2Command) : SpaV4l2Source × SpaResult :=
  match command with
  | .clockUpdate => (s, .ok)
  | .other => (s, .notImplemented)
  | command =>
    if ¬ s.haveFormat then (s, .noFormat)
    else if s.nBuffers = 0 then (s, .noBuffers)
    else match if command = .start then s.streamOn a else (s, .ok) with
      | (s, res) =>
        if res.isError then (s, res)
        else ({ s with seq := s.seq + 1, data := s.data ++ [command] }, .returnAsync (s.seq + 1))

/-- `do_start` or `do_pause`, for the oldest command in the data loop. -/
def runData : SpaV4l2Source :=
  match s.data with
  | [] => s
  | command :: commands =>
    let s := ({ s with data := commands } : SpaV4l2Source)
    let s := (s.portSendCommand command).1
    { s with main := s.main ++ [command] }

/-- `do_start_done` or `do_pause_done`. -/
def runMain : SpaV4l2Source :=
  match s.main with
  | [] => s
  | command :: commands =>
    let s := ({ s with main := commands } : SpaV4l2Source)
    if command = .pause then (s.streamOff a).1 else s

/-- `spa_v4l2_source_node_process_output`. -/
def processOutput : SpaV4l2Source × SpaResult :=
  match s.io with
  | none => (s, .wrongState)
  | some io =>
    if io.status = .haveBuffer then (s, .haveBuffer)
    else if io.bufferId ≠ spaIdInvalid then
      ({ s.bufferRecycle a io.bufferId.toNat with io := some { io with bufferId := spaIdInvalid } },
        .ok)
    else (s, .ok)

/-! ## Runs -/

inductive Call where
  | setFormat (format : Option SpaVideoFormat) (testOnly : Bool)
  | useBuffers (buffers : Option (List SpaVideoBuffer))
  | allocBuffers (buffers : List SpaVideoBuffer)
  | setIo (io : Option SpaPortIO)
  | reuseBuffer (id : UInt32)
  | portCommand (command : V4l2Command)
  | command (command : V4l2Command)
  | processOutput
  /-- The other side of the port writes into the io. -/
  | exchange (io : SpaPortIO)
  | fdEvents (full : Option Nat)
  | runData
  | runMain

def step (types : V4l2Types) (e : Call × V4l2Answers) : SpaV4l2Source :=
  match e with
  | (.setFormat format testOnly, a) => (s.portSetFormat a types format testOnly).1
  | (.useBuffers buffers, a) => (s.portUseBuffers a buffers).1
  | (.allocBuffers buffers, a) => (s.portAllocBuffers a buffers).1
  | (.setIo io, _) => s.portSetIo io
  | (.reuseBuffer id, a) => (s.portReuseBuffer a id).1
  | (.portCommand command, _) => (s.portSendCommand command).1
  | (.command command, a) => (s.sendCommand a command).1
  | (.processOutput, a) => (s.processOutput a).1
  | (.exchange io, _) => if s.io.isSome then s.portSetIo (some io) else s
  | (.fdEvents full, _) => s.onFdEvents full
  | (.runData, _) => s.runData
  | (.runMain, a) => s.runMain a

/-! ## What is asked, and what holds -/

/-- Buffers are named by their places. -/
def InOrder (buffers : List SpaVideoBuffer) : Prop :=
  buffers.map (·.id.toNat) = List.range buffers.length

/-- The device makes no more buffers than there are. -/
def Grants (n : Nat) : Prop :=
  ∀ memory ∈ [V4l2Memory.mmap, .userptr, .dmabuf], ∀ got ∈ a.reqbufs memory n,
    got ≤ n ∧ got ≤ maxBuffers

/-- The id in the io is that of a buffer, or of a place that is not marked as outstanding. -/
def Knows (io : SpaPortIO) : Prop :=
  io.bufferId.toNat < s.nBuffers ∨
    io.bufferId.toNat < maxBuffers ∧ (s.buffers io.bufferId.toNat).outstanding = false

instance (buffers : List SpaVideoBuffer) : Decidable (InOrder buffers) :=
  inferInstanceAs (Decidable (_ = _))

instance (n : Nat) : Decidable (Grants a n) := inferInstanceAs (Decidable (∀ _ ∈ _, _))

instance (io : SpaPortIO) : Decidable (s.Knows io) := inferInstanceAs (Decidable (_ ∨ _))

/-- Buffers are named by their places and the device makes no more; streams end when they are
asked to; frames come when there is an io, and the other side gives back buffers of the port. -/
def Orderly (e : Call × V4l2Answers) : Prop :=
  match e with
  | (.useBuffers (some buffers), a) =>
    InOrder buffers ∧ Grants a buffers.length ∧ a.streamOff = true
  | (.allocBuffers buffers, a) => InOrder buffers ∧ Grants a buffers.length
  | (.useBuffers none, a) | (.setFormat _ _, a) | (.runMain, a) => a.streamOff = true
  | (.fdEvents _, _) => s.sourceEnabled → s.io.isSome
  | (.processOutput, _) =>
    ∀ io ∈ s.io, io.status ≠ .haveBuffer → io.bufferId ≠ spaIdInvalid → s.Knows io
  | _ => True

instance (e : Call × V4l2Answers) : Decidable (s.Orderly e) :=
  match e with
  | (.useBuffers (some _), _) => inferInstanceAs (Decidable (_ ∧ _ ∧ _))
  | (.allocBuffers _, _) => inferInstanceAs (Decidable (_ ∧ _))
  | (.useBuffers none, a) | (.setFormat _ _, a) | (.runMain, a) =>
    inferInstanceAs (Decidable (a.streamOff = true))
  | (.fdEvents _, _) => inferInstanceAs (Decidable (_ → _))
  | (.processOutput, _) => inferInstanceAs (Decidable (∀ _ ∈ _, _))
  | (.setIo _, _) | (.reuseBuffer _, _) | (.portCommand _, _) | (.command _, _)
  | (.exchange _, _) | (.runData, _) => inferInstanceAs (Decidable True)

/-- No buffer is with the device and with the other side, the device fills buffers of the port
only, and none of them is lost as long as the device has as many as the port. -/
structure Sound : Prop where
  sound : s.fault = false
  nodup : s.device.queued.Nodup
  apart : 0 < s.nBuffers → ∀ i ∈ s.device.queued,
    i < s.nBuffers ∧ (s.buffers i).id.toNat = i ∧ (s.buffers i).outstanding = false
  idle : s.device.streaming → 0 < s.nBuffers
  kept : s.device.count = s.nBuffers → ∀ i < s.nBuffers, (s.buffers i).outstanding = false →
    i ∈ s.device.queued ∨ i ∈ s.device.refused

end SpaV4l2Source
end Pinos
