import Mathlib.Data.List.Basic
import Pinos.Client.TransportArea

/-
`client/stream.c`: the requests of the server that a stream answers.

`set_format` is answered by the application, which calls
`pinos_stream_finish_format`; the other requests are answered at once.
-/

namespace Pinos

inductive PinosStreamState where
  | error
  | unconnected
  | connecting
  | configure
  | ready
  | paused
  | streaming
  deriving DecidableEq

/-- A memory that the server has sent; `ptr` is where it is mapped. -/
structure MemId where
  id : UInt32
  fd : Int32
  flags : UInt32
  ptr : Option UInt64
  offset : UInt32
  size : UInt32
  deriving DecidableEq

structure SpaData where
  type : UInt32
  data : UInt64
  fd : Int32
  deriving DecidableEq

/-- A buffer of a `use_buffers` message: the memory with its metadata, where it starts
in it, its id and its data. -/
structure PinosClientNodeBuffer where
  memId : UInt32
  offset : UInt32
  id : UInt32
  datas : List SpaData
  deriving DecidableEq

structure BufferId where
  id : UInt32
  used : Bool
  bufPtr : UInt64
  datas : List SpaData
  deriving DecidableEq

/-- The `link` of a buffer: the memory of the array of buffers, and the place in it. -/
structure BufferLink where
  array : Nat
  place : Nat
  deriving DecidableEq

/-- The types of the context that a stream asks for. -/
structure StreamTypes where
  pause : UInt32
  start : UInt32
  clockUpdate : UInt32
  dataId : UInt32
  dataMemFd : UInt32
  dataMemPtr : UInt32
  pause_ne : pause ≠ clockUpdate
  start_ne : start ≠ clockUpdate

/-- A command; of its body a stream reads what a clock update has. -/
structure SpaCommand where
  type : UInt32
  ticks : UInt64
  rate : UInt32
  monotonicTime : UInt64
  flags : UInt32
  latency : UInt64

/-- What a stream sends to its client node. -/
inductive StreamMessage where
  | asyncComplete (seq : UInt32) (res : SpaResult)
  | portUpdate (changeMask : UInt32) (format : Option (List UInt8)) (nParams : UInt32)
  deriving DecidableEq

/-- The number that a message completes. -/
def StreamMessage.seq : StreamMessage → Option UInt32
  | .asyncComplete seq _ => some seq
  | .portUpdate _ _ _ => none

inductive StreamSignal where
  | stateChanged (state : PinosStreamState)
  | formatChanged (format : Option (List UInt8))
  | addBuffer (id : UInt32)
  | removeBuffer (id : UInt32)
  | newBuffer (id : UInt32)
  | needBuffer
  deriving DecidableEq

/-- The result and the number of parameters that the application finishes a format with. -/
structure FinishFormat where
  res : SpaResult
  nParams : UInt32
  deriving DecidableEq

/-- A stream with an output direction or not; `bufferAlloc` is the size of the memory
for `bufferIds`, `bufferArray` says which memory it is, and `free` is the list that is
linked through unused buffers.  `sent` and `emitted` are what the stream has sent and
signalled, and `latency` is its `pinos.latency.min` property, set when the clock is live. -/
structure PinosStream where
  state : PinosStreamState
  output : Bool
  format : Option (List UInt8)
  pendingSeq : UInt32
  memIds : List MemId
  bufferIds : List BufferId
  bufferAlloc : Nat
  bufferArray : Nat
  inOrder : Bool
  free : List BufferLink
  portId : UInt32
  trans : PinosTransport
  inNeedBuffer : Bool
  lastTicks : UInt64
  lastRate : UInt32
  lastMonotonic : UInt64
  latency : Option UInt64
  sent : List StreamMessage
  emitted : List StreamSignal
  deriving DecidableEq

namespace PinosStream

/-- A stream whose client node is done. -/
def configured (output : Bool) : PinosStream where
  state := .configure
  output := output
  format := none
  pendingSeq := spaIdInvalid
  memIds := []
  bufferIds := []
  bufferAlloc := 4096
  bufferArray := 0
  inOrder := false
  free := []
  portId := 0
  trans := if output then .new 0 1 else .new 1 0
  inNeedBuffer := false
  lastTicks := 0
  lastRate := 0
  lastMonotonic := 0
  latency := none
  sent := []
  emitted := []

def setState (s : PinosStream) (state : PinosStreamState) : PinosStream :=
  if s.state = state then s
  else { s with state := state, emitted := s.emitted ++ [.stateChanged state] }

def addAsyncComplete (s : PinosStream) (seq : UInt32) (res : SpaResult) : PinosStream :=
  { s with sent := s.sent ++ [.asyncComplete seq res] }

def clearMems (s : PinosStream) : PinosStream := { s with memIds := [] }

def clearBuffers (s : PinosStream) : PinosStream :=
  { s with
    bufferIds := []
    inOrder := true
    free := []
    emitted := s.emitted ++ s.bufferIds.map fun bid => .removeBuffer bid.id }

def findMem (mems : List MemId) (id : UInt32) : Option MemId := mems.find? (·.id = id)

/-- Replace the memory with the id of `mem`. -/
def setMem (mems : List MemId) (mem : MemId) : List MemId :=
  mems.replaceF fun m => if m.id = mem.id then some mem else none

def addMem (s : PinosStream) (mem : MemId) : PinosStream :=
  match findMem s.memIds mem.id with
  | some _ => { s with memIds := setMem s.memIds { mem with ptr := none } }
  | none => { s with memIds := s.memIds ++ [{ mem with ptr := none }] }

def portUpdateFormat : UInt32 := (1 : UInt32) <<< 1

def portUpdateInfo : UInt32 := (1 : UInt32) <<< 3

def finishFormat (s : PinosStream) (f : FinishFormat) : PinosStream :=
  let s :=
    if 0 ≤ f.res.toInt32 then
      let mask := (if f.nParams ≠ 0 then portUpdateInfo else 0) ||| portUpdateFormat
      let s := { s with sent := s.sent ++ [.portUpdate mask s.format f.nParams] }
      if s.format = none then s.clearBuffers.clearMems else s
    else s
  { s.addAsyncComplete s.pendingSeq f.res with pendingSeq := spaIdInvalid }

/-- `client_node_set_format`, with the calls that the application makes when it is told
about the new format. -/
def setFormat (s : PinosStream) (seq : UInt32) (format : Option (List UInt8))
    (finishes : List FinishFormat) : PinosStream :=
  let s :=
    { s with
      format := format
      pendingSeq := seq
      emitted := s.emitted ++ [.formatChanged format] }
  let s := finishes.foldl finishFormat s
  s.setState (if format ≠ none then .ready else .configure)

/-- A memory with its mapping, which `mmap` gives it if it has none. -/
def mapped (mmap : MemId → Option UInt64) (mid : MemId) : Option (MemId × UInt64) :=
  match mid.ptr with
  | some ptr => some (mid, ptr)
  | none => (mmap mid).map fun addr =>
      let ptr := addr + mid.offset.toUInt64
      ({ mid with ptr := some ptr }, ptr)

/-- A data of a buffer as the application gets it; none if its memory is not found. -/
def useData (types : StreamTypes) (mems : List MemId) (bufPtr : UInt64) (d : SpaData) :
    Option SpaData :=
  if d.type = types.dataId then
    (findMem mems d.data.toUInt32).map fun bmid =>
      { type := types.dataMemFd, data := 0, fd := bmid.fd }
  else if d.type = types.dataMemPtr then
    some { d with data := bufPtr + d.data.toUInt32.toInt32.toInt64.toUInt64, fd := -1 }
  else some d

/-- `sizeof (BufferId)`. -/
def sizeofBufferId : Nat := 40

/-- The loop of `pinos_array_ensure_size` in at most `n` turns. -/
def doubled : Nat → Nat → Nat → Nat
  | 0, alloc, _ => alloc
  | n + 1, alloc, need => if alloc < need then doubled n (alloc * 2) need else alloc

/-- `pinos_array_ensure_size` for one more buffer: the array gets other memory when its
own is too small. -/
def growBuffers (s : PinosStream) : PinosStream :=
  let need := (s.bufferIds.length + 1) * sizeofBufferId
  { s with
    bufferAlloc :=
      if s.bufferAlloc < need then doubled need (max s.bufferAlloc 32) need else s.bufferAlloc
    bufferArray := if s.bufferAlloc < need then s.bufferArray + 1 else s.bufferArray }

/-- Put a buffer in the array, and in the free list if it is there to be filled. -/
def addBuffer (s : PinosStream) (bid : BufferId) : PinosStream :=
  let len := s.bufferIds.length
  let s := s.growBuffers
  { s with
    bufferIds := s.bufferIds ++ [bid]
    free := if s.output then s.free ++ [⟨s.bufferArray, len⟩] else s.free
    inOrder := s.inOrder && bid.id.toNat == len
    emitted := s.emitted ++ [.addBuffer bid.id] }

/-- One turn of the loop over the buffers; none if it reads through a null pointer. -/
def useBuffer (types : StreamTypes) (mmap : MemId → Option UInt64) (s : PinosStream)
    (b : PinosClientNodeBuffer) : Option PinosStream :=
  match (findMem s.memIds b.memId).bind (mapped mmap) with
  | none => some s
  | some (mid, ptr) =>
    let mems := setMem s.memIds mid
    let bufPtr := ptr + b.offset.toUInt64
    (b.datas.mapM (useData types mems bufPtr)).map fun datas =>
      { s with memIds := mems }.addBuffer { id := b.id, used := !s.output, bufPtr, datas }

def useBuffers (types : StreamTypes) (mmap : MemId → Option UInt64) (s : PinosStream)
    (seq : UInt32) (buffers : List PinosClientNodeBuffer) : Option PinosStream :=
  (buffers.foldlM (useBuffer types mmap) s.clearBuffers).map fun s =>
    let s := s.addAsyncComplete seq .ok
    if buffers.length ≠ 0 then s.setState .paused else s.clearMems.setState .ready

/-- `handle_node_command`. -/
def nodeCommand (types : StreamTypes) (s : PinosStream) (seq : UInt32) (command : SpaCommand) :
    PinosStream :=
  if command.type = types.pause then
    let s := s.addAsyncComplete seq .ok
    if s.state = .streaming then s.setState .paused else s
  else if command.type = types.start then
    let s := s.addAsyncComplete seq .ok
    if s.state = .paused then
      (if s.output then { s with emitted := s.emitted ++ [.needBuffer] } else s).setState .streaming
    else s
  else if command.type = types.clockUpdate then
    { s with
      latency := if command.flags &&& 1 ≠ 0 then some command.latency else s.latency
      lastTicks := command.ticks
      lastRate := command.rate
      lastMonotonic := command.monotonicTime }
  else s.addAsyncComplete seq .notImplemented

@[simp] theorem memIds_addBuffer (s : PinosStream) (bid : BufferId) :
    (s.addBuffer bid).memIds = s.memIds := rfl

/-! ## The memories of the buffers -/

theorem findMem_id {mems : List MemId} {id : UInt32} {mid : MemId}
    (h : findMem mems id = some mid) : mid.id = id := by
  have hid := List.find?_some h
  simpa using hid

theorem findMem_setMem (mems : List MemId) (mem : MemId) (id : UInt32) :
    findMem (setMem mems mem) id =
      if mem.id = id then (findMem mems id).map fun _ => mem else findMem mems id := by
  induction mems with
  | nil => simp [findMem, setMem]
  | cons m mems ih =>
    rw [findMem, findMem, setMem] at ih ⊢
    rw [List.replaceF]
    by_cases hm : m.id = mem.id
    · by_cases hid : mem.id = id
      · simp [hm, hid]
      · simp [hm, hid]
    · by_cases hmid : m.id = id
      · have hid : ¬ mem.id = id := fun h => hm (hmid.trans h.symm)
        simp [hmid, hid, Ne.symm hid]
      · simpa [hm, hmid] using ih

theorem mapped_keeps {mmap : MemId → Option UInt64} {mid mid' : MemId} {ptr : UInt64}
    (h : mapped mmap mid = some (mid', ptr)) : mid'.id = mid.id ∧ mid'.ptr = some ptr := by
  rw [mapped] at h
  cases hptr : mid.ptr with
  | some ptr' =>
    rw [hptr] at h
    cases h
    exact ⟨rfl, hptr⟩
  | none =>
    rw [hptr] at h
    obtain ⟨addr, -, heq⟩ := Option.map_eq_some_iff.mp h
    cases heq
    exact ⟨rfl, rfl⟩

/-- The memory with an id is known, and is mapped or can be. -/
def Mappable (mmap : MemId → Option UInt64) (mems : List MemId) (id : UInt32) : Prop :=
  ∃ mid, findMem mems id = some mid ∧ (mapped mmap mid).isSome

/-- A buffer whose own memory is mapped names only known memories in its data. -/
def Readable (types : StreamTypes) (mmap : MemId → Option UInt64) (mems : List MemId)
    (b : PinosClientNodeBuffer) : Prop :=
  Mappable mmap mems b.memId →
    ∀ d ∈ b.datas, d.type = types.dataId → (findMem mems d.data.toUInt32).isSome

section Buffers

variable {types : StreamTypes} {mmap : MemId → Option UInt64}

variable (types) in
theorem mapM_useData (mems : List MemId) (bufPtr : UInt64) (datas : List SpaData) :
    (datas.mapM (useData types mems bufPtr)).isSome ↔
      ∀ d ∈ datas, d.type = types.dataId → (findMem mems d.data.toUInt32).isSome := by
  have hone : ∀ d : SpaData, (useData types mems bufPtr d).isSome ↔
      (d.type = types.dataId → (findMem mems d.data.toUInt32).isSome) := by
    intro d
    rw [useData]
    by_cases hid : d.type = types.dataId
    · simp [hid]
    · by_cases hptr : d.type = types.dataMemPtr
      · rw [if_neg hid, if_pos hptr]
        simp [hid]
      · simp [hid, hptr]
  induction datas with
  | nil => simp
  | cons d datas ih =>
    rw [List.forall_mem_cons]
    refine Iff.trans ?_ (and_congr (hone d) ih)
    rw [List.mapM_cons]
    cases hd : useData types mems bufPtr d with
    | none => simp
    | some d' =>
      cases hds : datas.mapM (useData types mems bufPtr) with
      | none => simp
      | some datas' => simp

theorem known_setMem {mems : List MemId} {mid' : MemId} (k : UInt32) :
    (findMem (setMem mems mid') k).isSome = (findMem mems k).isSome := by
  rw [findMem_setMem]
  by_cases hk : mid'.id = k
  · rw [if_pos hk, Option.isSome_map]
  · rw [if_neg hk]

/-- Mapping a memory does not change which ones can be mapped. -/
theorem mappable_setMem {mems : List MemId} {id : UInt32} {mid mid' : MemId} {ptr : UInt64}
    (hfind : findMem mems id = some mid) (hmapped : mapped mmap mid = some (mid', ptr))
    (k : UInt32) : Mappable mmap (setMem mems mid') k ↔ Mappable mmap mems k := by
  obtain ⟨hid, hptr⟩ := mapped_keeps hmapped
  have hmid : mid'.id = id := hid.trans (findMem_id hfind)
  rw [Mappable, Mappable, findMem_setMem]
  by_cases hk : mid'.id = k
  · have hdone : mapped mmap mid' = some (mid', ptr) := by rw [mapped, hptr]
    rw [if_pos hk, ← hk, hmid, hfind]
    simp [hdone, hmapped]
  · rw [if_neg hk]

theorem useBuffer_spec (s : PinosStream) (b : PinosClientNodeBuffer) :
    (useBuffer types mmap s b = none ∧ ¬ Readable types mmap s.memIds b) ∨
      ∃ s', useBuffer types mmap s b = some s' ∧ Readable types mmap s.memIds b ∧
        s'.sent = s.sent ∧ s'.pendingSeq = s.pendingSeq ∧
          ∀ b', Readable types mmap s'.memIds b' ↔ Readable types mmap s.memIds b' := by
  rw [useBuffer]
  cases hmid : (findMem s.memIds b.memId).bind (mapped mmap) with
  | none =>
    have hskip : Readable types mmap s.memIds b := by
      rintro ⟨mid, hfind, hmapped⟩
      rw [hfind, Option.bind_some] at hmid
      rw [hmid] at hmapped
      cases hmapped
    exact .inr ⟨s, rfl, hskip, rfl, rfl, fun _ => Iff.rfl⟩
  | some found =>
    obtain ⟨mid', ptr⟩ := found
    obtain ⟨mid, hfind, hmapped⟩ := Option.bind_eq_some_iff.mp hmid
    have hreads := mapM_useData types (setMem s.memIds mid') (ptr + b.offset.toUInt64) b.datas
    simp only [known_setMem] at hreads
    cases hdatas : b.datas.mapM
        (useData types (setMem s.memIds mid') (ptr + b.offset.toUInt64)) with
    | none =>
      rw [hdatas] at hreads
      have hmappable : Mappable mmap s.memIds b.memId := ⟨mid, hfind, by rw [hmapped]; rfl⟩
      exact .inl ⟨by simp only [hdatas]; rfl, fun h => absurd (hreads.mpr (h hmappable)) (by simp)⟩
    | some datas =>
      rw [hdatas] at hreads
      simp only [hdatas, Option.map_some]
      refine .inr ⟨_, rfl, fun _ => hreads.mp rfl, rfl, rfl, fun b' => ?_⟩
      simp only [Readable, memIds_addBuffer, mappable_setMem hfind hmapped, known_setMem]

variable (types mmap) in
theorem useBuffers_loop (s : PinosStream) (buffers : List PinosClientNodeBuffer) :
    (buffers.foldlM (useBuffer types mmap) s = none ∧
        ¬ ∀ b ∈ buffers, Readable types mmap s.memIds b) ∨
      ∃ s', buffers.foldlM (useBuffer types mmap) s = some s' ∧
        (∀ b ∈ buffers, Readable types mmap s.memIds b) ∧
          s'.sent = s.sent ∧ s'.pendingSeq = s.pendingSeq := by
  induction buffers generalizing s with
  | nil => exact .inr ⟨s, rfl, by simp, rfl, rfl⟩
  | cons b buffers ih =>
    rw [List.foldlM_cons, List.forall_mem_cons]
    obtain ⟨hnone, hnot⟩ | ⟨s', hsome, hread, hsent, hpending, hkeep⟩ := useBuffer_spec s b
    · rw [hnone]
      exact .inl ⟨rfl, fun h => hnot h.1⟩
    · rw [hsome]
      obtain ⟨hrun, hnot⟩ | ⟨s'', hrun, hreads, hsent', hpending'⟩ := ih s'
      · exact .inl ⟨hrun, fun h => hnot fun b' hb' => (hkeep b').mpr (h.2 b' hb')⟩
      · exact .inr ⟨s'', hrun, ⟨hread, fun b' hb' => (hkeep b').mp (hreads b' hb')⟩,
          hsent'.trans hsent, hpending'.trans hpending⟩

theorem setState_keeps (s : PinosStream) (state : PinosStreamState) :
    (s.setState state).sent = s.sent ∧ (s.setState state).pendingSeq = s.pendingSeq := by
  rw [setState]
  split
  · exact ⟨rfl, rfl⟩
  · exact ⟨rfl, rfl⟩

theorem useBuffers_spec (s : PinosStream) (seq : UInt32) (buffers : List PinosClientNodeBuffer) :
    (useBuffers types mmap s seq buffers = none ∧
        ¬ ∀ b ∈ buffers, Readable types mmap s.memIds b) ∨
      ∃ s', useBuffers types mmap s seq buffers = some s' ∧
        (∀ b ∈ buffers, Readable types mmap s.memIds b) ∧
          s'.sent = s.sent ++ [.asyncComplete seq .ok] ∧ s'.pendingSeq = s.pendingSeq := by
  rw [useBuffers]
  obtain ⟨hrun, hnot⟩ | ⟨s', hrun, hreads, hsent, hpending⟩ :=
    useBuffers_loop types mmap s.clearBuffers buffers
  · rw [hrun]
    exact .inl ⟨rfl, hnot⟩
  · rw [hrun, Option.map_some]
    refine .inr ⟨_, rfl, hreads, ?_⟩
    rw [show s.sent = s'.sent from hsent.symm, show s.pendingSeq = s'.pendingSeq from hpending.symm]
    split
    · exact setState_keeps _ _
    · exact setState_keeps _ _

end Buffers

/-! ## What is sent -/

/-- The numbers of the requests that have been completed. -/
def answers (s : PinosStream) : List UInt32 := s.sent.filterMap StreamMessage.seq

theorem answers_setState (s : PinosStream) (state : PinosStreamState) :
    (s.setState state).answers = s.answers := by
  rw [answers, answers, (setState_keeps s state).1]

theorem answers_of_sent {s s' : PinosStream} {seq : UInt32} {res : SpaResult}
    (h : s'.sent = s.sent ++ [.asyncComplete seq res]) : s'.answers = s.answers ++ [seq] := by
  rw [answers, answers, h, List.filterMap_append]
  rfl

theorem answers_finishFormat (s : PinosStream) (f : FinishFormat) :
    (s.finishFormat f).answers = s.answers ++ [s.pendingSeq] ∧
      (s.finishFormat f).pendingSeq = spaIdInvalid := by
  refine ⟨?_, rfl⟩
  rw [finishFormat]
  by_cases hok : 0 ≤ f.res.toInt32
  · by_cases hformat : s.format = none
    · simp [answers, hok, hformat, addAsyncComplete, clearMems, clearBuffers]
      rfl
    · simp [answers, hok, hformat, addAsyncComplete]
      rfl
  · simp [answers, hok, addAsyncComplete, StreamMessage.seq]

theorem answers_nodeCommand (types : StreamTypes) (s : PinosStream) (seq : UInt32)
    (command : SpaCommand) :
    (s.nodeCommand types seq command).answers =
        (if command.type = types.clockUpdate then s.answers else s.answers ++ [seq]) ∧
      (s.nodeCommand types seq command).pendingSeq = s.pendingSeq := by
  have hset := fun s : PinosStream => setState_keeps s
  rw [nodeCommand]
  by_cases hpause : command.type = types.pause
  · have hclock : command.type ≠ types.clockUpdate := hpause ▸ types.pause_ne
    rw [if_pos hpause, if_neg hclock]
    dsimp only
    split
    · exact ⟨answers_of_sent (hset _ _).1, (hset _ _).2⟩
    · exact ⟨answers_of_sent rfl, rfl⟩
  rw [if_neg hpause]
  by_cases hstart : command.type = types.start
  · have hclock : command.type ≠ types.clockUpdate := hstart ▸ types.start_ne
    rw [if_pos hstart, if_neg hclock]
    dsimp only
    split
    · split
      · exact ⟨answers_of_sent (hset _ _).1, (hset _ _).2⟩
      · exact ⟨answers_of_sent (hset _ _).1, (hset _ _).2⟩
    · exact ⟨answers_of_sent rfl, rfl⟩
  rw [if_neg hstart]
  by_cases hclock : command.type = types.clockUpdate
  · rw [if_pos hclock, if_pos hclock]
    exact ⟨rfl, rfl⟩
  · rw [if_neg hclock, if_neg hclock]
    exact ⟨answers_of_sent rfl, rfl⟩

end PinosStream
end Pinos
