import Mathlib.Data.List.Nodup
import Pinos.Client.Stream

/-
`client/stream.c`: the buffers of a stream while it runs.

The application takes empty buffers from the free list and sends them, or recycles
the buffers that have come in; the other side does the same through the slots and the
events of the transport.
-/

namespace Pinos

namespace PinosStream

/-- The place of the buffer with an id. -/
def findBuffer (s : PinosStream) (id : UInt32) : Option Nat :=
  if s.inOrder = true ∧ id.toNat < s.bufferIds.length then some id.toNat
  else s.bufferIds.findIdx? fun bid => bid.id == id

/-- `bid->used` of the buffer at a place. -/
def used (s : PinosStream) (i : Nat) : Bool := s.bufferIds[i]?.any BufferId.used

def setUsed (s : PinosStream) (i : Nat) (used : Bool) : PinosStream :=
  { s with bufferIds := s.bufferIds.modify i fun bid => { bid with used := used } }

/-- `&bid->link` of the buffer at a place. -/
def linkOf (s : PinosStream) (i : Nat) : BufferLink := ⟨s.bufferArray, i⟩

/-- Put a buffer at the end of the free list. -/
def release (s : PinosStream) (i : Nat) : PinosStream :=
  { s.setUsed i false with free := s.free ++ [s.linkOf i] }

/-- Take a buffer out of the free list. -/
def acquire (s : PinosStream) (i : Nat) : PinosStream :=
  { s.setUsed i true with free := s.free.erase (s.linkOf i) }

def addEvent (s : PinosStream) (event : TransportEvent) (room : Bool) : PinosStream :=
  { s with trans := s.trans.addEvent event room }

def reuseBuffer (s : PinosStream) (id : UInt32) : PinosStream :=
  match s.findBuffer id with
  | some i =>
    if s.used i then { s.release i with emitted := s.emitted ++ [.newBuffer id] } else s
  | none => s

/-- `handle_rtnode_event`; a need for input is signalled with `in_need_buffer` set, until
`needBufferDone`. -/
def handleRtnodeEvent (s : PinosStream) : TransportEvent → PinosStream
  | .haveOutput =>
    { s with
      emitted := s.emitted ++
        (PinosTransport.buffers s.trans.nInputs s.trans.inputs).map .newBuffer
      trans := { s.trans with inputs := PinosTransport.cleared s.trans.nInputs s.trans.inputs } }
  | .needInput =>
    let s := (PinosTransport.buffers s.trans.nOutputs s.trans.outputs).foldl reuseBuffer s
    { s with
      trans := { s.trans with outputs := PinosTransport.cleared s.trans.nOutputs s.trans.outputs }
      inNeedBuffer := true
      emitted := s.emitted ++ [.needBuffer] }
  | .reuseBuffer portId bufferId =>
    if portId ≠ s.portId then s
    else if s.output = false then s
    else s.reuseBuffer bufferId

/-- The buffers that an event gives back. -/
def givenBack (s : PinosStream) : TransportEvent → List UInt32
  | .haveOutput => []
  | .needInput => PinosTransport.buffers s.trans.nOutputs s.trans.outputs
  | .reuseBuffer portId bufferId =>
    if portId = s.portId ∧ s.output = true then [bufferId] else []

/-- The callbacks of a need for input have returned. -/
def needBufferDone (s : PinosStream) : PinosStream := { s with inNeedBuffer := false }

/-- `pinos_stream_get_empty_buffer`; none if the list leads to memory that the array of
buffers has left. -/
def getEmptyBuffer (s : PinosStream) : Option UInt32 :=
  match s.free with
  | [] => some spaIdInvalid
  | link :: _ =>
    if link.array = s.bufferArray then s.bufferIds[link.place]?.map BufferId.id else none

/-- `pinos_stream_recycle_buffer`. -/
def recycleBuffer (s : PinosStream) (id : UInt32) (room : Bool) : PinosStream × Bool :=
  match s.findBuffer id with
  | some i =>
    if s.used i then ((s.release i).addEvent (.reuseBuffer s.portId id) room, true)
    else (s, false)
  | none => (s, false)

/-- `pinos_stream_send_buffer`, of a stream that has an output. -/
def sendBuffer (s : PinosStream) (id : UInt32) (room : Bool) : PinosStream × Bool :=
  match s.trans.outputs with
  | [] => (s, false)
  | slot :: slots =>
    if slot.bufferId ≠ spaIdInvalid then (s, false)
    else
      match s.findBuffer id with
      | some i =>
        if s.used i then (s, true)
        else
          let s := s.acquire i
          let s := { s with trans := { s.trans with outputs := ⟨.haveBuffer, id⟩ :: slots } }
          (if s.inNeedBuffer then s else s.addEvent .haveOutput room, true)
      | none => (s, true)

/-- The slot and the buffer are such that `pinos_stream_send_buffer` sends it. -/
def sends (s : PinosStream) (id : UInt32) : Bool :=
  (s.trans.outputs.head?.any fun slot => slot.bufferId == spaIdInvalid) &&
    (s.findBuffer id).any fun i => !s.used i

theorem addMem_eq (s : PinosStream) (mem : MemId) :
    ∃ mems, s.addMem mem = { s with memIds := mems } := by
  rw [addMem]
  split
  · exact ⟨_, rfl⟩
  · exact ⟨_, rfl⟩

/-! ## Finding a buffer -/

variable {s s' : PinosStream} {id : UInt32} {i j : Nat}

/-- The id of the buffer at a place. -/
def idAt (s : PinosStream) (i : Nat) : Option UInt32 := s.bufferIds[i]?.map BufferId.id

theorem lt_of_idAt (h : s.idAt i = some id) : i < s.bufferIds.length := by
  obtain ⟨bid, hbid, -⟩ := Option.map_eq_some_iff.mp h
  exact (List.getElem?_eq_some_iff.mp hbid).1

theorem idAt_of_lt (h : i < s.bufferIds.length) : ∃ id, s.idAt i = some id :=
  ⟨s.bufferIds[i].id, by rw [idAt, List.getElem?_eq_getElem h]; rfl⟩

/-- The ids of the buffers are different, and in order they are the places. -/
structure Numbered (s : PinosStream) : Prop where
  distinct : (s.bufferIds.map BufferId.id).Nodup
  ordered : s.inOrder = true → ∀ i id, s.idAt i = some id → id.toNat = i

theorem Numbered.place_unique (h : s.Numbered) (hi : s.idAt i = some id) (hj : s.idAt j = some id) :
    i = j := by
  have hlt := lt_of_idAt hi
  rw [idAt, ← List.getElem?_map] at hi hj
  refine (List.getElem?_inj ?_ h.distinct).mp (hi.trans hj.symm)
  rwa [List.length_map]

theorem Numbered.findBuffer_eq_some (h : s.Numbered) :
    s.findBuffer id = some i ↔ s.idAt i = some id := by
  rw [findBuffer]
  split
  · next hdirect =>
    obtain ⟨id', hid'⟩ := idAt_of_lt hdirect.2
    have heq : id' = id := UInt32.toNat_inj.mp (h.ordered hdirect.1 _ _ hid')
    rw [heq] at hid'
    rw [Option.some.injEq]
    exact ⟨fun hi => hi ▸ hid', fun hi => h.place_unique hid' hi⟩
  · rw [List.findIdx?_eq_some_iff_getElem]
    constructor
    · rintro ⟨hlt, hfound, -⟩
      rw [idAt, List.getElem?_eq_getElem hlt, Option.map_some, beq_iff_eq.mp hfound]
    · intro hi
      have hlt := lt_of_idAt hi
      refine ⟨hlt, ?_, fun j hj hfound => ?_⟩
      · rw [idAt, List.getElem?_eq_getElem hlt] at hi
        exact beq_iff_eq.mpr (Option.some.inj hi)
      · have hidj : s.idAt j = some id := by
          rw [idAt, List.getElem?_eq_getElem (Nat.lt_trans hj hlt), Option.map_some, beq_iff_eq.mp hfound]
        exact absurd (h.place_unique hidj hi) (Nat.ne_of_lt hj)

/-! ## Changing the flag of a buffer -/

@[simp] theorem idAt_setUsed (b : Bool) : (s.setUsed i b).idAt j = s.idAt j := by
  rw [idAt, idAt, setUsed, List.getElem?_modify]
  cases s.bufferIds[j]? with
  | none => rfl
  | some bid =>
    by_cases hij : i = j
    · simp [hij]
    · simp [hij]

@[simp] theorem length_setUsed (b : Bool) :
    (s.setUsed i b).bufferIds.length = s.bufferIds.length := List.length_modify _ _ _

theorem used_setUsed (b : Bool) :
    (s.setUsed i b).used j = if i = j ∧ j < s.bufferIds.length then b else s.used j := by
  rw [used, used, setUsed, List.getElem?_modify]
  by_cases hlt : j < s.bufferIds.length
  · rw [List.getElem?_eq_getElem hlt]
    by_cases hij : i = j
    · simp [hij, hlt]
    · simp [hij]
  · rw [List.getElem?_eq_none (Nat.not_lt.mp hlt)]
    simp [hlt]

theorem Numbered.congr (h : s.Numbered) (horder : s'.inOrder = s.inOrder)
    (hid : ∀ j, s'.idAt j = s.idAt j) : s'.Numbered where
  distinct := by
    have hsame : s'.bufferIds.map BufferId.id = s.bufferIds.map BufferId.id := by
      apply List.ext_getElem?
      intro j
      rw [List.getElem?_map, List.getElem?_map]
      exact hid j
    rw [hsame]
    exact h.distinct
  ordered hin j id hj := h.ordered (horder ▸ hin) j id (hid j ▸ hj)

theorem Numbered.setUsed (h : s.Numbered) (b : Bool) : (s.setUsed i b).Numbered :=
  h.congr rfl fun _ => idAt_setUsed b

/-! ## The buffers that are marked -/

/-- A buffer with the id is marked as used. -/
def Marked (s : PinosStream) (id : UInt32) : Prop :=
  ∃ i < s.bufferIds.length, s.idAt i = some id ∧ s.used i = true

instance (s : PinosStream) (id : UInt32) : Decidable (Marked s id) :=
  inferInstanceAs (Decidable (∃ i < s.bufferIds.length, _))

theorem marked_setUsed_false (h : s.Numbered) (hid : s.idAt i = some id) (id' : UInt32) :
    (s.setUsed i false).Marked id' ↔ s.Marked id' ∧ id' ≠ id := by
  rw [Marked, length_setUsed]
  simp only [idAt_setUsed, used_setUsed]
  constructor
  · rintro ⟨j, hj, hidj, hused⟩
    by_cases hij : i = j
    · simp [hij, hj] at hused
    · rw [if_neg fun hboth => hij hboth.1] at hused
      refine ⟨⟨j, hj, hidj, hused⟩, ?_⟩
      rintro rfl
      exact hij (h.place_unique hid hidj)
  · rintro ⟨⟨j, hj, hidj, hused⟩, hne⟩
    refine ⟨j, hj, hidj, ?_⟩
    rw [if_neg]
    · exact hused
    · rintro ⟨rfl, -⟩
      exact hne (Option.some.inj (hidj.symm.trans hid))

theorem marked_setUsed_true (hid : s.idAt i = some id) (id' : UInt32) :
    (s.setUsed i true).Marked id' ↔ s.Marked id' ∨ id' = id := by
  have hlt := lt_of_idAt hid
  rw [Marked, length_setUsed]
  simp only [idAt_setUsed, used_setUsed]
  constructor
  · rintro ⟨j, hj, hidj, hused⟩
    by_cases hij : i = j
    · exact .inr (Option.some.inj (hidj.symm.trans (hij ▸ hid)))
    · rw [if_neg fun hboth => hij hboth.1] at hused
      exact .inl ⟨j, hj, hidj, hused⟩
  · rintro (⟨j, hj, hidj, hused⟩ | rfl)
    · refine ⟨j, hj, hidj, ?_⟩
      split
      · rfl
      · exact hused
    · exact ⟨i, hlt, hid, if_pos ⟨rfl, hlt⟩⟩

/-- Reuse is of a buffer that is marked, and takes the mark away. -/
theorem reuseBuffer_cases (h : s.Numbered) (id : UInt32) :
    (¬ s.Marked id ∧ s.reuseBuffer id = s) ∨
      s.Marked id ∧ ∃ i, s.idAt i = some id ∧
        s.reuseBuffer id = { s.release i with emitted := s.emitted ++ [.newBuffer id] } := by
  rw [reuseBuffer]
  cases hfind : s.findBuffer id with
  | none =>
    refine .inl ⟨?_, rfl⟩
    rintro ⟨i, -, hid, -⟩
    rw [h.findBuffer_eq_some.mpr hid] at hfind
    cases hfind
  | some i =>
    have hid := h.findBuffer_eq_some.mp hfind
    by_cases hused : s.used i = true
    · exact .inr ⟨⟨i, lt_of_idAt hid, hid, hused⟩, i, hid, by simp only [hused, if_true]⟩
    · refine .inl ⟨?_, by simp only [hused]; rfl⟩
      rintro ⟨j, -, hidj, husedj⟩
      exact hused (h.place_unique hid hidj ▸ husedj)

/-! ## The free list -/

/-- The free list has the buffers that are not used, each once. -/
structure FreeList (s : PinosStream) : Prop where
  nodup : s.free.Nodup
  mem_iff : ∀ link, link ∈ s.free ↔
    ∃ i < s.bufferIds.length, s.used i = false ∧ link = s.linkOf i

theorem linkOf_inj : s.linkOf i = s.linkOf j ↔ i = j := by
  simp [linkOf]

theorem FreeList.mem_linkOf (h : s.FreeList) (hi : i < s.bufferIds.length) :
    s.linkOf i ∈ s.free ↔ s.used i = false := by
  rw [h.mem_iff]
  constructor
  · rintro ⟨j, -, hused, hlink⟩
    rwa [linkOf_inj.mp hlink]
  · exact fun hused => ⟨i, hi, hused, rfl⟩

theorem FreeList.release (h : s.FreeList) (hi : i < s.bufferIds.length) (hused : s.used i = true) :
    (s.release i).FreeList where
  nodup := by
    have hout : s.linkOf i ∉ s.free := by
      rw [h.mem_linkOf hi, hused]
      exact Bool.noConfusion
    show (s.free ++ [s.linkOf i]).Nodup
    rw [List.nodup_append]
    exact ⟨h.nodup, List.nodup_singleton _, fun a ha b hb hab =>
      hout (List.mem_singleton.mp hb ▸ hab ▸ ha)⟩
  mem_iff link := by
    have hsame : ∀ j, (s.release i).used j = if i = j ∧ j < s.bufferIds.length then false
        else s.used j := fun j => used_setUsed false
    have hlen : (s.release i).bufferIds.length = s.bufferIds.length := length_setUsed false
    show link ∈ s.free ++ [s.linkOf i] ↔ _
    rw [List.mem_append, List.mem_singleton, h.mem_iff, hlen]
    constructor
    · rintro (⟨j, hj, hfree, rfl⟩ | rfl)
      · refine ⟨j, hj, ?_, rfl⟩
        rw [hsame]
        split
        · rfl
        · exact hfree
      · exact ⟨i, hi, by rw [hsame, if_pos ⟨rfl, hi⟩], rfl⟩
    · rintro ⟨j, hj, hfree, rfl⟩
      rw [hsame] at hfree
      by_cases hij : i = j
      · exact .inr (hij ▸ rfl)
      · rw [if_neg fun hboth => hij hboth.1] at hfree
        exact .inl ⟨j, hj, hfree, rfl⟩

theorem FreeList.acquire (h : s.FreeList) : (s.acquire i).FreeList where
  nodup := h.nodup.erase _
  mem_iff link := by
    have hsame : ∀ j, (s.acquire i).used j = if i = j ∧ j < s.bufferIds.length then true
        else s.used j := fun j => used_setUsed true
    have hlen : (s.acquire i).bufferIds.length = s.bufferIds.length := length_setUsed true
    show link ∈ s.free.erase (s.linkOf i) ↔ _
    rw [h.nodup.mem_erase_iff, h.mem_iff, hlen]
    constructor
    · rintro ⟨hne, j, hj, hfree, rfl⟩
      refine ⟨j, hj, ?_, rfl⟩
      rw [hsame, if_neg fun hboth => hne (linkOf_inj.mpr hboth.1.symm)]
      exact hfree
    · rintro ⟨j, hj, hfree, rfl⟩
      rw [hsame] at hfree
      by_cases hij : i = j
      · rw [if_pos ⟨hij, hj⟩] at hfree
        cases hfree
      · rw [if_neg fun hboth => hij hboth.1] at hfree
        exact ⟨fun heq => hij (linkOf_inj.mp heq).symm, j, hj, hfree, rfl⟩

/-- The first of the free list is a buffer that is not used. -/
theorem FreeList.getEmptyBuffer (h : s.FreeList) :
    s.getEmptyBuffer = some spaIdInvalid ∨
      ∃ i id, s.getEmptyBuffer = some id ∧ s.idAt i = some id ∧ s.used i = false := by
  rw [PinosStream.getEmptyBuffer]
  cases hfree : s.free with
  | nil => exact .inl rfl
  | cons link rest =>
    obtain ⟨i, hi, hused, rfl⟩ := (h.mem_iff link).mp (hfree ▸ List.mem_cons_self)
    obtain ⟨id, hid⟩ := idAt_of_lt hi
    exact .inr ⟨i, id, (if_pos rfl).trans hid, hid, hused⟩

/-! ## Giving buffers back -/

/-- The buffers are in order, and those with other ids than the given ones are used as
before. -/
structure Gives (ids : List UInt32) (s s' : PinosStream) : Prop where
  numbered : s'.Numbered
  freeList : s'.FreeList
  idAt : ∀ i, s'.idAt i = s.idAt i
  used : ∀ i id, s.idAt i = some id → id ∉ ids → s'.used i = s.used i
  output : s'.output = s.output
  alloc : s'.bufferAlloc = s.bufferAlloc

section Gives

variable {ids ids' : List UInt32} {s'' : PinosStream} (hs : s.Numbered) (hf : s.FreeList)
include hs hf

theorem Gives.refl : Gives ids s s := ⟨hs, hf, fun _ => rfl, fun _ _ _ _ => rfl, rfl, rfl⟩

omit hs hf in
theorem Gives.trans (h : Gives ids s s') (h' : Gives ids' s' s'') : Gives (ids ++ ids') s s'' where
  numbered := h'.numbered
  freeList := h'.freeList
  idAt i := (h'.idAt i).trans (h.idAt i)
  used i id hid hout := by
    rw [List.mem_append, not_or] at hout
    rw [h'.used i id ((h.idAt i).trans hid) hout.2, h.used i id hid hout.1]
  output := h'.output.trans h.output
  alloc := h'.alloc.trans h.alloc

theorem gives_release (hi : s.idAt i = some id) (hused : s.used i = true) :
    Gives [id] s (s.release i) where
  numbered := (hs.setUsed false).congr rfl fun _ => rfl
  freeList := hf.release (lt_of_idAt hi) hused
  idAt j := idAt_setUsed false
  used j id' hj hne := by
    have hji : ¬ (i = j ∧ j < s.bufferIds.length) := by
      rintro ⟨rfl, -⟩
      exact hne (List.mem_singleton.mpr (Option.some.inj (hj.symm.trans hi)))
    exact (used_setUsed false).trans (if_neg hji)
  output := rfl
  alloc := rfl

theorem gives_reuseBuffer (id : UInt32) : Gives [id] s (s.reuseBuffer id) := by
  rw [reuseBuffer]
  cases hfind : s.findBuffer id with
  | none => exact .refl hs hf
  | some i =>
    have hid := hs.findBuffer_eq_some.mp hfind
    by_cases hused : s.used i = true
    · simp only [hused, if_true]
      have hgives := gives_release hs hf hid hused
      exact ⟨hgives.numbered.congr rfl fun _ => rfl,
        ⟨hgives.freeList.nodup, hgives.freeList.mem_iff⟩, hgives.idAt, hgives.used, rfl, rfl⟩
    · simp only [hused]
      exact .refl hs hf

theorem gives_reuseBuffers (ids : List UInt32) : Gives ids s (ids.foldl reuseBuffer s) := by
  induction ids generalizing s with
  | nil => exact .refl hs hf
  | cons id ids ih =>
    have hone := gives_reuseBuffer hs hf id
    exact hone.trans (ih hone.numbered hone.freeList)

theorem gives_handleRtnodeEvent (event : TransportEvent) :
    Gives (s.givenBack event) s (s.handleRtnodeEvent event) := by
  cases event with
  | haveOutput =>
    have hrefl : Gives (s.givenBack .haveOutput) s s := .refl hs hf
    exact ⟨⟨hs.distinct, hs.ordered⟩, ⟨hf.nodup, hf.mem_iff⟩, hrefl.idAt, hrefl.used, rfl, rfl⟩
  | needInput =>
    have h := gives_reuseBuffers hs hf (s.givenBack .needInput)
    exact ⟨⟨h.numbered.distinct, h.numbered.ordered⟩, ⟨h.freeList.nodup, h.freeList.mem_iff⟩,
      h.idAt, h.used, h.output, h.alloc⟩
  | reuseBuffer portId bufferId =>
    rw [handleRtnodeEvent, givenBack]
    by_cases hport : portId = s.portId
    · cases hout : s.output with
      | false => simpa [hport] using Gives.refl hs hf
      | true => simpa [hport] using gives_reuseBuffer hs hf bufferId
    · simpa [hport] using Gives.refl hs hf

end Gives

/-! ## Sending -/

theorem sendBuffer_of_sends (h : s.sends id = true) (room : Bool) :
    ∃ slot slots i, s.trans.outputs = slot :: slots ∧ slot.bufferId = spaIdInvalid ∧
      s.findBuffer id = some i ∧ s.used i = false ∧
      (s.sendBuffer id room).1 =
        { s.acquire i with
          trans :=
            { s.trans with
              outputs := ⟨.haveBuffer, id⟩ :: slots
              added := if s.inNeedBuffer then s.trans.added
                else (s.trans.addEvent .haveOutput room).added } } ∧
      (s.sendBuffer id room).2 = true := by
  rw [sends, Bool.and_eq_true, Option.any_eq_true, Option.any_eq_true] at h
  obtain ⟨⟨slot, hslot, hempty⟩, i, hfind, hused⟩ := h
  obtain ⟨slots, hslots⟩ := List.head?_eq_some_iff.mp hslot
  have hempty := beq_iff_eq.mp hempty
  have hused : s.used i = false := by simpa using hused
  refine ⟨slot, slots, i, hslots, hempty, hfind, hused, ?_⟩
  rw [sendBuffer, hslots]
  simp only [hempty, hfind, hused]
  by_cases hneed : s.inNeedBuffer = true
  · simp [hneed, acquire, setUsed]
  · cases room with
    | false => simp [hneed, addEvent, PinosTransport.addEvent, acquire, setUsed]
    | true => simp [hneed, addEvent, PinosTransport.addEvent, acquire, setUsed]

theorem sendBuffer_of_not_sends (h : s.sends id = false) (room : Bool) :
    (s.sendBuffer id room).1 = s := by
  rw [sendBuffer]
  rw [sends] at h
  cases hslots : s.trans.outputs with
  | nil => rfl
  | cons slot slots =>
    by_cases hpending : slot.bufferId = spaIdInvalid
    · cases hfind : s.findBuffer id with
      | none => simp [hpending]
      | some i =>
        have hused : s.used i = true := by simpa [hslots, hpending, hfind] using h
        simp [hpending, hused]
    · simp [hpending]

end PinosStream
end Pinos
