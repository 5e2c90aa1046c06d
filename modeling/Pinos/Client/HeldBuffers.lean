import Pinos.Client.FreeBuffers

/-
Runs of an input stream with the buffers that are delivered and recycled.

A buffer is marked as used when it is added.  Recycling it takes the mark away, and no
delivery sets it again.
-/

namespace Pinos

/-- A delivery is what the server has written in the slots when its event is handled. -/
inductive HeldOp where
  | addMem (mem : MemId)
  | useBuffers (seq : UInt32) (buffers : List PinosClientNodeBuffer)
      (mmap : MemId → Option UInt64)
  | deliver (slots : List SpaPortIO)
  | recycle (id : UInt32) (room : Bool)

/-- An input stream with the buffers that the application holds, and whether it has read
through a null pointer. -/
structure HeldUse where
  stream : PinosStream
  held : List UInt32
  crashed : Bool

namespace HeldUse

open PinosStream

def start : HeldUse where
  stream := .configured false
  held := []
  crashed := false

/-- The buffers of a delivery. -/
def delivered (s : HeldUse) (slots : List SpaPortIO) : List UInt32 :=
  PinosTransport.buffers s.stream.trans.nInputs slots

/-- The stream when it has handled a delivery. -/
def receive (s : HeldUse) (slots : List SpaPortIO) : PinosStream :=
  ({ s.stream with trans := { s.stream.trans with inputs := slots } } :
    PinosStream).handleRtnodeEvent .haveOutput

variable (types : StreamTypes)

def step (s : HeldUse) (op : HeldOp) : HeldUse :=
  if s.crashed then s
  else
    match op with
    | .addMem mem => { s with stream := s.stream.addMem mem }
    | .useBuffers seq buffers mmap =>
      match s.stream.useBuffers types mmap seq buffers with
      | some stream => { s with stream := stream, held := [] }
      | none => { s with crashed := true }
    | .deliver slots => { s with stream := s.receive slots, held := s.held ++ s.delivered slots }
    | .recycle id room =>
      { s with
        stream := (s.stream.recycleBuffer id room).1
        held := s.held.filter (· ≠ id) }

/-- The buffers of a message have different ids, and those that are delivered are known
and not held. -/
def Admits (s : HeldUse) : HeldOp → Prop
  | .useBuffers _ buffers _ => (buffers.map PinosClientNodeBuffer.id).Nodup
  | .deliver slots => ∀ id ∈ s.delivered slots,
    id ∈ s.stream.bufferIds.map BufferId.id ∧ id ∉ s.held
  | _ => True

instance : ∀ (s : HeldUse) (op : HeldOp), Decidable (s.Admits op)
  | _, .addMem _ => inferInstanceAs (Decidable True)
  | _, .useBuffers _ _ _ => inferInstanceAs (Decidable (List.Nodup _))
  | s, .deliver slots => List.decidableBAll _ (s.delivered slots)
  | _, .recycle _ _ => inferInstanceAs (Decidable True)

/-- The buffer can be recycled once: it is reported as reused, and a second time fails. -/
structure Recyclable (s : PinosStream) (id : UInt32) : Prop where
  succeeds : (s.recycleBuffer id true).2 = true
  reported : (s.recycleBuffer id true).1.trans.added =
    s.trans.added ++ [.reuseBuffer s.portId id]
  once : ((s.recycleBuffer id true).1.recycleBuffer id true).2 = false

/-- What is delivered can be recycled once; what is held is recycled and reported as
reused, and nothing else is. -/
def Right (s : HeldUse) (op : HeldOp) : Prop :=
  s.crashed = false →
    match op with
    | .deliver slots => ∀ id ∈ s.delivered slots, Recyclable (s.receive slots) id
    | .recycle id room =>
      if id ∈ s.held then
        (s.stream.recycleBuffer id room).2 = true ∧
          (s.stream.recycleBuffer id room).1.trans.added =
            s.stream.trans.added ++ [.reuseBuffer s.stream.portId id]
      else
        (s.stream.recycleBuffer id room).2 = false ∧
          (s.stream.recycleBuffer id room).1.trans.added = s.stream.trans.added
    | _ => True

/-- What is delivered has its mark; what is held is recycled when the ring has room for the
event, and nothing else that has its mark. -/
def Safe (s : HeldUse) (op : HeldOp) : Prop :=
  s.crashed = false →
    match op with
    | .deliver slots => ∀ id ∈ s.delivered slots, Marked s.stream id
    | .recycle id room => if id ∈ s.held then room = true else ¬ Marked s.stream id
    | _ => True

instance : ∀ (s : HeldUse) (op : HeldOp), Decidable (s.Safe op)
  | s, .addMem _ => inferInstanceAs (Decidable (s.crashed = false → True))
  | s, .useBuffers _ _ _ => inferInstanceAs (Decidable (s.crashed = false → True))
  | s, .deliver slots =>
    have : Decidable (∀ id ∈ s.delivered slots, Marked s.stream id) := List.decidableBAll _ _
    inferInstanceAs (Decidable (s.crashed = false → ∀ id ∈ s.delivered slots, Marked s.stream id))
  | s, .recycle id room =>
    inferInstanceAs (Decidable (s.crashed = false →
      if id ∈ s.held then room = true else ¬ Marked s.stream id))

/-! ## Recycling -/

variable {types} {s : HeldUse} {stream : PinosStream} {id : UInt32} {room : Bool}

theorem recycleBuffer_marked (h : stream.Numbered) (hmarked : Marked stream id) (room : Bool) :
    (stream.recycleBuffer id room).2 = true ∧
      (stream.recycleBuffer id room).1.trans =
        stream.trans.addEvent (.reuseBuffer stream.portId id) room ∧
      (stream.recycleBuffer id room).1.Numbered ∧
      ∀ id', Marked (stream.recycleBuffer id room).1 id' ↔ Marked stream id' ∧ id' ≠ id := by
  obtain ⟨i, hi, hid, hused⟩ := hmarked
  have hfind := h.findBuffer_eq_some.mpr hid
  have heq : stream.recycleBuffer id room =
      ((stream.release i).addEvent (.reuseBuffer stream.portId id) room, true) := by
    rw [recycleBuffer, hfind]
    simp only [hused, if_true]
  have hnumbered : (stream.recycleBuffer id room).1.Numbered := by
    rw [heq]
    exact (h.setUsed false).congr rfl fun _ => rfl
  refine ⟨by rw [heq], by rw [heq]; rfl, hnumbered, fun id' => ?_⟩
  rw [heq]
  exact marked_setUsed_false h hid id'

theorem recycleBuffer_unmarked (h : stream.Numbered) (hnot : ¬ Marked stream id) (room : Bool) :
    stream.recycleBuffer id room = (stream, false) := by
  rw [recycleBuffer]
  cases hfind : stream.findBuffer id with
  | none => rfl
  | some i =>
    have hid := h.findBuffer_eq_some.mp hfind
    have hused : ¬ stream.used i = true := fun hused => hnot ⟨i, lt_of_idAt hid, hid, hused⟩
    simp only [hused]
    rfl

theorem recyclable_iff (h : stream.Numbered) : Recyclable stream id ↔ Marked stream id := by
  constructor
  · intro hrecyclable
    by_contra hnot
    have hfails := hrecyclable.succeeds
    rw [recycleBuffer_unmarked h hnot] at hfails
    cases hfails
  · intro hmarked
    obtain ⟨hsucceeds, htrans, hnumbered, hmarks⟩ := recycleBuffer_marked h hmarked true
    refine ⟨hsucceeds, by rw [htrans]; rfl, ?_⟩
    rw [recycleBuffer_unmarked hnumbered fun hagain => ((hmarks id).mp hagain).2 rfl]

/-! ## Runs -/

structure Inv (s : HeldUse) : Prop where
  input : s.stream.output = false
  numbered : s.stream.Numbered
  held : ∀ id ∈ s.held, Marked s.stream id

theorem inv_start : start.Inv where
  input := rfl
  numbered := ⟨List.nodup_nil, fun _ i _ h => absurd (lt_of_idAt h) (Nat.not_lt_zero i)⟩
  held _ h := absurd h List.not_mem_nil

theorem Inv.deliver (h : s.Inv) {slots : List SpaPortIO}
    (hmarked : ∀ id ∈ s.delivered slots, Marked s.stream id) :
    (⟨s.receive slots, s.held ++ s.delivered slots, s.crashed⟩ : HeldUse).Inv where
  input := h.input
  numbered := ⟨h.numbered.distinct, h.numbered.ordered⟩
  held id hid := (List.mem_append.mp hid).elim (h.held id) (hmarked id)

theorem Inv.recycle (h : s.Inv) (id : UInt32) (room : Bool) :
    (⟨(s.stream.recycleBuffer id room).1, s.held.filter (· ≠ id), s.crashed⟩ : HeldUse).Inv := by
  have hsame : (s.stream.recycleBuffer id room).1.output = s.stream.output := by
    rw [recycleBuffer]
    split
    · split
      · rfl
      · rfl
    · rfl
  by_cases hmarked : Marked s.stream id
  · obtain ⟨-, -, hnumbered, hmarks⟩ := recycleBuffer_marked h.numbered hmarked room
    refine ⟨hsame.trans h.input, hnumbered, fun id' hid' => ?_⟩
    obtain ⟨hheld, hne⟩ := List.mem_filter.mp hid'
    exact (hmarks id').mpr ⟨h.held id' hheld, of_decide_eq_true hne⟩
  · rw [recycleBuffer_unmarked h.numbered hmarked room]
    exact ⟨h.input, h.numbered, fun id' hid' => h.held id' (List.mem_filter.mp hid').1⟩

theorem Inv.useBuffers (h : s.Inv) {seq : UInt32} {buffers : List PinosClientNodeBuffer}
    {mmap : MemId → Option UInt64} (hdistinct : (buffers.map PinosClientNodeBuffer.id).Nodup)
    {stream : PinosStream} (hrun : s.stream.useBuffers types mmap seq buffers = some stream) :
    ({ s with stream := stream, held := [] } : HeldUse).Inv := by
  have hinput : ¬ s.stream.output = true := by simp [h.input]
  obtain ⟨s₁, hloop, memIds, sent, state, emitted, rfl⟩ := useBuffers_eq_some hrun
  have hfilling := (useBuffers_fill (filling_clearBuffers fun hyes => absurd hyes hinput) hloop
    hdistinct).1 fun hyes => absurd hyes hinput
  refine ⟨?_, ⟨hfilling.numbered.distinct, hfilling.numbered.ordered⟩, fun _ hid =>
    absurd hid List.not_mem_nil⟩
  exact (useBuffers_output hloop).trans h.input

/-- A step does right exactly when it is safe, and keeps the invariant. -/
theorem Inv.step_iff (h : s.Inv) {op : HeldOp} (hadmits : s.Admits op) :
    (s.Right op ↔ s.Safe op) ∧ (s.Safe op → (s.step types op).Inv) := by
  by_cases hcrashed : s.crashed = true
  · have hnot : ¬ s.crashed = false := by simp [hcrashed]
    refine ⟨iff_of_true (fun hrunning => absurd hrunning hnot)
      (fun hrunning => absurd hrunning hnot), fun _ => ?_⟩
    unfold HeldUse.step
    rw [if_pos hcrashed]
    exact h
  have hrunning : s.crashed = false := Bool.eq_false_iff.mpr hcrashed
  unfold Right Safe HeldUse.step
  rw [if_neg hcrashed]
  cases op with
  | addMem mem =>
    refine ⟨Iff.rfl, fun _ => ?_⟩
    obtain ⟨mems, heq⟩ := s.stream.addMem_eq mem
    simp only [heq]
    exact ⟨h.input, ⟨h.numbered.distinct, h.numbered.ordered⟩, h.held⟩
  | useBuffers seq buffers mmap =>
    refine ⟨Iff.rfl, fun _ => ?_⟩
    cases hrun : s.stream.useBuffers types mmap seq buffers with
    | none =>
      simp only [hrun]
      exact ⟨h.input, h.numbered, h.held⟩
    | some stream =>
      simp only [hrun]
      exact h.useBuffers hadmits hrun
  | deliver slots =>
    refine ⟨imp_congr_right fun _ => forall₂_congr fun id _ => ?_, fun hsafe =>
      h.deliver (hsafe hrunning)⟩
    exact recyclable_iff ⟨h.numbered.distinct, h.numbered.ordered⟩
  | recycle id room =>
    refine ⟨imp_congr_right fun _ => ?_, fun _ => h.recycle id room⟩
    by_cases hheld : id ∈ s.held
    · obtain ⟨hsucceeds, htrans, -⟩ :=
        recycleBuffer_marked h.numbered (h.held id hheld) room
      simp only [hheld, if_true, hsucceeds, htrans, true_and]
      cases room <;> simp [PinosTransport.addEvent]
    · simp only [hheld, if_false]
      constructor
      · intro hfails hmarked
        rw [(recycleBuffer_marked h.numbered hmarked room).1] at hfails
        cases hfails.1
      · intro hnot
        rw [recycleBuffer_unmarked h.numbered hnot]
        exact ⟨rfl, rfl⟩

end HeldUse
end Pinos
