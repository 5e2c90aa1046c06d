import Pinos.Client.FreeBuffers
import Pinos.Client.StreamAnswers

/-
The two ways in which `find_buffer` finds a buffer: by its place when the buffers came in order, and
by going through all of them.
-/

namespace Pinos
namespace PinosStream

/-- The place of the first buffer with an id. -/
def searchBuffer (s : PinosStream) (id : UInt32) : Option Nat :=
  s.bufferIds.findIdx? fun bid => bid.id == id

/-- Buffers that are in order have their places as ids. -/
def InOrder (s : PinosStream) : Prop :=
  s.inOrder = true → ∀ i id, s.idAt i = some id → id.toNat = i

/-- What happens to a stream: requests of the server, what is written into its slots, events, and
calls of the application.  Nothing comes after a read through a null pointer. -/
def step (types : StreamTypes) (s : PinosStream) : StreamOp ⊕ BufferOp → PinosStream
  | .inl op => (StreamUse.step types ⟨s, [], 0, [], false⟩ op).stream
  | .inr op => (BufferUse.step types ⟨s, [], false⟩ op).stream

variable {types : StreamTypes} {s s' : PinosStream} {id : UInt32} {i : Nat}

theorem InOrder.findBuffer_eq (h : s.InOrder) : s.findBuffer id = s.searchBuffer id := by
  unfold findBuffer searchBuffer
  split
  next hdirect =>
    obtain ⟨hin, hlt⟩ := hdirect
    symm
    rw [List.findIdx?_eq_some_iff_getElem]
    refine ⟨hlt, ?_, fun j hj hfound => ?_⟩
    · have hid := h hin id.toNat _ (by rw [idAt, List.getElem?_eq_getElem hlt]; rfl)
      exact beq_iff_eq.mpr (UInt32.toNat_inj.mp hid)
    · have hidj := h hin j _ (by rw [idAt, List.getElem?_eq_getElem (Nat.lt_trans hj hlt)]; rfl)
      rw [beq_iff_eq.mp hfound] at hidj
      exact absurd hidj (Nat.ne_of_gt hj)
  · rfl

/-! ## What keeps the order -/

theorem InOrder.congr (h : s.InOrder) (horder : s'.inOrder = s.inOrder)
    (hid : ∀ j, s'.idAt j = s.idAt j) : s'.InOrder :=
  fun hin j id hj => h (horder ▸ hin) j id (hid j ▸ hj)

theorem inOrder_empty (h : s.bufferIds = []) : s.InOrder := by
  intro _ i id hid
  rw [idAt, h] at hid
  cases hid

theorem InOrder.addBuffer (h : s.InOrder) (bid : BufferId) : (s.addBuffer bid).InOrder := by
  intro hin i id hid
  have hboth : (s.inOrder && bid.id.toNat == s.bufferIds.length) = true := hin
  rw [Bool.and_eq_true, beq_iff_eq] at hboth
  rw [idAt_addBuffer] at hid
  split at hid
  next heq =>
    rw [← Option.some.inj hid, hboth.2, heq]
  · exact h hboth.1 i id hid

theorem InOrder.setUsed (h : s.InOrder) (b : Bool) : (s.setUsed i b).InOrder :=
  h.congr rfl fun _ => idAt_setUsed b

theorem InOrder.release (h : s.InOrder) : (s.release i).InOrder := h.setUsed false

theorem InOrder.setState (h : s.InOrder) (state : PinosStreamState) :
    (s.setState state).InOrder := by
  unfold PinosStream.setState
  split
  · exact h
  · exact h

theorem InOrder.reuseBuffer (h : s.InOrder) (id : UInt32) : (s.reuseBuffer id).InOrder := by
  unfold PinosStream.reuseBuffer
  split
  · split
    · exact h.release
    · exact h
  · exact h

theorem InOrder.handleRtnodeEvent (h : s.InOrder) (event : TransportEvent) :
    (s.handleRtnodeEvent event).InOrder := by
  cases event with
  | haveOutput => exact h
  | needInput =>
    have hreused : ∀ ids : List UInt32, (ids.foldl PinosStream.reuseBuffer s).InOrder :=
      fun ids => List.foldlRecOn ids _ h fun _ hs id _ => InOrder.reuseBuffer hs id
    exact hreused _
  | reuseBuffer portId bufferId =>
    show (if portId ≠ s.portId then s else if s.output = false then s
      else s.reuseBuffer bufferId).InOrder
    split
    · exact h
    · split
      · exact h
      · exact h.reuseBuffer bufferId

theorem InOrder.recycleBuffer (h : s.InOrder) (id : UInt32) (room : Bool) :
    (s.recycleBuffer id room).1.InOrder := by
  unfold PinosStream.recycleBuffer
  split
  · split
    · exact h.release
    · exact h
  · exact h

theorem InOrder.sendBuffer (h : s.InOrder) (id : UInt32) (room : Bool) :
    (s.sendBuffer id room).1.InOrder := by
  unfold PinosStream.sendBuffer
  split
  · exact h
  split
  · exact h
  split
  next i hfind =>
    split
    · exact h
    · have hacquired : (s.acquire i).InOrder := h.setUsed true
      dsimp only
      split
      · exact hacquired
      · exact hacquired
  · exact h

theorem InOrder.finishFormat (h : s.InOrder) (f : FinishFormat) : (s.finishFormat f).InOrder := by
  unfold PinosStream.finishFormat
  dsimp only
  split
  · split
    · exact inOrder_empty rfl
    · exact h
  · exact h

theorem InOrder.setFormat (h : s.InOrder) (seq : UInt32) (format : Option (List UInt8))
    (finishes : List FinishFormat) : (s.setFormat seq format finishes).InOrder := by
  refine InOrder.setState ?_ _
  exact List.foldlRecOn finishes _ h fun _ hs f _ => InOrder.finishFormat hs f

theorem InOrder.nodeCommand (h : s.InOrder) (seq : UInt32) (command : SpaCommand) :
    (s.nodeCommand types seq command).InOrder := by
  unfold PinosStream.nodeCommand
  split
  · dsimp only
    split
    · refine InOrder.setState ?_ _
      exact h
    · exact h
  split
  · dsimp only
    split
    · refine InOrder.setState ?_ _
      split
      · exact h
      · exact h
    · exact h
  split
  · exact h
  · exact h

theorem InOrder.addMem (h : s.InOrder) (mem : MemId) : (s.addMem mem).InOrder := by
  obtain ⟨mems, heq⟩ := addMem_eq s mem
  rw [heq]
  exact h

/-- A turn of the loop over the buffers; one whose memory is not known is left out. -/
theorem InOrder.useBuffer {mmap : MemId → Option UInt64} {b : PinosClientNodeBuffer}
    (h : s.InOrder) (huse : useBuffer types mmap s b = some s') : s'.InOrder := by
  obtain ⟨-, rfl⟩ | ⟨-, mems, bid, -, -, rfl, -⟩ := useBuffer_cases huse
  · exact h
  · exact InOrder.addBuffer h bid

theorem inOrder_useBuffers {mmap : MemId → Option UInt64} {seq : UInt32}
    {buffers : List PinosClientNodeBuffer} (huse : s.useBuffers types mmap seq buffers = some s') :
    s'.InOrder := by
  obtain ⟨t, hloop, rfl⟩ := Option.map_eq_some_iff.mp huse
  have hall : ∀ (bs : List PinosClientNodeBuffer) (s : PinosStream), s.InOrder →
      bs.foldlM (useBuffer types mmap) s = some t → t.InOrder := by
    intro bs
    induction bs with
    | nil =>
      intro s h hloop
      exact Option.some.inj hloop ▸ h
    | cons b bs ih =>
      intro s h hloop
      rw [List.foldlM_cons] at hloop
      obtain ⟨s', hturn, hrest⟩ := Option.bind_eq_some_iff.mp hloop
      exact ih s' (h.useBuffer hturn) hrest
  have ht := hall buffers s.clearBuffers (inOrder_empty rfl) hloop
  dsimp only
  split
  · refine InOrder.setState ?_ _
    exact ht
  · refine InOrder.setState ?_ _
    exact ht

/-! ## Runs -/

theorem InOrder.step (h : s.InOrder) (op : StreamOp ⊕ BufferOp) : (s.step types op).InOrder := by
  cases op with
  | inl op =>
    cases op with
    | setFormat seq format finishes => exact h.setFormat seq format finishes
    | useBuffers seq buffers mmap =>
      unfold PinosStream.step StreamUse.step
      dsimp only
      cases huse : s.useBuffers types mmap seq buffers with
      | none => exact h
      | some s' => exact inOrder_useBuffers huse
    | nodeCommand seq command => exact h.nodeCommand seq command
    | addMem mem => exact h.addMem mem
    | finishFormat f => exact h.finishFormat f
  | inr op =>
    cases op with
    | addMem mem => exact h.addMem mem
    | useBuffers seq buffers mmap =>
      unfold PinosStream.step BufferUse.step
      dsimp only
      cases huse : s.useBuffers types mmap seq buffers with
      | none => exact h
      | some s' => exact inOrder_useBuffers huse
    | slots outputs => exact h
    | event event => exact h.handleRtnodeEvent event
    | needBufferDone => exact h
    | getEmptyBuffer => exact h
    | send id room => exact h.sendBuffer id room
    | recycle id room => exact h.recycleBuffer id room

end PinosStream
end Pinos
