import Pinos.Client.StreamBuffers
import Pinos.Lib.Run

/-
Runs of a stream with the buffers it is given, and those that are sent and come back.

The free list is linked through the array of buffers.  When `use_buffers` has more
buffers than the array has room for, the array moves and the list leads to the memory
it has left.
-/

namespace Pinos

/-- What happens to the buffers of a stream: messages of the server, what it writes in
the slots and the events it sends, and the calls of the application. -/
inductive BufferOp where
  | addMem (mem : MemId)
  | useBuffers (seq : UInt32) (buffers : List PinosClientNodeBuffer)
      (mmap : MemId → Option UInt64)
  | slots (outputs : List SpaPortIO)
  | event (event : TransportEvent)
  | needBufferDone
  | getEmptyBuffer
  | send (id : UInt32) (room : Bool)
  | recycle (id : UInt32) (room : Bool)

/-- A stream with the buffers that were sent and have not been given back, and whether it
has read through a null pointer. -/
structure BufferUse where
  stream : PinosStream
  outstanding : List UInt32
  crashed : Bool

namespace PinosStream

/-- The memory of a buffer is known, and is mapped or can be. -/
instance (mmap : MemId → Option UInt64) (mems : List MemId) (id : UInt32) :
    Decidable (Mappable mmap mems id) :=
  decidable_of_iff ((findMem mems id).any fun mid => (mapped mmap mid).isSome)
    (by simp [Mappable, Option.any_eq_true])

/-- The buffers of a message that are added to the array. -/
def addable (mmap : MemId → Option UInt64) (mems : List MemId)
    (buffers : List PinosClientNodeBuffer) : List PinosClientNodeBuffer :=
  buffers.filter fun b => Mappable mmap mems b.memId

end PinosStream

namespace BufferUse

open PinosStream

def start (output : Bool) : BufferUse where
  stream := .configured output
  outstanding := []
  crashed := false

variable (types : StreamTypes)

def step (s : BufferUse) (op : BufferOp) : BufferUse :=
  if s.crashed then s
  else
    match op with
    | .addMem mem => { s with stream := s.stream.addMem mem }
    | .useBuffers seq buffers mmap =>
      match s.stream.useBuffers types mmap seq buffers with
      | some stream => { s with stream := stream, outstanding := [] }
      | none => { s with crashed := true }
    | .slots outputs =>
      { s with stream := { s.stream with trans := { s.stream.trans with outputs := outputs } } }
    | .event event =>
      { s with
        stream := s.stream.handleRtnodeEvent event
        outstanding := s.outstanding.filter (· ∉ s.stream.givenBack event) }
    | .needBufferDone => { s with stream := s.stream.needBufferDone }
    | .getEmptyBuffer => s
    | .send id room =>
      { s with
        stream := (s.stream.sendBuffer id room).1
        outstanding := if s.stream.sends id then s.outstanding ++ [id] else s.outstanding }
    | .recycle id room =>
      { s with
        stream := (s.stream.recycleBuffer id room).1
        outstanding := s.outstanding.filter (· ≠ id) }

/-- The buffers of a message have different ids. -/
def Distinct : BufferOp → Prop
  | .useBuffers _ buffers _ => (buffers.map PinosClientNodeBuffer.id).Nodup
  | _ => True

/-- Every known buffer is in the free list at most once, and exactly when it is not
marked as used; an empty buffer is none that was sent and has not been given back. -/
structure Right (s : BufferUse) : Prop where
  once : ∀ i < s.stream.bufferIds.length, s.stream.free.count (s.stream.linkOf i) ≤ 1
  unused : ∀ i < s.stream.bufferIds.length,
    s.stream.linkOf i ∈ s.stream.free ↔ s.stream.used i = false
  empty : ∃ id, s.stream.getEmptyBuffer = some id ∧ (id = spaIdInvalid ∨ id ∉ s.outstanding)

/-- The buffers that are added have room in the memory of the array. -/
def Safe (s : BufferUse) : BufferOp → Prop
  | .useBuffers _ buffers mmap =>
    s.crashed = false → s.stream.output = true →
      (∀ b ∈ buffers, Readable types mmap s.stream.memIds b) →
        (addable mmap s.stream.memIds buffers).length * sizeofBufferId ≤ s.stream.bufferAlloc
  | _ => True

end BufferUse

/-! ## Using buffers -/

namespace PinosStream

section UseBuffers

variable {types : StreamTypes} {mmap : MemId → Option UInt64} {s s' : PinosStream}

theorem useBuffer_cases {b : PinosClientNodeBuffer} (h : useBuffer types mmap s b = some s') :
    (¬ Mappable mmap s.memIds b.memId ∧ s' = s) ∨
      Mappable mmap s.memIds b.memId ∧ ∃ mems bid, bid.id = b.id ∧ bid.used = !s.output ∧
        s' = ({ s with memIds := mems } : PinosStream).addBuffer bid ∧
          ∀ k, Mappable mmap mems k ↔ Mappable mmap s.memIds k := by
  rw [useBuffer] at h
  cases hmid : (findMem s.memIds b.memId).bind (mapped mmap) with
  | none =>
    rw [hmid] at h
    refine .inl ⟨?_, (Option.some.inj h).symm⟩
    rintro ⟨mid, hfind, hmapped⟩
    rw [hfind, Option.bind_some] at hmid
    rw [hmid] at hmapped
    cases hmapped
  | some found =>
    obtain ⟨mid', ptr⟩ := found
    obtain ⟨mid, hfind, hmapped⟩ := Option.bind_eq_some_iff.mp hmid
    rw [hmid] at h
    obtain ⟨datas, -, hadd⟩ := Option.map_eq_some_iff.mp h
    refine .inr ⟨⟨mid, hfind, by rw [hmapped]; rfl⟩, _, _, ?_, ?_, hadd.symm, ?_⟩
    · rfl
    · rfl
    · exact mappable_setMem hfind hmapped

/-- Whether the array of buffers has room for `n` of them. -/
def Fits (s : PinosStream) (n : Nat) : Prop := n * sizeofBufferId ≤ s.bufferAlloc

/-- What holds between two turns of the loop over the buffers, as long as the list has not
been left behind. -/
structure Filling (s : PinosStream) : Prop where
  numbered : s.Numbered
  freeList : s.FreeList
  used : ∀ i < s.bufferIds.length, s.used i = !s.output
  fits : s.output = true → s.Fits s.bufferIds.length
  alloc : s.output = true → s.Fits 1

/-- The first buffer is not used, but the list does not lead to it. -/
structure LeftBehind (s : PinosStream) : Prop where
  first : 0 < s.bufferIds.length
  unused : s.used 0 = false
  lost : s.linkOf 0 ∉ s.free
  older : ∀ link ∈ s.free, link.array ≤ s.bufferArray

theorem getElem?_addBuffer (bid : BufferId) (i : Nat) :
    (s.addBuffer bid).bufferIds[i]? =
      if i = s.bufferIds.length then some bid else s.bufferIds[i]? := by
  show (s.bufferIds ++ [bid])[i]? = _
  by_cases hi : i = s.bufferIds.length
  · rw [if_pos hi, hi, List.getElem?_concat_length]
  · rw [if_neg hi]
    rcases Nat.lt_or_gt_of_ne hi with hlt | hgt
    · exact List.getElem?_append_left hlt
    · rw [List.getElem?_eq_none (Nat.le_of_lt hgt), List.getElem?_eq_none]
      rw [List.length_append]
      exact hgt

theorem idAt_addBuffer (bid : BufferId) (i : Nat) :
    (s.addBuffer bid).idAt i =
      if i = s.bufferIds.length then some bid.id else s.idAt i := by
  rw [idAt, getElem?_addBuffer, idAt]
  split <;> rfl

theorem used_addBuffer (bid : BufferId) (i : Nat) :
    (s.addBuffer bid).used i =
      if i = s.bufferIds.length then bid.used else s.used i := by
  rw [PinosStream.used, getElem?_addBuffer, PinosStream.used]
  split <;> rfl

@[simp] theorem length_addBuffer (bid : BufferId) :
    (s.addBuffer bid).bufferIds.length = s.bufferIds.length + 1 := by
  show (s.bufferIds ++ [bid]).length = _
  rw [List.length_append, List.length_singleton]

theorem Numbered.addBuffer (h : s.Numbered) {bid : BufferId}
    (hnew : bid.id ∉ s.bufferIds.map BufferId.id) : (s.addBuffer bid).Numbered where
  distinct := by
    show ((s.bufferIds ++ [bid]).map BufferId.id).Nodup
    rw [List.map_append, List.nodup_append]
    refine ⟨h.distinct, List.nodup_singleton _, fun id hid id' hid' hsame => ?_⟩
    exact hnew (List.mem_singleton.mp hid' ▸ hsame ▸ hid)
  ordered hin i id hid := by
    have hboth : (s.inOrder && bid.id.toNat == s.bufferIds.length) = true := hin
    rw [Bool.and_eq_true, beq_iff_eq] at hboth
    rw [idAt_addBuffer] at hid
    split at hid
    · next hi =>
      rw [← Option.some.inj hid, hi]
      exact hboth.2
    · exact h.ordered hboth.1 i id hid

theorem Filling.addBuffer (h : s.Filling) {bid : BufferId}
    (hnew : bid.id ∉ s.bufferIds.map BufferId.id) (hused : bid.used = !s.output)
    (hroom : s.output = true → s.Fits (s.bufferIds.length + 1)) : (s.addBuffer bid).Filling := by
  have hall : ∀ i < s.bufferIds.length + 1, (s.addBuffer bid).used i = !s.output := by
    intro i hi
    rw [used_addBuffer]
    split
    · exact hused
    · exact h.used i (by omega)
  cases hout : s.output with
  | false =>
    have hnone : s.free = [] := by
      apply List.eq_nil_iff_forall_not_mem.mpr
      intro link hlink
      obtain ⟨i, hi, hfree, -⟩ := (h.freeList.mem_iff link).mp hlink
      rw [h.used i hi, hout] at hfree
      cases hfree
    have hsame : (s.addBuffer bid).free = [] := by
      show (if s.output then _ else s.free) = []
      rw [hout, hnone]
      rfl
    refine ⟨h.numbered.addBuffer hnew, ⟨hsame ▸ List.nodup_nil, fun link => ?_⟩, ?_, ?_, ?_⟩
    · rw [hsame, length_addBuffer]
      refine iff_of_false List.not_mem_nil ?_
      rintro ⟨i, hi, hfree, -⟩
      rw [hall i hi, hout] at hfree
      cases hfree
    · rw [length_addBuffer]
      exact hall
    · exact fun hyes => absurd (hout.symm.trans hyes) (by decide)
    · exact fun hyes => absurd (hout.symm.trans hyes) (by decide)
  | true =>
    have hfits : ¬ s.bufferAlloc < (s.bufferIds.length + 1) * sizeofBufferId :=
      Nat.not_lt.mpr (hroom hout)
    have halloc : (s.addBuffer bid).bufferAlloc = s.bufferAlloc := if_neg hfits
    have harray : (s.addBuffer bid).bufferArray = s.bufferArray := if_neg hfits
    have hlink : ∀ i, (s.addBuffer bid).linkOf i = s.linkOf i := fun i => by
      rw [linkOf, harray, linkOf]
    have hfree : (s.addBuffer bid).free = s.free ++ [s.linkOf s.bufferIds.length] := by
      show (if s.output then s.free ++ [⟨(s.addBuffer bid).bufferArray, _⟩] else s.free) = _
      rw [hout, harray]
      rfl
    have hmem : ∀ link, link ∈ s.free ↔ ∃ i < s.bufferIds.length, link = s.linkOf i := by
      intro link
      rw [h.freeList.mem_iff]
      refine exists_congr fun i => and_congr_right fun hi => and_iff_right ?_
      rw [h.used i hi, hout]
      rfl
    refine ⟨h.numbered.addBuffer hnew, ⟨?_, fun link => ?_⟩, ?_, fun _ => ?_, fun _ => ?_⟩
    · rw [hfree, List.nodup_append]
      refine ⟨h.freeList.nodup, List.nodup_singleton _, fun link hin other hother hsame => ?_⟩
      obtain ⟨i, hi, rfl⟩ := (hmem link).mp hin
      rw [List.mem_singleton.mp hother] at hsame
      exact absurd (linkOf_inj.mp hsame) (Nat.ne_of_lt hi)
    · rw [hfree, List.mem_append, List.mem_singleton, hmem, length_addBuffer]
      constructor
      · rintro (⟨i, hi, rfl⟩ | rfl)
        · exact ⟨i, by omega, by rw [hall i (by omega), hout]; rfl, (hlink i).symm⟩
        · exact ⟨_, by omega, by rw [hall _ (by omega), hout]; rfl, (hlink _).symm⟩
      · rintro ⟨i, hi, -, rfl⟩
        rw [hlink]
        by_cases hlast : i = s.bufferIds.length
        · exact .inr (hlast ▸ rfl)
        · exact .inl ⟨i, by omega, rfl⟩
    · rw [length_addBuffer]
      exact hall
    · rw [Fits, halloc, length_addBuffer]
      exact hroom hout
    · rw [Fits, halloc]
      exact h.alloc hout

theorem Filling.leftBehind (h : s.Filling) {bid : BufferId} (hout : s.output = true)
    (hfull : ¬ s.Fits (s.bufferIds.length + 1)) : (s.addBuffer bid).LeftBehind := by
  have hpos : 0 < s.bufferIds.length := by
    by_contra hnone
    rw [Nat.eq_zero_of_not_pos hnone] at hfull
    exact hfull (h.alloc hout)
  have harray : (s.addBuffer bid).bufferArray = s.bufferArray + 1 := if_pos (Nat.not_le.mp hfull)
  have hfree : (s.addBuffer bid).free =
      s.free ++ [⟨s.bufferArray + 1, s.bufferIds.length⟩] := by
    show (if s.output then s.free ++ [⟨(s.addBuffer bid).bufferArray, _⟩] else s.free) = _
    rw [hout, harray]
    rfl
  have holder : ∀ link ∈ s.free, link.array = s.bufferArray := by
    intro link hlink
    obtain ⟨i, -, -, rfl⟩ := (h.freeList.mem_iff link).mp hlink
    rfl
  refine ⟨by rw [length_addBuffer]; omega, ?_, ?_, ?_⟩
  · rw [used_addBuffer, if_neg (by omega), h.used 0 hpos, hout]
    rfl
  · rw [hfree, List.mem_append, List.mem_singleton, linkOf, harray]
    rintro (hin | hlast)
    · have := holder _ hin
      simp at this
    · rw [BufferLink.mk.injEq] at hlast
      omega
  · rw [hfree, harray]
    intro link hlink
    rcases List.mem_append.mp hlink with hin | hlast
    · rw [holder link hin]
      omega
    · obtain rfl := List.mem_singleton.mp hlast
      exact Nat.le_refl _

theorem LeftBehind.addBuffer (h : s.LeftBehind) (bid : BufferId) :
    (s.addBuffer bid).LeftBehind := by
  have harray : s.bufferArray ≤ (s.addBuffer bid).bufferArray := by
    show _ ≤ if _ then s.bufferArray + 1 else s.bufferArray
    split
    · exact Nat.le_succ _
    · exact Nat.le_refl _
  have hfirst := h.first
  have hmem : ∀ link ∈ (s.addBuffer bid).free,
      link ∈ s.free ∨ link = ⟨(s.addBuffer bid).bufferArray, s.bufferIds.length⟩ := by
    intro link hlink
    have hlink : link ∈ if s.output then
        s.free ++ [⟨(s.addBuffer bid).bufferArray, s.bufferIds.length⟩] else s.free := hlink
    split at hlink
    · exact (List.mem_append.mp hlink).imp_right List.mem_singleton.mp
    · exact .inl hlink
  refine ⟨by rw [length_addBuffer]; omega, ?_, fun hin => ?_, fun link hlink => ?_⟩
  · rw [used_addBuffer, if_neg (by omega)]
    exact h.unused
  · rcases hmem _ hin with hold | hlast
    · have hle : (s.addBuffer bid).bufferArray ≤ s.bufferArray := h.older _ hold
      have hsame : (s.addBuffer bid).linkOf 0 = s.linkOf 0 := by
        rw [linkOf, linkOf, Nat.le_antisymm hle harray]
      exact h.lost (hsame ▸ hold)
    · have hplace : 0 = s.bufferIds.length := congrArg BufferLink.place hlast
      omega
  · rcases hmem link hlink with hold | rfl
    · exact Nat.le_trans (h.older link hold) harray
    · exact Nat.le_refl _

theorem LeftBehind.useBuffers {buffers : List PinosClientNodeBuffer} (h : s.LeftBehind)
    (hrun : buffers.foldlM (useBuffer types mmap) s = some s') : s'.LeftBehind := by
  induction buffers generalizing s with
  | nil =>
    cases hrun
    exact h
  | cons b buffers ih =>
    rw [List.foldlM_cons] at hrun
    obtain ⟨s₁, hone, hrest⟩ := Option.bind_eq_some_iff.mp hrun
    rcases useBuffer_cases hone with ⟨-, rfl⟩ | ⟨-, mems, bid, -, -, rfl, -⟩
    · exact ih h hrest
    · have hmems : ({ s with memIds := mems } : PinosStream).LeftBehind :=
        ⟨h.first, h.unused, h.lost, h.older⟩
      exact ih (hmems.addBuffer bid) hrest

theorem addable_congr {mems mems' : List MemId}
    (h : ∀ k, Mappable mmap mems' k ↔ Mappable mmap mems k)
    (buffers : List PinosClientNodeBuffer) :
    addable mmap mems' buffers = addable mmap mems buffers := by
  refine List.filter_congr fun b _ => ?_
  simp [h]

/-- The loop over the buffers of a message fills the array and the list, unless there
are more buffers to be filled than the array has room for. -/
theorem useBuffers_fill {buffers : List PinosClientNodeBuffer} (h : s.Filling)
    (hrun : buffers.foldlM (useBuffer types mmap) s = some s')
    (hids : (s.bufferIds.map BufferId.id ++ buffers.map PinosClientNodeBuffer.id).Nodup) :
    ((s.output = true → s.Fits (s.bufferIds.length + (addable mmap s.memIds buffers).length)) →
        s'.Filling) ∧
      (s.output = true → ¬ s.Fits (s.bufferIds.length + (addable mmap s.memIds buffers).length) →
        s'.LeftBehind) := by
  induction buffers generalizing s with
  | nil =>
    cases hrun
    exact ⟨fun _ => h, fun hout hnot => absurd (h.fits hout) hnot⟩
  | cons b buffers ih =>
    rw [List.foldlM_cons] at hrun
    obtain ⟨s₁, hone, hrest⟩ := Option.bind_eq_some_iff.mp hrun
    rw [List.map_cons] at hids
    rcases useBuffer_cases hone with ⟨hno, rfl⟩ | ⟨hyes, mems, bid, hid, hused, rfl, hsame⟩
    · have hskip : addable mmap s₁.memIds (b :: buffers) = addable mmap s₁.memIds buffers :=
        List.filter_cons_of_neg (by simpa using hno)
      rw [hskip]
      exact ih h hrest (hids.sublist (List.Sublist.append_left (List.sublist_cons_self _ _) _))
    · have htake : (addable mmap s.memIds (b :: buffers)).length =
          (addable mmap s.memIds buffers).length + 1 := by
        rw [addable, List.filter_cons_of_pos (by simpa using hyes), List.length_cons]
        rfl
      have hmems : ({ s with memIds := mems } : PinosStream).Filling :=
        ⟨⟨h.numbered.distinct, h.numbered.ordered⟩, ⟨h.freeList.nodup, h.freeList.mem_iff⟩,
          h.used, h.fits, h.alloc⟩
      have hnew : bid.id ∉ s.bufferIds.map BufferId.id := by
        intro hin
        rw [hid] at hin
        exact (List.nodup_append.mp hids).2.2 _ hin _ List.mem_cons_self rfl
      rw [htake]
      by_cases hfull : s.output = true ∧ ¬ s.Fits (s.bufferIds.length + 1)
      · have hlost : (({ s with memIds := mems } : PinosStream).addBuffer bid).LeftBehind :=
          hmems.leftBehind hfull.1 hfull.2
        refine ⟨fun hroom => absurd ?_ hfull.2, fun _ _ => hlost.useBuffers hrest⟩
        have hroom := hroom hfull.1
        unfold Fits sizeofBufferId at hroom ⊢
        omega
      · have hroom : s.output = true → s.Fits (s.bufferIds.length + 1) := fun hout => by
          by_contra hnot
          exact hfull ⟨hout, hnot⟩
        have hnext := ih (hmems.addBuffer hnew hused hroom) hrest (by
          show ((s.bufferIds ++ [bid]).map BufferId.id ++ _).Nodup
          rw [List.map_append, List.append_assoc, List.map_singleton, hid]
          exact hids)
        rw [length_addBuffer, memIds_addBuffer, addable_congr hsame, Nat.add_assoc, Nat.add_comm 1]
          at hnext
        have hfits : s.output = true → ∀ n,
            (({ s with memIds := mems } : PinosStream).addBuffer bid).Fits n ↔ s.Fits n := by
          intro hout n
          rw [Fits, Fits]
          have halloc : (({ s with memIds := mems } : PinosStream).addBuffer bid).bufferAlloc =
              s.bufferAlloc := if_neg (Nat.not_lt.mpr (hroom hout))
          rw [halloc]
        refine ⟨fun hall => hnext.1 fun hout => (hfits hout _).mpr (hall hout), fun hout hnot => ?_⟩
        exact hnext.2 hout fun hyes => hnot ((hfits hout _).mp hyes)

theorem useBuffers_eq_some {seq : UInt32} {buffers : List PinosClientNodeBuffer}
    (h : useBuffers types mmap s seq buffers = some s') :
    ∃ s₁, buffers.foldlM (useBuffer types mmap) s.clearBuffers = some s₁ ∧
      ∃ memIds sent state emitted,
        s' = { s₁ with memIds := memIds, sent := sent, state := state, emitted := emitted } := by
  obtain ⟨s₁, hrun, hdone⟩ := Option.map_eq_some_iff.mp h
  have hset : ∀ (s₂ : PinosStream) state, ∃ state' emitted,
      s₂.setState state = { s₂ with state := state', emitted := emitted } := by
    intro s₂ state
    rw [setState]
    split
    · exact ⟨_, _, rfl⟩
    · exact ⟨_, _, rfl⟩
  refine ⟨s₁, hrun, ?_⟩
  rw [← hdone]
  dsimp only
  split
  · obtain ⟨state, emitted, heq⟩ := hset (s₁.addAsyncComplete seq .ok) .paused
    exact ⟨_, _, state, emitted, heq⟩
  · obtain ⟨state, emitted, heq⟩ := hset (s₁.addAsyncComplete seq .ok).clearMems .ready
    exact ⟨_, _, state, emitted, heq⟩

theorem useBuffers_output {buffers : List PinosClientNodeBuffer}
    (hrun : buffers.foldlM (useBuffer types mmap) s = some s') : s'.output = s.output := by
  induction buffers generalizing s with
  | nil =>
    cases hrun
    rfl
  | cons b buffers ih =>
    rw [List.foldlM_cons] at hrun
    obtain ⟨s₁, hone, hrest⟩ := Option.bind_eq_some_iff.mp hrun
    rcases useBuffer_cases hone with ⟨-, rfl⟩ | ⟨-, mems, bid, -, -, rfl, -⟩
    · exact ih hrest
    · have hsame := ih hrest
      exact hsame

theorem filling_clearBuffers (h : s.output = true → s.Fits 1) : s.clearBuffers.Filling where
  numbered := ⟨List.nodup_nil, fun _ i id hid => absurd (lt_of_idAt hid) (Nat.not_lt_zero i)⟩
  freeList := ⟨List.nodup_nil, fun link => iff_of_false List.not_mem_nil fun ⟨i, hi, _⟩ =>
    Nat.not_lt_zero i hi⟩
  used i hi := absurd hi (Nat.not_lt_zero i)
  fits _ := by simp [Fits, clearBuffers]
  alloc := h

end UseBuffers
end PinosStream

/-! ## Runs -/

namespace BufferUse

open PinosStream

variable {types : StreamTypes} {s : BufferUse} {op : BufferOp}

structure Inv (s : BufferUse) : Prop where
  numbered : s.stream.Numbered
  freeList : s.stream.FreeList
  alloc : s.stream.output = true → s.stream.Fits 1
  outstanding : ∀ id ∈ s.outstanding, ∃ i, s.stream.idAt i = some id ∧ s.stream.used i = true

theorem inv_start (output : Bool) : (start output).Inv where
  numbered := ⟨List.nodup_nil, fun _ i id h => absurd (lt_of_idAt h) (Nat.not_lt_zero i)⟩
  freeList := ⟨List.nodup_nil, fun link => iff_of_false List.not_mem_nil fun ⟨i, hi, _⟩ =>
    Nat.not_lt_zero i hi⟩
  alloc _ := show 1 * sizeofBufferId ≤ 4096 by decide
  outstanding _ h := absurd h List.not_mem_nil

theorem Inv.right (h : s.Inv) : s.Right where
  once _ _ := List.nodup_iff_count_le_one.mp h.freeList.nodup _
  unused _ hi := h.freeList.mem_linkOf hi
  empty := by
    rcases h.freeList.getEmptyBuffer with hnone | ⟨i, id, hget, hid, hfree⟩
    · exact ⟨_, hnone, .inl rfl⟩
    · refine ⟨id, hget, .inr fun hout => ?_⟩
      obtain ⟨j, hj, hused⟩ := h.outstanding id hout
      rw [← h.numbered.place_unique hid hj, hfree] at hused
      cases hused

/-- Giving buffers back keeps the invariant. -/
theorem Inv.gives (h : s.Inv) {ids : List UInt32} {s' : BufferUse}
    (hgives : Gives ids s.stream s'.stream)
    (hout : ∀ id ∈ s'.outstanding, id ∈ s.outstanding ∧ id ∉ ids) : s'.Inv := by
  refine ⟨hgives.numbered, hgives.freeList, fun hyes => ?_, fun id hid => ?_⟩
  · rw [Fits, hgives.alloc]
    exact h.alloc (hgives.output ▸ hyes)
  · obtain ⟨hold, hnot⟩ := hout id hid
    obtain ⟨i, hi, hused⟩ := h.outstanding id hold
    exact ⟨i, (hgives.idAt i).trans hi, (hgives.used i id hi hnot).trans hused⟩

theorem Inv.useBuffers (h : s.Inv) {seq : UInt32} {buffers : List PinosClientNodeBuffer}
    {mmap : MemId → Option UInt64} (hdistinct : (buffers.map PinosClientNodeBuffer.id).Nodup)
    {stream : PinosStream} (hrun : s.stream.useBuffers types mmap seq buffers = some stream) :
    let s' : BufferUse := { s with stream := stream, outstanding := [] }
    ((s.stream.output = true → s.stream.Fits (addable mmap s.stream.memIds buffers).length) →
        s'.Inv) ∧
      (s.stream.output = true →
        ¬ s.stream.Fits (addable mmap s.stream.memIds buffers).length → ¬ s'.Right) := by
  obtain ⟨s₁, hloop, memIds, sent, state, emitted, rfl⟩ := useBuffers_eq_some hrun
  obtain ⟨hfill, hlose⟩ := useBuffers_fill (filling_clearBuffers h.alloc) hloop hdistinct
  have hzero : s.stream.clearBuffers.bufferIds.length = 0 := rfl
  rw [hzero, Nat.zero_add] at hfill hlose
  refine ⟨fun hfits => ?_, fun hout hfits => ?_⟩
  · have hfilling := hfill hfits
    exact ⟨⟨hfilling.numbered.distinct, hfilling.numbered.ordered⟩,
      ⟨hfilling.freeList.nodup, hfilling.freeList.mem_iff⟩, hfilling.alloc,
      fun _ hid => absurd hid List.not_mem_nil⟩
  · have hlost := hlose hout hfits
    exact fun hright => hlost.lost ((hright.unused 0 hlost.first).mpr hlost.unused)

theorem Inv.send (h : s.Inv) (id : UInt32) (room : Bool) :
    (⟨(s.stream.sendBuffer id room).1,
      if s.stream.sends id then s.outstanding ++ [id] else s.outstanding, s.crashed⟩ :
        BufferUse).Inv := by
  by_cases hsends : s.stream.sends id = true
  · obtain ⟨slot, slots, i, -, -, hfind, -, heq, -⟩ := sendBuffer_of_sends hsends room
    have hid := h.numbered.findBuffer_eq_some.mp hfind
    rw [heq, if_pos hsends]
    refine ⟨(h.numbered.setUsed true).congr rfl fun _ => rfl, ?_, h.alloc, fun id' hid' => ?_⟩
    · exact ⟨h.freeList.acquire.nodup, h.freeList.acquire.mem_iff⟩
    · have hkeep : ∀ j, s.stream.used j = true → (s.stream.acquire i).used j = true := by
        intro j hj
        refine (used_setUsed true).trans ?_
        split
        · rfl
        · exact hj
      rcases List.mem_append.mp hid' with hold | hnew
      · obtain ⟨j, hj, hused⟩ := h.outstanding id' hold
        exact ⟨j, (idAt_setUsed true).trans hj, hkeep j hused⟩
      · rw [List.mem_singleton.mp hnew]
        exact ⟨i, (idAt_setUsed true).trans hid,
          (used_setUsed true).trans (if_pos ⟨rfl, lt_of_idAt hid⟩)⟩
  · rw [if_neg hsends, sendBuffer_of_not_sends (Bool.eq_false_iff.mpr hsends)]
    exact h

theorem Inv.recycle (h : s.Inv) (id : UInt32) (room : Bool) :
    (⟨(s.stream.recycleBuffer id room).1, s.outstanding.filter (· ≠ id), s.crashed⟩ :
      BufferUse).Inv := by
  have hout : ∀ id' ∈ s.outstanding.filter (· ≠ id), id' ∈ s.outstanding ∧ id' ∉ [id] := by
    intro id' hid'
    simpa using hid'
  have hrefl : Gives [id] s.stream s.stream := .refl h.numbered h.freeList
  rw [recycleBuffer]
  cases hfind : s.stream.findBuffer id with
  | none => exact h.gives hrefl hout
  | some i =>
    have hid := h.numbered.findBuffer_eq_some.mp hfind
    by_cases hused : s.stream.used i = true
    · simp only [hused, if_true]
      have hgives := gives_release h.numbered h.freeList hid hused
      exact h.gives ⟨⟨hgives.numbered.distinct, hgives.numbered.ordered⟩,
        ⟨hgives.freeList.nodup, hgives.freeList.mem_iff⟩, hgives.idAt, hgives.used, rfl, rfl⟩ hout
    · simp only [hused]
      exact h.gives hrefl hout

/-- A step does right when the buffers have room, and keeps the invariant. -/
theorem Inv.step (h : s.Inv) (hdistinct : Distinct op) :
    ((s.step types op).Right ↔ s.Safe types op) ∧ (s.Safe types op → (s.step types op).Inv) := by
  have hdone : (s.step types op).Inv → s.Safe types op →
      ((s.step types op).Right ↔ s.Safe types op) ∧ (s.Safe types op → (s.step types op).Inv) :=
    fun hinv hsafe => ⟨iff_of_true hinv.right hsafe, fun _ => hinv⟩
  by_cases hcrashed : s.crashed = true
  · refine hdone ?_ ?_
    · unfold BufferUse.step
      rw [if_pos hcrashed]
      exact h
    · cases op with
      | useBuffers seq buffers mmap =>
        exact fun hrunning => absurd (hcrashed.symm.trans hrunning) (by decide)
      | _ => trivial
  cases op with
  | addMem mem =>
    refine hdone ?_ trivial
    rw [BufferUse.step, if_neg hcrashed]
    obtain ⟨mems, heq⟩ := s.stream.addMem_eq mem
    rw [heq]
    exact ⟨⟨h.numbered.distinct, h.numbered.ordered⟩, ⟨h.freeList.nodup, h.freeList.mem_iff⟩,
      h.alloc, h.outstanding⟩
  | useBuffers seq buffers mmap =>
    rw [BufferUse.step, if_neg hcrashed]
    have hrunning : s.crashed = false := Bool.eq_false_iff.mpr hcrashed
    obtain ⟨hrun, hnot⟩ | ⟨stream, hrun, hreads, -⟩ :=
      @useBuffers_spec types mmap s.stream seq buffers
    · simp only [hrun]
      have hkept : ({ s with crashed := true } : BufferUse).Inv :=
        ⟨h.numbered, h.freeList, h.alloc, h.outstanding⟩
      exact ⟨iff_of_true hkept.right fun _ _ hreads => absurd hreads hnot, fun _ => hkept⟩
    · simp only [hrun]
      obtain ⟨hkeeps, hloses⟩ := h.useBuffers hdistinct hrun
      have hsafe : s.Safe types (.useBuffers seq buffers mmap) ↔ (s.stream.output = true →
          s.stream.Fits (addable mmap s.stream.memIds buffers).length) :=
        ⟨fun hall hout => hall hrunning hout hreads, fun hall _ hout _ => hall hout⟩
      rw [hsafe]
      refine ⟨⟨fun hright hout => ?_, fun hfits => (hkeeps hfits).right⟩, hkeeps⟩
      by_contra hnot
      exact hloses hout hnot hright
  | slots outputs =>
    refine hdone ?_ trivial
    rw [BufferUse.step, if_neg hcrashed]
    exact ⟨⟨h.numbered.distinct, h.numbered.ordered⟩, ⟨h.freeList.nodup, h.freeList.mem_iff⟩,
      h.alloc, h.outstanding⟩
  | event event =>
    refine hdone ?_ trivial
    rw [BufferUse.step, if_neg hcrashed]
    exact h.gives (gives_handleRtnodeEvent h.numbered h.freeList event) fun id hid => by
      simpa using hid
  | needBufferDone =>
    refine hdone ?_ trivial
    rw [BufferUse.step, if_neg hcrashed]
    exact ⟨⟨h.numbered.distinct, h.numbered.ordered⟩, ⟨h.freeList.nodup, h.freeList.mem_iff⟩,
      h.alloc, h.outstanding⟩
  | getEmptyBuffer =>
    refine hdone ?_ trivial
    rw [BufferUse.step, if_neg hcrashed]
    exact h
  | send id room =>
    refine hdone ?_ trivial
    rw [BufferUse.step, if_neg hcrashed]
    exact h.send id room
  | recycle id room =>
    refine hdone ?_ trivial
    rw [BufferUse.step, if_neg hcrashed]
    exact h.recycle id room

def exampleTypes : StreamTypes := ⟨7, 8, 9, 4, 5, 6, by decide, by decide⟩

def exampleMem : MemId := ⟨0, 3, 0, none, 0, 4096⟩

/-- `n` buffers in one memory. -/
def exampleBuffers (n : Nat) : List PinosClientNodeBuffer :=
  (List.range n).map fun i => ⟨0, 0, .ofNat i, []⟩

end BufferUse
end Pinos
