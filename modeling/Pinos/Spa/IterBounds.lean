import Pinos.Spa.PodIter

/-
Iterating over bytes nobody has checked.

`At` collects the iterators a reader can come to hold from a pod it opened.  A
pod that such an iterator returns lies inside its parent exactly when the sizes
found in the bytes are `Ordered`, a condition that speaks of the bytes alone.
-/

namespace Pinos
namespace SpaPODIter

open ByteMem

/-- The ways to start: the two checked calls and `spa_pod_iter_pod` on a pod that
is known to lie in the buffer. -/
inductive Opening
  | struct
  | object
  | pod

def Opening.run (m : Mem) (data size : Nat) : Opening → Option SpaPODIter
  | .struct => SpaPODIter.struct m data size
  | .object => SpaPODIter.object m data size
  | .pod =>
    if podSize m data ≤ size ∧ (SpaPODIter.pod m data).2 = true then
      some (SpaPODIter.pod m data).1
    else none

/-- `At m root start parent iter`: a reader that was given `start` for `root` can
hold `iter` over the contents of `parent`. -/
inductive At (m : Mem) (root : Nat) (start : SpaPODIter) : Nat → SpaPODIter → Prop
  | root : At m root start root start
  | next {parent : Nat} {iter : SpaPODIter} : At m root start parent iter →
      hasNext m iter = true → At m root start parent (next m iter).2
  | enter {parent : Nat} {iter : SpaPODIter} : At m root start parent iter →
      hasNext m iter = true → (SpaPODIter.pod m (next m iter).1).2 = true →
      At m root start (next m iter).1 (SpaPODIter.pod m (next m iter).1).1

/-- The bytes in front of the contents of a container. -/
def contentsOffset (m : Mem) (p : Nat) : Nat :=
  if podType m p = SpaPODType.object.code then sizeofSpaPODObject else sizeofSpaPOD

structure Inside (m : Mem) (parent p : Nat) : Prop where
  after : parent + contentsOffset m parent ≤ p
  before : p + podSize m p ≤ parent + podSize m parent

/-! ## The sizes in the bytes -/

def isContainer (m : Mem) (p : Nat) : Prop :=
  podType m p = SpaPODType.struct.code ∨ podType m p = SpaPODType.object.code

/-- How many bytes of the body of `p` are contents. -/
def room (m : Mem) (p : Nat) : Nat := podSize m p - contentsOffset m p

def place (m : Mem) (p offset : Nat) : Nat := p + contentsOffset m p + offset

/-- The places where a pod can begin: at the start of a container's contents and
behind a pod that fits what is left of them. -/
inductive Place (m : Mem) (root : Nat) : Nat → Nat → Prop
  | root : Place m root root 0
  | after {p offset : Nat} : Place m root p offset →
      offset + podSize m (place m p offset) ≤ room m p →
      Place m root p (offset + roundUpN (podSize m (place m p offset)) 8)
  | inner {p offset : Nat} : Place m root p offset →
      offset + podSize m (place m p offset) ≤ room m p → isContainer m (place m p offset) →
      Place m root (place m p offset) 0

/-- No pod has a size between the room its predecessors left and the whole room
of its parent; an object has a body for its id and type; and nothing ends in the
last 8 bytes below `2 ^ 32`. -/
structure Ordered (m : Mem) (root : Nat) : Prop where
  sizes {p offset : Nat} : Place m root p offset → offset + 8 ≤ room m p →
    offset + podSize m (place m p offset) ≤ room m p ∨
      room m p < podSize m (place m p offset)
  objects {p : Nat} : Place m root p 0 → podType m p = SpaPODType.object.code →
    8 ≤ podBodySize m p ∨ 2 ^ 32 - 8 + podBodySize m p < podSize m (p + sizeofSpaPODObject)
  ends {p : Nat} : Place m root p (2 ^ 32 - 8) →
    room m p < podSize m (place m p (2 ^ 32 - 8))

variable {m : Mem} {root p offset size : Nat} {start iter : SpaPODIter}

/-- The iterator over the contents of `p` at `offset`, when the size of `p` is large
enough for its type. -/
def iterAt (m : Mem) (p offset : Nat) : SpaPODIter :=
  { data := p + contentsOffset m p, size := room m p, offset := offset }

theorem contentsOffset_object (h : podType m p = SpaPODType.object.code) :
    contentsOffset m p = 16 := by
  rw [contentsOffset, if_pos h, sizeofSpaPODObject]

theorem contentsOffset_struct (h : podType m p = SpaPODType.struct.code) :
    contentsOffset m p = 8 := by
  have hne : podType m p ≠ SpaPODType.object.code := by
    rw [h]
    decide
  rw [contentsOffset, if_neg hne, sizeofSpaPOD]

theorem contentsOffset_ge (m : Mem) (p : Nat) : 8 ≤ contentsOffset m p := by
  unfold contentsOffset
  split <;> decide

/-- Entering a container with a large enough body. -/
theorem pod_iterAt (h : isContainer m p)
    (hbody : podType m p = SpaPODType.object.code → 8 ≤ podBodySize m p) :
    pod m p = (iterAt m p 0, true) := by
  rcases h with hs | ho
  · rw [pod_struct hs, structContents_eq, iterAt, room, contentsOffset_struct hs, podSize,
      sizeofSpaPOD, Nat.add_sub_cancel_left, contents]
  · rw [pod_object ho, objectContents_eq (hbody ho), iterAt, room, contentsOffset_object ho,
      podSize, sizeofSpaPOD, contents]
    congr 2
    omega

/-- Entering an object without room for its id and type. -/
theorem pod_short (ho : podType m p = SpaPODType.object.code) (h : podBodySize m p < 8) :
    pod m p = (contents (p + 16) (2 ^ 32 - 8 + podBodySize m p), true) := by
  have hsize : contentsSize m p sizeofSpaPODObject = 2 ^ 32 - 8 + podBodySize m p := by
    unfold contentsSize podSize sizeofSpaPOD sizeofSpaPODObject toU32
    omega
  rw [pod_object ho, objectContents, hsize, sizeofSpaPODObject]

/-- All three calls give the iterator that `spa_pod_iter_pod` gives. -/
theorem run_some {how : Opening} (h : how.run m root size = some start) :
    isContainer m root ∧ podSize m root ≤ size ∧ (pod m root) = (start, true) := by
  cases how with
  | struct =>
    simp only [Opening.run, SpaPODIter.struct] at h
    split at h
    · cases h
    · next hc =>
      have hs : podType m root = SpaPODType.struct.code := by
        by_contra hne
        exact hc (Or.inr (Or.inr (Or.inr hne)))
      cases h
      exact ⟨Or.inl hs, by omega, pod_struct hs⟩
  | object =>
    simp only [Opening.run, SpaPODIter.object] at h
    split at h
    · cases h
    · next hc =>
      have ho : podType m root = SpaPODType.object.code := by
        by_contra hne
        exact hc (Or.inr (Or.inr hne))
      cases h
      exact ⟨Or.inr ho, by omega, pod_object ho⟩
  | pod =>
    simp only [Opening.run] at h
    split at h
    · next hc =>
      cases h
      refine ⟨?_, hc.1, Prod.ext rfl hc.2⟩
      by_contra hn
      have hs : podType m root ≠ SpaPODType.struct.code := fun h => hn (Or.inl h)
      have ho : podType m root ≠ SpaPODType.object.code := fun h => hn (Or.inr h)
      rw [pod_other hs ho] at hc
      exact absurd hc.2 (by decide)
    · cases h

/-! ## Places -/

theorem Place.container (h : Place m root p offset) (hroot : isContainer m root) :
    isContainer m p := by
  induction h with
  | root => exact hroot
  | after _ _ ih => exact ih
  | inner _ _ hc _ => exact hc

theorem Place.aligned (h : Place m root p offset) : offset % 8 = 0 := by
  induction h with
  | root => rfl
  | after _ _ ih =>
    unfold roundUpN
    omega
  | inner _ _ _ _ => rfl

/-- Containers further in are smaller, so offsets do not wrap. -/
theorem Place.small (h : Place m root p offset) (hroot : podSize m root < 2 ^ 32) :
    podSize m p < 2 ^ 32 ∧ offset ≤ 2 ^ 32 - 8 := by
  induction h with
  | root => exact ⟨hroot, by omega⟩
  | @after p offset hp hfit ih =>
    refine ⟨ih.1, ?_⟩
    have hal := hp.aligned
    have hge := contentsOffset_ge m p
    unfold room at hfit
    unfold roundUpN
    omega
  | inner _ hfit _ ih =>
    unfold room at hfit
    exact ⟨by omega, by omega⟩

theorem Place.podSize_le (h : Place m root p offset) :
    root ≤ p ∧ p + podSize m p ≤ root + podSize m root := by
  induction h with
  | root => exact ⟨Nat.le_refl _, Nat.le_refl _⟩
  | after _ _ ih => exact ih
  | @inner p offset _ hfit _ ih =>
    have hge := contentsOffset_ge m p
    have hpos : 8 ≤ podSize m (place m p offset) := by
      unfold podSize sizeofSpaPOD
      omega
    unfold room at hfit
    unfold place at hfit hpos ⊢
    omega

theorem inside_place (h : offset + podSize m (place m p offset) ≤ room m p) :
    Inside m p (place m p offset) := by
  have hpos : 8 ≤ podSize m (place m p offset) := by
    unfold podSize sizeofSpaPOD
    omega
  refine ⟨Nat.le_add_right _ _, ?_⟩
  unfold room at h
  unfold place at h hpos ⊢
  omega

theorem next_iterAt (h : Place m root p offset) (hroot : podSize m root < 2 ^ 32)
    (hfit : offset + podSize m (place m p offset) ≤ room m p) :
    next m (iterAt m p offset) =
      (place m p offset, iterAt m p (offset + roundUpN (podSize m (place m p offset)) 8)) := by
  have hlt := ((Place.after h hfit).small hroot).2
  show (place m p offset, { iterAt m p offset with
    offset := toU32 (offset + roundUpN (podSize m (place m p offset)) 8) }) = _
  rw [toU32_of_lt (by omega)]
  rfl

theorem hasNext_iterAt (h : Place m root p offset) (hroot : podSize m root < 2 ^ 32) :
    hasNext m (iterAt m p offset) = true ↔
      (offset + 8 ≤ room m p ∨ offset = 2 ^ 32 - 8) ∧
        podSize m (place m p offset) ≤ room m p := by
  have hlt := (h.small hroot).2
  have hal := h.aligned
  have hdata : (iterAt m p offset).data + (iterAt m p offset).offset = place m p offset := rfl
  have hpod := (h.small hroot).1
  have hroom : room m p < 2 ^ 32 := by
    unfold room
    omega
  rw [hasNext, hdata, Bool.and_eq_true, decide_eq_true_iff, decide_eq_true_iff]
  have hwrap : toU32 ((iterAt m p offset).offset + 8) ≤ (iterAt m p offset).size ↔
      (offset + 8 ≤ room m p ∨ offset = 2 ^ 32 - 8) := by
    show toU32 (offset + 8) ≤ room m p ↔ _
    unfold toU32
    omega
  rw [hwrap]
  exact Iff.rfl

/-! ## Both directions -/

/-- An object too small for its own fields. -/
def Short (m : Mem) (p : Nat) : Prop :=
  podType m p = SpaPODType.object.code ∧ podBodySize m p < 8

theorem room_short (h : Short m p) : room m p = 0 := by
  have hbody := h.2
  rw [room, contentsOffset_object h.1, podSize, sizeofSpaPOD]
  omega

theorem pod_not_short (hc : isContainer m p) (h : ¬ Short m p) :
    pod m p = (iterAt m p 0, true) := by
  apply pod_iterAt hc
  intro ho
  by_contra hlt
  exact h ⟨ho, Nat.lt_of_not_le hlt⟩

theorem Ordered.fits (h : Ordered m root) (hp : Place m root p offset)
    (hroot : podSize m root < 2 ^ 32) (hnext : hasNext m (iterAt m p offset) = true) :
    offset + podSize m (place m p offset) ≤ room m p := by
  obtain ⟨hheader, hle⟩ := (hasNext_iterAt hp hroot).mp hnext
  rcases hheader with hheader | rfl
  · rcases h.sizes hp hheader with hfit | hbig
    · exact hfit
    · omega
  · have := h.ends hp
    omega

theorem Ordered.hasNext_short (h : Ordered m root) (hp : Place m root p 0) (hs : Short m p) :
    hasNext m (contents (p + 16) (2 ^ 32 - 8 + podBodySize m p)) = false := by
  have hbig : 2 ^ 32 - 8 + podBodySize m p < podSize m (p + 16) := by
    rcases h.objects hp hs.1 with hbody | hbig
    · exact absurd hs.2 (Nat.not_lt.mpr hbody)
    · exact hbig
  have hno : ¬ podSize m (p + 16 + 0) ≤ 2 ^ 32 - 8 + podBodySize m p := Nat.not_le.mpr hbig
  show (_ && decide (podSize m (p + 16 + 0) ≤ 2 ^ 32 - 8 + podBodySize m p)) = false
  rw [decide_eq_false hno, Bool.and_false]

/-- What a reader can hold while the sizes are in order. -/
theorem At.iterAt (h : Ordered m root) (hc : isContainer m root) (hroot : podSize m root < 2 ^ 32)
    (hstart : pod m root = (start, true)) (ha : At m root start p iter)
    (hnext : hasNext m iter = true) :
    ∃ offset, Place m root p offset ∧ iter = SpaPODIter.iterAt m p offset := by
  -- whoever enters a container holds its first place, unless it is too short
  have enter : ∀ q it, Place m root q 0 → isContainer m q → pod m q = (it, true) →
      hasNext m it = true → ∃ offset, Place m root q offset ∧ it = SpaPODIter.iterAt m q offset := by
    intro q it hq hcq hpod hit
    by_cases hs : Short m q
    · rw [pod_short hs.1 hs.2] at hpod
      cases hpod
      rw [h.hasNext_short hq hs] at hit
      cases hit
    · rw [pod_not_short hcq hs] at hpod
      cases hpod
      exact ⟨0, hq, rfl⟩
  induction ha with
  | root => exact enter root start .root hc hstart hnext
  | next _ hprev ih =>
    obtain ⟨offset, hp, rfl⟩ := ih hprev
    have hfit := h.fits hp hroot hprev
    exact ⟨_, hp.after hfit, by rw [next_iterAt hp hroot hfit]⟩
  | @enter parent _ _ hprev hpod ih =>
    obtain ⟨offset, hp, rfl⟩ := ih hprev
    have hfit := h.fits hp hroot hprev
    rw [next_iterAt hp hroot hfit] at hpod hnext ⊢
    have hcq : isContainer m (place m parent offset) := by
      by_contra hn
      rw [pod_other (fun hs => hn (Or.inl hs)) (fun ho => hn (Or.inr ho))] at hpod
      cases hpod
    exact enter (place m parent offset) _ (hp.inner hfit hcq) hcq (Prod.ext rfl hpod) hnext

theorem not_short (hfit : offset + podSize m (place m p offset) ≤ room m p) : ¬ Short m p := by
  intro hs
  rw [room_short hs] at hfit
  unfold podSize sizeofSpaPOD at hfit
  omega

/-- Every place is one that a reader can get to. -/
theorem Place.at (hc : isContainer m root) (hroot : podSize m root < 2 ^ 32)
    (hstart : pod m root = (start, true)) (hp : Place m root p offset) :
    (¬ Short m p ∧ At m root start p (iterAt m p offset)) ∨
      (Short m p ∧ At m root start p (pod m p).1) := by
  have hasNext_fits : ∀ {q o}, Place m root q o → o + podSize m (place m q o) ≤ room m q →
      hasNext m (iterAt m q o) = true := by
    intro q o hq hfit
    have hpos : 8 ≤ podSize m (place m q o) := by
      unfold podSize sizeofSpaPOD
      omega
    exact (hasNext_iterAt hq hroot).mpr ⟨Or.inl (by omega), by omega⟩
  have enter : ∀ {q}, isContainer m q → At m root start q (pod m q).1 →
      (¬ Short m q ∧ At m root start q (iterAt m q 0)) ∨
        (Short m q ∧ At m root start q (pod m q).1) := by
    intro q hcq hq
    by_cases hs : Short m q
    · exact Or.inr ⟨hs, hq⟩
    · rw [pod_not_short hcq hs] at hq
      exact Or.inl ⟨hs, hq⟩
  induction hp with
  | root =>
    apply enter hc
    rw [hstart]
    exact .root
  | @after q o hq hfit ih =>
    rcases ih with ⟨hs, hat⟩ | ⟨hs, _⟩
    · have := hat.next (hasNext_fits hq hfit)
      rw [next_iterAt hq hroot hfit] at this
      exact Or.inl ⟨hs, this⟩
    · exact absurd hs (not_short hfit)
  | @inner q o hq hfit hcq ih =>
    rcases ih with ⟨_, hat⟩ | ⟨hs, _⟩
    · apply enter hcq
      have := hat.enter (hasNext_fits hq hfit)
      rw [next_iterAt hq hroot hfit] at this
      apply this
      rcases hcq with hs | ho
      · rw [pod_struct hs]
      · rw [pod_object ho]
    · exact absurd hs (not_short hfit)

/-- A pod returned at a place, in the words of the bytes. -/
theorem fits_of_inside (h : Inside m p (next m (iterAt m p offset)).1) :
    offset + podSize m (place m p offset) ≤ room m p := by
  have hbefore : place m p offset + podSize m (place m p offset) ≤ p + podSize m p := h.before
  unfold room
  unfold place at hbefore ⊢
  omega

/-- The pods a reader gets lie inside their parents, and with them in the buffer,
exactly when the sizes in the bytes are in order. -/
theorem inside_iff_ordered {how : Opening} (hsize : size < 2 ^ 32)
    (hopen : how.run m root size = some start) :
    (∀ parent iter, At m root start parent iter → hasNext m iter = true →
      Inside m parent (next m iter).1 ∧
        root ≤ (next m iter).1 ∧ (next m iter).1 + podSize m (next m iter).1 ≤ root + size) ↔
    Ordered m root := by
  obtain ⟨hc, hle, hstart⟩ := run_some hopen
  have hroot : podSize m root < 2 ^ 32 := by omega
  constructor
  · intro h
    have fits : ∀ {p offset}, Place m root p offset →
        (offset + 8 ≤ room m p ∨ offset = 2 ^ 32 - 8) ∧
          podSize m (place m p offset) ≤ room m p →
        offset + podSize m (place m p offset) ≤ room m p := by
      intro p offset hp hlet
      rcases hp.at hc hroot hstart with ⟨_, hat⟩ | ⟨hs, _⟩
      · exact fits_of_inside (h p _ hat ((hasNext_iterAt hp hroot).mpr hlet)).1
      · have hzero := room_short hs
        have hpos : 8 ≤ podSize m (place m p offset) := by
          unfold podSize sizeofSpaPOD
          omega
        omega
    refine ⟨?_, ?_, ?_⟩
    · intro p offset hp hheader
      by_cases hbig : room m p < podSize m (place m p offset)
      · exact Or.inr hbig
      · exact Or.inl (fits hp ⟨Or.inl hheader, Nat.le_of_not_lt hbig⟩)
    · intro p hp ho
      by_contra hn
      have hs : Short m p := ⟨ho, by omega⟩
      rcases hp.at hc hroot hstart with ⟨hns, _⟩ | ⟨_, hat⟩
      · exact hns hs
      · rw [pod_short hs.1 hs.2] at hat
        have hnext : hasNext m (contents (p + 16) (2 ^ 32 - 8 + podBodySize m p)) = true := by
          have hle : podSize m (p + 16) ≤ 2 ^ 32 - 8 + podBodySize m p := by
            unfold sizeofSpaPODObject at hn
            omega
          show (decide (8 ≤ 2 ^ 32 - 8 + podBodySize m p) && decide _) = true
          rw [decide_eq_true (by omega), Bool.true_and]
          exact decide_eq_true hle
        have hin := (h p _ hat hnext).1.before
        have hshort := hs.2
        change p + 16 + podSize m (p + 16) ≤ p + podSize m p at hin
        unfold podSize sizeofSpaPOD at hin
        omega
    · intro p hp
      by_contra hn
      have hfit := fits hp ⟨Or.inr rfl, Nat.le_of_not_lt hn⟩
      have hpod := (hp.small hroot).1
      have hpos : 8 ≤ podSize m (place m p (2 ^ 32 - 8)) := by
        unfold podSize sizeofSpaPOD
        omega
      unfold room at hfit
      omega
  · intro h parent iter hat hnext
    obtain ⟨offset, hp, rfl⟩ := hat.iterAt h hc hroot hstart hnext
    have hfit := h.fits hp hroot hnext
    rw [next_iterAt hp hroot hfit]
    have hin := inside_place hfit
    have hpar := hp.podSize_le
    have hafter := hin.after
    have hbefore := hin.before
    refine ⟨hin, ?_, ?_⟩
    · show root ≤ place m parent offset
      omega
    · show place m parent offset + podSize m (place m parent offset) ≤ root + size
      omega

/-- A struct of two pods, an empty one and one that is 8 bytes too long: together
24 bytes, and the second pod ends at 32. -/
def overhang : Mem :=
  Mem.write (fun _ => 0) 4096
    (SpaPOD.bytes ⟨16, .struct⟩ ++ SpaPOD.bytes ⟨0, .none⟩ ++ SpaPOD.bytes ⟨8, .long⟩)

theorem run_overhang :
    Opening.struct.run overhang 4096 24 = some (contents 4104 16) := by decide

theorem inside_iff_ordered_overhang :
    (∀ parent iter, At overhang 4096 (contents 4104 16) parent iter →
      hasNext overhang iter = true →
      Inside overhang parent (next overhang iter).1 ∧ 4096 ≤ (next overhang iter).1 ∧
        (next overhang iter).1 + podSize overhang (next overhang iter).1 ≤ 4096 + 24) ↔
    Ordered overhang 4096 :=
  inside_iff_ordered (by decide) run_overhang

/-- The second pod of `overhang` is returned although it ends behind the buffer. -/
theorem not_inside :
    ¬ ∀ (m : Mem) (root size : Nat) (how : Opening) (start : SpaPODIter), size < 2 ^ 32 →
      how.run m root size = some start → ∀ parent iter, At m root start parent iter →
      hasNext m iter = true → Inside m parent (next m iter).1 ∧
        root ≤ (next m iter).1 ∧
        (next m iter).1 + podSize m (next m iter).1 ≤ root + size := by
  intro h
  let second := (next overhang (contents 4104 16)).2
  have hfirst : hasNext overhang (contents 4104 16) = true := by decide
  have hat : At overhang 4096 (contents 4104 16) 4096 second := At.root.next hfirst
  have hnext : hasNext overhang second = true := by decide
  have hend : ¬ (next overhang second).1 + podSize overhang (next overhang second).1 ≤
      4096 + 24 := by decide
  exact hend (h overhang 4096 24 .struct _ (by decide) run_overhang 4096 second hat hnext).2.2

end SpaPODIter
end Pinos
