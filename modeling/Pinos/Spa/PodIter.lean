import Pinos.Spa.Pod

/-
`spa/pod-iter.h`: walking over the pods inside a pod.
-/

namespace Pinos

open ByteMem

def sizeofSpaPODObject : Nat := 16

/-- An address of 0 is `NULL`. -/
structure SpaPODIter where
  data : Nat
  size : Nat
  offset : Nat
  deriving DecidableEq, Repr

namespace SpaPODIter

def contents (data size : Nat) : SpaPODIter :=
  { data := data, size := size, offset := 0 }

/-- `SPA_POD_CONTENTS_SIZE` as stored in a `uint32_t`: the subtraction is one of
`size_t` and wraps when the pod is smaller than its type. -/
def contentsSize (m : Mem) (pod sizeofType : Nat) : Nat :=
  toU32 (podSize m pod + 2 ^ 64 - sizeofType)

def structContents (m : Mem) (pod : Nat) : SpaPODIter :=
  contents (pod + sizeofSpaPOD) (contentsSize m pod sizeofSpaPOD)

def objectContents (m : Mem) (pod : Nat) : SpaPODIter :=
  contents (pod + sizeofSpaPODObject) (contentsSize m pod sizeofSpaPODObject)

/-- `spa_pod_iter_struct`; the iterator is set only when the call succeeds. -/
def struct (m : Mem) (data size : Nat) : Option SpaPODIter :=
  if data = 0 ∨ size < 8 ∨ size < podSize m data ∨ podType m data ≠ SpaPODType.struct.code then
    none
  else some (structContents m data)

/-- `spa_pod_iter_object`, which reads the header whatever `size` is. -/
def object (m : Mem) (data size : Nat) : Option SpaPODIter :=
  if data = 0 ∨ size < podSize m data ∨ podType m data ≠ SpaPODType.object.code then none
  else some (objectContents m data)

def pod (m : Mem) (pod : Nat) : SpaPODIter × Bool :=
  if podType m pod = SpaPODType.struct.code then (structContents m pod, true)
  else if podType m pod = SpaPODType.object.code then (objectContents m pod, true)
  else (contents 0 0, false)

def hasNext (m : Mem) (iter : SpaPODIter) : Bool :=
  decide (toU32 (iter.offset + 8) ≤ iter.size) &&
    decide (podSize m (iter.data + iter.offset) ≤ iter.size)

/-- The pod at the current position and the iterator moved past it. -/
def next (m : Mem) (iter : SpaPODIter) : Nat × SpaPODIter :=
  let res := iter.data + iter.offset
  (res, { iter with offset := toU32 (iter.offset + roundUpN (podSize m res) 8) })

theorem structContents_eq (m : Mem) (p : Nat) :
    structContents m p = contents (p + 8) (podBodySize m p) := by
  have h : podBodySize m p < 2 ^ 32 := m.u32_lt p
  have hsize : contentsSize m p sizeofSpaPOD = podBodySize m p := by
    unfold contentsSize podSize sizeofSpaPOD toU32
    omega
  rw [structContents, hsize, sizeofSpaPOD]

theorem objectContents_eq {m : Mem} {p : Nat} (h : 8 ≤ podBodySize m p) :
    objectContents m p = contents (p + 16) (podBodySize m p - 8) := by
  have hlt : podBodySize m p < 2 ^ 32 := m.u32_lt p
  have hsize : contentsSize m p sizeofSpaPODObject = podBodySize m p - 8 := by
    unfold contentsSize podSize sizeofSpaPOD sizeofSpaPODObject toU32
    omega
  rw [objectContents, hsize, sizeofSpaPODObject]

theorem pod_struct {m : Mem} {p : Nat} (h : podType m p = SpaPODType.struct.code) :
    pod m p = (structContents m p, true) := by
  rw [pod, if_pos h]

theorem pod_object {m : Mem} {p : Nat} (h : podType m p = SpaPODType.object.code) :
    pod m p = (objectContents m p, true) := by
  have hne : podType m p ≠ SpaPODType.struct.code := by
    rw [h]
    decide
  rw [pod, if_neg hne, if_pos h]

theorem pod_other {m : Mem} {p : Nat} (hs : podType m p ≠ SpaPODType.struct.code)
    (ho : podType m p ≠ SpaPODType.object.code) : pod m p = (contents 0 0, false) := by
  rw [pod, if_neg hs, if_neg ho]

/-! ## Over pods that follow each other -/

variable {m : Mem} {iter : SpaPODIter}

theorem hasNext_end (hend : iter.offset = iter.size) (hlt : iter.size + 8 < 2 ^ 32) :
    hasNext m iter = false := by
  have hover : ¬ toU32 (iter.offset + 8) ≤ iter.size := by
    rw [toU32_of_lt (by omega)]
    omega
  rw [hasNext, decide_eq_false hover, Bool.false_and]

/-- Reading back a pod that padding follows. -/
theorem holds_aligned {p : Nat} {t : SpaPODType} {body : List UInt8}
    (h : m.Holds p (Pod.aligned (Pod.withHeader t body)))
    (hlen : (Pod.aligned (Pod.withHeader t body)).length < 2 ^ 32) :
    podBodySize m p = body.length ∧ podType m p = t.code ∧ m.Holds (p + 8) body := by
  rw [Pod.length_aligned, Pod.length_withHeader] at hlen
  rw [Pod.aligned] at h
  exact Pod.holds_withHeader h.left (by omega)

/-- The pod an iterator stands at is the next one. -/
theorem next_holds {t : SpaPODType} {body : List UInt8}
    (h : m.Holds (iter.data + iter.offset) (Pod.aligned (Pod.withHeader t body)))
    (hfit : iter.offset + (Pod.aligned (Pod.withHeader t body)).length ≤ iter.size)
    (hlt : iter.size + 8 < 2 ^ 32) :
    hasNext m iter = true ∧ next m iter = (iter.data + iter.offset,
      { iter with offset := iter.offset + (Pod.aligned (Pod.withHeader t body)).length }) := by
  obtain ⟨hbody, -, -⟩ := holds_aligned h (by omega)
  have hlen : (Pod.aligned (Pod.withHeader t body)).length = roundUpN (8 + body.length) 8 := by
    rw [Pod.length_aligned, Pod.length_withHeader, roundUpN_eight]
  have hround := roundUpN_eight (8 + body.length)
  have hpod : podSize m (iter.data + iter.offset) = 8 + body.length := by
    rw [podSize, hbody, sizeofSpaPOD]
  refine ⟨?_, ?_⟩
  · rw [hasNext, hpod, toU32_of_lt (by omega), decide_eq_true (by omega),
      decide_eq_true (by omega), Bool.and_self]
  · simp only [next, hpod, ← hlen]
    rw [toU32_of_lt (by omega)]

/-! ## A whole walk -/

/-- What a reader finds at a pod it was given: where it is, and for a container
the pods that iterating it yielded and the offset at which the iteration ended. -/
inductive Visit where
  | leaf (pod type : Nat) (body : List UInt8)
  | struct (pod size : Nat) (contents : List Visit) (stop : Nat)
  | object (pod size id type : Nat) (contents : List Visit) (stop : Nat)

mutual
/-- Enter the pod with `spa_pod_iter_pod` and visit what is inside.  `none` means
that the walk did not end within the given number of steps. -/
def visit (m : Mem) : Nat → Nat → Option Visit
  | 0, _ => none
  | fuel + 1, p =>
    match pod m p with
    | (_, false) => some (.leaf p (podType m p) (m.read (p + 8) (podBodySize m p)))
    | (iter, true) =>
      match visitAll m fuel iter with
      | none => none
      | some (contents, stop) =>
        if podType m p = SpaPODType.struct.code then
          some (.struct p (podBodySize m p) contents stop)
        else some (.object p (podBodySize m p) (m.u32 (p + 8)) (m.u32 (p + 12)) contents stop)

/-- `while (spa_pod_iter_has_next (&iter)) visit (spa_pod_iter_next (&iter));` -/
def visitAll (m : Mem) : Nat → SpaPODIter → Option (List Visit × Nat)
  | 0, _ => none
  | fuel + 1, iter =>
    if hasNext m iter then
      match visit m fuel (next m iter).1, visitAll m fuel (next m iter).2 with
      | some v, some (rest, stop) => some (v :: rest, stop)
      | _, _ => none
    else some ([], iter.offset)
end

theorem visit_struct {m : Mem} {p fuel : Nat} {vs : List Visit} {stop : Nat}
    (h : podType m p = SpaPODType.struct.code)
    (hall : visitAll m fuel (structContents m p) = some (vs, stop)) :
    visit m (fuel + 1) p = some (.struct p (podBodySize m p) vs stop) := by
  rw [visit, pod_struct h]
  simp only [hall, if_pos h]

theorem visit_object {m : Mem} {p fuel : Nat} {vs : List Visit} {stop : Nat}
    (h : podType m p = SpaPODType.object.code)
    (hall : visitAll m fuel (objectContents m p) = some (vs, stop)) :
    visit m (fuel + 1) p =
      some (.object p (podBodySize m p) (m.u32 (p + 8)) (m.u32 (p + 12)) vs stop) := by
  have hne : podType m p ≠ SpaPODType.struct.code := by
    rw [h]
    decide
  rw [visit, pod_object h]
  simp only [hall, if_neg hne]

namespace Visit

def pod : Visit → Nat
  | leaf pod _ _ => pod
  | struct pod _ _ _ => pod
  | object pod _ _ _ _ _ => pod

def size : Visit → Nat
  | leaf _ _ body => body.length
  | struct _ size _ _ => size
  | object _ size _ _ _ _ => size

/-- The pods follow each other from `first` to `last`, with padding up to a
multiple of 8 between them and nothing else. -/
def Covers : List Visit → Nat → Nat → Prop
  | [], first, last => first = last
  | v :: rest, first, last => v.pod = first ∧ Covers rest (first + roundUpN (8 + v.size) 8) last

/-- The children of a container fill the `size` bytes from `first` on, each of
them inside, and the iteration over them ended exactly there. -/
structure Fills (contents : List Visit) (first size stop : Nat) : Prop where
  covers : Covers contents first (first + size)
  inside : ∀ v ∈ contents, first ≤ v.pod ∧ v.pod + 8 + v.size ≤ first + size
  stop : stop = size

/-- Every container in the tree is filled by its children. -/
inductive Tight : Visit → Prop
  | leaf (pod type : Nat) (body : List UInt8) : Tight (leaf pod type body)
  | struct {pod size : Nat} {contents : List Visit} {stop : Nat} :
      (∀ v ∈ contents, Tight v) → Fills contents (pod + 8) size stop →
      Tight (struct pod size contents stop)
  | object {pod size id type : Nat} {contents : List Visit} {stop : Nat} :
      (∀ v ∈ contents, Tight v) → Fills contents (pod + 16) (size - 8) stop → 8 ≤ size →
      Tight (object pod size id type contents stop)

theorem Covers.le {vs : List Visit} {first last : Nat} (h : Covers vs first last) :
    first ≤ last := by
  induction vs generalizing first with
  | nil => exact Nat.le_of_eq h
  | cons v rest ih =>
    have := ih h.2
    omega

theorem Covers.inside {vs : List Visit} {first last : Nat} (h : Covers vs first last) :
    ∀ v ∈ vs, first ≤ v.pod ∧ v.pod + 8 + v.size ≤ last := by
  induction vs generalizing first with
  | nil => simp
  | cons v rest ih =>
    intro w hw
    have hrest := h.2.le
    have hhead := h.1
    rw [roundUpN_eight] at hrest
    rcases List.mem_cons.mp hw with rfl | hw
    · omega
    · have := ih h.2 w hw
      rw [roundUpN_eight] at this
      omega

theorem Covers.fills {vs : List Visit} {first size : Nat} (h : Covers vs first (first + size)) :
    Fills vs first size size :=
  ⟨h, h.inside, rfl⟩

end Visit
end SpaPODIter
end Pinos
