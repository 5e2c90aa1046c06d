import Mathlib.Data.List.Find
import Pinos.Spa.PodIter

/-
`spa/pod-utils.h`: walking over the pods in an object and looking up its properties.

The macros compute where a walk ends from the pod, not from where the walk begins.
`SPA_POD_CONTENTS_FOREACH` adds the size of the whole pod to the first child, so its walk goes on
for as many bytes behind the pod as there are before the first child.
-/

namespace Pinos

open ByteMem

/-! ## The walks -/

/-- `SPA_POD_FOREACH`: where the pods are that begin before `last`. -/
def podForeach (m : Mem) (iter last : Nat) : List Nat :=
  if iter < last then iter :: podForeach m (iter + roundUpN (podSize m iter) 8) last else []
termination_by last - iter
decreasing_by
  have hround := roundUpN_eight (podSize m iter)
  unfold podSize sizeofSpaPOD at *
  omega

/-- `SPA_POD_CONTENTS_FOREACH`. -/
def contentsForeach (m : Mem) (pod offset : Nat) : List Nat :=
  podForeach m (pod + offset) (pod + offset + podSize m pod)

/-- `sizeof (SpaPODObjectBody)`. -/
def sizeofSpaPODObjectBody : Nat := 8

/-- `SPA_POD_OBJECT_FOREACH`, by way of `SPA_POD_OBJECT_BODY_FOREACH`. -/
def objectForeach (m : Mem) (obj : Nat) : List Nat :=
  podForeach m (obj + sizeofSpaPOD + sizeofSpaPODObjectBody)
    (obj + sizeofSpaPOD + podBodySize m obj)

/-- Whether `((SpaPODProp*)res)->body.key == key` of a pod that is a property. -/
def isPropAt (m : Mem) (key : UInt32) (res : Nat) : Bool :=
  podType m res = SpaPODType.prop.code && m.u32 (res + 8) = key.toNat

/-- `spa_pod_contents_find_prop`. -/
def contentsFindProp (m : Mem) (pod offset : Nat) (key : UInt32) : Option Nat :=
  (contentsForeach m pod offset).find? (isPropAt m key)

/-- `spa_pod_object_find_prop`. -/
def objectFindProp (m : Mem) (obj : Nat) (key : UInt32) : Option Nat :=
  contentsFindProp m obj sizeofSpaPODObject key

theorem podForeach_of_le {m : Mem} {iter last : Nat} (h : last ≤ iter) :
    podForeach m iter last = [] := by
  rw [podForeach, if_neg (Nat.not_lt.mpr h)]

theorem podForeach_of_lt {m : Mem} {iter last : Nat} (h : iter < last) :
    podForeach m iter last = iter :: podForeach m (iter + roundUpN (podSize m iter) 8) last := by
  rw [podForeach, if_pos h]

/-! ## The pods that are in a container -/

namespace Pod

/-- Pods that follow each other from an address on, each with where it is. -/
def placed (a : Nat) : List Pod → List (Nat × Pod)
  | [] => []
  | p :: rest => (a, p) :: placed (a + (aligned p.encode).length) rest

/-- Where the pods are. -/
def places (a : Nat) (ps : List Pod) : List Nat := (placed a ps).map Prod.fst

/-- A property with the key. -/
def isProp (key : UInt32) : Pod → Bool
  | prop k _ _ _ => k == key
  | _ => false

/-- Where the first property with the key is. -/
def findProp (a : Nat) (ps : List Pod) (key : UInt32) : Option Nat :=
  ((placed a ps).find? fun c => c.2.isProp key).map Prod.fst

variable {m : Mem} {a : Nat} {ps : List Pod}

theorem mem_of_mem_placed {c : Nat × Pod} (h : c ∈ placed a ps) : c.2 ∈ ps := by
  induction ps generalizing a with
  | nil => simp [placed] at h
  | cons p rest ih =>
    rw [placed, List.mem_cons] at h
    rcases h with rfl | h
    · simp
    · simp [ih h]

theorem exists_placed {p : Pod} (h : p ∈ ps) : ∃ q, (q, p) ∈ placed a ps := by
  induction ps generalizing a with
  | nil => simp at h
  | cons p' rest ih =>
    rcases List.mem_cons.mp h with rfl | h
    · exact ⟨a, by simp [placed]⟩
    · obtain ⟨q, hq⟩ := ih (a := a + (aligned p'.encode).length) h
      exact ⟨q, by simp [placed, hq]⟩

/-- Each pod is spelled where it is. -/
theorem holds_of_mem_placed (hm : m.Holds a (contentsBytes ps)) {c : Nat × Pod}
    (h : c ∈ placed a ps) : m.Holds c.1 c.2.encode := by
  induction ps generalizing a with
  | nil => simp [placed] at h
  | cons p rest ih =>
    rw [contentsBytes_cons] at hm
    rw [placed, List.mem_cons] at h
    rcases h with rfl | h
    · have hp := hm.left
      rw [aligned] at hp
      exact hp.left
    · exact ih hm.right h

/-- What a property is to a reader who looks for its key. -/
theorem isPropAt_of_holds {p : Pod} (hwf : p.WellFormed) (hm : m.Holds a p.encode)
    (key : UInt32) : isPropAt m key a = p.isProp key := by
  obtain ⟨-, htype, hbody⟩ := holds_withHeader hm hwf.length_body
  rw [isPropAt, htype]
  cases p with
  | prop k flags value alternatives =>
    simp only [body, List.append_assoc] at hbody
    have hkey : m.u32 (a + 8) = k.toNat := by
      have := hbody.left.u32
      rwa [Nat.mod_eq_of_lt k.toNat_lt] at this
    rw [hkey, isProp, type, decide_eq_true rfl, Bool.true_and, Bool.eq_iff_iff]
    simp [UInt32.toNat_inj]
  | leaf l =>
    have hne : l.type ≠ .prop := fun h => by
      have := l.isLeaf
      rw [h] at this
      simp [SpaPODType.isLeaf] at this
    have hcode : l.type.code ≠ SpaPODType.prop.code := fun h => hne (SpaPODType.code_inj h)
    simp [isProp, type, hcode]
  | array => simp [isProp, type, SpaPODType.code]
  | struct => simp [isProp, type, SpaPODType.code]
  | object => simp [isProp, type, SpaPODType.code]

/-- A walk sees the pods that are there, and goes on behind them. -/
theorem podForeach_contents (hwf : ∀ p ∈ ps, p.WellFormed) (hm : m.Holds a (contentsBytes ps))
    {last : Nat} (hlast : a + (contentsBytes ps).length ≤ last) :
    podForeach m a last =
      places a ps ++ podForeach m (a + (contentsBytes ps).length) last := by
  induction ps generalizing a with
  | nil => simp [places, placed, contentsBytes]
  | cons p rest ih =>
    rw [contentsBytes_cons, List.length_append] at hlast
    rw [contentsBytes_cons] at hm
    have hp : p.WellFormed := hwf p (by simp)
    have hhead := hm.left
    rw [aligned] at hhead
    obtain ⟨hsize, -, -⟩ := holds_withHeader hhead.left hp.length_body
    have hround : roundUpN (podSize m a) 8 = (aligned p.encode).length := by
      rw [podSize, hsize, sizeofSpaPOD, roundUpN_eight, length_aligned, length_encode]
    have hpos : 0 < (aligned p.encode).length := by
      rw [length_aligned, length_encode]
      omega
    have hwalk := ih (a := a + (aligned p.encode).length) (fun q hq => hwf q (by simp [hq]))
      hm.right (by omega)
    rw [podForeach_of_lt (by omega), hround, hwalk]
    simp [places, placed, contentsBytes_cons, Nat.add_assoc]

/-- Among the pods that are there, a reader finds the first property with the key. -/
theorem find?_places (hwf : ∀ p ∈ ps, p.WellFormed) (hm : m.Holds a (contentsBytes ps))
    (key : UInt32) : (places a ps).find? (isPropAt m key) = findProp a ps key := by
  have hsame : ∀ c ∈ placed a ps, isPropAt m key c.1 = c.2.isProp key := fun c hc =>
    isPropAt_of_holds (hwf c.2 (mem_of_mem_placed hc)) (holds_of_mem_placed hm hc) key
  rw [places, List.find?_map, findProp]
  congr 1
  exact List.find?_congr hsame

theorem findProp_eq_none {key : UInt32} :
    findProp a ps key = none ↔ ∀ p ∈ ps, p.isProp key = false := by
  rw [findProp, Option.map_eq_none_iff, List.find?_eq_none]
  constructor
  · intro h p hp
    obtain ⟨q, hq⟩ := exists_placed (a := a) hp
    simpa using h (q, p) hq
  · intro h c hc
    simp [h c.2 (mem_of_mem_placed hc)]

theorem contentsBytes_append (ps qs : List Pod) :
    contentsBytes (ps ++ qs) = contentsBytes ps ++ contentsBytes qs := by
  induction ps with
  | nil => simp [contentsBytes]
  | cons p rest ih => simp [contentsBytes_cons, ih]

/-- The offset from an object of the pods that stand behind the first few of it.
`sizeof (SpaPODObject)` is that of all of them, `sizeof (SpaFormat)` that of the pods behind the
media types. -/
def offsetBehind (front : List Pod) : Nat := sizeofSpaPODObject + (contentsBytes front).length

theorem offsetBehind_pos (front : List Pod) : 0 < offsetBehind front := by
  unfold offsetBehind sizeofSpaPODObject
  omega

end Pod

/-! ## The pods of an object -/

/-- What a contents walk takes for pods behind the end of the pod. -/
def behindPod (m : Mem) (pod offset : Nat) : List Nat :=
  podForeach m (pod + podSize m pod) (pod + podSize m pod + offset)

theorem behindPod_ne_nil (m : Mem) (pod : Nat) {offset : Nat} (h : 0 < offset) :
    behindPod m pod offset ≠ [] := by
  rw [behindPod, podForeach_of_lt (by omega)]
  simp

section Object

open Pod

variable {m : Mem} {a : Nat} {id type : UInt32} {front rest : List Pod}

/-- Reading back an object. -/
theorem holds_object {contents : List Pod} (hwf : (object id type contents).WellFormed)
    (hm : m.Holds a (object id type contents).encode) :
    podBodySize m a = 8 + (contentsBytes contents).length ∧
      m.Holds (a + sizeofSpaPODObject) (contentsBytes contents) := by
  obtain ⟨hsize, -, hbody⟩ := holds_withHeader hm hwf.length_body
  rw [body] at hsize hbody
  refine ⟨by simp [hsize]; omega, ?_⟩
  have hcontents := hbody.right
  simpa [sizeofSpaPODObject, Nat.add_assoc] using hcontents

/-- The walk over an object ends with its last pod. -/
theorem objectForeach_object {contents : List Pod} (hwf : (object id type contents).WellFormed)
    (hm : m.Holds a (object id type contents).encode) :
    objectForeach m a = places (a + sizeofSpaPODObject) contents := by
  obtain ⟨hsize, hcontents⟩ := holds_object hwf hm
  have hwalk := @podForeach_contents m (a + sizeofSpaPODObject) contents (by cases hwf; assumption)
    hcontents (a + sizeofSpaPODObject + (contentsBytes contents).length) (Nat.le_refl _)
  rw [podForeach_of_le (Nat.le_refl _), List.append_nil] at hwalk
  have hend : a + sizeofSpaPOD + podBodySize m a =
      a + sizeofSpaPODObject + (contentsBytes contents).length := by
    rw [hsize, sizeofSpaPOD, sizeofSpaPODObject]
    omega
  rw [objectForeach, hend, ← hwalk]
  rfl

/-- The same from one of its pods on. -/
theorem holds_behind (hwf : (object id type (front ++ rest)).WellFormed)
    (hm : m.Holds a (object id type (front ++ rest)).encode) :
    (∀ p ∈ rest, p.WellFormed) ∧ m.Holds (a + offsetBehind front) (contentsBytes rest) := by
  have hcontents := (holds_object hwf hm).2
  rw [contentsBytes_append] at hcontents
  cases hwf with
  | object _ _ _ hall _ =>
    exact ⟨fun p hp => hall p (by simp [hp]), by
      simpa [offsetBehind, Nat.add_assoc] using hcontents.right⟩

/-- A contents walk goes on behind the object. -/
theorem contentsForeach_object (hwf : (object id type (front ++ rest)).WellFormed)
    (hm : m.Holds a (object id type (front ++ rest)).encode) :
    contentsForeach m a (offsetBehind front) =
      places (a + offsetBehind front) rest ++ behindPod m a (offsetBehind front) := by
  obtain ⟨hsize, -⟩ := holds_object hwf hm
  obtain ⟨hall, hrest⟩ := holds_behind hwf hm
  have hend : a + offsetBehind front + (contentsBytes rest).length = a + podSize m a := by
    rw [podSize, hsize, contentsBytes_append, List.length_append, offsetBehind, sizeofSpaPOD,
      sizeofSpaPODObject]
    omega
  have hwalk := @podForeach_contents m (a + offsetBehind front) rest hall hrest
    (a + offsetBehind front + podSize m a) (by omega)
  rw [contentsForeach, hwalk, hend, behindPod]
  congr 2
  omega

/-- A lookup finds the first property of the object with the key, or else one behind it. -/
theorem contentsFindProp_object (hwf : (object id type (front ++ rest)).WellFormed)
    (hm : m.Holds a (object id type (front ++ rest)).encode) (key : UInt32) :
    contentsFindProp m a (offsetBehind front) key =
      (findProp (a + offsetBehind front) rest key).or
        ((behindPod m a (offsetBehind front)).find? (isPropAt m key)) := by
  obtain ⟨hall, hrest⟩ := holds_behind hwf hm
  rw [contentsFindProp, contentsForeach_object hwf hm, List.find?_append,
    find?_places hall hrest]

end Object
end Pinos
