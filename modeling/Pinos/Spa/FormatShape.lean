import Mathlib.Data.List.Forall2
import Pinos.Spa.FormatFilter
import Pinos.Spa.PodIter

/-
Formats in memory, as an iterator of `spa/pod-iter.h` finds them.

The pods of a format are given by their types and bodies.  An iterator finds them one after
the other, so that two formats of the same bytes have the same pods, and the property that a
pod is can be read off again but for how its alternatives are cut into values.
-/

namespace Pinos

open ByteMem

/-! ## Iterating -/

namespace SpaPODIter

/-- The types and bodies of the pods that `spa_pod_iter_next` still returns.  `none` means
that there were more than so many. -/
def remaining (m : Mem) : Nat → SpaPODIter → Option (List (Nat × List UInt8))
  | 0, _ => none
  | fuel + 1, iter =>
    if hasNext m iter then
      let (res, iter) := next m iter
      (remaining m fuel iter).map fun rest =>
        (podType m res, m.read (res + 8) (podBodySize m res)) :: rest
    else some []

end SpaPODIter

/-- A pod by its type and its body. -/
abbrev PodBlock := SpaPODType × List UInt8

namespace PodBlock

def bytes (p : PodBlock) : List UInt8 := Pod.aligned (Pod.withHeader p.1 p.2)

/-- The same as it is read. -/
def coded (p : PodBlock) : Nat × List UInt8 := (p.1.code, p.2)

theorem coded_inj {p q : PodBlock} (h : p.coded = q.coded) : p = q := by
  obtain ⟨htype, hbody⟩ := Prod.ext_iff.mp h
  exact Prod.ext (SpaPODType.code_inj htype) hbody

/-- An iterator finds the pods that are there. -/
theorem remaining_blocks {m : Mem} {blocks : List PodBlock} {iter : SpaPODIter} {fuel : Nat}
    (h : m.Holds (iter.data + iter.offset) (blocks.flatMap bytes))
    (hsize : iter.size = iter.offset + (blocks.flatMap bytes).length)
    (hlt : iter.size + 8 < 2 ^ 32) (hfuel : blocks.length < fuel) :
    iter.remaining m fuel = some (blocks.map coded) := by
  induction blocks generalizing iter fuel with
  | nil =>
    obtain ⟨fuel, rfl⟩ := Nat.exists_eq_add_of_lt hfuel
    have hend : SpaPODIter.hasNext m iter = false :=
      SpaPODIter.hasNext_end (by simpa using hsize.symm) hlt
    simp [SpaPODIter.remaining, hend]
  | cons p blocks ih =>
    obtain ⟨fuel, rfl⟩ : ∃ k, fuel = k + 1 := ⟨fuel - 1, by omega⟩
    rw [List.flatMap_cons] at h hsize
    rw [List.length_append] at hsize
    have hlength : p.bytes.length = (Pod.aligned (Pod.withHeader p.1 p.2)).length := rfl
    obtain ⟨hmore, hnext⟩ := @SpaPODIter.next_holds m iter _ _ h.left (by omega) hlt
    obtain ⟨hbody, htype, hholds⟩ := SpaPODIter.holds_aligned h.left (by omega)
    have hread : m.read (iter.data + iter.offset + 8) p.2.length = p.2 := hholds
    have hrest := @ih { iter with offset := iter.offset + p.bytes.length } fuel
      (by rw [← Nat.add_assoc]; exact h.right) (by simp only; omega) hlt
      (by simp only [List.length_cons] at hfuel; omega)
    rw [SpaPODIter.remaining, if_pos hmore, hnext]
    simp only [← hlength, hrest, Option.map_some, htype, hbody, hread]
    rfl

end PodBlock

/-! ## The pods of a format -/

namespace FormatPod

def block : FormatPod → PodBlock
  | prop p => (.prop, (toLE 4 p.key.toNat ++ toLE 4 p.body.flags.toNat) ++ p.values)
  | other type body => (type, body)

theorem bytes_block (pod : FormatPod) : Pod.aligned pod.bytes = pod.block.bytes := by
  cases pod <;> rfl

end FormatPod

/-- What is asked of a property that is in a format: its values are of one size and not empty,
and a range has bounds. -/
structure PropPod.Regular (p : PropPod) : Prop where
  pos : 0 < p.body.value.length
  sized : ∀ a ∈ p.body.alternatives, a.length = p.body.value.length
  bounds : p.body.range = .minMax → 2 ≤ p.body.alternatives.length

theorem PropPod.WellFormed.regular {p : PropPod} (h : p.WellFormed) : p.Regular :=
  ⟨h.pos, h.sized, h.bounds⟩

/-- A format with the given pods behind the media types. -/
def formatBytes (id type mediaType mediaSubtype : UInt32) (contents : List FormatPod) :
    List UInt8 :=
  Pod.withHeader .object (formatFields id type mediaType mediaSubtype ++
    contents.flatMap fun pod => Pod.aligned pod.bytes)

/-- All pods of a format, the media types first. -/
def formatPods (mediaType mediaSubtype : UInt32) (contents : List FormatPod) : List PodBlock :=
  (.id, toLE 4 mediaType.toNat) :: (.id, toLE 4 mediaSubtype.toNat) ::
    contents.map FormatPod.block

section Format

variable {m : Mem} {a fuel : Nat} {id type mediaType mediaSubtype : UInt32}
  {contents : List FormatPod}

theorem length_formatBytes :
    (formatBytes id type mediaType mediaSubtype contents).length =
      48 + (contents.flatMap fun pod => Pod.aligned pod.bytes).length := by
  rw [formatBytes, Pod.length_withHeader, List.length_append, length_formatFields]
  omega

theorem formatBody_eq :
    formatFields id type mediaType mediaSubtype ++
        (contents.flatMap fun pod => Pod.aligned pod.bytes) =
      (toLE 4 id.toNat ++ toLE 4 type.toNat) ++
        (formatPods mediaType mediaSubtype contents).flatMap PodBlock.bytes := by
  have hcontents : (contents.flatMap fun pod => Pod.aligned pod.bytes) =
      (contents.map FormatPod.block).flatMap PodBlock.bytes := by
    rw [List.flatMap_map]
    exact List.flatMap_congr fun pod _ => pod.bytes_block
  rw [formatFields, formatPods, List.flatMap_cons, List.flatMap_cons, hcontents]
  simp only [List.append_assoc]
  rfl

/-- The pods are all there is to the bytes. -/
theorem formatBytes_congr {contents' : List FormatPod}
    (h : contents.map FormatPod.block = contents'.map FormatPod.block) :
    formatBytes id type mediaType mediaSubtype contents =
      formatBytes id type mediaType mediaSubtype contents' := by
  rw [formatBytes, formatBytes, formatBody_eq, formatBody_eq, formatPods, formatPods, h]

/-- `spa_pod_iter_pod` and then `spa_pod_iter_next` go over the pods of a format that is in
memory. -/
theorem remaining_formatPods
    (h : m.Holds a (formatBytes id type mediaType mediaSubtype contents))
    (hlt : (formatBytes id type mediaType mediaSubtype contents).length < 2 ^ 32)
    (hfuel : contents.length + 2 < fuel) :
    (SpaPODIter.pod m a).2 = true ∧ (SpaPODIter.pod m a).1.remaining m fuel =
      some ((formatPods mediaType mediaSubtype contents).map PodBlock.coded) := by
  have hwords : (toLE 4 id.toNat ++ toLE 4 type.toNat).length = 8 := by
    rw [List.length_append, length_toLE, length_toLE]
  rw [formatBytes, Pod.length_withHeader] at hlt
  obtain ⟨hbody, htype, hholds⟩ := Pod.holds_withHeader h (by omega)
  rw [formatBody_eq] at hbody hholds hlt
  rw [List.length_append, hwords] at hbody hlt
  have hpods := hholds.right
  rw [hwords] at hpods
  have hiter : SpaPODIter.objectContents m a = .contents (a + 16)
      ((formatPods mediaType mediaSubtype contents).flatMap PodBlock.bytes).length := by
    rw [SpaPODIter.objectContents_eq (by omega), hbody, Nat.add_sub_cancel_left]
  rw [SpaPODIter.pod_object htype]
  refine ⟨rfl, ?_⟩
  rw [hiter]
  exact PodBlock.remaining_blocks hpods (Nat.zero_add _).symm
    (by simp only [SpaPODIter.contents]; omega) (by simp [formatPods]; omega)

/-- Two formats of the same bytes have the same pods. -/
theorem formatPods_inj {id' type' mediaType' mediaSubtype' : UInt32}
    {contents' : List FormatPod}
    (h : formatBytes id type mediaType mediaSubtype contents =
      formatBytes id' type' mediaType' mediaSubtype' contents')
    (hlt : (formatBytes id type mediaType mediaSubtype contents).length < 2 ^ 32) :
    formatPods mediaType mediaSubtype contents =
      formatPods mediaType' mediaSubtype' contents' := by
  have hholds := (Mem.holds_write (fun _ => 0) 0
    (formatBytes id type mediaType mediaSubtype contents))
  generalize Mem.write (fun _ => 0) 0 _ = m at hholds
  obtain ⟨-, hleft⟩ := @remaining_formatPods m 0 (contents.length + contents'.length + 3)
    id type mediaType mediaSubtype contents hholds hlt (by omega)
  rw [h] at hholds hlt
  obtain ⟨-, hright⟩ := @remaining_formatPods m 0 (contents.length + contents'.length + 3)
    id' type' mediaType' mediaSubtype' contents' hholds hlt (by omega)
  have hmap := Option.some.inj (hleft.symm.trans hright)
  exact List.map_injective_iff.mpr (fun _ _ => PodBlock.coded_inj) hmap

end Format

/-! ## Properties of the same bytes -/

/-- Bytes that are cut into values of one size. -/
theorem exists_cut {n : Nat} (k : Nat) {bs : List UInt8} (h : bs.length = k * n) :
    ∃ values : List (List UInt8), values.flatten = bs ∧ (∀ v ∈ values, v.length = n) ∧
      values.length = k := by
  induction k generalizing bs with
  | zero =>
    rw [Nat.zero_mul] at h
    exact ⟨[], (List.length_eq_zero_iff.mp h).symm, fun v hv => absurd hv List.not_mem_nil, rfl⟩
  | succ k ih =>
    rw [Nat.add_mul, Nat.one_mul] at h
    obtain ⟨values, hflatten, hsized, hlength⟩ := @ih (bs.drop n) (by rw [List.length_drop]; omega)
    refine ⟨bs.take n :: values, ?_, ?_, by rw [List.length_cons, hlength]⟩
    · rw [List.flatten_cons, hflatten, List.take_append_drop]
    · intro v hv
      rcases List.mem_cons.mp hv with rfl | hv
      · rw [List.length_take]
        exact Nat.min_eq_left (by omega)
      · exact hsized v hv

namespace PropPod

variable {p q : PropPod}

/-- Everything but how the alternatives are cut. -/
structure SameBytes (p q : PropPod) : Prop where
  key : q.key = p.key
  type : q.type = p.type
  flags : q.body.flags = p.body.flags
  value : q.body.value = p.body.value
  alternatives : q.body.alternatives.flatten = p.body.alternatives.flatten

theorem SameBytes.block (h : SameBytes p q) : (FormatPod.prop q).block = (FormatPod.prop p).block := by
  simp only [FormatPod.block, values, h.key, h.type, h.flags, h.value, h.alternatives]

theorem toLE_inj {a b : UInt32} (h : toLE 4 a.toNat = toLE 4 b.toNat) : a = b := by
  have hof := congrArg ofLE h
  rw [ofLE_toLE, ofLE_toLE] at hof
  have ha : a.toNat % 256 ^ 4 = a.toNat := Nat.mod_eq_of_lt a.toNat_lt
  have hb : b.toNat % 256 ^ 4 = b.toNat := Nat.mod_eq_of_lt b.toNat_lt
  rw [ha, hb] at hof
  exact UInt32.toNat_inj.mp hof

theorem header_inj {h h' : SpaPOD} (heq : h.bytes = h'.bytes) :
    h.size = h'.size ∧ h.type = h'.type := by
  obtain ⟨hsize, htype⟩ := List.append_inj heq (by rw [length_toLE, length_toLE])
  refine ⟨toLE_inj hsize, SpaPODType.code_inj ?_⟩
  have hof := congrArg ofLE htype
  rw [ofLE_toLE, ofLE_toLE] at hof
  have hp : h.type.code % 256 ^ 4 = h.type.code := Nat.mod_eq_of_lt h.type.code_lt
  have hq : h'.type.code % 256 ^ 4 = h'.type.code := Nat.mod_eq_of_lt h'.type.code_lt
  rwa [hp, hq] at hof

/-- The property that a pod is can be read off. -/
theorem sameBytes_of_block (h : (FormatPod.prop q).block = (FormatPod.prop p).block)
    (hlt : p.values.length < 2 ^ 32) : SameBytes p q := by
  obtain ⟨-, hbody⟩ := Prod.ext_iff.mp h
  obtain ⟨hwords, hvalues⟩ := List.append_inj hbody (by
    rw [List.length_append, List.length_append, length_toLE, length_toLE, length_toLE, length_toLE])
  obtain ⟨hkey, hflags⟩ := List.append_inj hwords (by rw [length_toLE, length_toLE])
  have hlength : q.values.length = p.values.length := congrArg List.length hvalues
  have hheads : (SpaPOD.bytes ⟨.ofNat q.body.value.length, q.type⟩ ++ q.body.value) ++
      q.body.alternatives.flatten =
        (SpaPOD.bytes ⟨.ofNat p.body.value.length, p.type⟩ ++ p.body.value) ++
          p.body.alternatives.flatten := hvalues
  rw [List.append_assoc, List.append_assoc] at hheads
  obtain ⟨hhead, hrest⟩ := List.append_inj hheads (by
    rw [SpaPOD.length_bytes, SpaPOD.length_bytes])
  obtain ⟨hsize, htype⟩ := header_inj hhead
  -- the sizes in the headers are those of the values
  have hsizes (r : PropPod) (hr : r.values.length < 2 ^ 32) :
      (UInt32.ofNat r.body.value.length).toNat = r.body.value.length := by
    rw [values, List.length_append, Pod.length_withHeader] at hr
    exact UInt32.toNat_ofNat_of_lt' (by show _ < 2 ^ 32; omega)
  have hvalue : q.body.value.length = p.body.value.length := by
    rw [← hsizes q (hlength ▸ hlt), ← hsizes p hlt]
    exact congrArg UInt32.toNat hsize
  obtain ⟨hfirst, halternatives⟩ := List.append_inj hrest hvalue
  exact ⟨toLE_inj hkey, htype, toLE_inj hflags, hfirst, halternatives⟩

theorem Regular.length_flatten (h : p.Regular) :
    p.body.alternatives.flatten.length = p.body.alternatives.length * p.body.value.length := by
  rw [List.length_flatten, List.map_congr_left h.sized, List.map_const', List.sum_replicate_nat]

/-- A property is there with its alternatives cut into values exactly if these are whole
values, and enough for the range. -/
theorem exists_regular_iff (hpos : 0 < p.body.value.length) :
    (∃ q, SameBytes p q ∧ q.Regular) ↔
      p.body.value.length ∣ p.body.alternatives.flatten.length ∧
        (p.body.range = .minMax →
          2 * p.body.value.length ≤ p.body.alternatives.flatten.length) := by
  constructor
  · rintro ⟨q, hsame, hregular⟩
    have hlength := hregular.length_flatten
    rw [hsame.alternatives, hsame.value] at hlength
    refine ⟨⟨_, hlength.trans (Nat.mul_comm _ _)⟩, fun hrange => ?_⟩
    have hbounds : 2 ≤ q.body.alternatives.length := hregular.bounds (by
      rw [PropBody.range, hsame.flags]
      exact hrange)
    rw [hlength]
    exact Nat.mul_le_mul_right _ hbounds
  · rintro ⟨⟨k, hk⟩, hbounds⟩
    obtain ⟨values, hflatten, hsized, hcount⟩ := exists_cut k (hk.trans (Nat.mul_comm _ _))
    refine ⟨{ p with body := { p.body with alternatives := values } },
      ⟨rfl, rfl, rfl, rfl, hflatten⟩, hpos, hsized, fun hrange => ?_⟩
    have hle := hbounds hrange
    rw [hk, Nat.mul_comm 2] at hle
    show 2 ≤ values.length
    rw [hcount]
    exact Nat.le_of_mul_le_mul_left hle hpos

end PropPod

/-- The pods of a format are those of some properties: then they are properties. -/
theorem forall₂_of_blocks {contents : List FormatPod} {nps : List PropPod}
    (h : contents.map FormatPod.block = nps.map fun p => (FormatPod.prop p).block)
    (htyped : ∀ type body, .other type body ∈ contents → type ≠ .prop)
    (hlt : ∀ p ∈ nps, p.values.length < 2 ^ 32) :
    List.Forall₂ PropPod.SameBytes nps (contents.filterMap FormatPod.prop?) := by
  induction nps generalizing contents with
  | nil =>
    obtain rfl := List.map_eq_nil_iff.mp h
    exact .nil
  | cons p nps ih =>
    cases contents with
    | nil => cases h
    | cons pod contents =>
      obtain ⟨hpod, hrest⟩ := List.cons.inj h
      have htail := ih hrest (fun type body hmem => htyped type body (List.mem_cons_of_mem _ hmem))
        fun p hp => hlt p (List.mem_cons_of_mem _ hp)
      cases pod with
      | prop q => exact .cons (PropPod.sameBytes_of_block hpod (hlt p List.mem_cons_self)) htail
      | other type body =>
        exact absurd (Prod.ext_iff.mp hpod).1 (htyped type body List.mem_cons_self)

end Pinos
