import Pinos.Spa.PodAppend
import Pinos.Spa.Props

/-
`spa_format_filter` of `spa/lib/format.c`, with what `spa_props_filter` of `spa/lib/props.c`
writes: formats as their bytes, and how a builder gets the format that two have in common.

A property that is narrowed is changed where it stands, through a pointer into the memory of
the builder.
-/

namespace Pinos

open ByteMem

/-! ## Values as bytes -/

/-- `strcmp`, of strings that end inside the bytes. -/
def strcmp : List UInt8 → List UInt8 → Int32
  | c1 :: s1, c2 :: s2 =>
    if c1 < c2 then -1 else if c2 < c1 then 1 else if c1 = 0 then 0 else strcmp s1 s2
  | [], [] => 0
  | [], _ :: _ => -1
  | _ :: _, [] => 1

/-- The word at some place of a value. -/
def wordAt (r : List UInt8) (i : Nat) : UInt32 := .ofNat (ofLE ((r.drop i).take 4))

def longOf (r : List UInt8) : UInt64 := .ofNat (ofLE (r.take 8))

namespace SpaPODType

/-- The type that a number in memory stands for. -/
def ofCode (n : Nat) : SpaPODType :=
  ([none, bool, id, int, long, float, double, string, bytes, pointer, rectangle, fraction, bitmask,
    array, struct, object, prop, pod].find? fun t => t.code = n).getD invalid

@[simp] theorem ofCode_code (t : SpaPODType) : ofCode t.code = t := by
  cases t <;> rfl

/-- `compare_value`. -/
def compareValue (type : SpaPODType) (r1 r2 : List UInt8) : Int32 :=
  match type with
  | .bool | .id => if wordAt r1 0 = wordAt r2 0 then 0 else 1
  | .int => (wordAt r1 0).toInt32 - (wordAt r2 0).toInt32
  | .long => ((longOf r1).toInt64 - (longOf r2).toInt64).toInt32
  | .float => (Float32.ofBits (wordAt r1 0) - Float32.ofBits (wordAt r2 0)).toInt32
  | .double => (Float.ofBits (longOf r1) - Float.ofBits (longOf r2)).toInt32
  | .string => strcmp r1 r2
  | .rectangle =>
    if wordAt r1 0 = wordAt r2 0 ∧ wordAt r1 4 = wordAt r2 4 then 0
    else if wordAt r1 0 < wordAt r2 0 ∨ wordAt r1 4 < wordAt r2 4 then -1
    else 1
  | .fraction =>
    let n1 := (wordAt r1 0).toUInt64 * (wordAt r2 4).toUInt64
    let n2 := (wordAt r2 0).toUInt64 * (wordAt r1 4).toUInt64
    if n1 < n2 then -1 else if n2 < n1 then 1 else 0
  | _ => 0

end SpaPODType

/-! ## Formats -/

/-- A property of a format; its values are given by their bytes. -/
structure PropPod where
  key : UInt32
  type : SpaPODType
  body : PropBody (List UInt8)

namespace PropPod

/-- The values are of one size and not empty, an int can count them, and a range has bounds. -/
structure WellFormed (p : PropPod) : Prop where
  pos : 0 < p.body.value.length
  sized : ∀ a ∈ p.body.alternatives, a.length = p.body.value.length
  few : p.body.alternatives.length < 2 ^ 31 - 1
  bounds : p.body.range = .minMax → 2 ≤ p.body.alternatives.length

/-- What follows `key` and `flags`. -/
def values (p : PropPod) : List UInt8 :=
  Pod.withHeader p.type p.body.value ++ p.body.alternatives.flatten

def bytes (p : PropPod) : List UInt8 :=
  Pod.withHeader .prop ((toLE 4 p.key.toNat ++ toLE 4 p.body.flags.toNat) ++ p.values)

end PropPod

/-- What stands in a format behind the media types. -/
inductive FormatPod where
  | prop (p : PropPod)
  | other (type : SpaPODType) (body : List UInt8)

namespace FormatPod

def bytes : FormatPod → List UInt8
  | prop p => p.bytes
  | other type body => Pod.withHeader type body

def prop? : FormatPod → Option PropPod
  | prop p => some p
  | other _ _ => none

end FormatPod

/-- `SpaFormatBody`, with the media types aligned. -/
def formatFields (id type mediaType mediaSubtype : UInt32) : List UInt8 :=
  (toLE 4 id.toNat ++ toLE 4 type.toNat) ++
    (Pod.aligned (Pod.withHeader .id (toLE 4 mediaType.toNat)) ++
      Pod.aligned (Pod.withHeader .id (toLE 4 mediaSubtype.toNat)))

theorem length_formatFields (id type mediaType mediaSubtype : UInt32) :
    (formatFields id type mediaType mediaSubtype).length = 40 := by
  have haligned (n : Nat) : (Pod.aligned (Pod.withHeader .id (toLE 4 n))).length = 16 := by
    rw [Pod.length_aligned, Pod.length_withHeader, length_toLE]
    rfl
  rw [formatFields, List.length_append, List.length_append, List.length_append, haligned, haligned,
    length_toLE, length_toLE]

/-- A format, of a size that is counted in 32 bits. -/
structure SpaFormat where
  id : UInt32
  type : UInt32
  mediaType : UInt32
  mediaSubtype : UInt32
  contents : List FormatPod
  props_wellFormed : ∀ p ∈ contents.filterMap FormatPod.prop?, p.WellFormed
  others_typed : ∀ type body, .other type body ∈ contents → type ≠ .prop
  small : 48 + (contents.flatMap fun pod => Pod.aligned pod.bytes).length < 2 ^ 32

namespace SpaFormat

def props (format : SpaFormat) : List PropPod := format.contents.filterMap FormatPod.prop?

theorem wellFormed_props (format : SpaFormat) : ∀ p ∈ format.props, p.WellFormed :=
  format.props_wellFormed

def bytes (format : SpaFormat) : List UInt8 :=
  Pod.withHeader .object
    (formatFields format.id format.type format.mediaType format.mediaSubtype ++
      format.contents.flatMap fun pod => Pod.aligned pod.bytes)

theorem length_bytes (format : SpaFormat) :
    format.bytes.length =
      48 + (format.contents.flatMap fun pod => Pod.aligned pod.bytes).length := by
  rw [bytes, Pod.length_withHeader, List.length_append, length_formatFields]
  omega

end SpaFormat

/-! ## Two properties -/

namespace PropBody

section Narrow

variable {α : Type} (compare : α → α → Int32) (b1 b2 : PropBody α)

/-- The alternatives that a loop copies, with the flags of the property; there has to be
one. -/
def enumOf (alternatives : List α) : Except SpaResult (UInt32 × List α) :=
  if alternatives.isEmpty then .error .incompatibleProps else .ok (3 ||| flagUnset, alternatives)

/-- What `spa_props_filter` sets the flags to and the alternatives that it writes behind the
default, for two properties of one type. -/
def narrow : Except SpaResult (UInt32 × List α) :=
  if isList b1.range ∧ isList b2.range then
    enumOf (b1.choices.flatMap fun a1 =>
      (b2.choices.filter fun a2 => compare a1 a2 = 0).map fun _ => a1)
  else if isList b1.range ∧ b2.range = .minMax then
    enumOf (b1.choices.filter fun a1 => b2.Within compare a1)
  else if b1.range = .minMax ∧ isList b2.range then
    enumOf (b2.choices.filter fun a2 => b1.Within compare a2)
  else if b1.range = .minMax ∧ b2.range = .minMax then
    .ok (1 ||| flagUnset,
      [if compare b1.low b2.low < 0 then b2.low else b1.low,
        if compare b1.high b2.high < 0 then b1.high else b2.high])
  else if b1.range = .other ∨ b2.range = .other then .ok (0, [])
  else .error .notImplemented

/-- The property that is built. -/
theorem filterBody_eq_narrow :
    filterBody compare b1 b2 = (narrow compare b1 b2).map fun (flags, alternatives) =>
      { b1 with flags := flags, alternatives := alternatives }.fixDefault compare := by
  have hcopied (alternatives : List α) : b1.copied compare alternatives =
      (enumOf alternatives).map fun (flags, alternatives) =>
        { b1 with flags := flags, alternatives := alternatives }.fixDefault compare := by
    unfold copied enumOf
    split <;> rfl
  unfold filterBody narrow
  split
  · exact hcopied _
  · split
    · exact hcopied _
    · split
      · exact hcopied _
      · split
        · rfl
        · split <;> rfl

theorem narrow_ne_ok {res : SpaResult} (h : narrow compare b1 b2 = .error res) : res ≠ .ok := by
  have henum {alternatives : List α} (h : enumOf alternatives = .error res) : res ≠ .ok := by
    unfold enumOf at h
    split at h
    · cases h
      decide
    · cases h
  unfold narrow at h
  split at h
  · exact henum h
  · split at h
    · exact henum h
    · split at h
      · exact henum h
      · split at h
        · cases h
        · split at h
          · cases h
          · cases h
            decide

end Narrow
end PropBody

namespace PropPod

/-- `find_prop`. -/
def findProp (filter : List PropPod) (key : UInt32) : Option PropPod :=
  filter.find? fun p => p.key = key

/-- The property that two have in common. -/
def filter (p1 p2 : PropPod) : Except SpaResult PropPod :=
  if p1.type = p2.type then
    (PropBody.filterBody p1.type.compareValue p1.body p2.body).map fun body =>
      { p1 with body := body }
  else .error .incompatibleProps

/-- The property that is in the format that is built. -/
def filterBy (filter : List PropPod) (p1 : PropPod) : Except SpaResult PropPod :=
  match findProp filter p1.key with
  | none => .ok p1
  | some p2 => p1.filter p2

end PropPod

/-- The format that a format and a filter have in common, as its bytes: the format itself when
there is no filter. -/
def SpaFormat.filtered (filter : Option SpaFormat) (format : SpaFormat) : Option (List UInt8) :=
  match filter with
  | none => some format.bytes
  | some filter =>
    if filter.mediaType = format.mediaType ∧ filter.mediaSubtype = format.mediaSubtype then
      match format.props.mapM (PropPod.filterBy filter.props) with
      | .error _ => none
      | .ok props =>
        some (Pod.withHeader .object
          (formatFields 0 filter.type filter.mediaType filter.mediaSubtype ++
            props.flatMap fun p => Pod.aligned p.bytes))
    else none

/-! ## What is written -/

/-- `memcpy` of one value over another when their comparison says so. -/
def copyWhen (test : Int32 → Bool) (compare : List UInt8 → List UInt8 → Int32) (size : Nat)
    (m : Mem) (val alt : Nat) : Mem :=
  if test (compare (m.read val size) (m.read alt size)) then m.write val (m.read alt size) else m

/-- What `fix_default` does with the property at `np`. -/
def fixDefault (m : Mem) (np : Nat) : Mem :=
  let flags : UInt32 := .ofNat (m.u32 (np + 12))
  let size := m.u32 (np + 16)
  let compare := (SpaPODType.ofCode (m.u32 (np + 20))).compareValue
  let val := np + 24
  let alt := val + size
  -- `SPA_POD_PROP_N_VALUES`, in 64 bits
  let nalt : Int32 := .ofNat ((m.u32 np + (2 ^ 64 - 16)) % 2 ^ 64 / size) - 1
  match SpaPropRange.of flags with
  | .minMax | .step =>
    let m := copyWhen (fun res => res < 0) compare size m val alt
    copyWhen (fun res => 0 < res) compare size m val (alt + size)
  | .enum =>
    let alts := (List.range nalt.toInt.toNat).map fun i => m.read (alt + i * size) size
    let value := m.read val size
    let m := match (alts.find? fun a => compare value a = 0) <|> alts.head? with
      | none => m
      | some best => m.write val best
    if nalt = 1 then
      m.write (np + 12) (toLE 4 (flags &&& ~~~flagUnset &&& ~~~0xF).toNat)
    else m
  | _ => m

namespace SpaPODBuilder

variable (b : SpaPODBuilder PodBuffer)

/-- The memory that `SPA_POD_BUILDER_DEREF` points into. -/
def changed (change : Mem → Nat → Mem) (ref : Nat) : SpaPODBuilder PodBuffer :=
  { b with data := { b.data with mem := change b.data.mem (b.data.data + ref) } }

/-- `np->body.flags |= flags`. -/
def orFlags (flags : UInt32) (m : Mem) (np : Nat) : Mem :=
  m.write (np + 12) (toLE 4 (.ofNat (m.u32 (np + 12)) ||| flags : UInt32).toNat)

/-- `spa_pod_builder_push_format`. -/
def pushFormat (type mediaType mediaSubtype : UInt32) : SpaPODBuilder PodBuffer × Nat :=
  b.pushContainer ⟨40, .object⟩ (formatFields 0 type mediaType mediaSubtype)

/-- The turn of the loop of `spa_props_filter` for a property that is in the filter too. -/
def filterProp (p1 p2 : PropPod) : SpaPODBuilder PodBuffer × SpaResult :=
  if p1.type ≠ p2.type then (b, .incompatibleProps)
  else
    let (b, np) := b.pushProp p1.key 0
    let b := (b.raw (Pod.withHeader p1.type p1.body.value)).1
    match p1.body.narrow p1.type.compareValue p2.body with
    | .error res => (b, res)
    | .ok (flags, alternatives) =>
      let b := alternatives.foldl (fun b a => (b.raw a).1) b
      (((b.changed (orFlags flags) np).pop).changed fixDefault np, .ok)

/-- `spa_props_filter`; pods that are not properties are not looked at. -/
def propsFilter (filter : List PropPod) : List PropPod → SpaPODBuilder PodBuffer →
    SpaPODBuilder PodBuffer × SpaResult
  | [], b => (b, .ok)
  | p1 :: props, b =>
    match PropPod.findProp filter p1.key with
    | none => propsFilter filter props (b.rawPadded p1.bytes).1
    | some p2 =>
      let (b, res) := b.filterProp p1 p2
      if res ≠ .ok then (b, res) else propsFilter filter props b

/-- `spa_format_filter`.  The frame of a property that is left open is not popped but lost. -/
def formatFilter (filter : Option SpaFormat) (format : SpaFormat) :
    SpaPODBuilder PodBuffer × SpaResult :=
  match filter with
  | none => ((b.rawPadded format.bytes).1, .ok)
  | some filter =>
    if filter.mediaType ≠ format.mediaType ∨ filter.mediaSubtype ≠ format.mediaSubtype then
      (b, .invalidMediaType)
    else
      let depth := b.stack.length + 1
      let b := (b.pushFormat filter.type filter.mediaType filter.mediaSubtype).1
      let (b, res) := propsFilter filter.props format.props b
      ({ b with stack := b.stack.drop (b.stack.length - depth) }.pop, res)

end SpaPODBuilder
end Pinos
