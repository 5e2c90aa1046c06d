import Mathlib.Algebra.Order.Field.Basic
import Mathlib.Algebra.Order.Field.Rat
import Mathlib.Order.Lattice
import Pinos.Spa.Defs

/-
`spa/lib/props.c`: properties with ranges, and how the ranges of a filter narrow them.

The values of a property are kept as values of one type each, with the order that says what
a range contains; `compare_value` is how the code compares them.
-/

namespace Pinos

def SpaResult.incompatibleProps : SpaResult := 0xFFFFFFDC

structure SpaRectangle where
  width : UInt32
  height : UInt32
  deriving DecidableEq

structure SpaFraction where
  num : UInt32
  denom : UInt32
  denom_pos : 0 < denom
  deriving DecidableEq

/-- The types of the values of properties that are modelled. -/
inductive SpaPropType where
  | id
  | int
  | long
  | rectangle
  | fraction
  deriving DecidableEq

namespace SpaPropType

def Value : SpaPropType → Type
  | id => UInt32
  | int => Int32
  | long => Int64
  | rectangle => SpaRectangle
  | fraction => SpaFraction

/-- Where a value stands: an id below itself only, a rectangle below those that are not
narrower or lower. -/
def LE : (t : SpaPropType) → t.Value → t.Value → Prop
  | id, a, b => a = b
  | int, a, b => a.toInt ≤ b.toInt
  | long, a, b => a.toInt ≤ b.toInt
  | rectangle, a, b => a.width.toNat ≤ b.width.toNat ∧ a.height.toNat ≤ b.height.toNat
  | fraction, a, b => (a.num.toNat : ℚ) / a.denom.toNat ≤ (b.num.toNat : ℚ) / b.denom.toNat

instance (t : SpaPropType) : Preorder t.Value where
  le := t.LE
  le_refl a := by
    cases t with
    | id => exact rfl
    | int => exact Int.le_refl _
    | long => exact Int.le_refl _
    | rectangle => exact ⟨Nat.le_refl _, Nat.le_refl _⟩
    | fraction => exact le_refl _
  le_trans a b c hab hbc := by
    cases t with
    | id => exact Eq.trans hab hbc
    | int => exact Int.le_trans hab hbc
    | long => exact Int.le_trans hab hbc
    | rectangle => exact ⟨Nat.le_trans hab.1 hbc.1, Nat.le_trans hab.2 hbc.2⟩
    | fraction => exact le_trans hab hbc

/-- `compare_value`. -/
def compareValue : (t : SpaPropType) → t.Value → t.Value → Int32
  | id, (a : UInt32), (b : UInt32) => if a = b then 0 else 1
  | int, (a : Int32), (b : Int32) => a - b
  | long, (a : Int64), (b : Int64) => (a - b).toInt32
  | rectangle, a, b =>
    if a.width = b.width ∧ a.height = b.height then 0
    else if a.width < b.width ∨ a.height < b.height then -1
    else 1
  | fraction, a, b =>
    let n1 := a.num.toUInt64 * b.denom.toUInt64
    let n2 := b.num.toUInt64 * a.denom.toUInt64
    if n1 < n2 then -1 else if n2 < n1 then 1 else 0

end SpaPropType

inductive SpaPropRange where
  | none
  | minMax
  | step
  | enum
  | flags
  /-- No range that is known. -/
  | other
  deriving DecidableEq

/-- `SPA_POD_PROP_RANGE_MASK` and what is under it. -/
def SpaPropRange.of (flags : UInt32) : SpaPropRange :=
  let bits := flags &&& 0xF
  if bits = 0 then none
  else if bits = 1 then minMax
  else if bits = 2 then step
  else if bits = 3 then enum
  else if bits = 4 then .flags
  else other

/-- `SPA_POD_PROP_FLAG_UNSET`. -/
def flagUnset : UInt32 := 0x10

/-- The flags of a property and its values: the default, and the alternatives behind it. -/
structure PropBody (α : Type) where
  flags : UInt32
  value : α
  alternatives : List α

namespace PropBody

section Body

variable {α : Type} (b : PropBody α)

def range : SpaPropRange := .of b.flags

def unset : Bool := b.flags &&& flagUnset ≠ 0

/-- The values from where `alt1` or `alt2` points to. -/
def read : List α := if b.unset then b.alternatives else b.value :: b.alternatives

/-- The values that `nalt1` or `nalt2` counts. -/
def choices : List α := if b.unset then b.alternatives else [b.value]

/-- The first value that is read; what is behind the property is not modelled. -/
def low : α := b.read.head?.getD b.value

def high : α := b.read[1]?.getD b.value

variable (compare : α → α → Int32)

/-- `fix_default`. -/
def fixDefault : PropBody α :=
  match b.range with
  | .minMax | .step =>
    match b.alternatives with
    | lo :: hi :: _ =>
      let value := if compare b.value lo < 0 then lo else b.value
      { b with value := if 0 < compare value hi then hi else value }
    | _ => b
  | .enum =>
    let best := (b.alternatives.find? fun alt => compare b.value alt = 0) <|> b.alternatives.head?
    { b with
      value := best.getD b.value
      flags := if b.alternatives.length = 1 then b.flags &&& ~~~flagUnset &&& ~~~0xF else b.flags }
  | _ => b

/-- The property that is built, with the default of the first property; `np` has no flags
before. -/
def build (range : UInt32) (alternatives : List α) : PropBody α :=
  { b with flags := range ||| flagUnset, alternatives := alternatives }.fixDefault compare

/-- A value is inside the range that is read. -/
def Within (v : α) : Prop := 0 ≤ compare v b.low ∧ compare v b.high ≤ 0

instance (v : α) : Decidable (b.Within compare v) := inferInstanceAs (Decidable (_ ∧ _))

/-- One of the values is written when there is any. -/
def copied (alternatives : List α) : Except SpaResult (PropBody α) :=
  if alternatives.isEmpty then .error .incompatibleProps else .ok (b.build compare 3 alternatives)

end Body

/-- A property with a range that is a list of values. -/
def isList (range : SpaPropRange) : Bool := range = .none || range = .enum

/-- What `spa_props_filter` does with two properties of one type. -/
def filterBody {α : Type} (compare : α → α → Int32) (b1 b2 : PropBody α) :
    Except SpaResult (PropBody α) :=
  if isList b1.range ∧ isList b2.range then
    b1.copied compare (b1.choices.flatMap fun a1 =>
      (b2.choices.filter fun a2 => compare a1 a2 = 0).map fun _ => a1)
  else if isList b1.range ∧ b2.range = .minMax then
    b1.copied compare (b1.choices.filter fun a1 => b2.Within compare a1)
  else if b1.range = .minMax ∧ isList b2.range then
    b1.copied compare (b2.choices.filter fun a2 => b1.Within compare a2)
  else if b1.range = .minMax ∧ b2.range = .minMax then
    .ok (b1.build compare 1
      [if compare b1.low b2.low < 0 then b2.low else b1.low,
        if compare b1.high b2.high < 0 then b1.high else b2.high])
  else if b1.range = .other ∨ b2.range = .other then
    .ok ({ b1 with flags := 0, alternatives := [] }.fixDefault compare)
  else .error .notImplemented

end PropBody

structure SpaPODProp where
  key : UInt32
  type : SpaPropType
  body : PropBody type.Value

namespace SpaPODProp

/-- The body of a property of the given type. -/
def bodyAs (p : SpaPODProp) (t : SpaPropType) : Option (PropBody t.Value) :=
  if h : p.type = t then some (h ▸ p.body) else none

/-- The turn of the loop for a property that is in the filter too. -/
def filter (p1 p2 : SpaPODProp) : Except SpaResult SpaPODProp :=
  match p2.bodyAs p1.type with
  | none => .error .incompatibleProps
  | some b2 =>
    (p1.body.filterBody p1.type.compareValue b2).map fun body =>
      { key := p1.key, type := p1.type, body := body }

end SpaPODProp

def findProp (props : List SpaPODProp) (key : UInt32) : Option SpaPODProp :=
  props.find? fun p => p.key = key

/-- The turn of the loop for a property. -/
def SpaPODProp.filterBy (filter : Option (List SpaPODProp)) (p1 : SpaPODProp) :
    Except SpaResult SpaPODProp :=
  match filter.bind fun filter => findProp filter p1.key with
  | none => .ok p1
  | some p2 => p1.filter p2

/-- `spa_props_filter`, with the properties that are built when the builder has room. -/
def spaPropsFilter : List SpaPODProp → Option (List SpaPODProp) → Except SpaResult (List SpaPODProp)
  | [], _ => .ok []
  | p1 :: props, filter =>
    (p1.filterBy filter).bind fun np => (spaPropsFilter props filter).map fun out => np :: out

/-- `spa_format_fixate`, on the properties of the format. -/
def spaFormatFixate (props : List SpaPODProp) : List SpaPODProp :=
  props.map fun p => { p with body := { p.body with flags := p.body.flags &&& ~~~flagUnset } }

end Pinos
