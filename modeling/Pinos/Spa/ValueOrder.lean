import Pinos.Lib.Comparison
import Pinos.Spa.PropsFilter

/-
Whether `compare_value` of `spa/lib/props.c` compares values as an order does.

The result is an `int`: it is the difference of two numbers for `INT` and `LONG`, cut to 32 bits.
-/

namespace Pinos

open Comparison

namespace SpaPropType

/-- The number that a value is. -/
def number : (t : SpaPropType) → t.Value → Option ℚ
  | id, _ => none
  | int, a => some a.toInt
  | long, a => some a.toInt
  | rectangle, _ => none
  | fraction, a => some ((a.num.toNat : ℚ) / a.denom.toNat)

/-- The result of `compare_value` as a number. -/
def signed (t : SpaPropType) (a b : t.Value) : Int := (t.compareValue a b).toInt

/-- On a set of values `compare_value` is a total preorder, and that of the numbers where the
values are numbers. -/
structure Ordered (t : SpaPropType) (S : Set t.Value) : Prop where
  orders : Orders t.signed S
  numeric : ∀ a ∈ S, ∀ b ∈ S, ∀ x ∈ t.number a, ∀ y ∈ t.number b,
    (t.signed a b < 0 ↔ x < y) ∧ (0 < t.signed a b ↔ y < x)

/-- The difference of two ints fits into an int, that of two longs is not cut to something of
another sign, and of two rectangles one fits into the other. -/
def Comparable : (t : SpaPropType) → t.Value → t.Value → Prop
  | id, a, b => a = b
  | int, a, b => (a.toInt - b.toInt).natAbs < 2 ^ 31
  | long, a, b =>
    a = b ∨
      0 < (a.toInt - b.toInt).natAbs % 2 ^ 32 ∧ (a.toInt - b.toInt).natAbs % 2 ^ 32 < 2 ^ 31
  | rectangle, a, b => a ≤ b ∨ b ≤ a
  | fraction, _, _ => True

/-! ## Numbers -/

theorem signed_int (a b : Int32) :
    signed .int a b = (a.toInt - b.toInt).bmod (2 ^ 32) :=
  Int32.toInt_sub a b

theorem signed_long (a b : Int64) :
    signed .long a b = (a.toInt - b.toInt).bmod (2 ^ 32) := by
  show ((a - b).toInt32).toInt = _
  rw [Int64.toInt_toInt32, Int64.toInt_sub, Int.bmod_bmod_of_dvd (by decide)]

/-- The difference, cut to 32 bits, has the sign of the difference both ways. -/
def Keeps (d : Int) : Prop :=
  (d.bmod (2 ^ 32) < 0 ↔ d < 0) ∧ (0 < d.bmod (2 ^ 32) ↔ 0 < d)

theorem keeps_both_iff (d : Int) :
    Keeps d ∧ Keeps (-d) ↔ d = 0 ∨ 0 < d.natAbs % 2 ^ 32 ∧ d.natAbs % 2 ^ 32 < 2 ^ 31 := by
  rw [Keeps, Keeps, Int.bmod_def, Int.bmod_def]
  push_cast
  omega

section Difference

variable {t : SpaPropType} {S : Set t.Value}

/-- Values that are compared by their difference, cut to 32 bits. -/
theorem ordered_iff_keeps {f : t.Value → Int} (hnumber : ∀ a, t.number a = some (f a : ℚ))
    (hsigned : ∀ a b, t.signed a b = (f a - f b).bmod (2 ^ 32)) :
    t.Ordered S ↔ ∀ a ∈ S, ∀ b ∈ S, Keeps (f a - f b) ∧ Keeps (-(f a - f b)) := by
  have hkeeps : ∀ a b, Keeps (f a - f b) ↔ Follows t.signed f a b := by
    intro a b
    rw [Keeps, ← hsigned, sub_neg, sub_pos]
    exact ⟨fun h => ⟨h.1, h.2⟩, fun h => ⟨h.neg, h.pos⟩⟩
  constructor
  · intro h a ha b hb
    have hfollows : ∀ a ∈ S, ∀ b ∈ S, Keeps (f a - f b) := by
      intro a ha b hb
      have hnumeric := h.numeric a ha b hb (f a) (hnumber a) (f b) (hnumber b)
      rw [Int.cast_lt, Int.cast_lt] at hnumeric
      exact (hkeeps a b).mpr ⟨hnumeric.1, hnumeric.2⟩
    rw [Int.neg_sub]
    exact ⟨hfollows a ha b hb, hfollows b hb a ha⟩
  · intro h
    have hfollows := fun a ha b hb => (hkeeps a b).mp (h a ha b hb).1
    refine ⟨orders_of_follows hfollows fun a _ b _ => Int.le_total (f a) (f b), ?_⟩
    intro a ha b hb x hx y hy
    obtain rfl : (f a : ℚ) = x := Option.some.inj ((hnumber a).symm.trans hx)
    obtain rfl : (f b : ℚ) = y := Option.some.inj ((hnumber b).symm.trans hy)
    rw [Int.cast_lt, Int.cast_lt]
    exact ⟨(hfollows a ha b hb).neg, (hfollows a ha b hb).pos⟩

end Difference

theorem ordered_int (S : Set (Value .int)) :
    Ordered .int S ↔ ∀ a ∈ S, ∀ b ∈ S, Comparable .int a b := by
  refine (@ordered_iff_keeps .int S (fun a : Int32 => a.toInt) (fun _ => rfl) signed_int).trans ?_
  refine forall₄_congr fun (a : Int32) _ (b : Int32) _ => ?_
  rw [keeps_both_iff]
  have ha := a.toInt_lt
  have hb := b.toInt_lt
  have ha' := a.le_toInt
  have hb' := b.le_toInt
  show _ ↔ (a.toInt - b.toInt).natAbs < 2 ^ 31
  omega

theorem ordered_long (S : Set (Value .long)) :
    Ordered .long S ↔ ∀ a ∈ S, ∀ b ∈ S, Comparable .long a b := by
  refine (@ordered_iff_keeps .long S (fun a : Int64 => a.toInt) (fun _ => rfl) signed_long).trans ?_
  refine forall₄_congr fun (a : Int64) _ (b : Int64) _ => ?_
  rw [keeps_both_iff]
  refine or_congr_left ?_
  rw [sub_eq_zero, Int64.toInt_inj]
  exact Iff.rfl

/-! ## Fractions -/

theorem signed_fraction (a b : Value .fraction) :
    signed .fraction a b =
      open Classical in if ¬ b ≤ a then -1 else if ¬ a ≤ b then 1 else 0 := by
  classical
  show (compareValue .fraction a b).toInt = _
  rw [compareValue_fraction, apply_ite Int32.toInt, apply_ite Int32.toInt]
  rfl

/-- The quotient of a fraction. -/
def quotient (a : Value .fraction) : ℚ := (a.num.toNat : ℚ) / a.denom.toNat

theorem follows_fraction (a b : Value .fraction) : Follows (signed .fraction) quotient a b := by
  classical
  have htotal : a ≤ b ∨ b ≤ a := le_total (quotient a) (quotient b)
  constructor
  · refine Iff.trans ?_ (not_le (a := quotient b) (b := quotient a))
    show _ ↔ ¬ b ≤ a
    rw [signed_fraction]
    split
    · next hba => exact iff_of_true (by decide) hba
    · next hba =>
      refine iff_of_false ?_ hba
      split <;> decide
  · refine Iff.trans ?_ (not_le (a := quotient a) (b := quotient b))
    show _ ↔ ¬ a ≤ b
    rw [signed_fraction]
    split
    · next hba => exact iff_of_false (by decide) (not_not.mpr (htotal.resolve_right hba))
    · split
      · next hab => exact iff_of_true (by decide) hab
      · next hab => exact iff_of_false (by decide) hab

theorem ordered_fraction (S : Set (Value .fraction)) : Ordered .fraction S := by
  refine ⟨orders_of_follows (fun a _ b _ => follows_fraction a b)
    fun a _ b _ => le_total (quotient a) (quotient b), ?_⟩
  intro a _ b _ x hx y hy
  obtain rfl := Option.some.inj hx
  obtain rfl := Option.some.inj hy
  exact ⟨(follows_fraction a b).neg, (follows_fraction a b).pos⟩

/-! ## Rectangles -/

theorem signed_rectangle (a b : Value .rectangle) :
    signed .rectangle a b =
      if a.width.toNat = b.width.toNat ∧ a.height.toNat = b.height.toNat then 0
      else if a.width.toNat < b.width.toNat ∨ a.height.toNat < b.height.toNat then -1
      else 1 := by
  show (if _ then _ else if _ then _ else _ : Int32).toInt = _
  rw [apply_ite Int32.toInt, apply_ite Int32.toInt]
  refine if_congr ?_ rfl (if_congr Iff.rfl rfl rfl)
  rw [UInt32.toNat_inj, UInt32.toNat_inj]

theorem follows_rectangle {a b : Value .rectangle} (h : Comparable .rectangle a b) :
    Follows (signed .rectangle) (fun c : Value .rectangle => c) a b := by
  have hlt : ∀ a b : Value .rectangle, a < b ↔
      (a.width.toNat ≤ b.width.toNat ∧ a.height.toNat ≤ b.height.toNat) ∧
        ¬ (b.width.toNat ≤ a.width.toNat ∧ b.height.toNat ≤ a.height.toNat) :=
    fun _ _ => lt_iff_le_not_ge
  have h' : (a.width.toNat ≤ b.width.toNat ∧ a.height.toNat ≤ b.height.toNat) ∨
    (b.width.toNat ≤ a.width.toNat ∧ b.height.toNat ≤ a.height.toNat) := h
  constructor
  · refine Iff.trans ?_ (hlt a b).symm
    rw [signed_rectangle]
    split
    · omega
    · split <;> omega
  · refine Iff.trans ?_ (hlt b a).symm
    rw [signed_rectangle]
    split
    · omega
    · split <;> omega

/-- Of two rectangles neither of which fits into the other, each is below the other. -/
theorem signed_of_incomparable {a b : Value .rectangle} (h : ¬ Comparable .rectangle a b) :
    signed .rectangle a b = -1 := by
  have h' : ¬ ((a.width.toNat ≤ b.width.toNat ∧ a.height.toNat ≤ b.height.toNat) ∨
    (b.width.toNat ≤ a.width.toNat ∧ b.height.toNat ≤ a.height.toNat)) := h
  rw [signed_rectangle, if_neg (by omega), if_pos (by omega)]

theorem ordered_rectangle (S : Set (Value .rectangle)) :
    Ordered .rectangle S ↔ ∀ a ∈ S, ∀ b ∈ S, Comparable .rectangle a b := by
  constructor
  · intro h a ha b hb
    by_contra hab
    have hanti := h.orders.antisymm a ha b hb
    rw [signed_of_incomparable hab, signed_of_incomparable fun hba => hab hba.symm] at hanti
    exact absurd hanti (by decide)
  · intro h
    refine ⟨orders_of_follows (fun a ha b hb => follows_rectangle (h a ha b hb)) h, ?_⟩
    intro a _ b _ x hx
    cases hx

/-! ## All types -/

theorem ordered_id (S : Set (Value .id)) :
    Ordered .id S ↔ ∀ a ∈ S, ∀ b ∈ S, Comparable .id a b := by
  have hsigned : ∀ a b : UInt32, signed .id a b = if a = b then 0 else 1 :=
    fun a b => apply_ite Int32.toInt (a = b) 0 1
  constructor
  · intro h (a : UInt32) ha (b : UInt32) hb
    by_contra hab
    have hne : ¬ a = b := hab
    have hanti := h.orders.antisymm a ha b hb
    rw [hsigned, hsigned, if_neg hne, if_neg (Ne.symm hne)] at hanti
    exact absurd hanti (by decide)
  · intro h
    have hzero : ∀ a ∈ S, ∀ b ∈ S, signed .id a b = 0 := by
      intro a ha b hb
      exact (hsigned a b).trans (if_pos (h a ha b hb))
    constructor
    · constructor
      · exact fun a ha => hzero a ha a ha
      · intro a ha b hb
        rw [hzero a ha b hb, hzero b hb a ha]
        rfl
      · exact fun a ha _ _ c hc _ _ => le_of_eq (hzero a ha c hc)
    · intro a _ b _ x hx
      cases hx

/-- `compare_value` orders the values of a set, as their numbers are, exactly if it compares
every two of them right. -/
theorem ordered_iff (t : SpaPropType) (S : Set t.Value) :
    t.Ordered S ↔ ∀ a ∈ S, ∀ b ∈ S, t.Comparable a b := by
  cases t with
  | id => exact ordered_id S
  | int => exact ordered_int S
  | long => exact ordered_long S
  | rectangle => exact ordered_rectangle S
  | fraction => exact iff_of_true (ordered_fraction S) fun _ _ _ _ => trivial

/-- The lowest int is above one, `2 ^ 32` the same as nothing, and of the rectangles `1 × 2` and
`2 × 1` each is below the other. -/
theorem not_ordered :
    ¬ Ordered .int Set.univ ∧ ¬ Ordered .long Set.univ ∧ ¬ Ordered .rectangle Set.univ := by
  refine ⟨fun h => ?_, fun h => ?_, fun h => ?_⟩
  · have hnumeric := (h.numeric (-2147483648 : Int32) trivial (1 : Int32) trivial _ rfl _ rfl).1
    exact absurd (hnumeric.mpr (by decide)) (by decide)
  · have hnumeric := (h.numeric (0 : Int64) trivial (4294967296 : Int64) trivial _ rfl _ rfl).1
    exact absurd (hnumeric.mpr (by decide)) (by decide)
  · have hanti := h.orders.antisymm (SpaRectangle.mk 1 2) trivial (SpaRectangle.mk 2 1) trivial
    exact absurd hanti (by decide)

end SpaPropType
end Pinos
