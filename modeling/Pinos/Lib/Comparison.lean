import Mathlib.Data.Set.Basic
import Mathlib.Order.Basic

/-
Functions that compare two values by the sign of their result.
-/

namespace Comparison

variable {α β : Type} {compare : α → α → Int} {S : Set α}

/-- On a set of values the signs are those of a total preorder. -/
structure Orders (compare : α → α → Int) (S : Set α) : Prop where
  refl : ∀ a ∈ S, compare a a = 0
  antisymm : ∀ a ∈ S, ∀ b ∈ S, (compare a b).sign = -(compare b a).sign
  trans : ∀ a ∈ S, ∀ b ∈ S, ∀ c ∈ S, compare a b ≤ 0 → compare b c ≤ 0 → compare a c ≤ 0

/-- The sign for two values is that of their order. -/
structure Follows [Preorder β] (compare : α → α → Int) (f : α → β) (a b : α) : Prop where
  neg : compare a b < 0 ↔ f a < f b
  pos : 0 < compare a b ↔ f b < f a

variable [Preorder β] {f : α → β}

theorem Follows.le_iff {a b : α} (h : Follows compare f a b) (htotal : f a ≤ f b ∨ f b ≤ f a) :
    compare a b ≤ 0 ↔ f a ≤ f b := by
  rw [← Int.not_lt, h.pos]
  constructor
  · intro hnot
    rcases htotal with hle | hle
    · exact hle
    · by_contra hab
      exact hnot (lt_of_le_not_ge hle hab)
  · exact fun hle hlt => hlt.not_ge hle

/-- Signs that follow a total preorder are those of one. -/
theorem orders_of_follows (h : ∀ a ∈ S, ∀ b ∈ S, Follows compare f a b)
    (htotal : ∀ a ∈ S, ∀ b ∈ S, f a ≤ f b ∨ f b ≤ f a) : Orders compare S where
  refl a ha := by
    have hneg := (h a ha a ha).neg.not.mpr (lt_irrefl (f a))
    have hpos := (h a ha a ha).pos.not.mpr (lt_irrefl (f a))
    omega
  antisymm a ha b hb := by
    have hab := h a ha b hb
    have hba := h b hb a ha
    rcases Int.lt_trichotomy (compare a b) 0 with hlt | hzero | hgt
    · rw [Int.sign_eq_neg_one_of_neg hlt,
        Int.sign_eq_one_of_pos (hba.pos.mpr (hab.neg.mp hlt))]
    · have hneg : ¬ compare b a < 0 := fun hlt => by
        have := hab.pos.mpr (hba.neg.mp hlt)
        omega
      have hpos : ¬ 0 < compare b a := fun hlt => by
        have := hab.neg.mpr (hba.pos.mp hlt)
        omega
      rw [hzero, show compare b a = 0 by omega]
      rfl
    · rw [Int.sign_eq_one_of_pos hgt,
        Int.sign_eq_neg_one_of_neg (hba.neg.mpr (hab.pos.mp hgt))]
      rfl
  trans a ha b hb c hc := by
    rw [(h a ha b hb).le_iff (htotal a ha b hb), (h b hb c hc).le_iff (htotal b hb c hc),
      (h a ha c hc).le_iff (htotal a ha c hc)]
    exact le_trans

end Comparison
