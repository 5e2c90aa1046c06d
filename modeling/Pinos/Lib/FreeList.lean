import Mathlib.Data.List.Nodup
import Mathlib.Logic.Function.Basic

/-
A list that links those of one's things that were not given out.

Each thing carries a flag that says whether it was given out.  A thing that comes back goes onto the
list, and one that is given out is taken from the front of it.
-/

namespace FreeList

variable {α : Type} [DecidableEq α]

/-- A thing of one's own is on the list once while it is not given out, and not while it is.
Nothing else is on the list. -/
structure Links (mine : α → Prop) (out : α → Bool) (list : List α) : Prop where
  count : ∀ i, mine i → list.count i = if out i then 0 else 1
  inside : ∀ i ∈ list, mine i

namespace Links

variable {mine : α → Prop} {out out' : α → Bool} {list : List α} {i : α}

theorem congr (h : Links mine out list) (hout : ∀ i, mine i → out' i = out i) :
    Links mine out' list := by
  refine ⟨fun i hi => ?_, h.inside⟩
  rw [hout i hi]
  exact h.count i hi

theorem mem_iff (h : Links mine out list) (hi : mine i) : i ∈ list ↔ out i = false := by
  rw [← List.count_pos_iff, h.count i hi]
  cases out i
  · exact iff_of_true Nat.one_pos rfl
  · exact iff_of_false (Nat.lt_irrefl 0) Bool.noConfusion

/-- What has nothing has nothing on its list. -/
theorem eq_nil (h : Links mine out list) (hnone : ∀ i, ¬ mine i) : list = [] :=
  List.eq_nil_iff_forall_not_mem.mpr fun i hi => hnone i (h.inside i hi)

theorem nil_iff : Links mine out [] ↔ ∀ i, mine i → out i = true := by
  constructor
  · intro h i hi
    by_contra hout
    exact List.not_mem_nil ((h.mem_iff hi).mpr (Bool.eq_false_iff.mpr hout))
  · intro hall
    refine ⟨fun i hi => ?_, fun i hi => nomatch hi⟩
    rw [hall i hi]
    rfl

theorem of_none (hnone : ∀ i, ¬ mine i) : Links mine out [] :=
  nil_iff.mpr fun i hi => absurd hi (hnone i)

/-- A thing that was given out comes back. -/
theorem push (h : Links mine out list) (hi : mine i) (hout : out i = true) :
    Links mine (Function.update out i false) (list ++ [i]) := by
  constructor
  · intro j hj
    rw [List.count_append, h.count j hj]
    by_cases he : j = i
    · rw [he, Function.update_self, hout, List.count_singleton_self]
      rfl
    · rw [Function.update_of_ne he, List.count_singleton, if_neg fun h => he (eq_of_beq h).symm]
      rfl
  · intro j hj
    rcases List.mem_append.mp hj with hj | hj
    · exact h.inside j hj
    · rw [List.mem_singleton.mp hj]
      exact hi

/-- The first thing is given out. -/
theorem pop (h : Links mine out (i :: list)) : Links mine (Function.update out i true) list := by
  constructor
  · intro j hj
    have hcount := h.count j hj
    rw [List.count_cons] at hcount
    by_cases he : j = i
    · rw [he, Function.update_self]
      rw [he, if_pos (beq_self_eq_true i)] at hcount
      split at hcount
      · omega
      · exact Nat.succ.inj hcount
    · rw [Function.update_of_ne he]
      rw [if_neg fun h => he (eq_of_beq h).symm] at hcount
      exact hcount
  · exact fun j hj => h.inside j (List.mem_cons_of_mem i hj)

/-- Things none of which was given out, in a list without repetition. -/
theorem of_nodup (hnodup : list.Nodup) (hmine : ∀ i, mine i ↔ i ∈ list)
    (hout : ∀ i, mine i → out i = false) : Links mine out list := by
  refine ⟨fun i hi => ?_, fun i hi => (hmine i).mpr hi⟩
  rw [hout i hi]
  exact List.count_eq_one_of_mem hnodup ((hmine i).mp hi)

end Links
end FreeList
