import Mathlib.Data.List.Basic

/-
The spans of characters of the C library.  A string is the list of its characters, without the
zero at its end.
-/

namespace CSpan

variable {α : Type} [DecidableEq α]

/-- How many characters at the start are not of `reject`. -/
def strcspn (s reject : List α) : Nat := s.findIdx fun c => decide (c ∈ reject)

/-- How many characters at the start are of `accept`. -/
def strspn (s accept : List α) : Nat := s.findIdx fun c => decide (c ∉ accept)

variable {s t reject accept : List α} {c : α}

theorem not_mem_of_take_strcspn (h : c ∈ s.take (strcspn s reject)) : c ∉ reject := by
  obtain ⟨i, hi, hc⟩ := List.mem_take_iff_getElem.mp h
  have hnot := List.not_of_lt_findIdx (Nat.lt_of_lt_of_le hi (Nat.min_le_left _ _))
  rw [← hc]
  exact of_decide_eq_false hnot

theorem mem_of_take_strspn (h : c ∈ s.take (strspn s accept)) : c ∈ accept := by
  obtain ⟨i, hi, hc⟩ := List.mem_take_iff_getElem.mp h
  have hnot := List.not_of_lt_findIdx (Nat.lt_of_lt_of_le hi (Nat.min_le_left _ _))
  rw [← hc]
  exact not_not.mp (of_decide_eq_false hnot)

/-- What comes behind the characters that are not of `reject` starts with one that is. -/
theorem mem_of_drop_strcspn (h : (s.drop (strcspn s reject)).head? = some c) : c ∈ reject := by
  rw [List.head?_drop, List.getElem?_eq_some_iff] at h
  obtain ⟨hlt, hc⟩ := h
  have hfound := List.findIdx_getElem (w := hlt)
  rw [← hc]
  exact of_decide_eq_true hfound

theorem not_mem_of_drop_strspn (h : (s.drop (strspn s accept)).head? = some c) : c ∉ accept := by
  rw [List.head?_drop, List.getElem?_eq_some_iff] at h
  obtain ⟨hlt, hc⟩ := h
  have hfound := List.findIdx_getElem (w := hlt)
  rw [← hc]
  exact of_decide_eq_true hfound

theorem strcspn_pos (h : s.head? = some c) (hc : c ∉ reject) : 0 < strcspn s reject := by
  refine Nat.pos_of_ne_zero fun hzero => hc ?_
  refine @mem_of_drop_strcspn _ _ s _ _ ?_
  rw [hzero]
  exact h

theorem strspn_pos (h : s.head? = some c) (hc : c ∈ accept) : 0 < strspn s accept := by
  refine Nat.pos_of_ne_zero fun hzero => ?_
  refine @not_mem_of_drop_strspn _ _ s _ _ ?_ hc
  rw [hzero]
  exact h

theorem take_strcspn (s reject : List α) :
    s.take (strcspn s reject) = s.takeWhile fun c => decide (c ∉ reject) := by
  rw [List.takeWhile_eq_take_findIdx_not]
  simp [strcspn]

theorem drop_strcspn (s reject : List α) :
    s.drop (strcspn s reject) = s.dropWhile fun c => decide (c ∉ reject) := by
  rw [List.dropWhile_eq_drop_findIdx_not]
  simp [strcspn]

theorem drop_strspn (s accept : List α) :
    s.drop (strspn s accept) = s.dropWhile fun c => decide (c ∈ accept) := by
  rw [List.dropWhile_eq_drop_findIdx_not]
  simp [strspn]

end CSpan
