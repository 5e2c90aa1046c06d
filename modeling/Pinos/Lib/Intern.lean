import Mathlib.Data.List.Basic
import Mathlib.Data.List.Nodup

/-
Tables that number names in the order of their first use.

`intern` looks a name up and adds it at the end when it is new, so a name keeps its
number.  `Translates` relates the numbers that two such tables give to the same
names.
-/

namespace Intern

variable {α : Type}

section
variable [DecidableEq α]

def intern (names : List α) (a : α) : List α × Nat :=
  match names.idxOf? a with
  | some i => (names, i)
  | none => (names ++ [a], names.length)

variable (names : List α) (a : α)

theorem prefix_intern : names <+: (intern names a).1 := by
  rw [intern]
  cases names.idxOf? a with
  | some i => exact List.prefix_refl names
  | none => exact List.prefix_append names [a]

/-- The number it gives is that of the name. -/
theorem intern_getElem? : (intern names a).1[(intern names a).2]? = some a := by
  rw [intern]
  cases hi : names.idxOf? a with
  | some i =>
    obtain ⟨hlt, heq, -⟩ := List.idxOf?_eq_some_iff.mp hi
    exact (List.getElem?_eq_getElem hlt).trans (congrArg some heq)
  | none => exact List.getElem?_concat_length

variable {names a}

/-- A name that is in the table is found and changes nothing. -/
theorem intern_known (h : names.Nodup) {i : Nat} (hi : names[i]? = some a) :
    intern names a = (names, i) := by
  obtain ⟨hlt, heq⟩ := List.getElem?_eq_some_iff.mp hi
  have hmem : a ∈ names := heq ▸ List.getElem_mem hlt
  rw [intern]
  cases hj : names.idxOf? a with
  | some j =>
    obtain ⟨hjlt, hjeq, -⟩ := List.idxOf?_eq_some_iff.mp hj
    have hsame : names[j] = names[i] := hjeq.trans heq.symm
    have hij : j = i := h.getElem_inj_iff.mp hsame
    exact congrArg (Prod.mk names) hij
  | none => exact absurd hmem (List.idxOf?_eq_none_iff.mp hj)

/-! ### Names in the order of their first use -/

theorem prefix_eraseDups_append (as bs : List α) : as.eraseDups <+: (as ++ bs).eraseDups := by
  rw [List.eraseDups_append]
  exact List.prefix_append _ _

theorem eraseDups_concat (as : List α) (a : α) :
    (as ++ [a]).eraseDups = if a ∈ as then as.eraseDups else as.eraseDups ++ [a] := by
  rw [List.eraseDups_append, List.cons_removeAll, List.nil_removeAll]
  by_cases hmem : a ∈ as
  · rw [if_pos hmem, if_neg (by simpa using hmem)]
    exact List.append_nil _
  · rw [if_neg hmem, if_pos (by simpa using hmem)]
    rfl

/-- The number of a name stays the same when there are more names. -/
theorem idxOf_eraseDups_append {as : List α} {a : α} (h : a ∈ as) (bs : List α) :
    (as ++ bs).eraseDups.idxOf a = as.eraseDups.idxOf a := by
  rw [List.eraseDups_append]
  exact List.idxOf_append_of_mem (List.mem_eraseDups.mpr h)

/-- Interning numbers names by their first use. -/
theorem intern_eraseDups (as : List α) (a : α) :
    intern as.eraseDups a = ((as ++ [a]).eraseDups, (as ++ [a]).eraseDups.idxOf a) := by
  rw [intern, eraseDups_concat]
  cases hi : as.eraseDups.idxOf? a with
  | some i =>
    obtain ⟨hlt, heq, -⟩ := List.idxOf?_eq_some_iff.mp hi
    have hmem : a ∈ as := List.mem_eraseDups.mp (heq ▸ List.getElem_mem hlt)
    rw [if_pos hmem, List.idxOf_eq_getD_idxOf?, hi]
    rfl
  | none =>
    have hnot : a ∉ as.eraseDups := List.idxOf?_eq_none_iff.mp hi
    rw [if_neg fun hmem => hnot (List.mem_eraseDups.mpr hmem),
      List.idxOf_append_of_notMem hnot, List.idxOf_cons_self]
    rfl

end

theorem getElem?_grow {names names' : List α} {a : α} {i : Nat} (h : names <+: names')
    (hi : names[i]? = some a) : names'[i]? = some a := by
  obtain ⟨hlt, heq⟩ := List.getElem?_eq_some_iff.mp hi
  rw [List.prefix_iff_getElem?.mp h i hlt, heq]

/-- The first of the names that come next. -/
theorem prefix_drop_cons {names as : List α} {a : α} {k : Nat} (h : a :: as <+: names.drop k) :
    names[k]? = some a ∧ as <+: names.drop (k + 1) := by
  obtain ⟨rest, hrest⟩ := h
  have hhead : (names.drop k)[0]? = some a := by rw [← hrest]; rfl
  have htail : (names.drop k).tail = as ++ rest := by rw [← hrest]; rfl
  rw [List.getElem?_drop, Nat.add_zero] at hhead
  rw [List.tail_drop] at htail
  exact ⟨hhead, rest, htail.symm⟩

/-- The names that come next, looked up one after the other. -/
theorem filterMap_range (names : List α) (k n : Nat) :
    (List.range n).filterMap (fun i => names[k + i]?) = (names.drop k).take n := by
  induction n with
  | zero => rfl
  | succ n ih =>
    have hone : [n].filterMap (fun i => names[k + i]?) = names[k + n]?.toList := by
      cases hn : names[k + n]? <;> simp [hn]
    rw [List.range_succ, List.filterMap_append, ih, hone, List.take_add_one, List.getElem?_drop]

/-- `images` takes the first numbers of one table to those of the same names in
another. -/
def Translates (theirs ours : List α) (images : List Nat) : Prop :=
  ∀ (i j : Nat), images[i]? = some j → ∃ a, theirs[i]? = some a ∧ ours[j]? = some a

namespace Translates

variable {theirs theirs' ours ours' : List α} {images : List Nat}

theorem nil (theirs ours : List α) : Translates theirs ours [] := by
  intro i j hij
  cases hij

theorem mono (h : Translates theirs ours images) (htheirs : theirs <+: theirs')
    (hours : ours <+: ours') : Translates theirs' ours' images := by
  intro i j hij
  obtain ⟨a, hi, hj⟩ := h i j hij
  exact ⟨a, getElem?_grow htheirs hi, getElem?_grow hours hj⟩

/-- Learning the next name. -/
theorem concat (h : Translates theirs ours images) {a : α} {j : Nat}
    (hnext : theirs[images.length]? = some a) (hj : ours[j]? = some a) :
    Translates theirs ours (images ++ [j]) := by
  intro i k hik
  rcases Nat.lt_trichotomy i images.length with hlt | heq | hgt
  · rw [List.getElem?_append_left hlt] at hik
    exact h i k hik
  · subst heq
    rw [List.getElem?_concat_length] at hik
    cases hik
    exact ⟨a, hnext, hj⟩
  · rw [List.getElem?_eq_none] at hik
    · cases hik
    · rw [List.length_append]
      exact hgt

end Translates
end Intern
