import Mathlib.Data.List.Nodup
import Mathlib.Data.List.Perm.Basic
import Mathlib.Logic.Function.Basic

/-
Lists of entries with unique keys, as finite maps.
-/

namespace KeyedList

variable {α κ : Type} {key : α → κ} {xs ys : List α} {m : κ → Option α} {x y : α} {k : κ} {i : Nat}

/-- A list has the entries of a map, each once. -/
structure Represents (key : α → κ) (xs : List α) (m : κ → Option α) : Prop where
  nodup : (xs.map key).Nodup
  keyed : ∀ {k x}, m k = some x → key x = k
  mem : ∀ {x}, x ∈ xs ↔ m (key x) = some x

theorem represents_nil : Represents key [] fun _ => none where
  nodup := List.nodup_nil
  keyed h := nomatch h
  mem := by simp

theorem Represents.mem_of_eq_some (h : Represents key xs m) (hk : m k = some x) : x ∈ xs := by
  rw [h.mem, h.keyed hk]
  exact hk

theorem Represents.mem_keys (h : Represents key xs m) : k ∈ xs.map key ↔ (m k).isSome := by
  rw [List.mem_map, Option.isSome_iff_exists]
  constructor
  · rintro ⟨x, hx, rfl⟩
    exact ⟨x, h.mem.mp hx⟩
  · rintro ⟨x, hk⟩
    exact ⟨x, h.mem_of_eq_some hk, h.keyed hk⟩

theorem Represents.find? [DecidableEq κ] (h : Represents key xs m) :
    xs.find? (fun x => key x = k) = m k := by
  cases hk : m k with
  | none =>
    rw [List.find?_eq_none]
    intro x hx hkey
    have hsome := h.mem.mp hx
    rw [of_decide_eq_true hkey, hk] at hsome
    cases hsome
  | some x =>
    have hx := h.mem_of_eq_some hk
    obtain ⟨y, hy⟩ : ∃ y, xs.find? (fun x => key x = k) = some y := by
      rw [← Option.isSome_iff_exists, List.find?_isSome]
      exact ⟨x, hx, decide_eq_true (h.keyed hk)⟩
    have hkey : key y = k := by simpa using List.find?_some hy
    have hsome := h.mem.mp (List.mem_of_find?_eq_some hy)
    rw [hkey, hk] at hsome
    rw [hy, hsome]

/-- Lists of the same entries are the same but for their order. -/
theorem Represents.perm (h : Represents key xs m) (h' : Represents key ys m) : xs.Perm ys := by
  rw [List.perm_ext_iff_of_nodup h.nodup.of_map h'.nodup.of_map]
  intro x
  rw [h.mem, h'.mem]

section Update

variable [DecidableEq κ]

theorem Represents.concat (h : Represents key xs m) (hnone : m (key x) = none) :
    Represents key (xs ++ [x]) (Function.update m (key x) (some x)) where
  nodup := by
    rw [List.map_append, List.nodup_append]
    refine ⟨h.nodup, by simp, ?_⟩
    intro k hk k' hk' heq
    rw [h.mem_keys, heq, List.mem_singleton.mp hk', hnone] at hk
    cases hk
  keyed {k y} hk := by
    by_cases hkey : k = key x
    · rw [hkey, Function.update_self] at hk
      rw [hkey, Option.some.inj hk]
    · rw [Function.update_of_ne hkey] at hk
      exact h.keyed hk
  mem {y} := by
    rw [List.mem_append, List.mem_singleton]
    by_cases hkey : key y = key x
    · rw [hkey, Function.update_self, Option.some.injEq, h.mem, hkey, hnone]
      simp [eq_comm]
    · rw [Function.update_of_ne hkey, h.mem]
      exact or_iff_left fun heq => hkey (congrArg key heq)

/-- The entry for a key changes. -/
theorem Represents.set (h : Represents key xs m) (hi : xs[i]? = some y) (hkey : key y = key x) :
    Represents key (xs.set i x) (Function.update m (key x) (some x)) := by
  obtain ⟨hlt, rfl⟩ := List.getElem?_eq_some_iff.mp hi
  have hmap : (xs.set i x).map key = xs.map key := by
    rw [List.map_set, ← hkey, ← List.getElem_map key (h := by rwa [List.length_map]),
      List.set_getElem_self]
  have hmem : x ∈ xs.set i x := List.mem_set hlt x
  have hunique {y : α} (hy : y ∈ xs.set i x) (hykey : key y = key x) : y = x :=
    List.inj_on_of_nodup_map (hmap ▸ h.nodup) hy hmem hykey
  refine ⟨hmap ▸ h.nodup, ?_, ?_⟩
  · intro k y hk
    by_cases hkx : k = key x
    · rw [hkx, Function.update_self] at hk
      rw [hkx, Option.some.inj hk]
    · rw [Function.update_of_ne hkx] at hk
      exact h.keyed hk
  · intro y
    by_cases hykey : key y = key x
    · rw [hykey, Function.update_self, Option.some.injEq]
      exact ⟨fun hy => (hunique hy hykey).symm, fun heq => heq ▸ hmem⟩
    · rw [Function.update_of_ne hykey, ← h.mem]
      constructor
      · intro hy
        exact (List.mem_or_eq_of_mem_set hy).resolve_right fun heq => hykey (congrArg key heq)
      · intro hy
        obtain ⟨j, hj, rfl⟩ := List.getElem_of_mem hy
        have hne : i ≠ j := by
          rintro rfl
          exact hykey hkey
        rw [← List.getElem_set_ne hne (a := x) (by rwa [List.length_set])]
        exact List.getElem_mem _

end Update
end KeyedList
