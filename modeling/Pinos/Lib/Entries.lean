import Mathlib.Data.List.Sort

/-
The entries of a list that are there, with their places, in the order of the places.
-/

namespace Entries

variable {α : Type}

def entries (l : List (Option α)) : List (Nat × α) :=
  l.zipIdx.filterMap fun p => p.1.map (p.2, ·)

/-- What is at a place of a list. -/
def entry (l : List (Option α)) (i : Nat) : Option α := l[i]?.join

variable {l a b c : List (Option α)} {i : Nat}

theorem mem_entries {p : Nat × α} : p ∈ entries l ↔ entry l p.1 = some p.2 := by
  rw [entries, List.mem_filterMap, entry, Option.join_eq_some_iff]
  constructor
  · rintro ⟨⟨o, i⟩, hmem, hp⟩
    obtain ⟨x, rfl, rfl⟩ := Option.map_eq_some_iff.mp hp
    exact List.mem_zipIdx_iff_getElem?.mp hmem
  · intro hget
    exact ⟨(some p.2, p.1), List.mem_zipIdx_iff_getElem?.mpr hget, rfl⟩

theorem entries_eq_nil : entries l = [] ↔ ∀ i, entry l i = none := by
  rw [List.eq_nil_iff_forall_not_mem]
  constructor
  · intro h i
    cases hentry : entry l i with
    | none => rfl
    | some x => exact absurd (mem_entries.mpr hentry) (h (i, x))
  · intro h p hp
    rw [mem_entries, h] at hp
    cases hp

theorem pairwise_entries : (entries l).Pairwise fun p q => p.1 < q.1 := by
  have hplaces : l.zipIdx.Pairwise fun p q => p.2 < q.2 := by
    apply List.pairwise_map.mp
    rw [List.zipIdx_map_snd]
    exact List.pairwise_lt_range'
  rw [entries, List.pairwise_filterMap]
  refine hplaces.imp fun {p q} hlt p' hp q' hq => ?_
  obtain ⟨x, -, rfl⟩ := Option.map_eq_some_iff.mp hp
  obtain ⟨y, -, rfl⟩ := Option.map_eq_some_iff.mp hq
  exact hlt

theorem map_snd_entries : (entries l).map Prod.snd = l.filterMap id := by
  have hsnd : ∀ p : Option α × Nat, (p.1.map (p.2, ·)).map Prod.snd = p.1 := by
    rintro ⟨_ | x, i⟩
    · rfl
    · rfl
  rw [entries, List.map_filterMap]
  simp only [hsnd]
  show l.zipIdx.filterMap (id ∘ Prod.fst) = l.filterMap id
  rw [← List.filterMap_map, List.zipIdx_map_fst]

/-- Of each place there is at most one entry. -/
theorem filter_entries : (entries l).filter (·.1 = i) = (entry l i).toList.map (i, ·) := by
  refine (pairwise_entries.filter _).eq_of_mem_iff ?_ fun p => ?_
  · cases entry l i with
    | none => exact List.Pairwise.nil
    | some x => exact List.pairwise_singleton _ _
  · rw [List.mem_filter, mem_entries, List.mem_map]
    constructor
    · rintro ⟨hentry, hplace⟩
      have hplace := of_decide_eq_true hplace
      exact ⟨p.2, by rw [← hplace, hentry]; exact List.mem_singleton_self _, by rw [← hplace]⟩
    · rintro ⟨x, hx, rfl⟩
      exact ⟨Option.mem_toList.mp hx, decide_eq_true rfl⟩

/-- Entries follow others exactly when they are at other places, and behind them. -/
theorem entries_eq_append :
    entries c = entries a ++ entries b ↔
      (∀ i, (entry c i).toList = (entry a i).toList ++ (entry b i).toList) ∧
        ∀ p ∈ entries a, ∀ q ∈ entries b, p.1 < q.1 := by
  constructor
  · intro heq
    have hsorted : (entries a ++ entries b).Pairwise fun p q => p.1 < q.1 := heq ▸ pairwise_entries
    refine ⟨fun i => ?_, (List.pairwise_append.mp hsorted).2.2⟩
    have hplace := congrArg (List.filter (·.1 = i)) heq
    rw [List.filter_append, filter_entries, filter_entries, filter_entries, ← List.map_append] at hplace
    exact List.map_injective_iff.mpr (Prod.mk_right_injective i) hplace
  · rintro ⟨hplaces, hbehind⟩
    refine pairwise_entries.eq_of_mem_iff
      (List.pairwise_append.mpr ⟨pairwise_entries, pairwise_entries, hbehind⟩) fun p => ?_
    have hplace := hplaces p.1
    rw [List.mem_append, mem_entries, mem_entries, mem_entries, ← Option.mem_toList, hplace,
      List.mem_append, Option.mem_toList, Option.mem_toList]

end Entries
