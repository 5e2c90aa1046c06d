import Mathlib.Algebra.BigOperators.Group.List.Basic
import Mathlib.Algebra.BigOperators.Intervals
import Mathlib.Algebra.Order.BigOperators.Group.List
import Mathlib.Data.Finset.Basic
import Mathlib.Order.Interval.Finset.Nat

/-
Intervals of natural numbers that are packed below a bound.

Intervals that follow each other are packed below the sum of their lengths.  Conversely packed
intervals are not longer in sum than the bound, and where the two are equal there is no room to move
one of them down.
-/

namespace Intervals

structure Region where
  start : Nat
  len : Nat
  deriving DecidableEq

namespace Region

def stop (r : Region) : Nat := r.start + r.len

def points (r : Region) : Finset Nat := Finset.Ico r.start r.stop

variable {r s : Region} {x bound : Nat}

@[simp] theorem mem_points : x ∈ r.points ↔ r.start ≤ x ∧ x < r.stop :=
  Finset.mem_Ico

@[simp] theorem card_points (r : Region) : r.points.card = r.len := by
  rw [points, Nat.card_Ico, stop]
  omega

/-- No point in both. -/
def Apart (r s : Region) : Prop := Disjoint r.points s.points

theorem Apart.of_le (h : r.stop ≤ s.start) : r.Apart s := by
  rw [Apart, Finset.disjoint_left]
  intro x hr hs
  rw [mem_points] at hr hs
  omega

end Region

open Region

/-- The intervals have no point in common and none at or behind the bound. -/
structure Packed (rs : List Region) (bound : Nat) : Prop where
  apart : rs.Pairwise Apart
  below : ∀ r ∈ rs, ∀ x ∈ r.points, x < bound

/-- All points of some intervals. -/
def cover (rs : List Region) : Finset Nat := rs.foldr (fun r acc => r.points ∪ acc) ∅

variable {rs : List Region} {bound x : Nat}

theorem mem_cover : x ∈ cover rs ↔ ∃ r ∈ rs, x ∈ r.points := by
  induction rs with
  | nil => simp [cover]
  | cons r rs ih =>
    have hcons : cover (r :: rs) = r.points ∪ cover rs := rfl
    rw [hcons, Finset.mem_union, ih]
    simp

theorem disjoint_cover {r : Region} (h : ∀ s ∈ rs, Apart r s) : Disjoint r.points (cover rs) := by
  rw [Finset.disjoint_left]
  intro x hr hrs
  obtain ⟨s, hs, hx⟩ := mem_cover.mp hrs
  exact Finset.disjoint_left.mp (h s hs) hr hx

theorem card_cover (h : rs.Pairwise Apart) : (cover rs).card = (rs.map len).sum := by
  induction rs with
  | nil => rfl
  | cons r rs ih =>
    rw [List.pairwise_cons] at h
    have hcons : cover (r :: rs) = r.points ∪ cover rs := rfl
    rw [hcons, Finset.card_union_of_disjoint (disjoint_cover h.1), ih h.2, card_points]
    simp

theorem Packed.cover_subset (h : Packed rs bound) : cover rs ⊆ Finset.range bound := by
  intro x hx
  obtain ⟨r, hr, hx⟩ := mem_cover.mp hx
  exact Finset.mem_range.mpr (h.below r hr x hx)

theorem Packed.sum_le (h : Packed rs bound) : (rs.map len).sum ≤ bound := by
  rw [← card_cover h.apart, ← Finset.card_range bound]
  exact Finset.card_le_card h.cover_subset

section Pieces

variable {α : Type} {ps : List α} {f g : α → Region}

/-- Only the points of intervals count. -/
theorem Packed.of_points (h : Packed (ps.map f) bound)
    (hpoints : ∀ p ∈ ps, (f p).points = (g p).points) : Packed (ps.map g) bound := by
  refine ⟨List.pairwise_map.mpr ?_, fun r hr x hx => ?_⟩
  · refine (List.pairwise_map.mp h.apart).imp_of_mem fun {p q} hp hq hapart => ?_
    rwa [Apart, ← hpoints p hp, ← hpoints q hq]
  · obtain ⟨p, hp, rfl⟩ := List.mem_map.mp hr
    exact h.below (f p) (List.mem_map_of_mem hp) x (by rw [hpoints p hp]; exact hx)

end Pieces

/-! ## Intervals that are as long as the bound -/

/-- The sum of the points. -/
def weight (r : Region) : Nat := ∑ x ∈ r.points, x

theorem weight_eq (r : Region) : weight r = r.len * r.start + ∑ i ∈ Finset.range r.len, i := by
  have hlen : r.start + r.len - r.start = r.len := by omega
  rw [weight, points, stop, Finset.sum_Ico_eq_sum_range, hlen, Finset.sum_add_distrib,
    Finset.sum_const_nat fun _ _ => rfl, Finset.card_range]

theorem Packed.sum_weight (h : Packed rs bound) (hsum : (rs.map len).sum = bound) :
    (rs.map weight).sum = ∑ x ∈ Finset.range bound, x := by
  have hcover (rs : List Region) (hapart : rs.Pairwise Apart) :
      ∑ x ∈ cover rs, x = (rs.map weight).sum := by
    induction rs with
    | nil => rfl
    | cons r rs ih =>
      rw [List.pairwise_cons] at hapart
      have hcons : cover (r :: rs) = r.points ∪ cover rs := rfl
      rw [hcons, Finset.sum_union (disjoint_cover hapart.1), ih hapart.2, List.map_cons,
        List.sum_cons]
      rfl
  have hall : cover rs = Finset.range bound :=
    Finset.eq_of_subset_of_card_le h.cover_subset (by
      rw [Finset.card_range, card_cover h.apart, hsum])
  rw [← hcover rs h.apart, hall]

theorem weight_le {r r' : Region} (hlen : r.len = r'.len) (hle : r.start ≤ r'.start) :
    weight r ≤ weight r' := by
  rw [weight_eq, weight_eq, hlen]
  exact Nat.add_le_add_right (Nat.mul_le_mul_left _ hle) _

/-- Intervals that leave nothing out can not move down. -/
theorem Packed.start_eq {α : Type} {ps : List α} {f g : α → Region} (h : Packed (ps.map f) bound)
    (h' : Packed (ps.map g) bound) (hsum : (ps.map fun p => (f p).len).sum = bound)
    (hle : ∀ p ∈ ps, (f p).len = (g p).len ∧ (f p).start ≤ (g p).start) {p : α} (hp : p ∈ ps)
    (hpos : 0 < (f p).len) : (f p).start = (g p).start := by
  have hlens : (ps.map fun p => (g p).len).sum = bound := by
    rw [← hsum]
    exact congrArg List.sum (List.map_congr_left fun p hp => (hle p hp).1.symm)
  have hweight := (h.sum_weight (by rw [List.map_map]; exact hsum)).trans
    (h'.sum_weight (by rw [List.map_map]; exact hlens)).symm
  rw [List.map_map, List.map_map] at hweight
  -- one that moved would make the sum of all points smaller
  by_contra hmoved
  have hlt : weight (f p) < weight (g p) := by
    rw [weight_eq, weight_eq, ← (hle p hp).1]
    have hstart : (f p).start < (g p).start := Nat.lt_of_le_of_ne (hle p hp).2 hmoved
    have := Nat.mul_lt_mul_of_pos_left hstart hpos
    omega
  have hsums : (ps.map (weight ∘ f)).sum < (ps.map (weight ∘ g)).sum :=
    List.sum_lt_sum _ _ (fun q hq => weight_le (hle q hq).1 (hle q hq).2) ⟨p, hp, hlt⟩
  omega

/-! ## Intervals that follow each other -/

/-- Intervals of the given lengths, the first one at `a`. -/
def tile (a : Nat) : List Nat → List Region
  | [] => []
  | n :: ns => ⟨a, n⟩ :: tile (a + n) ns

variable {a : Nat} {ns : List Nat}

theorem tile_append (ns ms : List Nat) :
    tile a (ns ++ ms) = tile a ns ++ tile (a + ns.sum) ms := by
  induction ns generalizing a with
  | nil => simp [tile]
  | cons n ns ih => simp [tile, ih, Nat.add_assoc]

theorem map_len_tile (a : Nat) (ns : List Nat) : (tile a ns).map len = ns := by
  induction ns generalizing a with
  | nil => rfl
  | cons n ns ih => simp [tile, ih]

theorem tile_bounds {r : Region} (h : r ∈ tile a ns) : a ≤ r.start ∧ r.stop ≤ a + ns.sum := by
  induction ns generalizing a with
  | nil => simp [tile] at h
  | cons n ns ih =>
    rw [tile, List.mem_cons] at h
    rw [List.sum_cons]
    rcases h with rfl | h
    · simp only [stop]
      omega
    · have := ih h
      omega

/-- Each interval begins behind the lengths before it. -/
theorem mem_tile {r : Region} :
    r ∈ tile a ns ↔ ∃ j, ∃ h : j < ns.length, r = ⟨a + (ns.take j).sum, ns[j]⟩ := by
  induction ns generalizing a with
  | nil => simp [tile]
  | cons n ns ih =>
    rw [tile, List.mem_cons, ih]
    constructor
    · rintro (rfl | ⟨j, hj, rfl⟩)
      · exact ⟨0, by simp, by simp⟩
      · exact ⟨j + 1, by simpa using hj, by simp [Nat.add_assoc]⟩
    · rintro ⟨j, hj, rfl⟩
      cases j with
      | zero => exact Or.inl (by simp)
      | succ j => exact Or.inr ⟨j, by simpa using hj, by simp [Nat.add_assoc]⟩

theorem pairwise_tile (a : Nat) (ns : List Nat) : (tile a ns).Pairwise fun r s => r.stop ≤ s.start := by
  induction ns generalizing a with
  | nil => exact List.Pairwise.nil
  | cons n ns ih =>
    rw [tile, List.pairwise_cons]
    exact ⟨fun s hs => (tile_bounds hs).1, ih (a + n)⟩

theorem packed_tile (a : Nat) (ns : List Nat) : Packed (tile a ns) (a + ns.sum) where
  apart := (pairwise_tile a ns).imp Apart.of_le
  below r hr x hx := by
    have := (tile_bounds hr).2
    rw [mem_points] at hx
    omega

theorem sum_flatten_replicate (n : Nat) (ns : List Nat) :
    (List.replicate n ns).flatten.sum = ns.sum * n := by
  induction n with
  | zero => simp
  | succ n ih => rw [List.replicate_succ, List.flatten_cons, List.sum_append, ih, Nat.mul_succ,
      Nat.add_comm]

/-- The same lengths over and over. -/
theorem flatMap_tile (a n : Nat) (ns : List Nat) :
    (List.range n).flatMap (fun i => tile (a + ns.sum * i) ns) =
      tile a (List.replicate n ns).flatten := by
  induction n with
  | zero => rfl
  | succ n ih =>
    rw [List.range_succ, List.flatMap_append, ih, List.replicate_succ', List.flatten_append,
      tile_append, sum_flatten_replicate]
    simp

end Intervals
