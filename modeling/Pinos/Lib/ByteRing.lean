import Pinos.Lib.ByteMem

/-
A ring of `n` bytes at the start of a memory, read and written at positions that
run on without end.

`unroll` lays the ring out along all positions; it repeats every `n` of them.  A
run of at most `n` bytes that is written at a position is found there, and what
is behind it, up to one round further, stays.
-/

namespace ByteMem
namespace Mem

def unroll (m : Mem) (n : Nat) : Mem := fun p => m (p % n)

/-- Write at a position of the ring, in two parts where the ring ends. -/
def ringWrite (m : Mem) (n p : Nat) (bs : List UInt8) : Mem :=
  write (write m (p % n) (bs.take (min bs.length (n - p % n)))) 0
    (bs.drop (min bs.length (n - p % n)))

/-- Read at a position of the ring, in two parts where the ring ends. -/
def ringRead (m : Mem) (n p len : Nat) : List UInt8 :=
  read m (p % n) (min len (n - p % n)) ++ read m 0 (len - min len (n - p % n))

variable {m : Mem} {n p : Nat}

theorem unroll_congr {q : Nat} (h : p % n = q % n) : unroll m n p = unroll m n q := by
  rw [unroll, unroll, h]

theorem holds_unroll_congr {q : Nat} (h : p % n = q % n) (bs : List UInt8) :
    Holds (unroll m n) p bs ↔ Holds (unroll m n) q bs := by
  have hcell : ∀ i, unroll m n (p + i) = unroll m n (q + i) := by
    intro i
    apply unroll_congr
    rw [Nat.add_mod, h, ← Nat.add_mod]
  rw [holds_iff, holds_iff]
  simp only [hcell]

/-- Where the position `j` steps on from `p` lies in the ring. -/
theorem add_mod_ring (hn : 0 < n) {j : Nat} (hj : j < n) :
    (p + j) % n = if p % n + j < n then p % n + j else p % n + j - n := by
  have ho := Nat.mod_lt p hn
  rw [Nat.add_mod, Nat.mod_eq_of_lt hj]
  by_cases h : p % n + j < n
  · rw [if_pos h, Nat.mod_eq_of_lt h]
  · rw [if_neg h, Nat.mod_eq_sub_mod (Nat.le_of_not_lt h), Nat.mod_eq_of_lt (by omega)]

/-- The ring after a write, from the position written up to one round further. -/
theorem unroll_ringWrite (hn : 0 < n) {bs : List UInt8} (hlen : bs.length ≤ n) {j : Nat}
    (hj : j < n) :
    unroll (ringWrite m n p bs) n (p + j) = (bs[j]?).getD (unroll m n (p + j)) := by
  have ho := Nat.mod_lt p hn
  rw [unroll, unroll, ringWrite, add_mod_ring hn hj]
  by_cases hlow : p % n + j < n
  · rw [if_pos hlow, write_outside _ (Or.inr (by rw [List.length_drop]; omega))]
    by_cases hin : j < bs.length
    · have hj' : j < (bs.take (min bs.length (n - p % n))).length := by
        rw [List.length_take]
        omega
      rw [write_inside _ _ hj', List.getElem_take, List.getElem?_eq_getElem hin, Option.getD_some]
    · rw [write_outside _ (Or.inr (by rw [List.length_take]; omega)),
        List.getElem?_eq_none (by omega), Option.getD_none]
  · rw [if_neg hlow]
    by_cases hin : j < bs.length
    · have hfirst : min bs.length (n - p % n) = n - p % n := by omega
      have hj' : p % n + j - n < (bs.drop (n - p % n)).length := by
        rw [List.length_drop]
        omega
      have hwrite := write_inside (write m (p % n) (bs.take (n - p % n))) 0 hj'
      rw [Nat.zero_add] at hwrite
      rw [hfirst, hwrite, List.getElem_drop, List.getElem?_eq_getElem hin, Option.getD_some]
      congr 1
      omega
    · rw [write_outside _ (Or.inr (by rw [List.length_drop]; omega)),
        write_outside _ (Or.inl (by omega)), List.getElem?_eq_none (by omega), Option.getD_none]

theorem holds_ringWrite (hn : 0 < n) {bs : List UInt8} (hlen : bs.length ≤ n) :
    Holds (unroll (ringWrite m n p bs) n) p bs := by
  apply holds_iff.mpr
  intro i hi
  rw [unroll_ringWrite hn hlen (by omega), List.getElem?_eq_getElem hi, Option.getD_some]

theorem ringWrite_congr {q : Nat} (h : p % n = q % n) (bs : List UInt8) :
    ringWrite m n p bs = ringWrite m n q bs := by
  rw [ringWrite, ringWrite, h]

/-- What lies in front of the position written stays, as far back as one round
leaves room. -/
theorem Holds.ringWrite {q : Nat} {bs cs : List UInt8} (h : Holds (unroll m n) q cs) (hn : 0 < n)
    (hq : q + cs.length = p) (hroom : cs.length + bs.length ≤ n) :
    Holds (unroll (Mem.ringWrite m n p bs) n) q cs := by
  apply holds_iff.mpr
  intro i hi
  have hround : (q + i) % n = (p + (n - cs.length + i)) % n := by
    rw [show p + (n - cs.length + i) = q + i + n by omega, Nat.add_mod_right]
  rw [unroll_congr hround, unroll_ringWrite hn (by omega) (by omega),
    List.getElem?_eq_none (by omega), Option.getD_none, ← unroll_congr hround]
  exact holds_iff.mp h i hi

/-- Nothing outside the ring is written. -/
theorem ringWrite_outside (hn : 0 < n) {bs : List UInt8} (hlen : bs.length ≤ n) {a : Nat}
    (ha : n ≤ a) : ringWrite m n p bs a = m a := by
  have ho := Nat.mod_lt p hn
  rw [ringWrite, write_outside _ (Or.inr (by rw [List.length_drop]; omega)),
    write_outside _ (Or.inr (by rw [List.length_take]; omega))]

theorem read_shift {m' : Mem} {a b len : Nat} (h : ∀ i, i < len → m (a + i) = m' (b + i)) :
    read m a len = read m' b len := by
  apply List.ext_getElem?
  intro i
  rcases Nat.lt_or_ge i len with hi | hi
  · rw [getElem?_read m a hi, getElem?_read m' b hi, h i hi]
  · rw [List.getElem?_eq_none (by rw [length_read]; exact hi),
      List.getElem?_eq_none (by rw [length_read]; exact hi)]

theorem ringRead_eq (hn : 0 < n) {len : Nat} (hlen : len ≤ n) :
    ringRead m n p len = read (unroll m n) p len := by
  have ho := Nat.mod_lt p hn
  obtain ⟨first, hfirst⟩ : ∃ first, first = min len (n - p % n) := ⟨_, rfl⟩
  have hlow : read m (p % n) first = read (unroll m n) p first := by
    apply read_shift
    intro i hi
    rw [unroll, add_mod_ring hn (by omega), if_pos (by omega)]
  have hhigh : read m 0 (len - first) = read (unroll m n) (p + first) (len - first) := by
    apply read_shift
    intro i hi
    rw [unroll, Nat.add_assoc, add_mod_ring hn (by omega), if_neg (by omega)]
    congr 1
    omega
  have hsplit : first + (len - first) = len := by omega
  rw [ringRead, ← hfirst, hlow, hhigh, ← read_add, hsplit]

end Mem
end ByteMem
