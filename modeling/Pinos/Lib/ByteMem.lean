import Mathlib.Data.List.Basic
import Mathlib.Tactic.Ring

/-
Byte-addressed memory and little-endian machine words.

A memory is a total function from addresses to bytes.  What lies outside an
allocation is whatever the function says there, so an access outside is not
hidden: it reads or changes that function like any other access.  `Holds` says
that a run of addresses spells a given list of bytes, and the framing lemmas say
when a write leaves it alone.
-/

namespace ByteMem

/-! ## Little-endian words -/

/-- The `w` little-endian bytes of `n`.  Bits above `8 * w` are dropped. -/
def toLE : Nat → Nat → List UInt8
  | 0, _ => []
  | w + 1, n => UInt8.ofNat n :: toLE w (n / 256)

def ofLE : List UInt8 → Nat
  | [] => 0
  | b :: bs => b.toNat + 256 * ofLE bs

@[simp] theorem length_toLE (w n : Nat) : (toLE w n).length = w := by
  induction w generalizing n with
  | zero => rfl
  | succ w ih => rw [toLE, List.length_cons, ih]

theorem ofLE_toLE (w n : Nat) : ofLE (toLE w n) = n % 256 ^ w := by
  induction w generalizing n with
  | zero => rw [toLE, ofLE, Nat.pow_zero, Nat.mod_one]
  | succ w ih =>
    have hlow : (UInt8.ofNat n).toNat = n % 256 := UInt8.toNat_ofNat'
    rw [toLE, ofLE, ih, hlow, Nat.pow_succ', Nat.mod_mul]

theorem ofLE_lt (bs : List UInt8) : ofLE bs < 256 ^ bs.length := by
  induction bs with
  | nil => exact Nat.one_pos
  | cons b bs ih =>
    have hb : b.toNat < 256 := b.toNat_lt
    rw [ofLE, List.length_cons, Nat.pow_succ]
    omega

theorem toLE_ofLE (bs : List UInt8) : toLE bs.length (ofLE bs) = bs := by
  induction bs with
  | nil => rfl
  | cons b bs ih =>
    have hb : b.toNat < 256 := b.toNat_lt
    have hlow : UInt8.ofNat (b.toNat + 256 * ofLE bs) = b := by
      apply UInt8.toNat_inj.mp
      rw [UInt8.toNat_ofNat']
      omega
    have hhigh : (b.toNat + 256 * ofLE bs) / 256 = ofLE bs := by omega
    rw [List.length_cons, ofLE, toLE, hlow, hhigh, ih]

theorem toLE_mod (w n : Nat) : toLE w (n % 256 ^ w) = toLE w n := by
  have h := toLE_ofLE (toLE w n)
  rwa [length_toLE, ofLE_toLE] at h

theorem toLE_add (v w n : Nat) : toLE (v + w) n = toLE v n ++ toLE w (n / 256 ^ v) := by
  induction v generalizing n with
  | zero => rw [Nat.zero_add, Nat.pow_zero, Nat.div_one, toLE, List.nil_append]
  | succ v ih =>
    rw [Nat.succ_add, toLE, toLE, ih, List.cons_append, Nat.div_div_eq_div_mul, Nat.pow_succ']

/-! ## Memory -/

abbrev Mem := Nat → UInt8

namespace Mem

/-- `memcpy` of the bytes `bs` to address `a`. -/
def write (m : Mem) (a : Nat) (bs : List UInt8) : Mem :=
  fun i => if a ≤ i then (bs[i - a]?).getD (m i) else m i

/-- The `n` bytes at address `a`. -/
def read (m : Mem) (a : Nat) : Nat → List UInt8
  | 0 => []
  | n + 1 => m a :: read m (a + 1) n

def Holds (m : Mem) (a : Nat) (bs : List UInt8) : Prop :=
  read m a bs.length = bs

def u32 (m : Mem) (a : Nat) : Nat := ofLE (read m a 4)

def u64 (m : Mem) (a : Nat) : Nat := ofLE (read m a 8)

/-! ### Reading -/

@[simp] theorem length_read (m : Mem) (a n : Nat) : (read m a n).length = n := by
  induction n generalizing a with
  | zero => rfl
  | succ n ih => rw [read, List.length_cons, ih]

theorem getElem?_read (m : Mem) (a : Nat) {n i : Nat} (h : i < n) :
    (read m a n)[i]? = some (m (a + i)) := by
  induction n generalizing a i with
  | zero => omega
  | succ n ih =>
    cases i with
    | zero => rfl
    | succ i =>
      rw [read, List.getElem?_cons_succ, ih (a + 1) (by omega)]
      congr 2
      omega

theorem read_add (m : Mem) (a k n : Nat) :
    read m a (k + n) = read m a k ++ read m (a + k) n := by
  induction k generalizing a with
  | zero => rw [Nat.zero_add, read, List.nil_append, Nat.add_zero]
  | succ k ih =>
    rw [Nat.succ_add, read, read, ih, List.cons_append]
    congr 3
    omega

theorem drop_read (m : Mem) (a k n : Nat) : (read m a n).drop k = read m (a + k) (n - k) := by
  rcases Nat.le_total k n with h | h
  · obtain ⟨j, rfl⟩ := Nat.exists_eq_add_of_le h
    rw [read_add, List.drop_left' (length_read m a k), Nat.add_sub_cancel_left]
  · rw [List.drop_of_length_le (by rw [length_read]; exact h), Nat.sub_eq_zero_of_le h]
    rfl

theorem take_read (m : Mem) (a : Nat) {k n : Nat} (h : k ≤ n) :
    (read m a n).take k = read m a k := by
  obtain ⟨j, rfl⟩ := Nat.exists_eq_add_of_le h
  rw [read_add, List.take_left' (length_read m a k)]

theorem read_congr {m m' : Mem} {a n : Nat}
    (h : ∀ i, a ≤ i → i < a + n → m i = m' i) : read m a n = read m' a n := by
  induction n generalizing a with
  | zero => rfl
  | succ n ih =>
    rw [read, read, h a (Nat.le_refl a) (by omega),
      ih (fun i hi hn => h i (by omega) (by omega))]

theorem u32_lt (m : Mem) (a : Nat) : u32 m a < 2 ^ 32 := by
  have h := ofLE_lt (read m a 4)
  rw [length_read] at h
  exact h

theorem u32_congr {m m' : Mem} {a : Nat}
    (h : ∀ i, a ≤ i → i < a + 4 → m i = m' i) : u32 m a = u32 m' a := by
  rw [u32, u32, read_congr h]

theorem u64_congr {m m' : Mem} {a : Nat}
    (h : ∀ i, a ≤ i → i < a + 8 → m i = m' i) : u64 m a = u64 m' a := by
  rw [u64, u64, read_congr h]

/-! ### Writing -/

theorem write_nil (m : Mem) (a : Nat) : write m a [] = m := by
  funext i
  simp [write]

theorem write_outside (m : Mem) {a i : Nat} {bs : List UInt8}
    (h : i < a ∨ a + bs.length ≤ i) : write m a bs i = m i := by
  unfold write
  split
  · rw [List.getElem?_eq_none (by omega), Option.getD_none]
  · rfl

theorem write_inside (m : Mem) (a : Nat) {bs : List UInt8} {j : Nat} (h : j < bs.length) :
    write m a bs (a + j) = bs[j] := by
  unfold write
  rw [if_pos (Nat.le_add_right a j), Nat.add_sub_cancel_left,
    List.getElem?_eq_getElem h, Option.getD_some]

theorem write_append (m : Mem) (a : Nat) (xs ys : List UInt8) :
    write m a (xs ++ ys) = write (write m a xs) (a + xs.length) ys := by
  funext i
  rcases Nat.lt_or_ge i (a + xs.length) with h | h
  · rw [write_outside _ (Or.inl h)]
    rcases Nat.lt_or_ge i a with h' | h'
    · rw [write_outside _ (Or.inl h'), write_outside _ (Or.inl h')]
    · obtain ⟨j, rfl⟩ := Nat.exists_eq_add_of_le h'
      have hj : j < xs.length := by omega
      rw [write_inside m a (by rw [List.length_append]; omega), write_inside m a hj,
        List.getElem_append_left hj]
  · obtain ⟨j, rfl⟩ := Nat.exists_eq_add_of_le h
    rcases Nat.lt_or_ge j ys.length with hj | hj
    · have hlen : xs.length + j < (xs ++ ys).length := by rw [List.length_append]; omega
      rw [write_inside _ _ hj, Nat.add_assoc, write_inside m a hlen,
        List.getElem_append_right (Nat.le_add_right _ _)]
      simp
    · rw [write_outside _ (Or.inr (by rw [List.length_append]; omega)),
        write_outside _ (Or.inr (by omega)), write_outside _ (Or.inr (by omega))]

/-- Patching the front of what was just written. -/
theorem write_patch (m : Mem) (a : Nat) {xs zs : List UInt8} (ys : List UInt8)
    (h : zs.length = xs.length) :
    write (write m a (xs ++ ys)) a zs = write m a (zs ++ ys) := by
  funext i
  by_cases hz : a ≤ i ∧ i < a + zs.length
  · obtain ⟨j, rfl⟩ := Nat.exists_eq_add_of_le hz.1
    have hj : j < zs.length := by omega
    rw [write_inside _ _ hj, write_inside m a (by rw [List.length_append]; omega),
      List.getElem_append_left hj]
  · rw [write_outside _ (by omega), write_append, write_append, h]
    unfold write
    split
    · have hnone : ∀ l : List UInt8, l.length = xs.length → l[i - a]? = none := by
        intro l hl
        apply List.getElem?_eq_none
        omega
      rw [hnone xs rfl, hnone zs h]
    · split
      · omega
      · rfl

/-- Overwriting a part of what was just written. -/
theorem write_within (m : Mem) (a : Nat) {xs ys ys' zs : List UInt8}
    (h : ys'.length = ys.length) :
    write (write m a (xs ++ (ys ++ zs))) (a + xs.length) ys' = write m a (xs ++ (ys' ++ zs)) := by
  rw [write_append, write_patch _ _ _ h, ← write_append]

theorem read_write_outside (m : Mem) {a p n : Nat} {bs : List UInt8}
    (h : p + n ≤ a ∨ a + bs.length ≤ p) : read (write m a bs) p n = read m p n := by
  apply read_congr
  intro i hp hn
  exact write_outside m (by omega)

theorem u32_write_outside (m : Mem) {a p : Nat} {bs : List UInt8}
    (h : p + 4 ≤ a ∨ a + bs.length ≤ p) : u32 (write m a bs) p = u32 m p := by
  rw [u32, u32, read_write_outside m h]

theorem u64_write_outside (m : Mem) {a p : Nat} {bs : List UInt8}
    (h : p + 8 ≤ a ∨ a + bs.length ≤ p) : u64 (write m a bs) p = u64 m p := by
  rw [u64, u64, read_write_outside m h]

/-- A write seen from a base address. -/
theorem view_write (m : Mem) (data a : Nat) (bs : List UInt8) :
    (fun i => write m (data + a) bs (data + i)) = write (fun i => m (data + i)) a bs := by
  funext i
  unfold write
  have hsub : data + i - (data + a) = i - a := by omega
  by_cases h : a ≤ i
  · rw [if_pos h, if_pos (by omega), hsub]
  · rw [if_neg h, if_neg (by omega)]

theorem read_view (m : Mem) (data a n : Nat) :
    read (fun i => m (data + i)) a n = read m (data + a) n := by
  induction n generalizing a with
  | zero => rfl
  | succ n ih => rw [read, read, ih, Nat.add_assoc]

theorem u32_view (m : Mem) (data a : Nat) : u32 (fun i => m (data + i)) a = u32 m (data + a) := by
  rw [u32, u32, read_view]

/-! ### Holding a list of bytes -/

theorem holds_iff {m : Mem} {a : Nat} {bs : List UInt8} :
    Holds m a bs ↔ ∀ i (h : i < bs.length), m (a + i) = bs[i] := by
  constructor
  · intro hm i h
    have := getElem?_read m a h
    rw [hm, List.getElem?_eq_getElem h] at this
    exact (Option.some.inj this).symm
  · intro hm
    apply List.ext_getElem?
    intro i
    rcases Nat.lt_or_ge i bs.length with h | h
    · rw [getElem?_read m a h, hm i h, List.getElem?_eq_getElem h]
    · rw [List.getElem?_eq_none h, List.getElem?_eq_none (by rw [length_read]; exact h)]

theorem holds_nil (m : Mem) (a : Nat) : Holds m a [] := rfl

theorem holds_append {m : Mem} {a : Nat} {xs ys : List UInt8} :
    Holds m a (xs ++ ys) ↔ Holds m a xs ∧ Holds m (a + xs.length) ys := by
  unfold Holds
  rw [List.length_append, read_add]
  constructor
  · intro h
    exact List.append_inj h (length_read m a xs.length)
  · rintro ⟨hx, hy⟩
    rw [hx, hy]

theorem Holds.left {m : Mem} {a : Nat} {xs ys : List UInt8} (h : Holds m a (xs ++ ys)) :
    Holds m a xs := (holds_append.mp h).1

theorem Holds.right {m : Mem} {a : Nat} {xs ys : List UInt8} (h : Holds m a (xs ++ ys)) :
    Holds m (a + xs.length) ys := (holds_append.mp h).2

theorem holds_write (m : Mem) (a : Nat) (bs : List UInt8) : Holds (write m a bs) a bs :=
  holds_iff.mpr fun _ h => write_inside m a h

theorem Holds.congr {m m' : Mem} {a : Nat} {bs : List UInt8} (h : Holds m a bs)
    (hm : ∀ i, a ≤ i → i < a + bs.length → m i = m' i) : Holds m' a bs := by
  unfold Holds
  rw [← read_congr hm]
  exact h

theorem Holds.write_outside {m : Mem} {a p : Nat} {bs cs : List UInt8} (h : Holds m p cs)
    (hd : p + cs.length ≤ a ∨ a + bs.length ≤ p) : Holds (write m a bs) p cs := by
  unfold Holds
  rw [read_write_outside m hd]
  exact h

/-- Overwriting a part. -/
theorem Holds.patch {m : Mem} {a p : Nat} {bs cs : List UInt8} (h : Holds m a cs)
    (hp : p + bs.length ≤ cs.length) :
    Holds (write m (a + p) bs) a (cs.take p ++ bs ++ cs.drop (p + bs.length)) := by
  have htake : (cs.take p).length = p := by
    rw [List.length_take]
    omega
  have hbefore : Holds m a (cs.take p) := by
    rw [← List.take_append_drop p cs] at h
    exact h.left
  have hafter : Holds m (a + (p + bs.length)) (cs.drop (p + bs.length)) := by
    rw [← List.take_append_drop (p + bs.length) cs] at h
    have := h.right
    rwa [List.length_take, Nat.min_eq_left hp] at this
  refine holds_append.mpr ⟨holds_append.mpr ⟨?_, ?_⟩, ?_⟩
  · exact hbefore.write_outside (Or.inl (by omega))
  · rw [htake]
    exact holds_write _ _ _
  · rw [List.length_append, htake]
    exact hafter.write_outside (Or.inr (by omega))

theorem Holds.write_eq {m : Mem} {a : Nat} {bs : List UInt8} (h : Holds m a bs) :
    write m a bs = m := by
  funext i
  by_cases hi : a ≤ i ∧ i < a + bs.length
  · obtain ⟨j, rfl⟩ := Nat.exists_eq_add_of_le hi.1
    have hj : j < bs.length := by omega
    rw [write_inside m a hj, holds_iff.mp h j hj]
  · exact Mem.write_outside m (by omega)

theorem Holds.u32 {m : Mem} {a n : Nat} (h : Holds m a (toLE 4 n)) : u32 m a = n % 2 ^ 32 := by
  have := congrArg ofLE h
  rwa [length_toLE, ofLE_toLE] at this

theorem Holds.u64 {m : Mem} {a n : Nat} (h : Holds m a (toLE 8 n)) : u64 m a = n % 2 ^ 64 := by
  have := congrArg ofLE h
  rwa [length_toLE, ofLE_toLE] at this

theorem u32_write (m : Mem) (a n : Nat) : u32 (write m a (toLE 4 n)) a = n % 2 ^ 32 :=
  (holds_write m a _).u32

theorem u64_write (m : Mem) (a n : Nat) : u64 (write m a (toLE 8 n)) a = n % 2 ^ 64 :=
  (holds_write m a _).u64

theorem holds_u32 (m : Mem) (a : Nat) : Holds m a (toLE 4 (Mem.u32 m a)) := by
  have h := toLE_ofLE (read m a 4)
  rw [length_read] at h
  unfold Holds Mem.u32
  rw [h, length_read]

end Mem
end ByteMem
