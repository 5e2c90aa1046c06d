import Mathlib.Data.List.Basic
import Pinos.Lib.ByteMem

/-
`client/array.h`: arrays that grow by `realloc`.

An array has a block of memory, which is known by its address and its bytes.  A pointer into it is
an address; what is read or written outside of the block has no result.
-/

namespace Pinos

structure PinosArray where
  data : UInt64
  size : UInt64
  alloc : UInt64
  extend : UInt64
  /-- The bytes at `data`. -/
  block : List UInt8
  deriving DecidableEq

/-- What `realloc` gives: an address, and bytes for where nothing is copied. -/
structure Grant where
  address : UInt64
  fresh : Nat → UInt8

/-- `realloc` keeps the bytes that there were. -/
def Grant.bytes (grant : Grant) (block : List UInt8) (n : Nat) : List UInt8 :=
  block.take n ++ (List.range (n - block.length)).map grant.fresh

/-- `while (alloc < need) alloc *= 2` in at most `n` turns.  After 64 of them `alloc` is 0 and stays
so. -/
def allocFor : Nat → UInt64 → UInt64 → Option UInt64
  | 0, alloc, need => if alloc < need then none else some alloc
  | n + 1, alloc, need => if alloc < need then allocFor n (alloc * 2) need else some alloc

namespace PinosArray

/-- `PINOS_ARRAY_INIT (extend)`. -/
def init (extend : UInt64) : PinosArray := { data := 0, size := 0, alloc := 0, extend, block := [] }

/-- There is no result when the loop does not end.  Without a grant `realloc` has failed. -/
def ensureSize (arr : PinosArray) (size : UInt64) (grant : Option Grant) :
    Option (PinosArray × Bool) :=
  let need := arr.size + size
  if arr.alloc < need then do
    let alloc ← allocFor 64 (if arr.extend < arr.alloc then arr.alloc else arr.extend) need
    match grant with
    | none => some (arr, false)
    | some grant =>
      some ({ arr with data := grant.address, alloc, block := grant.bytes arr.block alloc.toNat },
        true)
  else some (arr, true)

/-- The pointer is `NULL` when there is no room. -/
def add (arr : PinosArray) (size : UInt64) (grant : Option Grant) :
    Option (PinosArray × Option UInt64) := do
  let (arr, ok) ← arr.ensureSize size grant
  if ok then some ({ arr with size := arr.size + size }, some (arr.data + arr.size))
  else some (arr, none)

/-- `memcpy` of bytes to a pointer into the block. -/
def store (arr : PinosArray) (p : UInt64) (bs : List UInt8) : Option PinosArray :=
  let o := (p - arr.data).toNat
  if o + bs.length ≤ arr.block.length then
    some { arr with block := arr.block.take o ++ bs ++ arr.block.drop (o + bs.length) }
  else none

/-- `n` bytes at a pointer into the block. -/
def load (arr : PinosArray) (p : UInt64) (n : Nat) : Option (List UInt8) :=
  let bs := (arr.block.drop (p - arr.data).toNat).take n
  if bs.length = n then some bs else none

/-! ## What it holds -/

/-- The bytes that are in use. -/
def content (arr : PinosArray) : List UInt8 := arr.block.take arr.size.toNat

/-- The array has no block, or one whose size is a power of two. -/
structure WellFormed (arr : PinosArray) : Prop where
  block : arr.block.length = arr.alloc.toNat
  size : arr.size ≤ arr.alloc
  alloc : arr.alloc = 0 ∨ ∃ k, k ≤ 63 ∧ arr.alloc.toNat = 2 ^ k
  extend : ∃ k, k ≤ 63 ∧ arr.extend.toNat = 2 ^ k

theorem wellFormed_init {extend : UInt64} {k : Nat} (hk : k ≤ 63) (hextend : extend.toNat = 2 ^ k) :
    (init extend).WellFormed where
  block := rfl
  size := UInt64.le_refl 0
  alloc := .inl rfl
  extend := ⟨k, hk, hextend⟩

end PinosArray

/-- Doubling a power of two gives room for anything up to 2^63. -/
theorem allocFor_pow (n : Nat) {k : Nat} {alloc need : UInt64} (hk : k ≤ 63) (hn : 63 ≤ k + n)
    (halloc : alloc.toNat = 2 ^ k) (hneed : need.toNat ≤ 2 ^ 63) :
    ∃ alloc', allocFor n alloc need = some alloc' ∧ need ≤ alloc' ∧ alloc ≤ alloc' ∧
      ∃ k', k' ≤ 63 ∧ alloc'.toNat = 2 ^ k' := by
  induction n generalizing k alloc with
  | zero =>
    obtain rfl : k = 63 := by omega
    have hle : need ≤ alloc := UInt64.le_iff_toNat_le.mpr (halloc.symm ▸ hneed)
    exact ⟨alloc, if_neg (UInt64.not_lt.mpr hle), hle, UInt64.le_refl _, 63, hk, halloc⟩
  | succ n ih =>
    rw [allocFor]
    by_cases hlt : alloc < need
    · have hbelow : 2 ^ k < 2 ^ 63 := by
        rw [← halloc]
        exact Nat.lt_of_lt_of_le (UInt64.lt_iff_toNat_lt.mp hlt) hneed
      have hk' : k + 1 ≤ 63 := (Nat.pow_lt_pow_iff_right (by decide)).mp hbelow
      have hdouble : (alloc * 2).toNat = 2 ^ (k + 1) := by
        have hpow : 2 ^ (k + 1) ≤ 2 ^ 63 := Nat.pow_le_pow_right (by decide) hk'
        have hmul : (alloc * 2).toNat = 2 ^ (k + 1) % 2 ^ 64 := by
          rw [UInt64.toNat_mul, halloc, Nat.pow_succ]
          rfl
        rw [hmul]
        exact Nat.mod_eq_of_lt (Nat.lt_of_le_of_lt hpow (by decide))
      obtain ⟨alloc', hfor, hroom, hle, hpow⟩ := ih hk' (by omega) hdouble
      refine ⟨alloc', ?_, hroom, ?_, hpow⟩
      · rw [if_pos hlt, hfor]
      · refine UInt64.le_trans (UInt64.le_iff_toNat_le.mpr ?_) hle
        rw [hdouble, halloc]
        exact Nat.pow_le_pow_right (by decide) (Nat.le_succ k)
    · rw [if_neg hlt]
      exact ⟨alloc, rfl, UInt64.not_lt.mp hlt, UInt64.le_refl _, k, hk, halloc⟩

theorem Grant.length_bytes (grant : Grant) {block : List UInt8} {n : Nat} (h : block.length ≤ n) :
    (grant.bytes block n).length = n := by
  rw [bytes, List.length_append, List.length_take, List.length_map, List.length_range]
  omega

theorem Grant.take_bytes (grant : Grant) {block : List UInt8} {n k : Nat} (hk : k ≤ block.length)
    (h : block.length ≤ n) : (grant.bytes block n).take k = block.take k := by
  rw [bytes, List.take_of_length_le h, List.take_append_of_le_length hk]

namespace PinosArray

variable {arr : PinosArray}

theorem WellFormed.size_le (h : arr.WellFormed) : arr.size.toNat ≤ arr.block.length := by
  rw [h.block]
  exact UInt64.le_iff_toNat_le.mp h.size

theorem WellFormed.length_content (h : arr.WellFormed) : arr.content.length = arr.size.toNat := by
  rw [content, List.length_take]
  exact Nat.min_eq_left h.size_le

/-- What the size is doubled from is a power of two, and not less than what there is. -/
theorem WellFormed.base (h : arr.WellFormed) :
    arr.alloc ≤ (if arr.extend < arr.alloc then arr.alloc else arr.extend) ∧
      ∃ k, k ≤ 63 ∧ (if arr.extend < arr.alloc then arr.alloc else arr.extend).toNat = 2 ^ k := by
  split
  · rename_i hlt
    refine ⟨UInt64.le_refl _, ?_⟩
    rcases h.alloc with hzero | hpow
    · rw [hzero] at hlt
      exact absurd hlt UInt64.not_lt_zero
    · exact hpow
  · rename_i hge
    exact ⟨UInt64.not_lt.mp hge, h.extend⟩

/-- Memory that is granted holds what was there, wherever it is. -/
theorem WellFormed.ensureSize (h : arr.WellFormed) {n : UInt64}
    (hneed : arr.size.toNat + n.toNat ≤ 2 ^ 63) (grant : Grant) :
    ∃ arr', arr.ensureSize n (some grant) = some (arr', true) ∧ arr'.WellFormed ∧
      arr'.size = arr.size ∧ arr'.content = arr.content ∧
      arr.size.toNat + n.toNat ≤ arr'.block.length := by
  have hsum : (arr.size + n).toNat = arr.size.toNat + n.toNat := by
    rw [UInt64.toNat_add]
    exact Nat.mod_eq_of_lt (Nat.lt_of_le_of_lt hneed (by decide))
  rw [PinosArray.ensureSize]
  by_cases hlt : arr.alloc < arr.size + n
  · obtain ⟨hbase, k, hk, hpow⟩ := h.base
    have hneed' : (arr.size + n).toNat ≤ 2 ^ 63 := hsum ▸ hneed
    obtain ⟨alloc, hfor, hroom, hle, hpow'⟩ := allocFor_pow 64 hk (by omega) hpow hneed'
    have hgrown : arr.alloc ≤ alloc := UInt64.le_trans hbase hle
    have hblock : arr.block.length ≤ alloc.toNat := by
      rw [h.block]
      exact UInt64.le_iff_toNat_le.mp hgrown
    rw [if_pos hlt, hfor]
    have hsize : arr.size ≤ alloc := UInt64.le_trans h.size hgrown
    refine ⟨_, rfl, ⟨grant.length_bytes hblock, hsize, .inr hpow', h.extend⟩, rfl,
      grant.take_bytes h.size_le hblock, ?_⟩
    rw [grant.length_bytes hblock, ← hsum]
    exact UInt64.le_iff_toNat_le.mp hroom
  · rw [if_neg hlt]
    refine ⟨arr, rfl, h, rfl, rfl, ?_⟩
    rw [← hsum, h.block]
    exact UInt64.le_iff_toNat_le.mp (UInt64.not_lt.mp hlt)

/-- An array to which bytes have been added, in a room of a size of its own. -/
structure Appended (arr : PinosArray) (n : UInt64) (bs : List UInt8) (p : UInt64)
    (arr' : PinosArray) : Prop where
  wellFormed : arr'.WellFormed
  place : p - arr'.data = arr.size
  size : arr'.size.toNat = arr.size.toNat + n.toNat
  content : ∃ pad, arr'.content = arr.content ++ (bs ++ pad)

theorem WellFormed.append (h : arr.WellFormed) {n : UInt64} {bs : List UInt8}
    (hbs : bs.length ≤ n.toNat) (hneed : arr.size.toNat + n.toNat ≤ 2 ^ 63) (grant : Grant) :
    ∃ added p arr', arr.add n (some grant) = some (added, some p) ∧
      added.store p bs = some arr' ∧ arr.Appended n bs p arr' := by
  obtain ⟨grown, hensure, hgrown, hsize, hcontent, hroom⟩ := h.ensureSize hneed grant
  have hplace : (grown.data + grown.size - grown.data) = arr.size := by
    rw [UInt64.add_comm, UInt64.add_sub_cancel, hsize]
  have hinside : arr.size.toNat + bs.length ≤ grown.block.length := by omega
  have hsum : (grown.size + n).toNat = arr.size.toNat + n.toNat := by
    rw [UInt64.toNat_add, hsize]
    exact Nat.mod_eq_of_lt (Nat.lt_of_le_of_lt hneed (by decide))
  have hused : grown.block.take arr.size.toNat = arr.content := by
    rw [← hcontent, PinosArray.content, hsize]
  refine ⟨{ grown with size := grown.size + n }, grown.data + grown.size,
    { grown with
      size := grown.size + n
      block := grown.block.take arr.size.toNat ++ bs ++
        grown.block.drop (arr.size.toNat + bs.length) }, ?_, ?_, ?_, hplace, hsum, ?_⟩
  · rw [add, hensure]
    rfl
  · rw [store]
    dsimp only
    rw [hplace, if_pos hinside]
  · refine ⟨?_, ?_, hgrown.alloc, hgrown.extend⟩
    · show List.length (_ ++ _ ++ _) = grown.alloc.toNat
      rw [← hgrown.block, List.length_append, List.length_append, List.length_take,
        List.length_drop]
      omega
    · refine UInt64.le_iff_toNat_le.mpr ?_
      show (grown.size + n).toNat ≤ grown.alloc.toNat
      rw [hsum, ← hgrown.block]
      exact hroom
  · refine ⟨(grown.block.drop (arr.size.toNat + bs.length)).take (n.toNat - bs.length), ?_⟩
    show List.take (grown.size + n).toNat (_ ++ _ ++ _) = _
    rw [hsum, List.append_assoc, hused, ← h.length_content, List.take_length_add_append,
      List.take_append, List.take_of_length_le hbs]

/-- Behind the bytes in use the rest of the block follows. -/
theorem WellFormed.drop_block (h : arr.WellFormed) {o : Nat} (ho : o ≤ arr.size.toNat) :
    arr.block.drop o = arr.content.drop o ++ arr.block.drop arr.size.toNat := by
  have hle : o ≤ arr.content.length := by rwa [h.length_content]
  conv_lhs => rw [← List.take_append_drop arr.size.toNat arr.block]
  exact List.drop_append_of_le_length hle

theorem WellFormed.load (h : arr.WellFormed) {p : UInt64} {n : Nat}
    (hinside : (p - arr.data).toNat + n ≤ arr.size.toNat) :
    arr.load p n = some ((arr.content.drop (p - arr.data).toNat).take n) := by
  have hlength : n ≤ (arr.content.drop (p - arr.data).toNat).length := by
    rw [List.length_drop, h.length_content]
    omega
  have htake : (arr.block.drop (p - arr.data).toNat).take n =
      (arr.content.drop (p - arr.data).toNat).take n := by
    rw [h.drop_block (by omega), List.take_append_of_le_length hlength]
  rw [PinosArray.load, htake, if_pos (List.length_take_of_le hlength)]

end PinosArray
end Pinos
