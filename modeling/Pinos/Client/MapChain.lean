import Pinos.Client.MapIds

/-
A map that is used with `insertNew` and `remove` alone, as the tables of globals
and of proxies are.

The slots of removed ids form one chain of links, which ends in 0.  A tagged link
has 31 bits for the id, so this holds for tables of at most `2 ^ 31` slots.
-/

namespace Pinos
namespace PinosMap

/-- The free list from a link on: tagged ids, each in a slot with the next link. -/
def Chain (items : List UInt64) : UInt32 → List UInt32 → Prop
  | link, [] => link = 0
  | link, i :: is => link = i * 2 ||| 1 ∧ link / 2 = i ∧ i.toNat < items.length ∧
      Chain items (itemNext (items.getD i.toNat 0)) is

theorem Chain.congr {items items' : List UInt64} {is : List UInt32} {link : UInt32}
    (h : Chain items link is) (hlen : items.length ≤ items'.length)
    (hitems : ∀ i ∈ is, items'.getD i.toNat 0 = items.getD i.toNat 0) : Chain items' link is := by
  induction is generalizing link with
  | nil => exact h
  | cons i is ih =>
    obtain ⟨htag, hid, hlt, hrest⟩ := h
    refine ⟨htag, hid, Nat.lt_of_lt_of_le hlt hlen, ?_⟩
    rw [hitems i (List.mem_cons_self ..)]
    exact ih hrest fun j hj => hitems j (List.mem_cons_of_mem _ hj)

theorem tag_ne_zero (id : UInt32) : id * 2 ||| 1 ≠ 0 := by
  intro h
  have htag := tag_toNat id
  rw [h] at htag
  have hzero : (0 : UInt32).toNat = 0 := rfl
  omega

theorem tag_half {id : UInt32} (h : id.toNat < 2 ^ 31) : (id * 2 ||| 1) / 2 = id := by
  have htag := tag_toNat id
  apply UInt32.toNat_inj.mp
  rw [UInt32.toNat_div, htag]
  show (id.toNat * 2 % 2 ^ 32 + 1) / 2 = id.toNat
  omega

theorem getD_set (items : List UInt64) {i j : Nat} (hi : i < items.length) (data : UInt64) :
    (items.set i data).getD j 0 = if j = i then data else items.getD j 0 := by
  by_cases hij : j = i
  · rw [if_pos hij, hij, List.getD_eq_getElem?_getD, List.getElem?_set_self hi, Option.getD_some]
  · rw [if_neg hij, List.getD_eq_getElem?_getD, List.getElem?_set_ne (Ne.symm hij),
      ← List.getD_eq_getElem?_getD]

theorem getD_append (items : List UInt64) (data : UInt64) (j : Nat) :
    (items ++ [data]).getD j 0 = if j = items.length then data else items.getD j 0 := by
  rw [List.getD_eq_getElem?_getD, List.getD_eq_getElem?_getD]
  by_cases hj : j = items.length
  · rw [if_pos hj, hj, List.getElem?_concat_length, Option.getD_some]
  · rw [if_neg hj]
    rcases Nat.lt_or_gt_of_ne hj with hlt | hgt
    · rw [List.getElem?_append_left hlt]
    · rw [List.getElem?_eq_none (Nat.le_of_lt hgt), List.getElem?_eq_none]
      rw [List.length_append]
      exact hgt

/-- What is stored under each id; the other slots are in the free list, once each. -/
structure Stores (map : PinosMap) (free : List UInt32) (stored : UInt32 → Option UInt64) :
    Prop where
  chain : Chain map.items map.freeList free
  nodup : free.Nodup
  dead : ∀ i, stored i = none ↔ i ∈ free ∨ map.size ≤ i.toNat
  slots : ∀ i data, stored i = some data → map.items.getD i.toNat 0 = data
  bound : map.size ≤ 2 ^ 31

theorem stores_empty : Stores .empty [] fun _ => none where
  chain := rfl
  nodup := List.nodup_nil
  dead _ := iff_of_true rfl (.inr (Nat.zero_le _))
  slots _ _ h := nomatch h
  bound := Nat.zero_le _

namespace Stores

variable {map : PinosMap} {free : List UInt32} {stored : UInt32 → Option UInt64}
  (h : Stores map free stored)
include h

theorem live_lt {i : UInt32} (hi : stored i ≠ none) : i ∉ free ∧ i.toNat < map.size := by
  have hnot := mt (h.dead i).mpr hi
  rw [not_or, Nat.not_le] at hnot
  exact hnot

theorem freeList_eq_zero_iff : map.freeList = 0 ↔ free = [] := by
  have hchain := h.chain
  cases free with
  | nil => exact iff_of_true hchain rfl
  | cons i is => exact iff_of_false (fun hzero => tag_ne_zero i (hchain.1 ▸ hzero)) (by simp)

/-- A pointer that is stored is found. -/
theorem lookup {i : UInt32} {data : UInt64} (hi : stored i = some data) (heven : data % 2 = 0) :
    map.lookup i.toNat = data := by
  have hlt := (h.live_lt (hi ▸ Option.some_ne_none data)).2
  rw [lookup_of_lt hlt, h.slots i data hi, itemIsFree_eq_false heven]
  rfl

theorem insertNew_append (hfree : free = []) (hroom : map.size < 2 ^ 31) (data : UInt64) :
    (map.insertNew data).2.toNat = map.size ∧ (map.insertNew data).1.size = map.size + 1 ∧
      stored (map.insertNew data).2 = none ∧
        Stores (map.insertNew data).1 []
          (Function.update stored (map.insertNew data).2 (some data)) := by
  have hzero := h.freeList_eq_zero_iff.mpr hfree
  have hnew : map.insertNew data
      = ({ map with items := map.items ++ [data] }, .ofNat map.size) := by
    rw [insertNew, if_neg (not_not_intro hzero)]
  have hid : (UInt32.ofNat map.size).toNat = map.size := by
    rw [UInt32.toNat_ofNat', Nat.mod_eq_of_lt (by omega)]
  have hsize : size { map with items := map.items ++ [data] } = map.size + 1 := List.length_append
  have hdead : stored (.ofNat map.size) = none := (h.dead _).mpr (.inr (Nat.le_of_eq hid.symm))
  rw [hnew]
  refine ⟨hid, hsize, hdead, hzero, List.nodup_nil, fun i => ?_, fun i d => ?_, ?_⟩
  · rw [hsize]
    by_cases hi : i = .ofNat map.size
    · rw [hi, Function.update_self, hid]
      simp
    · have hne : i.toNat ≠ map.size := fun heq => hi (UInt32.toNat_inj.mp (heq.trans hid.symm))
      rw [Function.update_of_ne hi, h.dead, hfree]
      simp only [List.not_mem_nil, false_or]
      omega
  · rw [getD_append]
    by_cases hi : i = .ofNat map.size
    · rw [hi, Function.update_self, hid, if_pos (show map.size = map.items.length from rfl)]
      exact Option.some.inj
    · have hne : i.toNat ≠ map.items.length := fun heq =>
        hi (UInt32.toNat_inj.mp (heq.trans hid.symm))
      rw [Function.update_of_ne hi, if_neg hne]
      exact h.slots i d
  · rw [hsize]
    omega

theorem insertNew_reuse {i : UInt32} {is : List UInt32} (hfree : free = i :: is) (data : UInt64) :
    (map.insertNew data).2 = i ∧ (map.insertNew data).1.size = map.size ∧ i.toNat < map.size ∧
      stored i = none ∧
        Stores (map.insertNew data).1 is (Function.update stored i (some data)) := by
  have hne : map.freeList ≠ 0 := by
    rw [Ne, h.freeList_eq_zero_iff, hfree]
    simp
  obtain ⟨-, hid, hlt, hrest⟩ := hfree ▸ h.chain
  have hnodup := hfree ▸ h.nodup
  obtain ⟨hnot, hnodup'⟩ := List.nodup_cons.mp hnodup
  have hdead : stored i = none := (h.dead i).mpr (.inl (hfree ▸ List.mem_cons_self ..))
  have hnew : map.insertNew data
      = ({ items := map.items.set i.toNat data, freeList := itemNext (map.items.getD i.toNat 0) },
          i) := by
    rw [insertNew, if_pos hne, hid]
    show (_, UInt32.ofNat i.toNat) = _
    rw [UInt32.ofNat_toNat]
  have hlen : (map.items.set i.toNat data).length = map.items.length := List.length_set
  rw [hnew]
  refine ⟨rfl, hlen, hlt, hdead, hrest.congr (Nat.le_of_eq hlen.symm) fun j hj => ?_, hnodup',
    fun j => ?_, fun j d => ?_, Nat.le_trans (Nat.le_of_eq hlen) h.bound⟩
  · have hji : j.toNat ≠ i.toNat := fun heq => hnot (UInt32.toNat_inj.mp heq ▸ hj)
    rw [getD_set _ hlt, if_neg hji]
  · show _ ↔ j ∈ is ∨ (map.items.set i.toNat data).length ≤ j.toNat
    rw [hlen]
    by_cases hji : j = i
    · rw [hji, Function.update_self]
      simp only [reduceCtorEq, false_iff, not_or, Nat.not_le]
      exact ⟨hnot, hlt⟩
    · rw [Function.update_of_ne hji, h.dead, hfree, List.mem_cons, or_iff_right hji]
      rfl
  · rw [getD_set _ hlt]
    by_cases hji : j = i
    · rw [hji, Function.update_self, if_pos rfl]
      exact Option.some.inj
    · rw [Function.update_of_ne hji, if_neg (mt UInt32.toNat_inj.mp hji)]
      exact h.slots j d

/-- A new id is not live, and is the first of the free list or the next in the table. -/
theorem insertNew (hroom : map.freeList ≠ 0 ∨ map.size < 2 ^ 31) (data : UInt64) :
    stored (map.insertNew data).2 = none ∧
      (∃ free', Stores (map.insertNew data).1 free'
        (Function.update stored (map.insertNew data).2 (some data))) ∧
      ((map.insertNew data).2.toNat = map.size ∧ (map.insertNew data).1.size = map.size + 1 ∨
        (map.insertNew data).2.toNat < map.size ∧ (map.insertNew data).1.size = map.size) := by
  cases hfree : free with
  | nil =>
    have hzero := h.freeList_eq_zero_iff.mpr hfree
    obtain ⟨hid, hsize, hdead, hstep⟩ :=
      h.insertNew_append hfree (hroom.resolve_left (not_not_intro hzero)) data
    exact ⟨hdead, ⟨_, hstep⟩, .inl ⟨hid, hsize⟩⟩
  | cons i is =>
    obtain ⟨hid, hsize, hlt, hdead, hstep⟩ := h.insertNew_reuse hfree data
    rw [hid]
    exact ⟨hdead, ⟨_, hstep⟩, .inr ⟨hlt, hsize⟩⟩

/-- Another pointer is stored under an id that is live. -/
theorem insertAt_live {id : UInt32} (hlive : stored id ≠ none) (data : UInt64) :
    (map.insertAt id data).1.size = map.size ∧
      Stores (map.insertAt id data).1 free (Function.update stored id (some data)) := by
  obtain ⟨hnot, hlt⟩ := h.live_lt hlive
  have hset : map.insertAt id data = ({ map with items := map.items.set id.toNat data }, true) := by
    rw [insertAt, if_neg (Nat.not_lt.mpr (Nat.le_of_lt hlt)), if_neg (Nat.ne_of_lt hlt)]
  have hlen : (map.items.set id.toNat data).length = map.items.length := List.length_set
  rw [hset]
  refine ⟨hlen, h.chain.congr (Nat.le_of_eq hlen.symm) fun j hj => ?_, h.nodup, fun j => ?_,
    fun j d => ?_, Nat.le_trans (Nat.le_of_eq hlen) h.bound⟩
  · have hji : j.toNat ≠ id.toNat := fun heq => hnot (UInt32.toNat_inj.mp heq ▸ hj)
    rw [getD_set _ hlt, if_neg hji]
  · show _ ↔ j ∈ free ∨ (map.items.set id.toNat data).length ≤ j.toNat
    rw [hlen]
    by_cases hji : j = id
    · rw [hji, Function.update_self]
      simp only [reduceCtorEq, false_iff, not_or, Nat.not_le]
      exact ⟨hnot, hlt⟩
    · rw [Function.update_of_ne hji, h.dead]
      rfl
  · rw [getD_set _ hlt]
    by_cases hji : j = id
    · rw [hji, Function.update_self, if_pos rfl]
      exact Option.some.inj
    · rw [Function.update_of_ne hji, if_neg (mt UInt32.toNat_inj.mp hji)]
      exact h.slots j d

theorem remove {id : UInt32} (hlive : stored id ≠ none) :
    (map.remove id).size = map.size ∧
      Stores (map.remove id) (id :: free) (Function.update stored id none) := by
  obtain ⟨hnot, hlt⟩ := h.live_lt hlive
  have hsize : (map.remove id).size = map.size := List.length_set
  have hbound := h.bound
  have hitems : (map.remove id).items
      = map.items.set id.toNat (setItemNext (map.items.getD id.toNat 0) map.freeList) := rfl
  refine ⟨hsize, ⟨rfl, tag_half (by omega), ?_, ?_⟩, List.nodup_cons.mpr ⟨hnot, h.nodup⟩,
    fun j => ?_, fun j d => ?_, hsize ▸ h.bound⟩
  · exact Nat.lt_of_lt_of_eq hlt hsize.symm
  · rw [slot_remove hlt, itemNext_setItemNext]
    refine h.chain.congr (Nat.le_of_eq hsize.symm) fun j hj => ?_
    have hji : j.toNat ≠ id.toNat := fun heq => hnot (UInt32.toNat_inj.mp heq ▸ hj)
    rw [hitems, getD_set _ hlt, if_neg hji]
  · rw [hsize]
    by_cases hji : j = id
    · rw [hji, Function.update_self]
      simp
    · rw [Function.update_of_ne hji, h.dead, List.mem_cons, or_iff_right hji]
  · by_cases hji : j = id
    · rw [hji, Function.update_self]
      exact fun heq => nomatch heq
    · rw [Function.update_of_ne hji, hitems, getD_set _ hlt, if_neg (mt UInt32.toNat_inj.mp hji)]
      exact h.slots j d

end Stores
end PinosMap
end Pinos
