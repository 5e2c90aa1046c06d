import Mathlib.Logic.Function.Basic
import Pinos.Client.Map
import Pinos.Lib.Run

/-
The map as its callers see it: which ids are live, and what is stored there.

The free list runs through the low halves of the slots of removed ids.  Two
things can go wrong: an id that `insertAt` takes back stays in the list, and
the last slot of the list holds the link 0, which is not tagged.
-/

namespace Pinos
namespace PinosMap

@[simp] theorem itemNext_setItemNext (item : UInt64) (next : UInt32) :
    itemNext (setItemNext item next) = next := by
  have hitem := item.toNat_lt
  have hnext := next.toNat_lt
  apply UInt32.toNat_inj.mp
  rw [itemNext, setItemNext, UInt64.toNat_toUInt32, UInt64.toNat_ofNat']
  omega

/-- The tagged link to an id, which loses the top bit of the id. -/
theorem tag_toNat (id : UInt32) : (id * 2 ||| 1).toNat = id.toNat * 2 % 2 ^ 32 + 1 := by
  have heven : id.toNat * 2 % 2 ^ 32 = (id.toNat * 2 % 2 ^ 32 / 2) <<< 1 := by
    rw [Nat.shiftLeft_eq]
    omega
  rw [UInt32.toNat_or, UInt32.toNat_mul]
  show id.toNat * 2 % 2 ^ 32 ||| 1 = _
  rw [heven, ← Nat.shiftLeft_add_eq_or_of_lt (by decide)]

theorem lookup_of_le {map : PinosMap} {id : Nat} (h : map.size ≤ id) : map.lookup id = 0 := by
  rw [lookup, List.getElem?_eq_none h]

theorem lookup_of_lt {map : PinosMap} {id : Nat} (h : id < map.size) :
    map.lookup id = if itemIsFree (map.items.getD id 0) then 0 else map.items.getD id 0 := by
  have hget : map.items[id]? = some map.items[id] := List.getElem?_eq_getElem h
  rw [lookup, hget, List.getD_eq_getElem?_getD, hget, Option.getD_some]

theorem itemIsFree_eq_false {data : UInt64} (h : data % 2 = 0) : itemIsFree data = false := by
  have heven : data.toNat % 2 = 0 := by
    have := congrArg UInt64.toNat h
    rwa [UInt64.toNat_mod] at this
  have hne : itemNext data % 2 ≠ 1 := by
    intro hodd
    have := congrArg UInt32.toNat hodd
    rw [UInt32.toNat_mod, itemNext, UInt64.toNat_toUInt32] at this
    have : data.toNat % 2 ^ 32 % 2 = 1 := this
    omega
  rw [itemIsFree, beq_eq_false_iff_ne]
  exact hne

/-- A slot overwritten with data is found again, and no other lookup changes. -/
theorem lookup_set {map : PinosMap} {i : Nat} {data : UInt64} (hi : i < map.size)
    (heven : data % 2 = 0) (link : UInt32) (id : Nat) :
    lookup { items := map.items.set i data, freeList := link } id
      = if id = i then data else map.lookup id := by
  by_cases hid : id = i
  · subst hid
    have hsize : id < (map.items.set id data).length := by rwa [List.length_set]
    rw [if_pos rfl, lookup, List.getElem?_eq_getElem hsize, List.getElem_set_self]
    simp [itemIsFree_eq_false heven]
  · rw [if_neg hid, lookup, lookup, List.getElem?_set_ne (Ne.symm hid)]

theorem lookup_append {map : PinosMap} {data : UInt64} (heven : data % 2 = 0) (id : Nat) :
    lookup { map with items := map.items ++ [data] } id
      = if id = map.size then data else map.lookup id := by
  by_cases hid : id = map.size
  · have hget : (map.items ++ [data])[id]? = some data := by
      rw [hid]
      exact List.getElem?_concat_length
    rw [if_pos hid, lookup, hget]
    simp [itemIsFree_eq_false heven]
  · rw [if_neg hid, lookup, lookup]
    rcases Nat.lt_or_gt_of_ne hid with hlt | hgt
    · rw [List.getElem?_append_left hlt]
    · rw [List.getElem?_eq_none (Nat.le_of_lt hgt), List.getElem?_eq_none]
      rw [List.length_append]
      exact hgt

theorem toNat_idToPtr (id : UInt32) : (idToPtr id).toNat = id.toNat * 2 % 2 ^ 32 := by
  rw [idToPtr, UInt32.toNat_toUInt64, UInt32.toNat_mul]
  rfl

theorem idToPtr_even (id : UInt32) : idToPtr id % 2 = 0 := by
  apply UInt64.toNat_inj.mp
  rw [UInt64.toNat_mod, toNat_idToPtr]
  show id.toNat * 2 % 2 ^ 32 % 2 = 0
  omega

theorem toNat_ptrToId (id : UInt32) : (ptrToId (idToPtr id)).toNat = id.toNat % 2 ^ 31 := by
  rw [ptrToId, UInt32.toNat_div, UInt64.toNat_toUInt32, toNat_idToPtr]
  show id.toNat * 2 % 2 ^ 32 % 2 ^ 32 / 2 = _
  omega

theorem lookup_idToPtr {table : PinosMap} {i : Nat} {id : UInt32}
    (hi : table.items[i]? = some (idToPtr id)) : table.lookup i = idToPtr id := by
  rw [lookup, hi]
  simp [itemIsFree_eq_false (idToPtr_even id)]

/-- An id is found again when it is not 0 and its topmost bit is clear. -/
theorem idToPtr_kept_iff (id : UInt32) :
    idToPtr id ≠ 0 ∧ ptrToId (idToPtr id) = id ↔ 0 < id.toNat ∧ id.toNat < 2 ^ 31 := by
  have hlt := id.toNat_lt
  have hzero : idToPtr id = 0 ↔ id.toNat * 2 % 2 ^ 32 = 0 := by
    rw [← UInt64.toNat_inj, toNat_idToPtr]
    rfl
  have hkept : ptrToId (idToPtr id) = id ↔ id.toNat % 2 ^ 31 = id.toNat := by
    rw [← UInt32.toNat_inj, toNat_ptrToId]
  rw [ne_eq, hzero, hkept]
  omega

theorem slot_remove {map : PinosMap} {id : UInt32} (hid : id.toNat < map.size) :
    (map.remove id).items.getD id.toNat 0
      = setItemNext (map.items.getD id.toNat 0) map.freeList := by
  rw [List.getD_eq_getElem?_getD, remove, List.getElem?_set_self hid, Option.getD_some]

theorem lookup_remove {map : PinosMap} {id : UInt32} (hid : id.toNat < map.size) (i : Nat) :
    (map.remove id).lookup i =
      if i = id.toNat then
        if map.freeList % 2 = 1 then 0 else setItemNext (map.items.getD i 0) map.freeList
      else map.lookup i := by
  by_cases hi : i = id.toNat
  · subst hi
    have hsize : id.toNat < (map.remove id).size := by
      rw [size, remove, List.length_set]
      exact hid
    rw [lookup_of_lt hsize, slot_remove hid, if_pos rfl, itemIsFree, itemNext_setItemNext]
    simp only [beq_iff_eq]
  · rw [if_neg hi, lookup, lookup, remove, List.getElem?_set_ne (Ne.symm hi)]

/-- With an empty free list only the low half of the slot becomes `NULL`. -/
theorem setItemNext_zero_eq_zero (item : UInt64) : setItemNext item 0 = 0 ↔ item.toNat < 2 ^ 32 := by
  have hitem := item.toNat_lt
  rw [← UInt64.toNat_inj, setItemNext, UInt64.toNat_ofNat']
  show (item.toNat / 2 ^ 32 * 2 ^ 32 + 0) % 2 ^ 64 = 0 ↔ _
  omega

/-- What a link of the free list may be: the end, or a tagged id of the map. -/
def IsLink (map : PinosMap) (link : UInt32) : Prop :=
  link = 0 ∨ link % 2 = 1 ∧ (link / 2).toNat < map.size

theorem IsLink.mono {map map' : PinosMap} {link : UInt32} (h : map.IsLink link)
    (hsize : map.size ≤ map'.size) : map'.IsLink link :=
  h.imp_right fun ⟨hodd, hlt⟩ => ⟨hodd, Nat.lt_of_lt_of_le hlt hsize⟩

theorem isLink_tag {map : PinosMap} {id : UInt32} (h : id.toNat < map.size) :
    map.IsLink (id * 2 ||| 1) := by
  have htag := tag_toNat id
  refine .inr ⟨?_, ?_⟩
  · apply UInt32.toNat_inj.mp
    rw [UInt32.toNat_mod, htag]
    show (id.toNat * 2 % 2 ^ 32 + 1) % 2 = 1
    omega
  · rw [UInt32.toNat_div, htag]
    show (id.toNat * 2 % 2 ^ 32 + 1) / 2 < map.size
    omega

end PinosMap

inductive MapOp where
  | insertNew (data : UInt64)
  | insertAt (id : UInt32) (data : UInt64)
  | remove (id : UInt32)
  deriving DecidableEq

/-- A map, and what its users last stored under each id that is live. -/
structure MapUse where
  map : PinosMap
  stored : UInt32 → Option UInt64

namespace MapUse

def start : MapUse := { map := .empty, stored := fun _ => none }

def step (s : MapUse) : MapOp → MapUse
  | .insertNew data =>
    { map := (s.map.insertNew data).1
      stored := Function.update s.stored (s.map.insertNew data).2 (some data) }
  | .insertAt id data =>
    { map := (s.map.insertAt id data).1
      stored := Function.update s.stored id (some data) }
  | .remove id => { map := s.map.remove id, stored := Function.update s.stored id none }

def IsPointer (data : UInt64) : Prop := data ≠ 0 ∧ data % 2 = 0

instance (data : UInt64) : Decidable (IsPointer data) :=
  inferInstanceAs (Decidable (_ ∧ _))

/-- The operations that callers may ask for. -/
def Admits (s : MapUse) : MapOp → Prop
  | .insertNew data => IsPointer data
  | .insertAt id data => IsPointer data ∧ id.toNat ≤ s.map.size
  | .remove id => s.stored id ≠ none

instance (s : MapUse) : (op : MapOp) → Decidable (s.Admits op)
  | .insertNew _ => inferInstanceAs (Decidable (_ ∧ _))
  | .insertAt _ _ => inferInstanceAs (Decidable (_ ∧ _))
  | .remove _ => inferInstanceAs (Decidable (_ ≠ _))

def Faithful (s : MapUse) : Prop :=
  ∀ i : UInt32, s.map.lookup i.toNat = (s.stored i).getD 0

/-- What the operation itself returns. -/
def Answers (s : MapUse) : MapOp → Prop
  | .insertNew data => s.stored (s.map.insertNew data).2 = none
  | .insertAt id data => (s.map.insertAt id data).2 = true
  | .remove _ => True

/-- The operation returns what it should, and every lookup behind it does. -/
def Right (s : MapUse) (op : MapOp) : Prop := s.Answers op ∧ (s.step op).Faithful

/-- When an operation goes right: the head of the free list is really free or,
for want of one, there is an id left; a removed id gets a tagged link. -/
def Safe (s : MapUse) : MapOp → Prop
  | .insertNew _ =>
    if s.map.freeList = 0 then s.map.size < 2 ^ 32
    else s.map.lookup (s.map.freeList / 2).toNat = 0
  | .insertAt _ _ => True
  | .remove id => s.map.freeList ≠ 0 ∨ (s.map.lookup id.toNat).toNat < 2 ^ 32

instance (s : MapUse) : (op : MapOp) → Decidable (s.Safe op)
  | .insertNew _ => inferInstanceAs (Decidable (if s.map.freeList = 0 then s.map.size < 2 ^ 32
      else s.map.lookup (s.map.freeList / 2).toNat = 0))
  | .insertAt _ _ => inferInstanceAs (Decidable True)
  | .remove _ => inferInstanceAs (Decidable (_ ∨ _))

/-- Live ids are stored as they were given, and a dead slot holds a link. -/
structure Inv (s : MapUse) : Prop where
  faithful : s.Faithful
  pointers : ∀ i data, s.stored i = some data → IsPointer data
  chain : s.map.IsLink s.map.freeList
  links : ∀ i, s.stored i = none → i.toNat < s.map.size →
    s.map.IsLink (PinosMap.itemNext (s.map.items.getD i.toNat 0))
  bound : s.map.size ≤ 2 ^ 32

theorem inv_start : start.Inv where
  faithful _ := rfl
  pointers _ _ h := nomatch h
  chain := .inl rfl
  links _ _ h := absurd h (Nat.not_lt_zero _)
  bound := Nat.zero_le _

namespace Inv

variable {s : MapUse} (hinv : s.Inv)
include hinv

theorem lookup_eq_zero_iff (i : UInt32) : s.map.lookup i.toNat = 0 ↔ s.stored i = none := by
  rw [hinv.faithful i]
  cases hi : s.stored i with
  | none => simp
  | some data => simpa using (hinv.pointers i data hi).1

/-- A live id is an id of the map, and its slot holds what is stored there. -/
theorem slot_of_live {i : UInt32} (hi : s.stored i ≠ none) :
    i.toNat < s.map.size ∧ s.map.items.getD i.toNat 0 = s.map.lookup i.toNat := by
  have hne := mt (hinv.lookup_eq_zero_iff i).mp hi
  have hlt : i.toNat < s.map.size := by
    by_contra hge
    exact hne (PinosMap.lookup_of_le (Nat.le_of_not_lt hge))
  refine ⟨hlt, ?_⟩
  rw [PinosMap.lookup_of_lt hlt] at hne ⊢
  by_cases hfree : PinosMap.itemIsFree (s.map.items.getD i.toNat 0)
  · exact absurd (if_pos hfree) hne
  · rw [if_neg hfree]

/-- Changing one slot `i`: what is left to show of the new map. -/
theorem update {map' : PinosMap} {i : UInt32} {v : Option UInt64}
    (hv : ∀ data, v = some data → IsPointer data)
    (hlookup : ∀ j : UInt32, map'.lookup j.toNat =
      if j.toNat = i.toNat then v.getD 0 else s.map.lookup j.toNat)
    (hchain : map'.IsLink map'.freeList)
    (hslot : v = none → map'.IsLink (PinosMap.itemNext (map'.items.getD i.toNat 0)))
    (hslots : ∀ j : Nat, j ≠ i.toNat → j < map'.size →
      j < s.map.size ∧ map'.items.getD j 0 = s.map.items.getD j 0)
    (hmono : s.map.size ≤ map'.size) (hbound : map'.size ≤ 2 ^ 32) :
    Inv { map := map', stored := Function.update s.stored i v } := by
  have hother : ∀ {j : UInt32}, j ≠ i → j.toNat ≠ i.toNat := mt UInt32.toNat_inj.mp
  refine ⟨?_, ?_, hchain, ?_, hbound⟩
  · intro j
    show map'.lookup j.toNat = (Function.update s.stored i v j).getD 0
    rw [hlookup j]
    by_cases hji : j = i
    · rw [hji, if_pos rfl, Function.update_self]
    · rw [if_neg (hother hji), Function.update_of_ne hji]
      exact hinv.faithful j
  · intro j data
    show Function.update s.stored i v j = some data → _
    by_cases hji : j = i
    · rw [hji, Function.update_self]
      exact hv data
    · rw [Function.update_of_ne hji]
      exact hinv.pointers j data
  · intro j
    show Function.update s.stored i v j = none → j.toNat < map'.size → _
    by_cases hji : j = i
    · rw [hji, Function.update_self]
      exact fun h _ => hslot h
    · rw [Function.update_of_ne hji]
      intro hj hlt
      obtain ⟨hold, heq⟩ := hslots j.toNat (hother hji) hlt
      show map'.IsLink (PinosMap.itemNext (map'.items.getD j.toNat 0))
      rw [heq]
      exact (hinv.links j hj hold).mono hmono

/-- Storing over a slot of the map, with a link that may stand in the list. -/
theorem store_set {i : UInt32} (hi : i.toNat < s.map.size) {data : UInt64} (hdata : IsPointer data)
    {link : UInt32} (hlink : s.map.IsLink link) :
    Inv { map := { items := s.map.items.set i.toNat data, freeList := link }
          stored := Function.update s.stored i (some data) } := by
  have hsize : PinosMap.size { items := s.map.items.set i.toNat data, freeList := link }
      = s.map.size := List.length_set
  have hge := Nat.le_of_eq hsize.symm
  refine hinv.update (fun d hd => Option.some.inj hd ▸ hdata)
    (fun j => PinosMap.lookup_set hi hdata.2 link j.toNat) (hlink.mono hge)
    (fun h => nomatch h) ?_ hge (hsize ▸ hinv.bound)
  intro j hji hlt
  refine ⟨hsize ▸ hlt, ?_⟩
  rw [List.getD_eq_getElem?_getD, List.getD_eq_getElem?_getD, List.getElem?_set_ne hji.symm]

theorem store_append {i : UInt32} (hi : i.toNat = s.map.size) {data : UInt64}
    (hdata : IsPointer data) :
    Inv { map := { s.map with items := s.map.items ++ [data] }
          stored := Function.update s.stored i (some data) } := by
  have hsize : PinosMap.size { s.map with items := s.map.items ++ [data] } = s.map.size + 1 :=
    List.length_append
  have hilt := i.toNat_lt
  refine hinv.update (fun d hd => Option.some.inj hd ▸ hdata)
    (fun j => hi ▸ PinosMap.lookup_append hdata.2 j.toNat) (hinv.chain.mono (by omega))
    (fun h => nomatch h) ?_ (by omega) (by omega)
  intro j hji hlt
  have hold : j < s.map.size := by omega
  refine ⟨hold, ?_⟩
  rw [List.getD_eq_getElem?_getD, List.getD_eq_getElem?_getD, List.getElem?_append_left hold]

/-! ## The three operations -/

theorem insertNew_append (hfree : s.map.freeList = 0) {data : UInt64} (hdata : IsPointer data) :
    (s.Right (.insertNew data) → s.map.size < 2 ^ 32) ∧
      (s.map.size < 2 ^ 32 → s.Answers (.insertNew data) ∧ (s.step (.insertNew data)).Inv) := by
  have hnew : s.map.insertNew data
      = ({ s.map with items := s.map.items ++ [data] }, .ofNat s.map.size) := by
    rw [PinosMap.insertNew, if_neg (not_not_intro hfree)]
  rw [Right, Answers, step, hnew]
  refine ⟨fun ⟨hfresh, hfaithful⟩ => ?_, fun hlt => ⟨?_, ?_⟩⟩
  · -- with all ids in use the returned id is 0, and its slot is not the one written
    by_contra hge
    have hsize : s.map.size = 2 ^ 32 := Nat.le_antisymm hinv.bound (Nat.le_of_not_lt hge)
    have hfresh : s.stored (.ofNat s.map.size) = none := hfresh
    rw [hsize] at hfresh
    have hold := (hinv.lookup_eq_zero_iff 0).mpr hfresh
    have hzero : (0 : UInt32).toNat ≠ s.map.size := by
      rw [hsize]
      decide
    have hlookup := @PinosMap.lookup_append s.map data hdata.2 (0 : UInt32).toNat
    rw [if_neg hzero, hold, hfaithful 0, hsize] at hlookup
    exact hdata.1 (by simpa using hlookup)
  · apply (hinv.lookup_eq_zero_iff _).mp
    rw [UInt32.toNat_ofNat', Nat.mod_eq_of_lt hlt]
    exact PinosMap.lookup_of_le (Nat.le_refl _)
  · exact hinv.store_append (by rw [UInt32.toNat_ofNat', Nat.mod_eq_of_lt hlt]) hdata

theorem insertNew_reuse (hfree : s.map.freeList ≠ 0) {data : UInt64} (hdata : IsPointer data) :
    (s.Answers (.insertNew data) ↔ s.map.lookup (s.map.freeList / 2).toNat = 0) ∧
      (s.map.lookup (s.map.freeList / 2).toNat = 0 → (s.step (.insertNew data)).Inv) := by
  have hnew : s.map.insertNew data
      = ({ items := s.map.items.set (s.map.freeList / 2).toNat data
           freeList := PinosMap.itemNext (s.map.items.getD (s.map.freeList / 2).toNat 0) },
          s.map.freeList / 2) := by
    rw [PinosMap.insertNew, if_pos hfree]
    show (_, UInt32.ofNat (s.map.freeList / 2).toNat) = _
    rw [UInt32.ofNat_toNat]
  rw [Answers, step, hnew, hinv.lookup_eq_zero_iff]
  refine ⟨Iff.rfl, fun hdead => ?_⟩
  obtain ⟨-, hlt⟩ := hinv.chain.resolve_left hfree
  exact hinv.store_set hlt hdata (hinv.links _ hdead hlt)

theorem insertNew {data : UInt64} (hdata : IsPointer data) :
    (s.Right (.insertNew data) → s.Safe (.insertNew data)) ∧
      (s.Safe (.insertNew data) →
        s.Answers (.insertNew data) ∧ (s.step (.insertNew data)).Inv) := by
  rw [Safe]
  by_cases hfree : s.map.freeList = 0
  · rw [if_pos hfree]
    exact hinv.insertNew_append hfree hdata
  · rw [if_neg hfree]
    obtain ⟨hanswers, hstep⟩ := hinv.insertNew_reuse hfree hdata
    exact ⟨fun hright => hanswers.mp hright.1, fun hsafe => ⟨hanswers.mpr hsafe, hstep hsafe⟩⟩

theorem insertAt {id : UInt32} {data : UInt64} (hdata : IsPointer data)
    (hid : id.toNat ≤ s.map.size) :
    s.Answers (.insertAt id data) ∧ (s.step (.insertAt id data)).Inv := by
  rw [Answers, step, PinosMap.insertAt, if_neg (Nat.not_lt.mpr hid)]
  by_cases hlast : id.toNat = s.map.size
  · rw [if_pos hlast]
    exact ⟨rfl, hinv.store_append hlast hdata⟩
  · rw [if_neg hlast]
    exact ⟨rfl, hinv.store_set (Nat.lt_of_le_of_ne hid hlast) hdata hinv.chain⟩

theorem remove {id : UInt32} (hlive : s.stored id ≠ none) :
    (s.Right (.remove id) → s.Safe (.remove id)) ∧
      (s.Safe (.remove id) → (s.step (.remove id)).Inv) := by
  obtain ⟨hlt, hitem⟩ := hinv.slot_of_live hlive
  have hsize : (s.map.remove id).size = s.map.size := List.length_set
  have hge := Nat.le_of_eq hsize.symm
  have hlookup := PinosMap.lookup_remove hlt
  have hnull : s.Safe (.remove id) ↔ (s.map.remove id).lookup id.toNat = 0 := by
    rw [hlookup, if_pos rfl, Safe]
    rcases hinv.chain with hend | ⟨hodd, -⟩
    · rw [hend, if_neg (by decide), PinosMap.setItemNext_zero_eq_zero, hitem]
      simp
    · have hne : s.map.freeList ≠ 0 := by
        intro h
        rw [h] at hodd
        exact absurd hodd (by decide)
      simp [hodd, hne]
  refine ⟨fun hright => ?_, fun hsafe => ?_⟩
  · apply hnull.mpr
    have hfaithful : (s.map.remove id).lookup id.toNat
        = (Function.update s.stored id none id).getD 0 := hright.2 id
    rwa [Function.update_self] at hfaithful
  · refine hinv.update (fun _ h => nomatch h) (fun j => ?_) ((PinosMap.isLink_tag hlt).mono hge)
      (fun _ => ?_) (fun j hji hj => ⟨hsize ▸ hj, ?_⟩) hge (hsize ▸ hinv.bound)
    · by_cases hj : j.toNat = id.toNat
      · rw [hj, if_pos rfl]
        exact hnull.mp hsafe
      · rw [hlookup, if_neg hj, if_neg hj]
    · rw [PinosMap.slot_remove hlt, PinosMap.itemNext_setItemNext]
      exact hinv.chain.mono hge
    · rw [List.getD_eq_getElem?_getD, List.getD_eq_getElem?_getD, PinosMap.remove,
        List.getElem?_set_ne hji.symm]

theorem op_right_iff {op : MapOp} (hadmits : s.Admits op) :
    (s.Right op ↔ s.Safe op) ∧ (s.Safe op → (s.step op).Inv) := by
  cases op with
  | insertNew data =>
    obtain ⟨honly, hsafe⟩ := hinv.insertNew hadmits
    exact ⟨⟨honly, fun h => ⟨(hsafe h).1, (hsafe h).2.faithful⟩⟩, fun h => (hsafe h).2⟩
  | insertAt id data =>
    obtain ⟨hanswers, hstep⟩ := hinv.insertAt hadmits.1 hadmits.2
    exact ⟨⟨fun _ => trivial, fun _ => ⟨hanswers, hstep.faithful⟩⟩, fun _ => hstep⟩
  | remove id =>
    obtain ⟨honly, hsafe⟩ := hinv.remove hadmits
    exact ⟨⟨honly, fun h => ⟨trivial, (hsafe h).faithful⟩⟩, hsafe⟩

end Inv

/-- In a run of admissible operations on a new map, all go right exactly when
each is safe in the state it is made in. -/
theorem right_iff_safe {ops : List MapOp} (hadmits : Run.Along step Admits start ops) :
    Run.Along step Right start ops ↔ Run.Along step Safe start ops :=
  Run.along_iff Inv (fun _ _ h hop => (h.op_right_iff hop).1)
    (fun _ _ h hop => (h.op_right_iff hop).2) inv_start hadmits

/-- Two ids are removed and the last one is given out again. -/
theorem right_iff_safe_reuse :
    let ops : List MapOp := [.insertNew 2, .insertNew 4, .remove 1, .remove 0, .insertNew 6]
    Run.Along step Right start ops ↔ Run.Along step Safe start ops :=
  right_iff_safe (by decide)

/-- An id that was taken back by `insertAt` is given out again while it is live. -/
theorem not_right : ¬ ∀ ops, Run.Along step Admits start ops → Run.Along step Right start ops := by
  intro h
  have hright := h [.insertNew 2, .remove 0, .insertAt 0 4, .insertNew 6] (by decide)
  have hfresh : (((start.step (.insertNew 2)).step (.remove 0)).step (.insertAt 0 4)).stored 0
      = none := hright.2.2.2.1.1
  exact absurd hfresh (by decide)

end MapUse
end Pinos
