import Pinos.Client.Array
import Pinos.Client.TypeMap

/-
`client/mapper.c` over arrays that are moved as they grow.

The names stand one behind the other in one array, and the items of the map in another hold where
each of them starts.  What is read or written outside of an array, and a loop that does not end,
have no result.
-/

namespace Pinos

open ByteMem

/-- A `PinosMap` whose items are the 8 bytes of each. -/
structure StoredMap where
  items : PinosArray
  freeList : UInt32

namespace StoredMap

/-- `PINOS_MAP_INIT (extend)`. -/
def init (extend : UInt64) : StoredMap := { items := .init extend, freeList := 0 }

def size (map : StoredMap) : UInt64 := map.items.size / 8

/-- `pinos_map_get_item`. -/
def itemAt (map : StoredMap) (id : UInt32) : UInt64 := map.items.data + id.toUInt64 * 8

def lookupUnchecked (map : StoredMap) (id : UInt32) : Option UInt64 := do
  let item ← map.items.load (map.itemAt id) 8
  return .ofNat (ofLE item)

/-- `pinos_map_insert_new`. -/
def insertNew (map : StoredMap) (data : UInt64) (grant : Option Grant) :
    Option (StoredMap × UInt32) :=
  if map.freeList ≠ 0 then do
    let id := map.freeList / 2
    let next ← map.items.load (map.itemAt id) 4
    let items ← map.items.store (map.itemAt id) (toLE 8 data.toNat)
    return ({ items, freeList := .ofNat (ofLE next) }, id)
  else do
    let (items, item) ← map.items.add 8 grant
    match item with
    | none => return ({ map with items }, spaIdInvalid)
    | some item =>
      let items ← items.store item (toLE 8 data.toNat)
      return ({ map with items }, ((item - items.data) / 8).toUInt32)

end StoredMap

/-- The `TypeMap` of `mapper.c`. -/
structure StoredTypeMap where
  types : StoredMap
  strings : PinosArray

/-- A call of `get_id`, with the memory that `realloc` gives when the call asks for some. -/
structure GetIdCall where
  type : CString
  strings : Option Grant
  items : Option Grant

namespace StoredTypeMap

/-- `default_type_map`. -/
def default : StoredTypeMap := { types := .init 128, strings := .init 4096 }

/-- Whether `strcmp` of the string at `o` and a name is 0. -/
def isAt (map : StoredTypeMap) (o : UInt64) (type : CString) : Option Bool :=
  let bs := map.strings.block.drop (map.strings.data + o - map.strings.data).toNat
  if type.bytes <+: bs then some true
  else if bs <+: type.bytes then none
  else some false

/-- The loop of `type_map_get_id` for the `n` ids from `i` on. -/
def find (map : StoredTypeMap) (type : CString) : Nat → Nat → Option (Option UInt32)
  | 0, _ => some none
  | n + 1, i => do
    let o ← map.types.lookupUnchecked (.ofNat i)
    if ← map.isAt o type then return some (.ofNat i)
    else map.find type n (i + 1)

/-- `type_map_get_id` of a name that is not there. -/
def insert (map : StoredTypeMap) (call : GetIdCall) : Option (StoredTypeMap × UInt32) := do
  let len : UInt32 := .ofNat call.type.chars.length
  let room : UInt32 := .ofNat (roundUpN (len + 1).toNat 2)
  let (strings, p) ← map.strings.add room.toUInt64 call.strings
  let p ← p
  let strings ← strings.store p (call.type.bytes.take (len + 1).toNat)
  let (types, i) ← map.types.insertNew (p - strings.data) call.items
  return ({ types, strings }, i)

/-- `type_map_get_id`.  The counter of the loop has 32 bits, and it does not pass 2^32 ids. -/
def getId (map : StoredTypeMap) (call : GetIdCall) : Option (StoredTypeMap × UInt32) := do
  match ← map.find call.type (min map.types.size.toNat (2 ^ 32)) 0 with
  | some i => return (map, i)
  | none => if map.types.size.toNat < 2 ^ 32 then map.insert call else none

/-- The string at a place in the array. -/
def stringAt (map : StoredTypeMap) (o : UInt64) : Option CString :=
  let bs := map.strings.block.drop (map.strings.data + o - map.strings.data).toNat
  if 0 ∈ bs then some ⟨bs.takeWhile (· != 0), CString.takeWhile_noNul _⟩ else none

/-- `type_map_get_type`, and the string that it points to. -/
def getType (map : StoredTypeMap) (id : UInt32) : Option (Option CString) :=
  if id = spaIdInvalid then return none
  else if id.toUInt64 < map.types.size then do
    let o ← map.types.lookupUnchecked id
    let type ← map.stringAt o
    return some type
  else return none

/-- Calls one after the other, and the ids that they return. -/
def getIds (map : StoredTypeMap) : List GetIdCall → Option (StoredTypeMap × List UInt32)
  | [] => return (map, [])
  | call :: calls => do
    let (map, id) ← map.getId call
    let (map, ids) ← map.getIds calls
    return (map, id :: ids)

/-! ## What it stands for -/

/-- `names[i]` is the name with id `i`, and `offsets[i]` where it starts. -/
structure Keeps (map : StoredTypeMap) (names : List CString) (offsets : List Nat) : Prop where
  items : map.types.items.WellFormed
  strings : map.strings.WellFormed
  dense : map.types.freeList = 0
  stored : map.types.items.content = offsets.flatMap (toLE 8)
  length : offsets.length = names.length
  named : ∀ (i : Nat) (type : CString), names[i]? = some type → ∃ o rest,
    offsets[i]? = some o ∧ map.strings.content.drop o = type.bytes ++ rest
  nodup : names.Nodup
  bound : names.length < 2 ^ 32

theorem keeps_default : default.Keeps [] [] where
  items := PinosArray.wellFormed_init (k := 7) (by decide) rfl
  strings := PinosArray.wellFormed_init (k := 12) (by decide) rfl
  dense := rfl
  stored := rfl
  length := rfl
  named _ _ h := nomatch h
  nodup := List.nodup_nil
  bound := by decide

/-- Words that follow each other. -/
theorem drop_words (ws : List Nat) (i : Nat) :
    (ws.flatMap (toLE 8)).drop (8 * i) = (ws.drop i).flatMap (toLE 8) := by
  induction i generalizing ws with
  | zero => rfl
  | succ i ih =>
    cases ws with
    | nil => rfl
    | cons w ws =>
      have hword : (toLE 8 w).length = 8 := length_toLE 8 w
      have hdrop : (toLE 8 w ++ ws.flatMap (toLE 8)).drop 8 = ws.flatMap (toLE 8) :=
        List.drop_left' hword
      rw [List.flatMap_cons, List.drop_succ_cons, ← ih, Nat.mul_succ, Nat.add_comm,
        ← List.drop_drop, hdrop]

theorem length_words (ws : List Nat) : (ws.flatMap (toLE 8)).length = 8 * ws.length := by
  induction ws with
  | nil => rfl
  | cons w ws ih =>
    rw [List.flatMap_cons, List.length_append, ih, length_toLE, List.length_cons]
    omega

/-- One string ends where the other does. -/
theorem bytes_prefix_iff {a b : CString} {rest : List UInt8} :
    a.bytes <+: b.bytes ++ rest ↔ a = b := by
  constructor
  · rintro ⟨rest', heq⟩
    have htake := congrArg (List.takeWhile (· != 0)) heq
    rw [CString.takeWhile_bytes, CString.takeWhile_bytes] at htake
    exact CString.mk.injEq .. ▸ htake
  · rintro rfl
    exact List.prefix_append _ _

/-- A place in the array of strings, reached from where the array is. -/
theorem strings_place (map : StoredTypeMap) {o : Nat} (hlt : o < map.strings.size.toNat) :
    (map.strings.data + .ofNat o - map.strings.data).toNat = o := by
  rw [UInt64.add_comm, UInt64.add_sub_cancel]
  exact UInt64.toNat_ofNat_of_lt' (Nat.lt_trans hlt map.strings.size.toNat_lt)

/-- Room for one more name in 32 bits. -/
theorem room_spec {n : Nat} (hn : n + 2 < 2 ^ 32) :
    (UInt32.ofNat n + 1).toNat = n + 1 ∧
      n + 1 ≤ (UInt32.ofNat (roundUpN (UInt32.ofNat n + 1).toNat 2)).toUInt64.toNat ∧
      (UInt32.ofNat (roundUpN (UInt32.ofNat n + 1).toNat 2)).toUInt64.toNat ≤ n + 2 := by
  have hlt : n < 2 ^ 32 := by omega
  have hlen : (UInt32.ofNat n + 1).toNat = n + 1 := by
    rw [UInt32.toNat_add, UInt32.toNat_ofNat_of_lt' hlt]
    show (n + 1) % 2 ^ 32 = n + 1
    omega
  refine ⟨hlen, ?_⟩
  rw [hlen, UInt32.toNat_toUInt64, UInt32.toNat_ofNat', roundUpN]
  omega

namespace Keeps

variable {map : StoredTypeMap} {names : List CString} {offsets : List Nat}
  (h : map.Keeps names offsets)
include h

theorem size_items : map.types.items.size.toNat = 8 * names.length := by
  rw [← h.items.length_content, h.stored, length_words, h.length]

theorem size_types : map.types.size.toNat = names.length := by
  rw [StoredMap.size, UInt64.toNat_div, h.size_items]
  exact Nat.mul_div_cancel_left _ (by decide)

/-- The string of an id starts in the array. -/
theorem place {i : Nat} {type : CString} (hi : names[i]? = some type) : ∃ o rest,
    offsets[i]? = some o ∧ o < map.strings.size.toNat ∧
      map.strings.block.drop o = type.bytes ++ rest := by
  obtain ⟨o, rest, ho, hdrop⟩ := h.named i type hi
  have hlt : o < map.strings.size.toNat := by
    rw [← h.strings.length_content]
    by_contra hout
    rw [List.drop_eq_nil_of_le (Nat.le_of_not_lt hout)] at hdrop
    have := congrArg List.length hdrop
    rw [List.length_append, type.length_bytes, List.length_nil] at this
    omega
  refine ⟨o, rest ++ map.strings.block.drop map.strings.size.toNat, ho, hlt, ?_⟩
  rw [h.strings.drop_block (Nat.le_of_lt hlt), hdrop, List.append_assoc]

/-- The offset of an id is read as it was stored. -/
theorem lookup {i o : Nat} (ho : offsets[i]? = some o) (hlt : o < 2 ^ 64) :
    map.types.lookupUnchecked (.ofNat i) = some (.ofNat o) := by
  have hi : i < names.length := by
    rw [← h.length]
    exact (List.getElem?_eq_some_iff.mp ho).1
  have hbound := h.bound
  have hplace : (map.types.itemAt (.ofNat i) - map.types.items.data).toNat = 8 * i := by
    rw [StoredMap.itemAt, UInt64.add_comm, UInt64.add_sub_cancel, UInt64.toNat_mul,
      UInt32.toNat_toUInt64, UInt32.toNat_ofNat_of_lt' (Nat.lt_trans hi hbound)]
    show i * 8 % 2 ^ 64 = 8 * i
    omega
  have hword : ((offsets.drop i).flatMap (toLE 8)).take 8 = toLE 8 o := by
    obtain ⟨hlen, rfl⟩ := List.getElem?_eq_some_iff.mp ho
    have hlength : (toLE 8 offsets[i]).length = 8 := length_toLE 8 _
    rw [List.drop_eq_getElem_cons hlen, List.flatMap_cons]
    exact (congrArg (fun n => List.take n _) hlength.symm).trans List.take_left
  rw [StoredMap.lookupUnchecked, h.items.load (by rw [hplace, h.size_items]; omega), hplace,
    h.stored, drop_words, hword]
  show some (UInt64.ofNat (ofLE (toLE 8 o))) = _
  rw [ofLE_toLE, Nat.mod_eq_of_lt (show o < 256 ^ 8 from hlt)]

theorem isAt {i o : Nat} {type t : CString} (hi : names[i]? = some type)
    (ho : offsets[i]? = some o) : map.isAt (.ofNat o) t = some (decide (type = t)) := by
  obtain ⟨o', rest, ho', hlt, hdrop⟩ := h.place hi
  obtain rfl : o = o' := Option.some.inj (ho.symm.trans ho')
  rw [StoredTypeMap.isAt, map.strings_place hlt, hdrop, if_congr bytes_prefix_iff rfl rfl]
  by_cases heq : t = type
  · rw [if_pos heq, decide_eq_true heq.symm]
  · have hnot : ¬ type.bytes ++ rest <+: t.bytes := fun hprefix => by
      have hshort := (List.prefix_append type.bytes rest).trans hprefix
      rw [← List.append_nil t.bytes, bytes_prefix_iff] at hshort
      exact heq hshort.symm
    rw [if_neg heq, if_neg hnot, decide_eq_false (Ne.symm heq)]

theorem stringAt {i o : Nat} {type : CString} (hi : names[i]? = some type)
    (ho : offsets[i]? = some o) : map.stringAt (.ofNat o) = some type := by
  obtain ⟨o', rest, ho', hlt, hdrop⟩ := h.place hi
  obtain rfl : o = o' := Option.some.inj (ho.symm.trans ho')
  have hnul : (0 : UInt8) ∈ type.bytes ++ rest :=
    List.mem_append_left rest (List.mem_append_right type.chars (List.mem_singleton.mpr rfl))
  have hmk : (⟨type.chars, type.noNul⟩ : CString) = type := rfl
  rw [StoredTypeMap.stringAt, map.strings_place hlt, hdrop, if_pos hnul]
  simp only [CString.takeWhile_bytes, hmk]

theorem offset_lt {i o : Nat} {type : CString} (hi : names[i]? = some type)
    (ho : offsets[i]? = some o) : o < 2 ^ 64 := by
  obtain ⟨o', rest, ho', hlt, -⟩ := h.place hi
  obtain rfl : o = o' := Option.some.inj (ho.symm.trans ho')
  exact Nat.lt_trans hlt map.strings.size.toNat_lt

/-- The id of a name that is there has its string, and other ids have none. -/
theorem getType (id : UInt32) : map.getType id = some names[id.toNat]? := by
  have hbound := h.bound
  rw [StoredTypeMap.getType]
  by_cases hinvalid : id = spaIdInvalid
  · have hlarge : names.length ≤ id.toNat := by
      rw [hinvalid]
      exact Nat.le_of_lt_succ hbound
    rw [if_pos hinvalid, List.getElem?_eq_none hlarge]
    rfl
  have hsize : id.toUInt64 < map.types.size ↔ id.toNat < names.length := by
    rw [UInt64.lt_iff_toNat_lt, UInt32.toNat_toUInt64, h.size_types]
  rw [if_neg hinvalid, if_congr hsize rfl rfl]
  by_cases hlt : id.toNat < names.length
  · have hi : names[id.toNat]? = some names[id.toNat] := List.getElem?_eq_getElem hlt
    obtain ⟨o, rest, ho, -, -⟩ := h.place hi
    have hlookup := h.lookup ho (h.offset_lt hi ho)
    rw [UInt32.ofNat_toNat] at hlookup
    rw [if_pos hlt, hlookup, hi]
    show (map.stringAt (.ofNat o)).bind _ = _
    rw [h.stringAt hi ho]
    rfl
  · rw [if_neg hlt, List.getElem?_eq_none (Nat.le_of_not_lt hlt)]
    rfl

/-- The search goes through the ids from `i` on. -/
theorem find (type : CString) (n i : Nat) (hn : i + n = names.length) :
    map.find type n i = some ((names.drop i).idxOf? type |>.map fun k => .ofNat (i + k)) := by
  induction n generalizing i with
  | zero =>
    rw [StoredTypeMap.find, List.drop_eq_nil_of_le (by omega)]
    rfl
  | succ n ih =>
    have hlt : i < names.length := by omega
    have hi : names[i]? = some names[i] := List.getElem?_eq_getElem hlt
    obtain ⟨o, rest, ho, -, -⟩ := h.place hi
    rw [StoredTypeMap.find, h.lookup ho (h.offset_lt hi ho), List.drop_eq_getElem_cons hlt]
    show (map.isAt (.ofNat o) type).bind _ = _
    rw [h.isAt hi ho, Option.bind_some, List.idxOf?_cons]
    by_cases heq : names[i] = type
    · rw [decide_eq_true heq, if_pos rfl, if_pos (beq_iff_eq.mpr heq)]
      rfl
    · rw [decide_eq_false heq, if_neg Bool.false_ne_true, if_neg (by simpa using heq),
        ih (i + 1) (by omega)]
      rw [Option.map_map]
      congr 2
      funext k
      show UInt32.ofNat (i + 1 + k) = .ofNat (i + (k + 1))
      congr 1
      omega

/-- The map gives the next id, and stores a word for it. -/
theorem insertNew (hfew : names.length + 1 < 2 ^ 32) (data : UInt64) (grant : Grant) :
    ∃ types, map.types.insertNew data (some grant) = some (types, .ofNat names.length) ∧
      types.items.WellFormed ∧ types.freeList = 0 ∧
      types.items.content = (offsets ++ [data.toNat]).flatMap (toLE 8) := by
  have hsize := h.size_items
  have hword : (toLE 8 data.toNat).length = (8 : UInt64).toNat := length_toLE 8 _
  have hneed : map.types.items.size.toNat + (8 : UInt64).toNat ≤ 2 ^ 63 := by
    rw [hsize]
    show 8 * names.length + 8 ≤ 2 ^ 63
    omega
  obtain ⟨added, item, items, hadd, hstore, happended⟩ := h.items.append hword.le hneed grant
  have hid : ((item - items.data) / 8).toUInt32 = .ofNat names.length := by
    apply UInt32.toNat_inj.mp
    rw [happended.place, UInt64.toNat_toUInt32, UInt64.toNat_div, hsize, UInt32.toNat_ofNat']
    exact congrArg (· % 2 ^ 32) (Nat.mul_div_cancel_left _ (by decide))
  obtain ⟨pad, hcontent⟩ := happended.content
  have hnil : pad = [] := by
    have hlength := congrArg List.length hcontent
    rw [happended.wellFormed.length_content, happended.size, List.length_append,
      h.items.length_content, List.length_append, hword] at hlength
    exact List.eq_nil_of_length_eq_zero (by omega)
  refine ⟨{ map.types with items }, ?_, happended.wellFormed, h.dense, ?_⟩
  · rw [StoredMap.insertNew, if_neg (not_not.mpr h.dense), hadd]
    show (added.store item _).bind _ = _
    rw [hstore, Option.bind_some, hid]
    rfl
  · rw [hcontent, hnil, h.stored, List.append_nil, List.flatMap_append, List.flatMap_singleton]

/-- Names that were there are found where they were, behind them the new one. -/
theorem concat {type : CString} (hnew : type ∉ names) (hfew : names.length + 1 < 2 ^ 32)
    {types : StoredMap} (hitems : types.items.WellFormed) (hdense : types.freeList = 0)
    (hstored : types.items.content =
      (offsets ++ [map.strings.size.toNat]).flatMap (toLE 8))
    {strings : PinosArray} (hstrings : strings.WellFormed) {pad : List UInt8}
    (hcontent : strings.content = map.strings.content ++ (type.bytes ++ pad)) :
    Keeps { types, strings } (names ++ [type]) (offsets ++ [map.strings.size.toNat]) where
  items := hitems
  strings := hstrings
  dense := hdense
  stored := hstored
  length := by rw [List.length_append, List.length_append, h.length]; rfl
  named i t hi := by
    rcases Nat.lt_trichotomy i names.length with hlt | heq | hgt
    · rw [List.getElem?_append_left hlt] at hi
      obtain ⟨o, rest, ho, hdrop⟩ := h.named i t hi
      obtain ⟨o', rest', ho', hinside, -⟩ := h.place hi
      obtain rfl : o = o' := Option.some.inj (ho.symm.trans ho')
      rw [← h.strings.length_content] at hinside
      refine ⟨o, rest ++ (type.bytes ++ pad), ?_, ?_⟩
      · rw [List.getElem?_append_left (by rwa [h.length]), ho]
      · rw [hcontent, List.drop_append_of_le_length (Nat.le_of_lt hinside), hdrop,
          List.append_assoc]
    · subst heq
      rw [List.getElem?_concat_length] at hi
      cases hi
      refine ⟨map.strings.size.toNat, pad, ?_, ?_⟩
      · rw [← h.length, List.getElem?_concat_length]
      · rw [hcontent, ← h.strings.length_content, List.drop_left]
    · rw [List.getElem?_eq_none (by rw [List.length_append]; exact hgt)] at hi
      cases hi
  nodup := by
    rw [← List.concat_eq_append]
    exact h.nodup.concat hnew
  bound := by
    rw [List.length_append]
    exact hfew

/-- A new name goes to the end of both arrays. -/
theorem insert {call : GetIdCall} (hnew : call.type ∉ names)
    (hshort : call.type.chars.length + 2 < 2 ^ 32) (hfew : names.length + 1 < 2 ^ 32)
    (htotal : map.strings.size.toNat + (call.type.chars.length + 2) ≤ 2 ^ 62)
    (hstrings : call.strings.isSome) (hitems : call.items.isSome) :
    ∃ map' offsets', map.insert call = some (map', .ofNat names.length) ∧
      map'.Keeps (names ++ [call.type]) offsets' ∧
      map'.strings.size.toNat ≤ map.strings.size.toNat + (call.type.chars.length + 2) := by
  obtain ⟨gs, hgs⟩ := Option.isSome_iff_exists.mp hstrings
  obtain ⟨gi, hgi⟩ := Option.isSome_iff_exists.mp hitems
  obtain ⟨hlen, hlow, hhigh⟩ := room_spec hshort
  have hbytes : call.type.bytes.take (UInt32.ofNat call.type.chars.length + 1).toNat =
      call.type.bytes := by
    rw [hlen, ← call.type.length_bytes, List.take_length]
  have hfits := call.type.length_bytes.trans_le hlow
  obtain ⟨added, p, strings, hadd, hstore, happended⟩ :=
    h.strings.append hfits (by omega) gs
  obtain ⟨pad, hcontent⟩ := happended.content
  obtain ⟨types, hinsert, hwellFormed, hdense, hstored⟩ :=
    h.insertNew hfew map.strings.size gi
  refine ⟨{ types, strings }, offsets ++ [map.strings.size.toNat], ?_,
    h.concat hnew hfew hwellFormed hdense hstored happended.wellFormed hcontent, ?_⟩
  · rw [StoredTypeMap.insert]
    dsimp only
    rw [hgs, hadd]
    show (added.store p _).bind _ = _
    rw [hbytes, hstore, Option.bind_some, happended.place, hgi, hinsert]
    rfl
  · show strings.size.toNat ≤ _
    rw [happended.size]
    omega

/-- A call gives the id of its name, which is the next one for a new name. -/
theorem getId {call : GetIdCall} (hcall : call.type ∉ names →
      call.type.chars.length + 2 < 2 ^ 32 ∧ names.length + 1 < 2 ^ 32 ∧
      map.strings.size.toNat + (call.type.chars.length + 2) ≤ 2 ^ 62 ∧
      call.strings.isSome ∧ call.items.isSome) :
    ∃ map' offsets', map.getId call = some (map', .ofNat (Intern.intern names call.type).2) ∧
      map'.Keeps (Intern.intern names call.type).1 offsets' ∧
      (call.type ∈ names → map'.strings.size = map.strings.size) ∧
      map'.strings.size.toNat ≤ map.strings.size.toNat + (call.type.chars.length + 2) := by
  have hbound := h.bound
  have hmin : min map.types.size.toNat (2 ^ 32) = names.length := by
    rw [h.size_types]
    omega
  rw [StoredTypeMap.getId, hmin, h.find call.type names.length 0 (Nat.zero_add _), List.drop_zero,
    Intern.intern]
  cases hi : names.idxOf? call.type with
  | some i =>
    refine ⟨map, offsets, ?_, h, fun _ => rfl, Nat.le_add_right _ _⟩
    show some (map, UInt32.ofNat (0 + i)) = _
    rw [Nat.zero_add]
  | none =>
    have hnew : call.type ∉ names := List.idxOf?_eq_none_iff.mp hi
    obtain ⟨hshort, hfew, htotal, hstrings, hitems⟩ := hcall hnew
    obtain ⟨map', offsets', hinsert, hkeeps, hsize⟩ :=
      h.insert hnew hshort hfew htotal hstrings hitems
    refine ⟨map', offsets', ?_, hkeeps, fun hmem => absurd hmem hnew, hsize⟩
    show (if map.types.size.toNat < 2 ^ 32 then map.insert call else none) = _
    rw [h.size_types, if_pos hbound, hinsert]

end Keeps
/-- The type map without its memory answers the same, and goes on to do so. -/
theorem Keeps.agrees {map : StoredTypeMap} {names : List CString} {offsets : List Nat}
    (h : map.Keeps names offsets) {plain : TypeMap} (hplain : plain.Holds names)
    {call : GetIdCall} (hroom : plain.HasRoom [call.type])
    (hcall : call.type ∉ names →
      call.type.chars.length + 2 < 2 ^ 32 ∧ names.length + 1 < 2 ^ 32 ∧
      map.strings.size.toNat + (call.type.chars.length + 2) ≤ 2 ^ 62 ∧
      call.strings.isSome ∧ call.items.isSome) :
    (∀ id, map.getType id = some (plain.getType id)) ∧
      ∃ map' offsets' names', map.getId call = some (map', (plain.getId (some call.type)).2) ∧
        map'.Keeps names' offsets' ∧ (plain.getId (some call.type)).1.Holds names' := by
  constructor
  · intro id
    rw [h.getType, hplain.getType]
  · obtain ⟨map', offsets', hgetId, hkeeps, -⟩ := h.getId hcall
    obtain ⟨hholds, hid⟩ := hplain.getId hroom
    rw [← hid] at hgetId
    exact ⟨map', offsets', _, hgetId, hkeeps, hholds⟩

/-! ## Runs of calls -/

/-- Bytes that are enough for some names. -/
def room (names : List CString) : Nat := (names.map fun type => type.chars.length + 2).sum

theorem room_prefix {names names' : List CString} (h : names <+: names') :
    room names ≤ room names' := by
  obtain ⟨rest, rfl⟩ := h
  rw [room, room, List.map_append, List.sum_append]
  exact Nat.le_add_right _ _

theorem room_concat (names : List CString) (type : CString) :
    room (names ++ [type]) = room names + (type.chars.length + 2) := by
  rw [room, List.map_append, List.sum_append]
  rfl

/-- The names are short and few, and there is memory for them. -/
structure Fits (calls : List GetIdCall) : Prop where
  short : ∀ call ∈ calls, call.type.chars.length + 2 < 2 ^ 32
  few : (calls.map GetIdCall.type).eraseDups.length < 2 ^ 32
  total : room (calls.map GetIdCall.type).eraseDups ≤ 2 ^ 62
  granted : ∀ call ∈ calls, call.strings.isSome ∧ call.items.isSome

/-- Further calls, after those for the names `before`. -/
theorem Keeps.getIds {map : StoredTypeMap} {before : List CString} {offsets : List Nat}
    (h : map.Keeps before.eraseDups offsets)
    (hsize : map.strings.size.toNat ≤ room before.eraseDups) {calls : List GetIdCall}
    (hshort : ∀ call ∈ calls, call.type.chars.length + 2 < 2 ^ 32)
    (hfew : (before ++ calls.map GetIdCall.type).eraseDups.length < 2 ^ 32)
    (htotal : room (before ++ calls.map GetIdCall.type).eraseDups ≤ 2 ^ 62)
    (hgranted : ∀ call ∈ calls, call.strings.isSome ∧ call.items.isSome) :
    ∃ map' offsets', map.getIds calls = some (map', (calls.map GetIdCall.type).map fun type =>
        .ofNat ((before ++ calls.map GetIdCall.type).eraseDups.idxOf type)) ∧
      map'.Keeps (before ++ calls.map GetIdCall.type).eraseDups offsets' := by
  induction calls generalizing map before offsets with
  | nil =>
    rw [List.map_nil, List.append_nil]
    exact ⟨map, offsets, rfl, h⟩
  | cons call calls ih =>
    rw [List.forall_mem_cons] at hshort hgranted
    rw [List.map_cons, List.append_cons] at hfew htotal ⊢
    have hprefix := Intern.prefix_eraseDups_append (before ++ [call.type])
      (calls.map GetIdCall.type)
    have hconcat := Intern.eraseDups_concat before call.type
    have hcall : call.type ∉ before.eraseDups →
        call.type.chars.length + 2 < 2 ^ 32 ∧ before.eraseDups.length + 1 < 2 ^ 32 ∧
        map.strings.size.toNat + (call.type.chars.length + 2) ≤ 2 ^ 62 ∧
        call.strings.isSome ∧ call.items.isSome := by
      intro hnew
      have hnot : call.type ∉ before := fun hmem => hnew (List.mem_eraseDups.mpr hmem)
      rw [if_neg hnot] at hconcat
      have hlength := hprefix.length_le
      have hroom := room_prefix hprefix
      rw [hconcat, List.length_append, List.length_singleton] at hlength
      rw [hconcat, room_concat] at hroom
      exact ⟨hshort.1, by omega, by omega, hgranted.1⟩
    obtain ⟨map', offsets', hgetId, hkeeps, hsame, hgrown⟩ := h.getId hcall
    rw [Intern.intern_eraseDups] at hgetId hkeeps
    have hsize' : map'.strings.size.toNat ≤ room (before ++ [call.type]).eraseDups := by
      by_cases hmem : call.type ∈ before
      · rw [hsame (List.mem_eraseDups.mpr hmem), hconcat, if_pos hmem]
        exact hsize
      · rw [hconcat, if_neg hmem, room_concat]
        exact hgrown.trans (Nat.add_le_add_right hsize _)
    obtain ⟨map'', offsets'', hgetIds, hkeeps'⟩ :=
      ih hkeeps hsize' hshort.2 hfew htotal hgranted.2
    refine ⟨map'', offsets'', ?_, hkeeps'⟩
    have hmem : call.type ∈ before ++ [call.type] :=
      List.mem_append_right before (List.mem_singleton.mpr rfl)
    have hindex := Intern.idxOf_eraseDups_append hmem (calls.map GetIdCall.type)
    rw [StoredTypeMap.getIds, hgetId]
    show (map'.getIds calls).bind _ = _
    rw [hgetIds, Option.bind_some, List.map_cons, hindex]
    rfl

/-- The ids stand for the names: each for its own, equal ones for equal names, and counted from 0 in
the order of their first use. -/
structure Registers (map : StoredTypeMap) (types : List CString) (ids : List UInt32) : Prop where
  each : ids.length = types.length
  kept : ∀ (k : Nat) (type : CString) (id : UInt32), types[k]? = some type → ids[k]? = some id →
    map.getType id = some (some type)
  same : ∀ (i j : Nat) (type type' : CString) (id id' : UInt32), types[i]? = some type →
    types[j]? = some type' → ids[i]? = some id → ids[j]? = some id' → (id = id' ↔ type = type')
  dense : ∀ (k : Nat) (type : CString) (id : UInt32), types[k]? = some type → ids[k]? = some id →
    id.toNat = types.eraseDups.idxOf type
  size : map.types.size.toNat = types.eraseDups.length

theorem Keeps.registers {map : StoredTypeMap} {types : List CString} {offsets : List Nat}
    (h : map.Keeps types.eraseDups offsets) :
    map.Registers types (types.map fun type => .ofNat (types.eraseDups.idxOf type)) := by
  have hindex : ∀ {k : Nat} {type : CString} {id : UInt32}, types[k]? = some type →
      (types.map fun type => UInt32.ofNat (types.eraseDups.idxOf type))[k]? = some id →
      type ∈ types.eraseDups ∧ id.toNat = types.eraseDups.idxOf type := by
    intro k type id htype hid
    have hmem : type ∈ types.eraseDups := List.mem_eraseDups.mpr (List.mem_of_getElem? htype)
    rw [List.getElem?_map, htype] at hid
    cases hid
    refine ⟨hmem, UInt32.toNat_ofNat_of_lt' ?_⟩
    exact Nat.lt_trans (List.idxOf_lt_length_of_mem hmem) h.bound
  have hkept : ∀ {type : CString} {id : UInt32}, type ∈ types.eraseDups →
      id.toNat = types.eraseDups.idxOf type → map.getType id = some (some type) := by
    intro type id hmem hid
    rw [h.getType, hid, List.getElem?_eq_getElem (List.idxOf_lt_length_of_mem hmem),
      List.getElem_idxOf]
  refine ⟨List.length_map _, ?_, ?_, fun k type id htype hid => (hindex htype hid).2,
    h.size_types⟩
  · intro k type id htype hid
    obtain ⟨hmem, hto⟩ := hindex htype hid
    exact hkept hmem hto
  · intro i j type type' id id' hi hj hid hid'
    obtain ⟨hmem, hto⟩ := hindex hi hid
    obtain ⟨hmem', hto'⟩ := hindex hj hid'
    constructor
    · rintro rfl
      have htype := (hkept hmem hto).symm.trans (hkept hmem' hto')
      exact Option.some.inj (Option.some.inj htype)
    · rintro rfl
      exact UInt32.toNat_inj.mp (hto.trans hto'.symm)

/-- Calls that fit register their names. -/
theorem getIds_registers {calls : List GetIdCall} (h : Fits calls) :
    ∃ map ids, default.getIds calls = some (map, ids) ∧
      map.Registers (calls.map GetIdCall.type) ids := by
  have hstart : default.Keeps ([] : List CString).eraseDups [] := keeps_default
  obtain ⟨map, offsets, hgetIds, hkeeps⟩ :=
    hstart.getIds (Nat.le_refl 0) h.short h.few h.total h.granted
  exact ⟨map, _, hgetIds, hkeeps.registers⟩

/-- A name of as many times the same character. -/
def nameOf (n : Nat) : CString :=
  ⟨List.replicate n 97, fun hmem => absurd (List.eq_of_mem_replicate hmem) (by decide)⟩

def callOf (n : Nat) : GetIdCall :=
  { type := nameOf n, strings := some ⟨4096, fun _ => 97⟩, items := some ⟨8192, fun _ => 0⟩ }

theorem getIds_registers_again :
    ∃ map ids, default.getIds [callOf 1, callOf 2, callOf 1] = some (map, ids) ∧
      ids[0]? = ids[2]? ∧ ids[0]? ≠ ids[1]? := by
  have hfits : Fits [callOf 1, callOf 2, callOf 1] :=
    ⟨by decide, by decide, by decide, by decide⟩
  obtain ⟨map, ids, hgetIds, hregisters⟩ := getIds_registers hfits
  have hids := hregisters.each
  match ids, hids with
  | [id, id', id''], _ =>
    have hsame := hregisters.same 0 2 _ _ id id'' rfl rfl rfl rfl
    have hother := hregisters.same 0 1 _ _ id id' rfl rfl rfl rfl
    refine ⟨map, _, hgetIds, congrArg some (hsame.mpr rfl), ?_⟩
    intro heq
    exact absurd (hother.mp (Option.some.inj heq)) (by decide)

theorem getId_default (call : GetIdCall) : default.getId call = default.insert call := by
  have hsize : default.types.size.toNat = 0 := rfl
  rw [getId, hsize, Nat.zero_min]
  rfl

/-- The length and its NUL are 0 in 32 bits: there is an id, but nothing is stored. -/
theorem insert_wrapped {call : GetIdCall}
    (hlen : UInt32.ofNat call.type.chars.length + 1 = 0) :
    default.insert call =
      (default.types.insertNew 0 call.items).map fun r =>
        ({ types := r.1, strings := default.strings }, r.2) := by
  rw [insert]
  simp only [hlen, Option.bind_eq_bind, UInt32.toNat_zero, List.take_zero]
  show (default.types.insertNew 0 call.items).bind _ = _
  cases default.types.insertNew 0 call.items <;> rfl

theorem getType_no_strings {map : StoredTypeMap} (h : map.strings = default.strings) (id : UInt32)
    (type : CString) : map.getType id ≠ some (some type) := by
  have hnone : ∀ o, map.stringAt o = none := fun o => by
    have hblock : default.strings.block = [] := rfl
    rw [stringAt, h, hblock, List.drop_nil]
    rfl
  rw [getType]
  split
  · exact fun heq => nomatch heq
  split
  · cases map.types.lookupUnchecked id with
    | none => exact fun heq => nomatch heq
    | some o =>
      show (map.stringAt o).bind _ ≠ _
      rw [hnone]
      exact fun heq => nomatch heq
  · exact fun heq => nomatch heq

theorem not_getIds_registers :
    ¬ ∀ calls : List GetIdCall, (∀ call ∈ calls, call.strings.isSome ∧ call.items.isSome) →
      ∃ map ids, default.getIds calls = some (map, ids) ∧
        map.Registers (calls.map GetIdCall.type) ids := by
  intro h
  have hlen : UInt32.ofNat (callOf (2 ^ 32 - 1)).type.chars.length + 1 = 0 := by
    rw [callOf, nameOf, List.length_replicate]
    rfl
  obtain ⟨map, ids, hgetIds, hregisters⟩ := h [callOf (2 ^ 32 - 1)] fun call hcall => by
    rw [List.mem_singleton.mp hcall]
    exact ⟨rfl, rfl⟩
  rw [getIds, getId_default, insert_wrapped hlen] at hgetIds
  obtain ⟨⟨map', id⟩, hinsert, hrest⟩ := Option.bind_eq_some_iff.mp hgetIds
  obtain ⟨⟨types, id'⟩, -, hmap⟩ := Option.map_eq_some_iff.mp hinsert
  cases hmap
  cases hrest
  have hkept := hregisters.kept 0 _ id' rfl rfl
  refine getType_no_strings ?_ id' _ hkept
  rfl

end StoredTypeMap
end Pinos
