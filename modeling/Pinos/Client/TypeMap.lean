import Pinos.Client.MapIds
import Pinos.Lib.Intern
import Pinos.Spa.Defs
import Pinos.Spa.PodGet

/-
`client/mapper.c`: the ids of type names.

The names stand one behind the other in an array of bytes, and the map holds for each
id the offset of its name.  The array is never moved under an offset and is never full;
the byte that rounds a name up to an even length is taken to be 0.
-/

namespace Pinos

namespace CString

theorem takeWhile_bytes (s : CString) (rest : List UInt8) :
    (s.bytes ++ rest).takeWhile (· != 0) = s.chars := by
  have hchars : ∀ b ∈ s.chars, (b != 0) = true := by
    intro b hb
    rw [bne_iff_ne]
    rintro rfl
    exact s.noNul hb
  rw [bytes, List.append_assoc, List.takeWhile_append_of_pos hchars]
  simp

theorem length_bytes (s : CString) : s.bytes.length = s.chars.length + 1 :=
  List.length_append

end CString

structure TypeMap where
  types : PinosMap
  strings : List UInt8

namespace TypeMap

def empty : TypeMap := { types := .empty, strings := [] }

def stringAt (map : TypeMap) (o : UInt64) : CString :=
  ⟨(map.strings.drop o.toNat).takeWhile (· != 0), CString.takeWhile_noNul _⟩

def getId (map : TypeMap) (type : Option CString) : TypeMap × UInt32 :=
  match type with
  | none => (map, 0)
  | some type =>
    match map.types.items.findIdx? fun o => map.stringAt o = type with
    | some i => (map, .ofNat i)
    | none =>
      let len := toU32 type.chars.length
      let copied := type.bytes.take (toU32 (len + 1))
      let room := toU32 (roundUpN (toU32 (len + 1)) 2)
      let (types, i) := map.types.insertNew (.ofNat map.strings.length)
      ({ types, strings := map.strings ++ copied ++ List.replicate (room - copied.length) 0 }, i)

def getType (map : TypeMap) (id : UInt32) : Option CString :=
  if id = spaIdInvalid then none
  else if id.toNat < map.types.size then some (map.stringAt (map.types.items.getD id.toNat 0))
  else none

def getSize (map : TypeMap) : Nat := map.types.size

/-! ## What it stands for -/

/-- The offsets, the ids and the lengths of some more names fit their types. -/
def HasRoom (map : TypeMap) (types : List CString) : Prop :=
  map.types.size + types.length < 2 ^ 32 ∧
  map.strings.length + (types.map fun t => t.chars.length + 2).sum < 2 ^ 64 ∧
  ∀ t ∈ types, t.chars.length + 2 < 2 ^ 32

instance (map : TypeMap) (types : List CString) : Decidable (map.HasRoom types) :=
  inferInstanceAs (Decidable (_ ∧ _ ∧ _))

section
variable {map : TypeMap} {type : CString} {types : List CString}

/-- The bytes of a name that is added. -/
theorem copied_eq (hroom : type.chars.length + 2 < 2 ^ 32) :
    type.bytes.take (toU32 (toU32 type.chars.length + 1)) = type.bytes := by
  have hlen : toU32 type.chars.length = type.chars.length := Nat.mod_eq_of_lt (by omega)
  have hsucc : toU32 (type.chars.length + 1) = type.chars.length + 1 :=
    Nat.mod_eq_of_lt (by omega)
  rw [hlen, hsucc, ← type.length_bytes, List.take_length]

/-- Looking up a name adds at most one id, and bytes for one name. -/
theorem getId_size (map : TypeMap) (hroom : type.chars.length + 2 < 2 ^ 32) :
    (map.getId (some type)).1.types.size ≤ map.types.size + 1 ∧
      (map.getId (some type)).1.strings.length ≤
        map.strings.length + (type.chars.length + 2) := by
  rw [getId]
  cases map.types.items.findIdx? fun o => map.stringAt o = type with
  | some i => exact ⟨Nat.le_succ _, Nat.le_add_right _ _⟩
  | none =>
    have hbytes := type.length_bytes
    have hone : toU32 (toU32 type.chars.length + 1) = type.chars.length + 1 := by
      rw [toU32, toU32]
      omega
    have hpad : toU32 (roundUpN (type.chars.length + 1) 2) ≤ type.chars.length + 2 := by
      rw [toU32, roundUpN]
      omega
    refine ⟨?_, ?_⟩
    · show (map.types.insertNew _).1.size ≤ _
      rw [PinosMap.insertNew]
      split
      · exact Nat.le_succ_of_le (Nat.le_of_eq List.length_set)
      · exact Nat.le_of_eq List.length_append
    · have hcopied := copied_eq hroom
      rw [hone] at hcopied
      simp only [hone, hcopied, List.length_append, List.length_replicate]
      omega

theorem HasRoom.head (h : map.HasRoom (type :: types)) : map.HasRoom [type] := by
  obtain ⟨hids, hoffsets, hlength⟩ := h
  rw [List.length_cons] at hids
  rw [List.map_cons, List.sum_cons] at hoffsets
  refine ⟨?_, ?_, ?_⟩
  · rw [List.length_singleton]
    omega
  · rw [List.map_cons, List.sum_cons, List.map_nil, List.sum_nil]
    omega
  · intro t ht
    rw [List.mem_singleton.mp ht]
    exact hlength type List.mem_cons_self

theorem HasRoom.tail (h : map.HasRoom (type :: types)) :
    (map.getId (some type)).1.HasRoom types := by
  obtain ⟨hids, hoffsets, hlength⟩ := h
  obtain ⟨hsize, hstrings⟩ := getId_size map (hlength type List.mem_cons_self)
  rw [List.length_cons] at hids
  rw [List.map_cons, List.sum_cons] at hoffsets
  refine ⟨?_, ?_, fun t ht => hlength t (List.mem_cons_of_mem type ht)⟩
  · omega
  · omega

end

/-- `names[i]` is the name with id `i`. -/
structure Holds (map : TypeMap) (names : List CString) : Prop where
  dense : map.types.freeList = 0
  size : map.types.size = names.length
  named : ∀ (i : Nat) (type : CString), names[i]? = some type → ∃ o rest,
    map.types.items[i]? = some o ∧ map.strings.drop o.toNat = type.bytes ++ rest
  nodup : names.Nodup
  bound : names.length < 2 ^ 32

theorem holds_empty : empty.Holds [] where
  dense := rfl
  size := rfl
  named _ _ h := nomatch h
  nodup := List.nodup_nil
  bound := by decide

/-- A new name goes to the end of both arrays. -/
theorem Holds.insert {map : TypeMap} {names : List CString} (h : map.Holds names) {type : CString}
    (hnew : type ∉ names) (hids : names.length + 1 < 2 ^ 32)
    (hoffset : map.strings.length < 2 ^ 64) (pad : List UInt8) :
    Holds { types := { items := map.types.items ++ [.ofNat map.strings.length], freeList := 0 }
            strings := map.strings ++ type.bytes ++ pad } (names ++ [type]) where
  dense := rfl
  size := by
    have hsize := h.size
    simp only [PinosMap.size, List.length_append, List.length_singleton] at hsize ⊢
    rw [hsize]
  named i t hi := by
    rcases Nat.lt_or_ge i names.length with hlt | hge
    · rw [List.getElem?_append_left hlt] at hi
      obtain ⟨o, rest, ho, hdrop⟩ := h.named i t hi
      refine ⟨o, rest ++ (type.bytes ++ pad), ?_, ?_⟩
      · rw [List.getElem?_append_left (by rw [← h.size] at hlt; exact hlt), ho]
      · have hinside : o.toNat ≤ map.strings.length := by
          by_contra hout
          rw [List.drop_eq_nil_of_le (by omega)] at hdrop
          have := congrArg List.length hdrop
          rw [List.length_append, t.length_bytes, List.length_nil] at this
          omega
        rw [List.append_assoc, List.drop_append_of_le_length hinside, hdrop, List.append_assoc]
    · obtain ⟨hlt, -⟩ := List.getElem?_eq_some_iff.mp hi
      rw [List.length_append, List.length_singleton] at hlt
      obtain rfl : i = names.length := by omega
      rw [List.getElem?_concat_length] at hi
      cases hi
      refine ⟨.ofNat map.strings.length, pad, ?_, ?_⟩
      · have hsize : map.types.items.length = names.length := h.size
        rw [← hsize]
        exact List.getElem?_concat_length
      · rw [UInt64.toNat_ofNat_of_lt' hoffset, List.append_assoc, List.drop_left]
  nodup := by
    rw [← List.concat_eq_append]
    exact h.nodup.concat hnew
  bound := by
    rw [List.length_append, List.length_singleton]
    exact hids

namespace Holds

variable {map : TypeMap} {names : List CString} (h : map.Holds names)
include h

theorem stringAt {i : Nat} {type : CString} {o : UInt64} (hi : names[i]? = some type)
    (ho : map.types.items[i]? = some o) : map.stringAt o = type := by
  obtain ⟨o', rest, ho', hdrop⟩ := h.named i type hi
  rw [ho] at ho'
  cases ho'
  rw [TypeMap.stringAt, CString.mk.injEq, hdrop, CString.takeWhile_bytes]

theorem names_eq : map.types.items.map map.stringAt = names := by
  apply List.ext_getElem?
  intro i
  rw [List.getElem?_map]
  cases hi : names[i]? with
  | none =>
    have hle : names.length ≤ i := List.getElem?_eq_none_iff.mp hi
    rw [List.getElem?_eq_none (by rw [← h.size] at hle; exact hle)]
    rfl
  | some type =>
    obtain ⟨o, rest, ho, -⟩ := h.named i type hi
    rw [ho, Option.map_some, h.stringAt hi ho]

theorem getType (id : UInt32) : map.getType id = names[id.toNat]? := by
  have hbound := h.bound
  rw [TypeMap.getType]
  by_cases hinvalid : id = spaIdInvalid
  · have hlarge : names.length ≤ id.toNat := by
      rw [hinvalid]
      exact Nat.le_of_lt_succ hbound
    rw [if_pos hinvalid, List.getElem?_eq_none hlarge]
  rw [if_neg hinvalid, h.size]
  by_cases hlt : id.toNat < names.length
  · have hi : names[id.toNat]? = some names[id.toNat] := List.getElem?_eq_getElem hlt
    obtain ⟨o, rest, ho, -⟩ := h.named _ _ hi
    rw [if_pos hlt, List.getD_eq_getElem?_getD, ho, Option.getD_some, h.stringAt hi ho, hi]
  · rw [if_neg hlt, List.getElem?_eq_none (Nat.le_of_not_lt hlt)]

theorem findIdx? (type : CString) :
    map.types.items.findIdx? (fun o => map.stringAt o = type) = names.idxOf? type := by
  conv_rhs => rw [← h.names_eq]
  rw [List.idxOf?, List.findIdx?_map]
  congr 1

/-- Looking up a name, with what is then known of the table. -/
theorem getId {type : CString} (hroom : map.HasRoom [type]) :
    (map.getId (some type)).1.Holds (Intern.intern names type).1 ∧
      (map.getId (some type)).2 = .ofNat (Intern.intern names type).2 := by
  obtain ⟨hids, hoffsets, hlength⟩ := hroom
  have hone := hlength type List.mem_cons_self
  rw [TypeMap.getId, h.findIdx?, Intern.intern]
  cases hi : names.idxOf? type with
  | some i => exact ⟨h, rfl⟩
  | none =>
    simp only [copied_eq hone, PinosMap.insertNew, h.dense, ne_eq, not_true_eq_false, if_false]
    refine ⟨?_, by rw [h.size]⟩
    rw [h.size] at hids
    exact h.insert (List.idxOf?_eq_none_iff.mp hi) hids (by omega) _

theorem getId_known {i : Nat} {type : CString} (hi : names[i]? = some type) :
    map.getId (some type) = (map, .ofNat i) := by
  have hintern := Intern.intern_known h.nodup hi
  rw [TypeMap.getId, h.findIdx?]
  rw [Intern.intern] at hintern
  cases hj : names.idxOf? type with
  | some j =>
    rw [hj] at hintern
    exact congrArg (fun n : Nat => (map, UInt32.ofNat n)) (Prod.mk.inj hintern).2
  | none =>
    exact absurd (List.mem_of_getElem? hi) (List.idxOf?_eq_none_iff.mp hj)

end Holds
end TypeMap
end Pinos
