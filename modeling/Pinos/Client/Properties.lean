import Mathlib.Data.List.Basic
import Pinos.Lib.KeyedList
import Pinos.Lib.Run
import Pinos.Spa.PodBuilder

/-
`pinos/client/properties.c`: properties as an array of items, and the dict of them that others
see.

The dict is told of the items only when one is added.  What is freed keeps what it held last.
-/

namespace Pinos

/-- An item of a dict; a value may be `NULL`. -/
structure SpaDictItem where
  key : CString
  value : Option CString
  deriving DecidableEq

/-- The items of the array, what is in its memory behind them, and how many items the dict
has. -/
structure PinosProperties where
  items : List SpaDictItem
  behind : List SpaDictItem
  nItems : Nat

namespace PinosProperties

/-- The items of the dict: its pointer is that of the array. -/
def dict (props : PinosProperties) : List SpaDictItem :=
  (props.items ++ props.behind).take props.nItems

/-- `pinos_properties_new`, without keys. -/
def empty : PinosProperties := { items := [], behind := [], nItems := 0 }

def addFunc (props : PinosProperties) (key : CString) (value : Option CString) : PinosProperties where
  items := props.items ++ [⟨key, value⟩]
  behind := props.behind.tail
  nItems := props.items.length + 1

def findIndex (props : PinosProperties) (key : CString) : Option Nat :=
  props.items.findIdx? fun item => item.key = key

/-- `pinos_properties_new_dict`. -/
def newDict (dict : List (CString × CString)) : PinosProperties :=
  dict.foldl (fun props item => props.addFunc item.1 (some item.2)) empty

/-- `pinos_properties_copy`; a `NULL` value can not be copied. -/
def copy (props : PinosProperties) : Option PinosProperties :=
  props.items.foldlM (fun copy item =>
    item.value.map fun value => copy.addFunc item.key (some value)) empty

/-- The last item of the array takes the place of the item at an index. -/
def removeAt (props : PinosProperties) (index : Nat) : PinosProperties :=
  match props.items.getLast? with
  | none => props
  | some other =>
    { props with
      items := (props.items.set index other).dropLast
      behind := other :: props.behind }

def doReplace (props : PinosProperties) (key : CString) (value : Option CString) :
    PinosProperties :=
  match props.findIndex key, value with
  | none, value => props.addFunc key value
  | some index, none => props.removeAt index
  | some index, some value => { props with items := props.items.set index ⟨key, some value⟩ }

/-- `pinos_properties_set`. -/
def set (props : PinosProperties) (key : CString) (value : Option CString) : PinosProperties :=
  props.doReplace key value

/-- `pinos_properties_setf`, with the text that is made from the format. -/
def setf (props : PinosProperties) (key value : CString) : PinosProperties :=
  props.doReplace key (some value)

/-- `pinos_properties_get`. -/
def get (props : PinosProperties) (key : CString) : Option CString :=
  (props.findIndex key).bind fun index => props.items[index]?.bind SpaDictItem.value

/-- `pinos_properties_iterate`; a state of 0 is `NULL`. -/
def iterate (props : PinosProperties) (state : Nat) : Option (CString × Nat) :=
  props.items[state]?.map fun item => (item.key, state + 1)

theorem iterate_eq_some {props : PinosProperties} {state next : Nat} {key : CString}
    (h : props.iterate state = some (key, next)) : state < props.items.length ∧ next = state + 1 := by
  obtain ⟨item, hitem, hnext⟩ := Option.map_eq_some_iff.mp h
  exact ⟨(List.getElem?_eq_some_iff.mp hitem).1, (Prod.mk.inj hnext).2.symm⟩

/-- The keys that are returned from a state on, until there are no more. -/
def keysFrom (props : PinosProperties) (state : Nat) : List CString :=
  match _ : props.iterate state with
  | none => []
  | some (key, next) => key :: props.keysFrom next
termination_by props.items.length - state
decreasing_by
  have hnext := iterate_eq_some ‹_›
  omega

/-- `pinos_properties_merge`.  The outer `none` is a `NULL` value that is copied. -/
def merge : Option PinosProperties → Option PinosProperties → Option (Option PinosProperties)
  | none, none => some none
  | none, some newprops => newprops.copy.map some
  | some oldprops, none => oldprops.copy.map some
  | some oldprops, some newprops =>
    oldprops.copy.map fun res =>
      some ((newprops.keysFrom 0).foldl (fun res key => res.set key (newprops.get key)) res)

variable {props : PinosProperties} {key : CString} {value : CString}

/-! ## Properties and what was set in them -/

/-- The item for a key of a map. -/
def item (m : CString → Option CString) (key : CString) : Option SpaDictItem :=
  (m key).map fun value => ⟨key, some value⟩

/-- What is asked of properties, with the values that were last set and not removed since: `get`
returns these, keys are unique, an iteration returns each of them once, and the dict lists
them and nothing else. -/
structure Faithful (props : PinosProperties) (m : CString → Option CString) : Prop where
  get : ∀ key, props.get key = m key
  unique : (props.items.map SpaDictItem.key).Nodup
  iterates : (props.keysFrom 0).Nodup ∧ ∀ key, key ∈ props.keysFrom 0 ↔ (m key).isSome
  dict : KeyedList.Represents SpaDictItem.key props.dict (item m) ∧
    props.dict.length = props.nItems

/-- The items are those of the map, and the dict knows how many they are. -/
structure Holds (props : PinosProperties) (m : CString → Option CString) : Prop where
  items : KeyedList.Represents SpaDictItem.key props.items (item m)
  nItems : props.nItems = props.items.length

variable {m : CString → Option CString}

theorem keysFrom_eq (props : PinosProperties) (state : Nat) :
    props.keysFrom state = (props.items.drop state).map SpaDictItem.key := by
  induction state using keysFrom.induct props with
  | case1 state h =>
    have hlength : props.items.length ≤ state := by
      rw [← List.getElem?_eq_none_iff]
      exact Option.map_eq_none_iff.mp h
    rw [keysFrom, List.drop_eq_nil_of_le hlength]
    split
    · rfl
    · next hsome => rw [h] at hsome; cases hsome
  | case2 state key next h ih =>
    obtain ⟨hlt, rfl⟩ := iterate_eq_some h
    obtain ⟨item, hitem, hkey⟩ := Option.map_eq_some_iff.mp h
    obtain ⟨_, rfl⟩ := List.getElem?_eq_some_iff.mp hitem
    rw [keysFrom, List.drop_eq_getElem_cons hlt, List.map_cons, ← ih, (Prod.mk.inj hkey).1]
    split
    · next hnone => rw [h] at hnone; cases hnone
    · next hsome =>
      rw [h] at hsome
      cases hsome
      rfl

theorem get_eq (props : PinosProperties) (key : CString) :
    props.get key = (props.items.find? fun item => item.key = key).bind SpaDictItem.value := by
  unfold get findIndex
  cases hindex : props.items.findIdx? fun item => item.key = key with
  | none =>
    have hnone : (props.items.find? fun item => item.key = key) = none := by
      rw [List.find?_eq_none]
      exact fun item hitem => by simpa using List.findIdx?_eq_none_iff.mp hindex item hitem
    rw [hnone]
    rfl
  | some index =>
    obtain ⟨hlt, hkey, hbefore⟩ := List.findIdx?_eq_some_iff_getElem.mp hindex
    have hfind : (props.items.find? fun item => item.key = key) = some props.items[index] := by
      rw [List.find?_eq_some_iff_getElem]
      exact ⟨hkey, index, hlt, rfl, fun j hj => by simpa using hbefore j hj⟩
    rw [hfind, Option.bind_some, List.getElem?_eq_getElem hlt, Option.bind_some]

theorem item_update (m : CString → Option CString) (key value : CString) :
    item (Function.update m key (some value)) =
      Function.update (item m) key (some ⟨key, some value⟩) := by
  funext k
  by_cases hk : k = key
  · rw [hk, item, Function.update_self, Function.update_self]
    rfl
  · rw [item, Function.update_of_ne hk, Function.update_of_ne hk]
    rfl

theorem isSome_item : (item m key).isSome = (m key).isSome := Option.isSome_map

/-- The values of the items that represent a map. -/
theorem mem_item {x : SpaDictItem} :
    item m x.key = some x ↔ ∃ value, m x.key = some value ∧ x.value = some value := by
  rw [item, Option.map_eq_some_iff]
  refine exists_congr fun value => and_congr_right fun _ => ?_
  obtain ⟨key, v⟩ := x
  simp [eq_comm]

theorem Holds.faithful (h : props.Holds m) : props.Faithful m where
  get key := by
    rw [get_eq, h.items.find?, item]
    cases m key <;> rfl
  unique := h.items.nodup
  iterates := by
    rw [keysFrom_eq, List.drop_zero]
    refine ⟨h.items.nodup, fun key => ?_⟩
    rw [h.items.mem_keys, isSome_item]
  dict := by
    have hdict : props.dict = props.items := by
      rw [dict, h.nItems, List.take_left]
    rw [hdict]
    exact ⟨h.items, h.nItems.symm⟩

theorem Faithful.holds (h : props.Faithful m) : props.Holds m := by
  have hitems : KeyedList.Represents SpaDictItem.key props.items (item m) := by
    refine ⟨h.unique, ?_, ?_⟩
    · intro k x hx
      obtain ⟨value, -, rfl⟩ := Option.map_eq_some_iff.mp hx
      rfl
    · intro x
      rw [mem_item]
      constructor
      · intro hx
        have hkey : x.key ∈ props.keysFrom 0 := by
          rw [keysFrom_eq, List.drop_zero]
          exact List.mem_map_of_mem hx
        obtain ⟨value, hvalue⟩ := Option.isSome_iff_exists.mp ((h.iterates.2 x.key).mp hkey)
        have hget := h.get x.key
        obtain ⟨y, hy⟩ : ∃ y, (props.items.find? fun item => item.key = x.key) = some y := by
          rw [← Option.isSome_iff_exists, List.find?_isSome]
          exact ⟨x, hx, by simp⟩
        have hykey : y.key = x.key := by simpa using List.find?_some hy
        obtain rfl := List.inj_on_of_nodup_map h.unique (List.mem_of_find?_eq_some hy) hx hykey
        rw [get_eq, hy, hvalue] at hget
        exact ⟨value, hvalue, hget⟩
      · rintro ⟨value, hvalue, hx⟩
        have hget := h.get x.key
        rw [get_eq, hvalue] at hget
        obtain ⟨y, hy, hyvalue⟩ := Option.bind_eq_some_iff.mp hget
        have hykey : y.key = x.key := by simpa using List.find?_some hy
        have heq : x = y := by
          obtain ⟨xkey, xvalue⟩ := x
          obtain ⟨ykey, yvalue⟩ := y
          simp_all
        exact heq ▸ List.mem_of_find?_eq_some hy
  refine ⟨hitems, ?_⟩
  rw [← h.dict.2]
  exact (h.dict.1.perm hitems).length_eq

theorem faithful_iff : props.Faithful m ↔ props.Holds m := ⟨Faithful.holds, Holds.faithful⟩

/-! ## What the operations keep -/

theorem holds_empty : empty.Holds fun _ => none := ⟨KeyedList.represents_nil, rfl⟩

theorem Holds.addFunc (h : props.Holds m) (hnone : m key = none) :
    (props.addFunc key (some value)).Holds (Function.update m key (some value)) := by
  refine ⟨?_, ?_⟩
  · rw [item_update]
    apply h.items.concat (x := ⟨key, some value⟩)
    rw [item, hnone]
    rfl
  · rw [PinosProperties.addFunc, List.length_append]
    rfl

theorem Holds.set (h : props.Holds m) :
    (props.set key (some value)).Holds (Function.update m key (some value)) := by
  unfold PinosProperties.set doReplace
  cases hindex : props.findIndex key with
  | none =>
    apply h.addFunc
    have hnone : (props.items.find? fun item => item.key = key) = none := by
      rw [List.find?_eq_none]
      exact fun item hitem => by simpa using List.findIdx?_eq_none_iff.mp hindex item hitem
    rw [h.items.find?] at hnone
    exact Option.map_eq_none_iff.mp hnone
  | some index =>
    obtain ⟨hlt, hkey, -⟩ := List.findIdx?_eq_some_iff_getElem.mp hindex
    refine ⟨?_, ?_⟩
    · rw [item_update]
      exact h.items.set (x := ⟨key, some value⟩) (List.getElem?_eq_getElem hlt)
        (of_decide_eq_true hkey)
    · show props.nItems = (props.items.set index _).length
      rw [List.length_set]
      exact h.nItems

/-- A key that is removed stays in the dict, or comes into the items. -/
theorem Holds.not_holds_set_none (h : props.Holds m) :
    ¬ (props.set key none).Holds (Function.update m key none) := by
  intro hnext
  unfold PinosProperties.set doReplace at hnext
  cases hindex : props.findIndex key with
  | none =>
    rw [hindex] at hnext
    have hmem : (⟨key, none⟩ : SpaDictItem) ∈ (props.addFunc key none).items := by
      rw [PinosProperties.addFunc]
      exact List.mem_append_right _ List.mem_cons_self
    obtain ⟨value, -, hvalue⟩ := mem_item.mp (hnext.items.mem.mp hmem)
    cases hvalue
  | some index =>
    rw [hindex] at hnext
    obtain ⟨hlt, -, -⟩ := List.findIdx?_eq_some_iff_getElem.mp hindex
    have hlast : props.items.getLast? = some (props.items.getLast (List.ne_nil_of_length_pos (by omega))) :=
      List.getLast?_eq_some_getLast _
    have hcount := hnext.nItems
    simp only [removeAt, hlast, List.length_dropLast, List.length_set] at hcount
    have hbefore := h.nItems
    omega

/-! ## Dicts and copies -/

/-- The values that are set one after the other. -/
def setAll (m : CString → Option CString) (dict : List (CString × CString)) :
    CString → Option CString :=
  dict.foldl (fun m item => Function.update m item.1 (some item.2)) m

theorem items_addAll (props : PinosProperties) (dict : List (CString × CString)) :
    (dict.foldl (fun props item => props.addFunc item.1 (some item.2)) props).items =
      props.items ++ dict.map fun item => ⟨item.1, some item.2⟩ := by
  induction dict generalizing props with
  | nil => simp
  | cons item dict ih =>
    rw [List.foldl_cons, ih, PinosProperties.addFunc]
    simp

theorem Holds.addAll (h : props.Holds m) {dict : List (CString × CString)}
    (hnone : ∀ item ∈ dict, m item.1 = none) (hnodup : (dict.map Prod.fst).Nodup) :
    (dict.foldl (fun props item => props.addFunc item.1 (some item.2)) props).Holds
      (setAll m dict) := by
  induction dict generalizing props m with
  | nil => exact h
  | cons item dict ih =>
    obtain ⟨hnot, hnodup⟩ := List.nodup_cons.mp hnodup
    apply ih (h.addFunc (hnone item List.mem_cons_self)) _ hnodup
    intro other hother
    have hne : other.1 ≠ item.1 := by
      intro heq
      exact hnot (heq ▸ List.mem_map_of_mem hother)
    rw [Function.update_of_ne hne]
    exact hnone other (List.mem_cons_of_mem _ hother)

theorem newDict_holds_iff {dict : List (CString × CString)} :
    (newDict dict).Holds (setAll (fun _ => none) dict) ↔ (dict.map Prod.fst).Nodup := by
  constructor
  · intro h
    have hnodup := h.items.nodup
    rw [newDict, items_addAll, empty, List.nil_append, List.map_map] at hnodup
    exact hnodup
  · exact fun hnodup => holds_empty.addAll (fun _ _ => rfl) hnodup

theorem foldlM_addFunc {xs : List SpaDictItem} (hvalues : ∀ x ∈ xs, x.value.isSome) :
    ∃ copy, xs.foldlM (fun copy item =>
        item.value.map fun value => copy.addFunc item.key (some value)) props = some copy ∧
      copy.items = props.items ++ xs ∧
      (props.nItems = props.items.length → copy.nItems = copy.items.length) := by
  induction xs generalizing props with
  | nil => exact ⟨props, rfl, by simp, id⟩
  | cons x xs ih =>
    obtain ⟨value, hvalue⟩ := Option.isSome_iff_exists.mp (hvalues x List.mem_cons_self)
    obtain ⟨copy, hcopy, hitems, hcount⟩ := @ih (props.addFunc x.key (some value))
      fun y hy => hvalues y (List.mem_cons_of_mem _ hy)
    refine ⟨copy, ?_, ?_, fun _ => hcount (by simp [PinosProperties.addFunc])⟩
    · rw [List.foldlM_cons, hvalue]
      exact hcopy
    · have hx : (⟨x.key, some value⟩ : SpaDictItem) = x := by rw [← hvalue]
      rw [hitems, PinosProperties.addFunc, hx]
      simp

/-- A copy holds what is copied. -/
theorem Holds.copy (h : props.Holds m) : ∃ copy, props.copy = some copy ∧ copy.Holds m := by
  have hvalues : ∀ x ∈ props.items, x.value.isSome := by
    intro x hx
    obtain ⟨value, -, hvalue⟩ := mem_item.mp (h.items.mem.mp hx)
    rw [hvalue]
    rfl
  obtain ⟨copy, hcopy, hitems, hcount⟩ := @foldlM_addFunc empty _ hvalues
  rw [empty, List.nil_append] at hitems
  exact ⟨copy, hcopy, hitems ▸ h.items, hcount rfl⟩

/-- The keys of other properties are set, one after the other. -/
theorem Holds.setKeys {newprops : PinosProperties} {mnew : CString → Option CString}
    (h : props.Holds m) (hnew : newprops.Holds mnew) {keys : List CString}
    (hkeys : ∀ key ∈ keys, (mnew key).isSome) :
    (keys.foldl (fun res key => res.set key (newprops.get key)) props).Holds fun key =>
      if key ∈ keys then mnew key else m key := by
  induction keys generalizing props m with
  | nil => simpa using h
  | cons key keys ih =>
    obtain ⟨value, hvalue⟩ := Option.isSome_iff_exists.mp (hkeys key List.mem_cons_self)
    have hget : newprops.get key = some value := (hnew.faithful.get key).trans hvalue
    have hset := @ih (props.set key (some value)) _ h.set
      fun other hother => hkeys other (List.mem_cons_of_mem _ hother)
    rw [List.foldl_cons, hget]
    convert hset using 2 with other
    by_cases hother : other = key
    · rw [hother, Function.update_self, if_pos List.mem_cons_self, hvalue, ite_self]
    · simp only [Function.update_of_ne hother, List.mem_cons, or_iff_right hother]

theorem Holds.merge {newprops : PinosProperties} {mnew : CString → Option CString}
    (h : props.Holds m) (hnew : newprops.Holds mnew) :
    ∃ res, PinosProperties.merge (some props) (some newprops) = some (some res) ∧
      res.Holds fun key => mnew key <|> m key := by
  obtain ⟨copy, hcopy, hholds⟩ := h.copy
  refine ⟨_, by rw [PinosProperties.merge, hcopy]; rfl, ?_⟩
  have hkeys := hnew.faithful.iterates.2
  convert hholds.setKeys hnew fun key hkey => (hkeys key).mp hkey using 2 with key
  by_cases hkey : key ∈ newprops.keysFrom 0
  · obtain ⟨value, hvalue⟩ := Option.isSome_iff_exists.mp ((hkeys key).mp hkey)
    rw [if_pos hkey, hvalue]
    rfl
  · have hnone := Option.not_isSome_iff_eq_none.mp (mt (hkeys key).mpr hkey)
    rw [if_neg hkey, hnone]
    rfl

end PinosProperties

/-! ## Every run -/

/-- A call on properties, which are named by when they were made. -/
inductive PropertiesOp where
  | newDict (dict : List (CString × CString))
  | set (i : Nat) (key : CString) (value : Option CString)
  | setf (i : Nat) (key value : CString)
  | merge (oldprops newprops : Option Nat)
  | copy (i : Nat)
  | iterate (i : Nat)

namespace PropertiesOp

/-- The properties that a call is given. -/
def args : PropertiesOp → List Nat
  | newDict _ => []
  | set i _ _ => [i]
  | setf i _ _ => [i]
  | merge oldprops newprops => oldprops.toList ++ newprops.toList
  | copy i => [i]
  | iterate i => [i]

/-- Calls after which all is as it should be: no key comes twice in a dict, and none is removed. -/
def Keeps : PropertiesOp → Prop
  | newDict dict => (dict.map Prod.fst).Nodup
  | set _ _ value => value ≠ none
  | _ => True

instance : ∀ op : PropertiesOp, Decidable op.Keeps
  | newDict dict => inferInstanceAs (Decidable (dict.map Prod.fst).Nodup)
  | set _ _ value => inferInstanceAs (Decidable (value ≠ none))
  | setf _ _ _ | merge _ _ | copy _ | iterate _ => inferInstanceAs (Decidable True)

end PropertiesOp

/-- Properties, and what was last set in them and not removed since. -/
structure KeptProperties where
  props : PinosProperties
  stored : CString → Option CString

/-- All properties that were made; `crashed` tells that a `NULL` value was copied. -/
structure PropertiesUse where
  objects : List KeptProperties
  crashed : Bool

namespace PropertiesUse

open PinosProperties

def start : PropertiesUse := { objects := [], crashed := false }

def add (s : PropertiesUse) (props : PinosProperties) (stored : CString → Option CString) :
    PropertiesUse :=
  { s with objects := s.objects ++ [⟨props, stored⟩] }

def crash (s : PropertiesUse) : PropertiesUse := { s with crashed := true }

/-- The properties of an argument. -/
def object? (s : PropertiesUse) (i : Option Nat) : Option KeptProperties :=
  i.bind fun i => s.objects[i]?

/-- What merged properties are to hold: the new ones come first. -/
def mergeStored (o n : Option KeptProperties) (key : CString) : Option CString :=
  n.bind (fun n => n.stored key) <|> o.bind fun o => o.stored key

def merge (s : PropertiesUse) (o n : Option KeptProperties) : PropertiesUse :=
  match PinosProperties.merge (o.map KeptProperties.props) (n.map KeptProperties.props) with
  | none => s.crash
  | some none => s
  | some (some res) => s.add res (mergeStored o n)

def step (s : PropertiesUse) : PropertiesOp → PropertiesUse
  | .newDict dict => s.add (.newDict dict) (setAll (fun _ => none) dict)
  | .set i key value =>
    { s with
      objects := s.objects.modify i fun o =>
        ⟨o.props.set key value, Function.update o.stored key value⟩ }
  | .setf i key value =>
    { s with
      objects := s.objects.modify i fun o =>
        ⟨o.props.setf key value, Function.update o.stored key (some value)⟩ }
  | .merge oldprops newprops => s.merge (s.object? oldprops) (s.object? newprops)
  | .copy i =>
    match s.objects[i]? with
    | none => s
    | some o =>
      match o.props.copy with
      | none => s.crash
      | some copy => s.add copy o.stored
  | .iterate _ => s

/-- Calls are made with properties that there are. -/
def Admits (s : PropertiesUse) (op : PropertiesOp) : Prop := ∀ i ∈ op.args, i < s.objects.length

instance (s : PropertiesUse) (op : PropertiesOp) : Decidable (s.Admits op) :=
  inferInstanceAs (Decidable (∀ i ∈ op.args, i < s.objects.length))

def Right (s : PropertiesUse) : Prop :=
  s.crashed = false ∧ ∀ o ∈ s.objects, o.props.Faithful o.stored

variable {s : PropertiesUse} {props : PinosProperties} {m : CString → Option CString}
  {o : KeptProperties} {i : Nat}

theorem Right.add_iff (h : s.Right) : (s.add props m).Right ↔ props.Faithful m := by
  constructor
  · intro hadd
    exact hadd.2 ⟨props, m⟩ (List.mem_append_right _ List.mem_cons_self)
  · intro hfaithful
    refine ⟨h.1, fun o ho => ?_⟩
    rcases List.mem_append.mp ho with ho | ho
    · exact h.2 o ho
    · rw [List.mem_singleton.mp ho]
      exact hfaithful

theorem Right.modify_iff (h : s.Right) {f : KeptProperties → KeptProperties}
    (hi : s.objects[i]? = some o) :
    Right { s with objects := s.objects.modify i f } ↔ (f o).props.Faithful (f o).stored := by
  have hget (j : Nat) : (s.objects.modify i f)[j]? =
      (s.objects[j]?).map fun o => if i = j then f o else o := List.getElem?_modify ..
  constructor
  · intro hmodify
    refine hmodify.2 (f o) (List.mem_of_getElem? (i := i) ?_)
    rw [hget, hi, Option.map_some, if_pos rfl]
  · intro hfaithful
    refine ⟨h.1, fun o' ho' => ?_⟩
    obtain ⟨j, hj⟩ := List.mem_iff_getElem?.mp ho'
    rw [hget] at hj
    obtain ⟨o'', ho'', rfl⟩ := Option.map_eq_some_iff.mp hj
    split
    next heq =>
      rw [← heq, hi] at ho''
      exact Option.some.inj ho'' ▸ hfaithful
    · exact h.2 o'' (List.mem_of_getElem? ho'')

theorem getElem?_of_admits {op : PropertiesOp} (h : s.Admits op) (hi : i ∈ op.args) :
    ∃ o, s.objects[i]? = some o := ⟨_, List.getElem?_eq_getElem (h i hi)⟩

theorem Right.holds (h : s.Right) (hi : s.objects[i]? = some o) : o.props.Holds o.stored :=
  (h.2 o (List.mem_of_getElem? hi)).holds

/-- A merge makes properties that hold what is to be merged. -/
theorem Right.merge (h : s.Right) {o n : Option KeptProperties}
    (hold : ∀ o' ∈ o, o'.props.Holds o'.stored) (hnew : ∀ n' ∈ n, n'.props.Holds n'.stored) :
    (s.merge o n).Right := by
  unfold PropertiesUse.merge
  cases o with
  | none =>
    cases n with
    | none => exact h
    | some n =>
      obtain ⟨copy, hcopy, hholds⟩ := (hnew n rfl).copy
      simp only [Option.map_none, Option.map_some, PinosProperties.merge, hcopy]
      rw [h.add_iff]
      have hstored : mergeStored none (some n) = n.stored := by
        funext key
        show (n.stored key <|> none) = n.stored key
        cases n.stored key <;> rfl
      rw [hstored]
      exact hholds.faithful
  | some o =>
    cases n with
    | none =>
      obtain ⟨copy, hcopy, hholds⟩ := (hold o rfl).copy
      simp only [Option.map_none, Option.map_some, PinosProperties.merge, hcopy]
      rw [h.add_iff]
      exact hholds.faithful
    | some n =>
      obtain ⟨res, hres, hholds⟩ := (hold o rfl).merge (hnew n rfl)
      simp only [Option.map_some, hres]
      rw [h.add_iff]
      exact hholds.faithful

/-- A call leaves all as it should be exactly when it is one that does. -/
theorem Right.step_iff (h : s.Right) {op : PropertiesOp} (hadmits : s.Admits op) :
    (s.step op).Right ↔ op.Keeps := by
  cases op with
  | newDict dict =>
    rw [step, h.add_iff, faithful_iff]
    exact newDict_holds_iff
  | set i key value =>
    obtain ⟨o, ho⟩ := getElem?_of_admits hadmits List.mem_cons_self
    have hholds := h.holds ho
    rw [step, h.modify_iff ho, faithful_iff]
    cases value with
    | none => exact iff_of_false hholds.not_holds_set_none fun hne => hne rfl
    | some value => exact iff_of_true hholds.set nofun
  | setf i key value =>
    obtain ⟨o, ho⟩ := getElem?_of_admits hadmits List.mem_cons_self
    rw [step, h.modify_iff ho, faithful_iff]
    exact iff_of_true (h.holds ho).set trivial
  | merge oldprops newprops =>
    have hholds {i : Option Nat} : ∀ o ∈ s.object? i, o.props.Holds o.stored := by
      intro o ho
      obtain ⟨j, -, hj⟩ := Option.bind_eq_some_iff.mp ho
      exact h.holds hj
    exact iff_of_true (h.merge hholds hholds) trivial
  | copy i =>
    obtain ⟨o, ho⟩ := getElem?_of_admits hadmits List.mem_cons_self
    obtain ⟨copy, hcopy, hholds⟩ := (h.holds ho).copy
    simp only [step, ho, hcopy]
    rw [h.add_iff]
    exact iff_of_true hholds.faithful trivial
  | iterate i => exact iff_of_true h trivial

/-- Names that consist of one character. -/
def name (c : UInt8) (h : c ≠ 0 := by decide) : CString :=
  ⟨[c], fun hmem => h (List.mem_singleton.mp hmem).symm⟩

end PropertiesUse
end Pinos
