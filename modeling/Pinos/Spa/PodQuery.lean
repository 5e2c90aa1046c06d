import Pinos.Spa.PodUtils
import Pinos.Spa.Props

/-
`spa/pod-utils.h`: collecting the values of properties into the destinations of a variable list of
arguments.

An argument is read from the list as a word or as a pointer.  To read one as what it is not, or
behind the last, is undefined in C and has no result here.
-/

namespace Pinos

open ByteMem

/-! ## The types that can be asked for -/

/-- The types that `SPA_POD_COLLECT` has a case for; `minus` are the negated ones. -/
inductive QueryType where
  | bool | id | int | long | float | double | string | bytes | pointer | rectangle | fraction
  | bitmask | array | struct | object | prop | pod
  | minusString | minusArray | minusStruct | minusObject | minusProp
  deriving DecidableEq, Repr

namespace QueryType

def base : QueryType → SpaPODType
  | bool => .bool
  | id => .id
  | int => .int
  | long => .long
  | float => .float
  | double => .double
  | string | minusString => .string
  | bytes => .bytes
  | pointer => .pointer
  | rectangle => .rectangle
  | fraction => .fraction
  | bitmask => .bitmask
  | array | minusArray => .array
  | struct | minusStruct => .struct
  | object | minusObject => .object
  | prop | minusProp => .prop
  | pod => .pod

def negated : QueryType → Bool
  | minusString | minusArray | minusStruct | minusObject | minusProp => true
  | _ => false

/-- The number that is passed for the type. -/
def code (t : QueryType) : UInt32 :=
  if t.negated then -UInt32.ofNat t.base.code else .ofNat t.base.code

def ofCode (n : UInt32) : Option QueryType :=
  [bool, id, int, long, float, double, string, bytes, pointer, rectangle, fraction, bitmask, array,
    struct, object, prop, pod, minusString, minusArray, minusStruct, minusObject,
    minusProp].find? fun t => t.code = n

@[simp] theorem ofCode_code (t : QueryType) : ofCode t.code = some t := by
  cases t <;> rfl

/-- A container that may be missing. -/
def isOptional : QueryType → Bool
  | minusArray | minusStruct | minusObject | minusProp => true
  | _ => false

/-- Whether a pod of the type is what is asked for. -/
def asks (t : QueryType) (type : SpaPODType) : Bool :=
  t = pod || if type = .none then t.isOptional else type = t.base

end QueryType

/-! ## Arguments -/

inductive QueryArg where
  | word (n : UInt32)
  | ptr (dest : Nat)
  deriving DecidableEq

/-- `va_arg (args, uint32_t)`. -/
def argWord : List QueryArg → Option (UInt32 × List QueryArg)
  | .word n :: args => some (n, args)
  | _ => none

/-- `va_arg (args, void *)`. -/
def argPtr : List QueryArg → Option (Nat × List QueryArg)
  | .ptr dest :: args => some (dest, args)
  | _ => none

/-- Bytes that are stored through a pointer. -/
structure Store where
  dest : Nat
  bytes : List UInt8
  deriving DecidableEq

/-- The bytes that `strncpy` writes. -/
def strncpy (m : Mem) (src : Nat) : Nat → List UInt8
  | 0 => []
  | n + 1 => if m src = 0 then List.replicate (n + 1) 0 else m src :: strncpy m (src + 1) n

/-! ## Collecting -/

/-- What is stored for a type that has one destination. -/
def valueAt (m : Mem) (pod : Nat) : QueryType → List UInt8
  | .bool | .id | .int | .float => m.read (pod + 8) 4
  | .long | .double | .rectangle | .fraction => m.read (pod + 8) 8
  | .string | .bitmask => toLE 8 (pod + 8)
  | .pointer => m.read (pod + 16) 8
  | _ => toLE 8 pod

/-- `SPA_POD_COLLECT`: whether a value is stored, the arguments that are left and the stores.  A
pod that is not of the type is left at the label `error` with no argument taken. -/
def collect (m : Mem) (pod : Nat) (type : UInt32) (args : List QueryArg) :
    Option (Bool × List QueryArg × List Store) :=
  let one (bytes : List UInt8) := (argPtr args).map fun (dest, args) => (true, args, [⟨dest, bytes⟩])
  let error := some (false, args, [])
  if type = QueryType.pod.code then one (toLE 8 pod)
  else if podType m pod = SpaPODType.none.code then
    match QueryType.ofCode type with
    | some .minusArray | some .minusStruct | some .minusObject | some .minusProp => one (toLE 8 0)
    | _ => error
  else if podType m pod = type.toNat ∨ podType m pod = (-type).toNat then
    match QueryType.ofCode type with
    | some .minusString =>
      (argPtr args).bind fun (dest, args) => (argWord args).map fun (maxlen, args) =>
        (true, args, [⟨dest, strncpy m (pod + 8) (maxlen - 1).toNat⟩])
    | some .bytes =>
      (argPtr args).bind fun (dest, args) => (argPtr args).map fun (size, args) =>
        (true, args, [⟨dest, toLE 8 (pod + 8)⟩, ⟨size, toLE 4 (podBodySize m pod)⟩])
    | some t => one (valueAt m pod t)
    | none => error
  else error

/-- `SPA_POD_COLLECT_SKIP`. -/
def collectSkip (type : UInt32) (args : List QueryArg) : Option (List QueryArg) :=
  match QueryType.ofCode type with
  | none => some args
  | some .bytes | some .pointer =>
    (argPtr args).bind fun (_, args) => (argPtr args).map Prod.snd
  | some _ => (argPtr args).map Prod.snd

/-- The value of the property that is found, when it is set. -/
def setValue (m : Mem) (findProp : UInt32 → Option Nat) (key : UInt32) : Option Nat :=
  ((findProp key).filter fun prop =>
    m.u32 (prop + 8) = key.toNat ∧ UInt32.ofNat (m.u32 (prop + 12)) &&& flagUnset = 0).map (· + 16)

/-- One key of `spa_pod_contents_queryv`. -/
def queryKey (m : Mem) (findProp : UInt32 → Option Nat) (key type : UInt32) (args : List QueryArg) :
    Option (Bool × List QueryArg × List Store) :=
  match setValue m findProp key with
  | some value => collect m value type args
  | none => (collectSkip type args).map fun args => (false, args, [])

structure QueryResult where
  count : Nat
  stores : List Store
  deriving DecidableEq

theorem argWord_length {args rest : List QueryArg} {n : UInt32} (h : argWord args = some (n, rest)) :
    rest.length < args.length := by
  unfold argWord at h
  split at h
  · cases h
    simp
  · cases h

theorem argPtr_length {args rest : List QueryArg} {dest : Nat} (h : argPtr args = some (dest, rest)) :
    rest.length < args.length := by
  unfold argPtr at h
  split at h
  · cases h
    simp
  · cases h

section Length

variable {m : Mem} {pod : Nat} {type : UInt32} {args rest : List QueryArg}

theorem collect_length {stored : Bool} {stores : List Store}
    (h : collect m pod type args = some (stored, rest, stores)) : rest.length ≤ args.length := by
  have hone {bytes : List UInt8}
      (h : ((argPtr args).map fun (dest, args) => (true, args, [Store.mk dest bytes])) =
        some (stored, rest, stores)) : rest.length ≤ args.length := by
    obtain ⟨⟨dest, args'⟩, hptr, heq⟩ := Option.map_eq_some_iff.mp h
    cases heq
    exact Nat.le_of_lt (argPtr_length hptr)
  have herror (h : some (false, args, []) = some (stored, rest, stores)) :
      rest.length ≤ args.length := by
    cases h
    exact Nat.le_refl _
  unfold collect at h
  split at h
  · exact hone h
  · split at h
    · split at h
      all_goals first | exact hone h | exact herror h
    · split at h
      · split at h
        · obtain ⟨⟨dest, args'⟩, hptr, h⟩ := Option.bind_eq_some_iff.mp h
          obtain ⟨⟨maxlen, args''⟩, hword, heq⟩ := Option.map_eq_some_iff.mp h
          cases heq
          exact Nat.le_of_lt (Nat.lt_trans (argWord_length hword) (argPtr_length hptr))
        · obtain ⟨⟨dest, args'⟩, hptr, h⟩ := Option.bind_eq_some_iff.mp h
          obtain ⟨⟨size, args''⟩, hsize, heq⟩ := Option.map_eq_some_iff.mp h
          cases heq
          exact Nat.le_of_lt (Nat.lt_trans (argPtr_length hsize) (argPtr_length hptr))
        · exact hone h
        · exact herror h
      · exact herror h

theorem collectSkip_length (h : collectSkip type args = some rest) :
    rest.length ≤ args.length := by
  have hone (h : (argPtr args).map Prod.snd = some rest) : rest.length ≤ args.length := by
    obtain ⟨⟨dest, args'⟩, hptr, heq⟩ := Option.map_eq_some_iff.mp h
    cases heq
    exact Nat.le_of_lt (argPtr_length hptr)
  have htwo (h : ((argPtr args).bind fun (_, args) => (argPtr args).map Prod.snd) = some rest) :
      rest.length ≤ args.length := by
    obtain ⟨⟨dest, args'⟩, hptr, h⟩ := Option.bind_eq_some_iff.mp h
    obtain ⟨⟨size, args''⟩, hsize, heq⟩ := Option.map_eq_some_iff.mp h
    cases heq
    exact Nat.le_of_lt (Nat.lt_trans (argPtr_length hsize) (argPtr_length hptr))
  unfold collectSkip at h
  split at h
  · cases h
    exact Nat.le_refl _
  · exact htwo h
  · exact htwo h
  · exact hone h

/-- A key takes no argument back. -/
theorem queryKey_length {findProp : UInt32 → Option Nat} {key : UInt32} {stored : Bool}
    {stores : List Store}
    (h : queryKey m findProp key type args = some (stored, rest, stores)) :
    rest.length ≤ args.length := by
  unfold queryKey at h
  split at h
  · exact collect_length h
  · obtain ⟨args', hskip, heq⟩ := Option.map_eq_some_iff.mp h
    cases heq
    exact collectSkip_length hskip

end Length

/-- `spa_pod_contents_queryv`, with how it looks a key up. -/
def queryv (m : Mem) (findProp : UInt32 → Option Nat) (key : UInt32) (args : List QueryArg) :
    Option QueryResult :=
  if key = 0 then some ⟨0, []⟩
  else
    match _hword : argWord args with
    | none => none
    | some (type, targets) =>
      match _hkey : queryKey m findProp key type targets with
      | none => none
      | some (stored, rest, stores) =>
        match _hnext : argWord rest with
        | none => none
        | some (next, args') =>
          (queryv m findProp next args').map fun res =>
            ⟨stored.toNat + res.count, stores ++ res.stores⟩
termination_by args.length
decreasing_by
  have := argWord_length _hword
  have := queryKey_length _hkey
  have := argWord_length _hnext
  omega

/-- `spa_pod_contents_query`; the key it is called with is the first of the arguments. -/
def contentsQuery (m : Mem) (pod offset : Nat) (args : List QueryArg) : Option QueryResult :=
  (argWord args).bind fun (key, args) => queryv m (contentsFindProp m pod offset) key args

/-- `spa_pod_object_query`. -/
def objectQuery (m : Mem) (object : Nat) (args : List QueryArg) : Option QueryResult :=
  contentsQuery m object sizeofSpaPODObject args

section Queryv

variable {m : Mem} {findProp : UInt32 → Option Nat} {key : UInt32}

theorem queryv_zero (args : List QueryArg) : queryv m findProp 0 args = some ⟨0, []⟩ := by
  rw [queryv, if_pos rfl]

/-- A key, its type and what collecting or skipping does with the arguments behind. -/
theorem queryv_word (hne : key ≠ 0) (type : UInt32) (targets : List QueryArg) :
    queryv m findProp key (.word type :: targets) =
      (queryKey m findProp key type targets).bind fun (stored, rest, stores) =>
        (argWord rest).bind fun (next, args) =>
          (queryv m findProp next args).map fun res =>
            ⟨stored.toNat + res.count, stores ++ res.stores⟩ := by
  rw [queryv, if_neg hne]
  simp only [argWord]
  cases hkey : queryKey m findProp key type targets with
  | none => rfl
  | some taken =>
    obtain ⟨stored, rest, stores⟩ := taken
    cases rest with
    | nil => rfl
    | cons arg args => cases arg <;> rfl

/-- To read the type of a key as what it is not. -/
theorem queryv_none (hne : key ≠ 0) {args : List QueryArg} (h : argWord args = none) :
    queryv m findProp key args = none := by
  rw [queryv, if_neg hne]
  split
  · rfl
  · rename_i hword
    rw [h] at hword
    cases hword

/-- A query sees of the lookups what they find that is set. -/
theorem queryv_congr {findProp' : UInt32 → Option Nat}
    (h : ∀ key, key ≠ 0 → setValue m findProp key = setValue m findProp' key) (key : UInt32)
    (args : List QueryArg) : queryv m findProp key args = queryv m findProp' key args := by
  induction hn : args.length using Nat.strongRecOn generalizing key args with
  | ind n ih =>
    by_cases hne : key = 0
    · rw [hne, queryv_zero, queryv_zero]
    cases args with
    | nil => rw [queryv_none hne rfl, queryv_none hne rfl]
    | cons arg targets =>
      cases arg with
      | ptr dest => rw [queryv_none hne rfl, queryv_none hne rfl]
      | word type =>
        have hkey : queryKey m findProp key type targets = queryKey m findProp' key type targets := by
          rw [queryKey, queryKey, h key hne]
        rw [queryv_word hne, queryv_word hne, hkey]
        cases htaken : queryKey m findProp' key type targets with
        | none => rfl
        | some taken =>
          obtain ⟨stored, left, stores⟩ := taken
          rw [Option.bind_some, Option.bind_some]
          dsimp only
          cases hword : argWord left with
          | none => rfl
          | some next =>
            obtain ⟨next, args'⟩ := next
            have := queryKey_length htaken
            have := argWord_length hword
            rw [Option.bind_some, Option.bind_some]
            dsimp only
            rw [ih args'.length (by simp at hn; omega) next args' rfl]

end Queryv

/-! ## What the lookups see -/

section Object

open Pod

variable {m : Mem} {a : Nat} {id type : UInt32} {contents : List Pod}

/-- A property that is not set. -/
def isUnsetAt (m : Mem) (prop : Nat) : Bool :=
  UInt32.ofNat (m.u32 (prop + 12)) &&& flagUnset ≠ 0

/-- The query that looks the keys up among pods. -/
def queryAmong (m : Mem) (a : Nat) (ps : List Pod) (args : List QueryArg) : Option QueryResult :=
  (argWord args).bind fun (key, args) => queryv m (Pod.findProp a ps) key args

theorem objectFindProp_object (hwf : (object id type contents).WellFormed)
    (hm : m.Holds a (object id type contents).encode) (key : UInt32) :
    objectFindProp m a key = (Pod.findProp (a + sizeofSpaPODObject) contents key).or
      ((behindPod m a sizeofSpaPODObject).find? (isPropAt m key)) :=
  @contentsFindProp_object m a id type [] contents hwf hm key

/-- A lookup is right unless the key is missing and stands behind the object. -/
theorem objectFindProp_eq_iff (hwf : (object id type contents).WellFormed)
    (hm : m.Holds a (object id type contents).encode) (key : UInt32) :
    objectFindProp m a key = Pod.findProp (a + sizeofSpaPODObject) contents key ↔
      (∃ p ∈ contents, p.isProp key) ∨
        ∀ res ∈ behindPod m a sizeofSpaPODObject, isPropAt m key res = false := by
  rw [objectFindProp_object hwf hm]
  cases hfind : Pod.findProp (a + sizeofSpaPODObject) contents key with
  | some prop =>
    have hkey : ∃ p ∈ contents, p.isProp key := by
      by_contra hnone
      have hall : ∀ p ∈ contents, p.isProp key = false := fun p hp => by
        simpa using fun h => hnone ⟨p, hp, h⟩
      rw [Pod.findProp_eq_none.mpr hall] at hfind
      cases hfind
    simp [hkey]
  | none =>
    have hnone := Pod.findProp_eq_none.mp hfind
    simp only [Option.none_or, List.find?_eq_none]
    constructor
    · intro h
      exact Or.inr fun res hres => by simpa using h res hres
    · rintro (⟨p, hp, hkey⟩ | h) res hres
      · rw [hnone p hp] at hkey
        cases hkey
      · simp [h res hres]

theorem setValue_eq_none {findProp : UInt32 → Option Nat} {key : UInt32} {prop : Nat}
    (hfind : findProp key = some prop) (hkey : m.u32 (prop + 8) = key.toNat) :
    setValue m findProp key = none ↔ isUnsetAt m prop := by
  simp [setValue, hfind, hkey, isUnsetAt, Option.filter]

/-- Where two lookups differ, a query for the key alone does. -/
theorem queryv_pod {findProp : UInt32 → Option Nat} {key : UInt32} (hne : key ≠ 0) :
    queryv m findProp key [.word QueryType.pod.code, .ptr 0, .word 0] =
      some (match setValue m findProp key with
        | some value => ⟨1, [⟨0, toLE 8 value⟩]⟩
        | none => ⟨0, []⟩) := by
  rw [queryv_word hne, queryKey]
  cases setValue m findProp key with
  | some value => simp [collect, argPtr, argWord, queryv_zero]
  | none => simp [collectSkip, argPtr, argWord, queryv_zero]

/-- Queries are right when no set property behind the object has a key that is missing. -/
theorem objectQuery_eq_iff (hwf : (object id type contents).WellFormed)
    (hm : m.Holds a (object id type contents).encode) :
    (∀ args, objectQuery m a args = queryAmong m (a + sizeofSpaPODObject) contents args) ↔
      ∀ key ≠ 0, (∃ p ∈ contents, p.isProp key) ∨
        ∀ res, (behindPod m a sizeofSpaPODObject).find? (isPropAt m key) = some res →
          isUnsetAt m res := by
  have hset (key : UInt32) : setValue m (objectFindProp m a) key =
      setValue m (Pod.findProp (a + sizeofSpaPODObject) contents) key ↔
        ((∃ p ∈ contents, p.isProp key) ∨
          ∀ res, (behindPod m a sizeofSpaPODObject).find? (isPropAt m key) = some res →
            isUnsetAt m res) := by
    have hfind := objectFindProp_object hwf hm key
    cases hown : Pod.findProp (a + sizeofSpaPODObject) contents key with
    | some prop =>
      rw [hown, Option.some_or] at hfind
      have hkey : ∃ p ∈ contents, p.isProp key := by
        by_contra hnone
        rw [Pod.findProp_eq_none.mpr fun p hp => by simpa using fun h => hnone ⟨p, hp, h⟩] at hown
        cases hown
      simp [setValue, hfind, hown, hkey]
    | none =>
      rw [hown, Option.none_or] at hfind
      have hnone : ¬ ∃ p ∈ contents, p.isProp key := by
        rintro ⟨p, hp, hkey⟩
        rw [Pod.findProp_eq_none.mp hown p hp] at hkey
        cases hkey
      have howned : setValue m (Pod.findProp (a + sizeofSpaPODObject) contents) key = none := by
        simp [setValue, hown]
      rw [howned, ← hfind]
      cases hres : objectFindProp m a key with
      | none => simp [setValue, hres]
      | some res =>
        have hprop : isPropAt m key res := by
          rw [hfind] at hres
          exact List.find?_some hres
        have hat : m.u32 (res + 8) = key.toNat := by
          simp only [isPropAt, Bool.and_eq_true, decide_eq_true_eq] at hprop
          exact hprop.2
        rw [setValue_eq_none hres hat]
        simp [hnone]
  constructor
  · intro h key hne
    have hone := h [.word key, .word QueryType.pod.code, .ptr 0, .word 0]
    simp only [objectQuery, contentsQuery, queryAmong, argWord, Option.bind_some] at hone
    rw [queryv_pod hne, queryv_pod hne, Option.some.injEq] at hone
    by_cases hkey : ∃ p ∈ contents, p.isProp key
    · exact Or.inl hkey
    have hown : setValue m (Pod.findProp (a + sizeofSpaPODObject) contents) key = none := by
      rw [setValue, Pod.findProp_eq_none.mpr fun p hp => by simpa using fun h => hkey ⟨p, hp, h⟩]
      rfl
    refine (hset key).mp ?_
    show setValue m (contentsFindProp m a sizeofSpaPODObject) key = _
    cases hfound : setValue m (contentsFindProp m a sizeofSpaPODObject) key with
    | none => rw [hown]
    | some value => simp [hfound, hown] at hone
  · intro h args
    rw [objectQuery, contentsQuery, queryAmong]
    congr 1
    funext arg
    cases arg with | mk key rest =>
    exact queryv_congr (fun key hne => (hset key).mpr (h key hne)) key rest

/-- Of the ways to go over an object only `SPA_POD_OBJECT_FOREACH` sees the object alone.  The
walk of a lookup sees what is behind it as well, always; what is found is right exactly when no
property behind the object is taken for one of it. -/
theorem sees_object_iff (hwf : (object id type contents).WellFormed)
    (hm : m.Holds a (object id type contents).encode) :
    objectForeach m a = places (a + sizeofSpaPODObject) contents ∧
    (∀ front rest, contents = front ++ rest →
      contentsForeach m a (offsetBehind front) ≠ places (a + offsetBehind front) rest) ∧
    (∀ key, objectFindProp m a key = Pod.findProp (a + sizeofSpaPODObject) contents key ↔
      (∃ p ∈ contents, p.isProp key) ∨
        ∀ res ∈ behindPod m a sizeofSpaPODObject, isPropAt m key res = false) ∧
    ((∀ args, objectQuery m a args = queryAmong m (a + sizeofSpaPODObject) contents args) ↔
      ∀ key ≠ 0, (∃ p ∈ contents, p.isProp key) ∨
        ∀ res, (behindPod m a sizeofSpaPODObject).find? (isPropAt m key) = some res →
          isUnsetAt m res) := by
  refine ⟨objectForeach_object hwf hm, ?_, objectFindProp_eq_iff hwf hm, objectQuery_eq_iff hwf hm⟩
  rintro front rest rfl hsame
  rw [contentsForeach_object hwf hm, List.append_right_eq_self] at hsame
  exact behindPod_ne_nil m a (offsetBehind_pos front) hsame

/-- An object without properties. -/
def noProps : Pod := object 0 0 []

/-- The object, with an unrelated property behind it. -/
def noPropsThenProp : Mem :=
  Mem.write (fun _ => 0) 0 (noProps.encode ++
    SpaPOD.bytes ⟨20, .prop⟩ ++ toLE 4 1 ++ toLE 4 0 ++ SpaPOD.bytes ⟨4, .int⟩ ++ toLE 4 5)

theorem noProps_wellFormed : noProps.WellFormed :=
  WellFormed.object 0 0 [] (by simp) (by decide)

theorem noPropsThenProp_holds : noPropsThenProp.Holds 0 noProps.encode := by
  unfold Mem.Holds
  decide

theorem sees_object_noProps :
    objectForeach noPropsThenProp 0 = [] ∧ contentsForeach noPropsThenProp 0 16 ≠ [] := by
  obtain ⟨hobject, hcontents, -, -⟩ := sees_object_iff noProps_wellFormed noPropsThenProp_holds
  exact ⟨hobject, hcontents [] [] rfl⟩

/-- The walk goes on to the property, and the lookup returns it. -/
theorem not_sees_object : noProps.WellFormed ∧ noPropsThenProp.Holds 0 noProps.encode ∧
    16 ∈ contentsForeach noPropsThenProp 0 sizeofSpaPODObject ∧
    objectFindProp noPropsThenProp 0 1 = some 16 ∧
    Pod.findProp (0 + sizeofSpaPODObject) [] 1 = none := by
  have hwalk : contentsForeach noPropsThenProp 0 sizeofSpaPODObject =
      16 :: podForeach noPropsThenProp (16 + roundUpN (podSize noPropsThenProp 16) 8)
        (0 + sizeofSpaPODObject + podSize noPropsThenProp 0) :=
    podForeach_of_lt (by decide)
  have hprop : isPropAt noPropsThenProp 1 16 = true := by
    decide
  refine ⟨noProps_wellFormed, noPropsThenProp_holds, ?_, ?_, rfl⟩
  · rw [hwalk]
    simp
  · rw [objectFindProp, contentsFindProp, hwalk, List.find?_cons_of_pos hprop]

end Object
end Pinos
