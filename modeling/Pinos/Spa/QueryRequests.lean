import Pinos.Spa.PodQuery

/-
Queries for a list of keys, each with a type and where its value goes.

Every key should be collected by itself.  What one key takes from the arguments depends on what is
found for it, though, and the next key is read where that stops.
-/

namespace Pinos

open ByteMem

/-- A key that is asked for.  `size` is the second destination of `SPA_POD_TYPE_BYTES` and `maxlen`
the length that follows the destination of `-SPA_POD_TYPE_STRING`. -/
structure QueryRequest where
  key : UInt32
  type : QueryType
  dest : Nat
  size : Nat
  maxlen : UInt32
  key_ne : key ≠ 0

namespace QueryType

@[simp] theorem code_inj {s t : QueryType} : s.code = t.code ↔ s = t := by
  constructor
  · intro h
    have := congrArg ofCode h
    rwa [ofCode_code, ofCode_code, Option.some.injEq] at this
  · rintro rfl
    rfl

/-- Whether `SPA_POD_COLLECT` takes a pod, by the number of its type. -/
def accepts (t : QueryType) (type : Nat) : Bool :=
  t = pod || if type = SpaPODType.none.code then t.isOptional
    else type = t.code.toNat || type = (-t.code).toNat

theorem accepts_code (t : QueryType) (type : SpaPODType) : t.accepts type.code = t.asks type := by
  cases t <;> cases type <;> rfl

end QueryType

namespace QueryRequest

/-- The arguments behind the type. -/
def targets (r : QueryRequest) : List QueryArg :=
  match r.type with
  | .bytes => [.ptr r.dest, .ptr r.size]
  | .minusString => [.ptr r.dest, .word r.maxlen]
  | _ => [.ptr r.dest]

def args (r : QueryRequest) : List QueryArg := .word r.key :: .word r.type.code :: r.targets

def dests (r : QueryRequest) : List Nat :=
  if r.type = .bytes then [r.dest, r.size] else [r.dest]

/-- The arguments of a query, with the 0 that ends them. -/
def queryArgs (reqs : List QueryRequest) : List QueryArg := reqs.flatMap args ++ [.word 0]

/-! ## What should be stored -/

/-- The first property with the key, when it is set and of the type that is asked for: its value
and where that is. -/
def answer (a : Nat) (ps : List Pod) (r : QueryRequest) : Option (Nat × Pod) :=
  match (Pod.placed a ps).find? fun c => c.2.isProp r.key with
  | some (prop, .prop _ flags value _) =>
    if flags &&& flagUnset = 0 ∧ r.type.asks value.type then some (prop + 16, value) else none
  | _ => none

/-- The value of the type, spelled by the bytes that are stored.  A string is copied up to the zero
byte that ends it, which is in memory. -/
def stores (m : Mem) (r : QueryRequest) (at_ : Nat) (value : Pod) : List Store :=
  match r.type with
  | .bool | .id | .int | .float | .long | .double | .rectangle | .fraction =>
    [⟨r.dest, value.body⟩]
  | .pointer => [⟨r.dest, value.body.drop 8⟩]
  | .string | .bitmask => [⟨r.dest, toLE 8 (at_ + 8)⟩]
  | .bytes => [⟨r.dest, toLE 8 (at_ + 8)⟩, ⟨r.size, toLE 4 value.body.length⟩]
  | .minusString => [⟨r.dest, strncpy m (at_ + 8) (r.maxlen - 1).toNat⟩]
  | .minusArray | .minusStruct | .minusObject | .minusProp =>
    [⟨r.dest, if value.type = .none then toLE 8 0 else toLE 8 at_⟩]
  | .array | .struct | .object | .prop | .pod => [⟨r.dest, toLE 8 at_⟩]

/-- The stores that are made for a key. -/
def answerStores (m : Mem) (a : Nat) (ps : List Pod) (r : QueryRequest) : List Store :=
  match r.answer a ps with
  | some (at_, value) => r.stores m at_ value
  | none => []

/-! ## One key -/

section Key

variable {m : Mem} {r : QueryRequest}

/-- What is stored for a pod in memory. -/
def reads (m : Mem) (r : QueryRequest) (pod : Nat) : List Store :=
  match r.type with
  | .bytes => [⟨r.dest, toLE 8 (pod + 8)⟩, ⟨r.size, toLE 4 (podBodySize m pod)⟩]
  | .minusString => [⟨r.dest, strncpy m (pod + 8) (r.maxlen - 1).toNat⟩]
  | .minusArray | .minusStruct | .minusObject | .minusProp =>
    [⟨r.dest, if podType m pod = SpaPODType.none.code then toLE 8 0 else toLE 8 pod⟩]
  | t => [⟨r.dest, valueAt m pod t⟩]

/-- Collecting takes the arguments of the key, or none. -/
theorem collect_targets (r : QueryRequest) (pod : Nat) (rest : List QueryArg) :
    collect m pod r.type.code (r.targets ++ rest) =
      if r.type.accepts (podType m pod) then some (true, rest, r.reads m pod)
      else some (false, r.targets ++ rest, []) := by
  obtain ⟨key, type, dest, size, maxlen, key_ne⟩ := r
  simp only [collect, QueryType.code_inj, QueryType.ofCode_code, QueryType.accepts, reads, targets]
  by_cases hnone : podType m pod = SpaPODType.none.code
  · cases type <;> simp [hnone, QueryType.isOptional, argPtr, valueAt]
  · by_cases hcode : podType m pod = type.code.toNat ∨ podType m pod = (-type.code).toNat
    · cases type <;> simp_all [argPtr, argWord, valueAt]
    · cases type <;> simp_all [argPtr, valueAt]

theorem skip_targets_pointer (h : r.type = .pointer) (rest : List QueryArg) :
    collectSkip r.type.code (r.targets ++ rest) = (argPtr rest).map Prod.snd := by
  simp [collectSkip, targets, h, argPtr]

theorem skip_targets_minusString (h : r.type = .minusString) (rest : List QueryArg) :
    collectSkip r.type.code (r.targets ++ rest) = some (.word r.maxlen :: rest) := by
  simp [collectSkip, targets, h, argPtr]

/-- Skipping takes the arguments of every other key. -/
theorem skip_targets (hp : r.type ≠ .pointer) (hs : r.type ≠ .minusString) (rest : List QueryArg) :
    collectSkip r.type.code (r.targets ++ rest) = some rest := by
  obtain ⟨key, type, dest, size, maxlen, key_ne⟩ := r
  cases type <;> simp_all [collectSkip, targets, argPtr]

/-- Where no pointer stands, collecting reads one or takes nothing. -/
theorem collect_of_argPtr {pod : Nat} {type : UInt32} {args : List QueryArg} (h : argPtr args = none) :
    collect m pod type args = none ∨ collect m pod type args = some (false, args, []) := by
  simp only [collect, h, Option.map_none, Option.bind_none]
  split
  · exact Or.inl rfl
  · split
    · split
      all_goals first | exact Or.inl rfl | exact Or.inr rfl
    · split
      · split
        all_goals first | exact Or.inl rfl | exact Or.inr rfl
      · exact Or.inr rfl

theorem collectSkip_of_argPtr {type : UInt32} {args : List QueryArg} (h : argPtr args = none) :
    collectSkip type args = none ∨ collectSkip type args = some args := by
  simp only [collectSkip, h, Option.map_none, Option.bind_none]
  split
  all_goals first | exact Or.inl rfl | exact Or.inr rfl

theorem queryKey_of_argPtr {findProp : UInt32 → Option Nat} {key type : UInt32} {args : List QueryArg}
    (h : argPtr args = none) : queryKey m findProp key type args = none ∨
      queryKey m findProp key type args = some (false, args, []) := by
  unfold queryKey
  split
  · exact collect_of_argPtr h
  · rcases @collectSkip_of_argPtr type args h with hskip | hskip
    · exact Or.inl (by rw [hskip]; rfl)
    · exact Or.inr (by rw [hskip]; rfl)

end Key

/-! ## A list of keys -/

section Query

variable {m : Mem} {findProp : UInt32 → Option Nat} {r : QueryRequest} {rest : List QueryRequest}

/-- The query for a list of keys. -/
def query (m : Mem) (findProp : UInt32 → Option Nat) (reqs : List QueryRequest) :
    Option QueryResult :=
  (argWord (queryArgs reqs)).bind fun (key, args) => queryv m findProp key args

theorem query_nil : query m findProp [] = some ⟨0, []⟩ :=
  queryv_zero []

theorem query_cons : query m findProp (r :: rest) =
    (queryKey m findProp r.key r.type.code (r.targets ++ queryArgs rest)).bind
      fun (stored, left, stores) =>
        (argWord left).bind fun (next, args) =>
          (queryv m findProp next args).map fun res =>
            ⟨stored.toNat + res.count, stores ++ res.stores⟩ := by
  rw [← queryv_word r.key_ne, query, queryArgs, List.flatMap_cons]
  simp [args, argWord, queryArgs]

theorem query_cons_stored {value : Nat} (hset : setValue m findProp r.key = some value)
    (htype : r.type.accepts (podType m value)) :
    query m findProp (r :: rest) = (query m findProp rest).map fun res =>
      ⟨1 + res.count, r.reads m value ++ res.stores⟩ := by
  rw [query_cons, queryKey, hset]
  simp only [collect_targets, htype, if_true, Option.bind_some, query]
  cases argWord (queryArgs rest) with
  | none => rfl
  | some next => rfl

/-- Behind the type of a key no word stands. -/
theorem argWord_targets (r : QueryRequest) (args : List QueryArg) :
    argWord (r.targets ++ args) = none := by
  obtain ⟨key, type, dest, size, maxlen, key_ne⟩ := r
  cases type <;> simp [targets, argWord]

/-- The pointer that was not taken is read as the next key. -/
theorem query_cons_mistyped {value : Nat} (hset : setValue m findProp r.key = some value)
    (htype : r.type.accepts (podType m value) = false) :
    query m findProp (r :: rest) = none := by
  rw [query_cons, queryKey, hset]
  simp [collect_targets, htype, argWord_targets]

theorem query_cons_skip (hset : setValue m findProp r.key = none) (hp : r.type ≠ .pointer)
    (hs : r.type ≠ .minusString) : query m findProp (r :: rest) = query m findProp rest := by
  rw [query_cons, queryKey, hset, query]
  simp only [skip_targets hp hs, Option.map_some, Option.bind_some]
  cases argWord (queryArgs rest) with
  | none => rfl
  | some next => simp

theorem argPtr_queryArgs (reqs : List QueryRequest) : argPtr (queryArgs reqs) = none := by
  cases reqs with
  | nil => rfl
  | cons r rest => rfl

/-- The next key is taken for a pointer. -/
theorem query_cons_pointer (hset : setValue m findProp r.key = none) (hp : r.type = .pointer) :
    query m findProp (r :: rest) = none := by
  rw [query_cons, queryKey, hset]
  simp [skip_targets_pointer hp, argPtr_queryArgs]

/-- The length of a string is taken for the next key. -/
theorem query_cons_string (hset : setValue m findProp r.key = none) (hs : r.type = .minusString) :
    query m findProp (r :: rest) = queryv m findProp r.maxlen (queryArgs rest) := by
  rw [query_cons, queryKey, hset]
  simp [skip_targets_minusString hs, argWord]

/-- One word too many in front of the keys: the type of the next key is read as a key. -/
theorem queryv_queryArgs {key : UInt32} (hne : key ≠ 0) (reqs : List QueryRequest) :
    queryv m findProp key (queryArgs reqs) = none := by
  cases reqs with
  | nil =>
    show queryv m findProp key [.word 0] = none
    rw [queryv_word hne]
    rcases @queryKey_of_argPtr m findProp key 0 [] rfl with h | h
    · rw [h]
      rfl
    · rw [h]
      rfl
  | cons r rest =>
    have hcode : r.type.code ≠ 0 := by
      cases r.type <;> decide
    have hargs : queryArgs (r :: rest) =
        .word r.key :: .word r.type.code :: (r.targets ++ queryArgs rest) := by
      simp [queryArgs, args]
    rw [hargs, queryv_word hne]
    rcases @queryKey_of_argPtr m findProp key r.key
      (.word r.type.code :: (r.targets ++ queryArgs rest)) rfl with h | h
    · rw [h]
      rfl
    · rw [h]
      simp [argWord, queryv_none hcode (argWord_targets r _)]

end Query

/-! ## What is found in the object -/

section Answer

variable {m : Mem} {a : Nat} {ps : List Pod} {r : QueryRequest} {value : Pod} {at_ : Nat}

/-- The body of a pod whose type has a size has that size. -/
theorem length_body_of_bodySize {p : Pod} {n : Nat} (h : p.type.bodySize? = some n) :
    p.body.length = n := by
  cases p with
  | leaf l => exact l.sized n h
  | array => cases h
  | struct => cases h
  | object => cases h
  | prop => cases h

/-- What is read for a value of the type is the value. -/
theorem reads_eq_stores (hwf : value.WellFormed) (hm : m.Holds at_ value.encode)
    (htype : r.type.asks value.type) : r.reads m at_ = r.stores m at_ value := by
  obtain ⟨hsize, hcode, hbody⟩ := Pod.holds_withHeader hm hwf.length_body
  obtain ⟨key, type, dest, size, maxlen, key_ne⟩ := r
  have hbase (hp : type ≠ .pod) (ho : type.isOptional = false) : value.type = type.base := by
    by_cases hnone : value.type = .none <;> simp_all [QueryType.asks]
  have hread {n : Nat} (hp : type ≠ .pod) (ho : type.isOptional = false)
      (h : type.base.bodySize? = some n) : m.read (at_ + 8) n = value.body := by
    rw [← hbase hp ho] at h
    rw [← length_body_of_bodySize h]
    exact hbody
  have hnull : (podType m at_ = SpaPODType.none.code) = (value.type = .none) := by
    rw [hcode]
    exact propext ⟨fun h => SpaPODType.code_inj h, fun h => congrArg _ h⟩
  simp only [reads, stores, valueAt, hsize, hnull]
  cases type with
  | bool | id | int | float => rw [hread (by decide) rfl rfl]
  | long | double | rectangle | fraction => rw [hread (by decide) rfl rfl]
  | pointer => rw [← hread (n := 16) (by decide) rfl rfl, Mem.drop_read]
  | _ => rfl

/-- The properties that are looked up are read where they are. -/
theorem setValue_of_placed {findProp : UInt32 → Option Nat} {prop : Nat} {key flags : UInt32}
    {alternatives : List Leaf} (hfind : findProp key = some prop)
    (hwf : (Pod.prop key flags value alternatives).WellFormed)
    (hm : m.Holds prop (Pod.prop key flags value alternatives).encode) :
    setValue m findProp key = (if flags &&& flagUnset = 0 then some (prop + 16) else none) ∧
      m.Holds (prop + 16) value.encode := by
  obtain ⟨-, -, hbody⟩ := Pod.holds_withHeader hm hwf.length_body
  simp only [Pod.body, List.append_assoc] at hbody
  have hkey : m.u32 (prop + 8) = key.toNat := by
    have := hbody.left.u32
    rwa [Nat.mod_eq_of_lt key.toNat_lt] at this
  have hbehind := hbody.right
  rw [length_toLE] at hbehind
  have hflags : m.u32 (prop + 12) = flags.toNat := by
    have := hbehind.left.u32
    rwa [Nat.mod_eq_of_lt flags.toNat_lt] at this
  have hvalue := hbehind.right.left
  rw [length_toLE] at hvalue
  refine ⟨?_, hvalue⟩
  by_cases hset : flags &&& flagUnset = 0
  · simp [setValue, hfind, hflags, hset, hkey, Option.filter]
  · simp [setValue, hfind, hflags, hset, Option.filter]

/-- An answer is found, taken for what it is, and stored. -/
theorem answer_some {findProp : UInt32 → Option Nat} (hwf : ∀ p ∈ ps, p.WellFormed)
    (hm : m.Holds a (Pod.contentsBytes ps))
    (hfind : ∀ prop, Pod.findProp a ps r.key = some prop → findProp r.key = some prop)
    (h : r.answer a ps = some (at_, value)) :
    setValue m findProp r.key = some at_ ∧ r.type.accepts (podType m at_) ∧
      r.reads m at_ = r.stores m at_ value := by
  unfold answer at h
  split at h
  · rename_i prop key flags value' alternatives hplaced
    split at h
    · rename_i hasked
      cases h
      have hkey : key = r.key := by
        have := List.find?_some hplaced
        simpa [Pod.isProp] using this
      subst hkey
      have hmem := List.mem_of_find?_eq_some hplaced
      have hprop := hwf _ (Pod.mem_of_mem_placed hmem)
      have hvalue : value.WellFormed := by
        cases hprop
        assumption
      obtain ⟨hset, hholds⟩ := setValue_of_placed (hfind prop (by rw [Pod.findProp, hplaced]; rfl))
        hprop (Pod.holds_of_mem_placed hm hmem)
      refine ⟨by rw [hset, if_pos hasked.1], ?_, reads_eq_stores hvalue hholds hasked.2⟩
      rw [(Pod.holds_withHeader hholds hvalue.length_body).2.1, QueryType.accepts_code]
      exact hasked.2
    · cases h
  · cases h

end Answer

/-! ## Whether the keys are collected by themselves -/

section Collects

variable (m : Mem) (a : Nat) (ps : List Pod)

/-- The stores are those of the keys that have an answer, and are counted. -/
structure Collects (reqs : List QueryRequest) (res : QueryResult) : Prop where
  stores : res.stores = reqs.flatMap (answerStores m a ps)
  count : res.count = reqs.countP fun r => (r.answer a ps).isSome

/-- Every key takes its own arguments.  What is found is an answer, and a key for which nothing set
is found is not one of a pointer; for the copy of a string the length has to end the list, with
nothing left to be stored. -/
def InStep (findProp : UInt32 → Option Nat) : List QueryRequest → Prop
  | [] => True
  | r :: rest =>
    match setValue m findProp r.key with
    | some _ => (r.answer a ps).isSome ∧ InStep findProp rest
    | none =>
      match r.type with
      | .pointer => False
      | .minusString => r.maxlen = 0 ∧ ∀ r' ∈ rest, r'.answer a ps = none
      | _ => InStep findProp rest

variable {m a ps} {r : QueryRequest} {rest : List QueryRequest}

theorem collects_cons_some {at_ : Nat} {value : Pod} {res : QueryResult}
    (h : r.answer a ps = some (at_, value)) :
    Collects m a ps (r :: rest) ⟨1 + res.count, r.stores m at_ value ++ res.stores⟩ ↔
      Collects m a ps rest res := by
  have hstores : r.answerStores m a ps = r.stores m at_ value := by
    rw [answerStores, h]
  constructor
  · rintro ⟨hs, hc⟩
    simp only [List.flatMap_cons, hstores, List.append_cancel_left_eq] at hs
    rw [List.countP_cons_of_pos (by rw [h]; rfl)] at hc
    dsimp only at hc
    exact ⟨hs, by omega⟩
  · rintro ⟨hs, hc⟩
    refine ⟨?_, ?_⟩
    · rw [List.flatMap_cons, hstores, hs]
    · rw [List.countP_cons_of_pos (by rw [h]; rfl), ← hc, Nat.add_comm]

theorem collects_cons_none {res : QueryResult} (h : r.answer a ps = none) :
    Collects m a ps (r :: rest) res ↔ Collects m a ps rest res := by
  have hstores : r.answerStores m a ps = [] := by
    rw [answerStores, h]
  have hcount : (r :: rest).countP (fun r => (r.answer a ps).isSome) =
      rest.countP fun r => (r.answer a ps).isSome :=
    List.countP_cons_of_neg (by rw [h]; simp)
  constructor
  · rintro ⟨hs, hc⟩
    rw [List.flatMap_cons, hstores, List.nil_append] at hs
    exact ⟨hs, hc.trans hcount⟩
  · rintro ⟨hs, hc⟩
    refine ⟨?_, hc.trans hcount.symm⟩
    rw [List.flatMap_cons, hstores, List.nil_append, hs]

theorem collects_nil {reqs : List QueryRequest} :
    Collects m a ps reqs ⟨0, []⟩ ↔ ∀ r ∈ reqs, r.answer a ps = none := by
  constructor
  · rintro ⟨-, hc⟩ r hr
    have := List.countP_eq_zero.mp hc.symm r hr
    simpa using this
  · intro h
    refine ⟨?_, ?_⟩
    · refine (List.flatMap_eq_nil_iff.mpr fun r hr => ?_).symm
      rw [answerStores, h r hr]
    · refine (List.countP_eq_zero.mpr fun r hr => ?_).symm
      simp [h r hr]

theorem dest_mem_of_answerStores {s : Store} (h : s ∈ r.answerStores m a ps) :
    s.dest ∈ r.dests := by
  unfold answerStores at h
  split at h
  · obtain ⟨key, type, dest, size, maxlen, key_ne⟩ := r
    cases type <;> simp_all [stores, dests]
    rcases h with rfl | rfl <;> simp
  · simp at h

theorem exists_read (r : QueryRequest) (value : Nat) :
    ∃ s ∈ r.reads m value, s.dest = r.dest ∧ r.dest ∈ r.dests := by
  obtain ⟨key, type, dest, size, maxlen, key_ne⟩ := r
  cases type <;> simp [reads, dests]

section Run

variable {findProp : UInt32 → Option Nat}
variable (hwf : ∀ p ∈ ps, p.WellFormed) (hm : m.Holds a (Pod.contentsBytes ps))
variable (hfind : ∀ key prop, Pod.findProp a ps key = some prop → findProp key = some prop)

include hwf hm hfind

theorem answer_of_setValue_none (h : setValue m findProp r.key = none) : r.answer a ps = none := by
  cases hans : r.answer a ps with
  | none => rfl
  | some found =>
    have := (answer_some hwf hm (hfind r.key) hans).1
    rw [h] at this
    cases this

/-- A key for which something set is found. -/
theorem collects_cons_found {value : Nat} (hset : setValue m findProp r.key = some value)
    (hdests : ((r :: rest).flatMap dests).Nodup) :
    (∃ res, query m findProp (r :: rest) = some res ∧ Collects m a ps (r :: rest) res) ↔
      (r.answer a ps).isSome ∧
        ∃ res, query m findProp rest = some res ∧ Collects m a ps rest res := by
  cases hans : r.answer a ps with
  | some found =>
    obtain ⟨at_, pod⟩ := found
    obtain ⟨hset', htype, hreads⟩ := answer_some hwf hm (hfind r.key) hans
    rw [hset', Option.some.injEq] at hset
    subst hset
    rw [query_cons_stored hset' htype, hreads]
    constructor
    · rintro ⟨res, hres, hcollects⟩
      obtain ⟨res', hrest, rfl⟩ := Option.map_eq_some_iff.mp hres
      exact ⟨rfl, res', hrest, (collects_cons_some hans).mp hcollects⟩
    · rintro ⟨-, res, hrest, hcollects⟩
      exact ⟨_, by rw [hrest, Option.map_some], (collects_cons_some hans).mpr hcollects⟩
  | none =>
    refine iff_of_false ?_ (by simp)
    rintro ⟨res, hres, hcollects⟩
    cases htype : r.type.accepts (podType m value) with
    | false =>
      rw [query_cons_mistyped hset htype] at hres
      cases hres
    | true =>
      rw [query_cons_stored hset htype] at hres
      obtain ⟨res', hrest, rfl⟩ := Option.map_eq_some_iff.mp hres
      -- the store for this key would be one for a later key, with another destination
      obtain ⟨s, hs, hdest, hmem⟩ := exists_read (m := m) r value
      have hstores := ((collects_cons_none hans).mp hcollects).stores
      have hlater : s ∈ rest.flatMap (answerStores m a ps) := by
        rw [← hstores]
        simp [hs]
      obtain ⟨r', hr', hs'⟩ := List.mem_flatMap.mp hlater
      rw [List.flatMap_cons, List.nodup_append] at hdests
      have hdest' := dest_mem_of_answerStores hs'
      rw [hdest] at hdest'
      exact hdests.2.2 _ hmem _ (List.mem_flatMap.mpr ⟨r', hr', hdest'⟩) rfl

/-- The keys are collected by themselves exactly when every key takes its own arguments. -/
theorem query_collects_iff {reqs : List QueryRequest} (hdests : (reqs.flatMap dests).Nodup) :
    (∃ res, query m findProp reqs = some res ∧ Collects m a ps reqs res) ↔
      InStep m a ps findProp reqs := by
  induction reqs with
  | nil =>
    refine iff_of_true ⟨_, query_nil, collects_nil.mpr (by simp)⟩ trivial
  | cons r rest ih =>
    have hrest : (rest.flatMap dests).Nodup := by
      rw [List.flatMap_cons, List.nodup_append] at hdests
      exact hdests.2.1
    cases hset : setValue m findProp r.key with
    | some value =>
      rw [collects_cons_found hwf hm hfind hset hdests, ih hrest, InStep, hset]
    | none =>
      have hans := answer_of_setValue_none hwf hm hfind hset
      by_cases hp : r.type = .pointer
      · rw [query_cons_pointer hset hp]
        simp [InStep, hset, hp]
      by_cases hs : r.type = .minusString
      · rw [query_cons_string hset hs]
        by_cases hmax : r.maxlen = 0
        · simp [InStep, hset, hs, hmax, queryv_zero, collects_cons_none hans, collects_nil]
        · simp [InStep, hset, hs, hmax, queryv_queryArgs hmax]
      rw [query_cons_skip hset hp hs]
      simp only [collects_cons_none hans, ih hrest, InStep, hset]

end Run

end Collects

section Object

variable {m : Mem} {a : Nat} {id type : UInt32} {front rest : List Pod}

/-- A query of an object, from any of its pods on. -/
theorem contentsQuery_collects_iff (hwf : (Pod.object id type (front ++ rest)).WellFormed)
    (hm : m.Holds a (Pod.object id type (front ++ rest)).encode) {reqs : List QueryRequest}
    (hdests : (reqs.flatMap dests).Nodup) :
    (∃ res, contentsQuery m a (Pod.offsetBehind front) (queryArgs reqs) = some res ∧
      Collects m (a + Pod.offsetBehind front) rest reqs res) ↔
      InStep m (a + Pod.offsetBehind front) rest
        (contentsFindProp m a (Pod.offsetBehind front)) reqs := by
  obtain ⟨hall, hrest⟩ := holds_behind hwf hm
  refine query_collects_iff hall hrest (fun key prop h => ?_) hdests
  rw [contentsFindProp_object hwf hm, h, Option.some_or]

/-- What is found for a key that has an answer. -/
theorem setValue_of_answer (hwf : (Pod.object id type (front ++ rest)).WellFormed)
    (hm : m.Holds a (Pod.object id type (front ++ rest)).encode) {r : QueryRequest} {at_ : Nat}
    {value : Pod} (h : r.answer (a + Pod.offsetBehind front) rest = some (at_, value)) :
    setValue m (contentsFindProp m a (Pod.offsetBehind front)) r.key = some at_ := by
  obtain ⟨hall, hrest⟩ := holds_behind hwf hm
  refine (answer_some hall hrest (fun prop hprop => ?_) h).1
  rw [contentsFindProp_object hwf hm, hprop, Option.some_or]

end Object

/-! ## Two properties -/

section TwoProps

theorem int_isLeaf : SpaPODType.int.isLeaf = true := rfl

theorem intLeaf_sized (n : Nat) (k : Nat) (h : SpaPODType.int.bodySize? = some k) :
    (toLE 4 n).length = k := by
  cases h
  exact length_toLE 4 n

def intLeaf (n : Nat) : Leaf :=
  ⟨.int, toLE 4 n, int_isLeaf, intLeaf_sized n⟩

def intProp (key : UInt32) (n : Nat) : Pod := .prop key 0 (.leaf (intLeaf n)) []

theorem intProp_wellFormed (key : UInt32) (n : Nat) : (intProp key n).WellFormed := by
  have hleaf : (intLeaf n).body.length = 4 := length_toLE 4 n
  refine .prop key 0 _ [] (.leaf _ (by rw [hleaf]; decide)) (by simp [Pod.type, intLeaf])
    (by simp) ?_
  simp [Pod.body, Pod.withHeader, hleaf]

/-- The properties 1 and 2, both ints. -/
def twoProps : List Pod := [intProp 1 5, intProp 2 6]

def twoPropsMem : Mem := Mem.write (fun _ => 0) 0 (Pod.object 0 0 twoProps).encode

theorem twoProps_wellFormed : (Pod.object 0 0 twoProps).WellFormed :=
  .object 0 0 twoProps (by simp [twoProps, intProp_wellFormed]) (by decide)

theorem twoProps_holds : twoPropsMem.Holds 0 (Pod.object 0 0 twoProps).encode :=
  Mem.holds_write _ 0 _

/-- Both are asked for as ints. -/
def askInts : List QueryRequest := [⟨1, .int, 0, 0, 0, by decide⟩, ⟨2, .int, 1, 0, 0, by decide⟩]

/-- The first is asked for as a long. -/
def askLong : List QueryRequest := [⟨1, .long, 0, 0, 0, by decide⟩, ⟨2, .int, 1, 0, 0, by decide⟩]

theorem contentsQuery_askInts :
    ∃ res, contentsQuery twoPropsMem 0 16 (queryArgs askInts) = some res ∧
      Collects twoPropsMem 16 twoProps askInts res := by
  refine (@contentsQuery_collects_iff twoPropsMem 0 0 0 [] twoProps twoProps_wellFormed
    twoProps_holds askInts (by decide)).mpr ?_
  have hfirst := @setValue_of_answer twoPropsMem 0 0 0 [] twoProps twoProps_wellFormed
    twoProps_holds ⟨1, .int, 0, 0, 0, by decide⟩ 32 (.leaf (intLeaf 5)) rfl
  have hsecond := @setValue_of_answer twoPropsMem 0 0 0 [] twoProps twoProps_wellFormed
    twoProps_holds ⟨2, .int, 1, 0, 0, by decide⟩ 64 (.leaf (intLeaf 6)) rfl
  simp only [askInts, InStep, hfirst, hsecond]
  exact ⟨rfl, rfl, trivial⟩

/-- The first key is not a long, and the second is not collected. -/
theorem not_contentsQuery_collects : (askLong.flatMap dests).Nodup ∧
    (⟨2, .int, 1, 0, 0, by decide⟩ : QueryRequest).answer 16 twoProps = some (64, .leaf (intLeaf 6)) ∧
    ¬ ∃ res, contentsQuery twoPropsMem 0 16 (queryArgs askLong) = some res ∧
      Collects twoPropsMem 16 twoProps askLong res := by
  refine ⟨by decide, rfl, ?_⟩
  rintro ⟨res, hres, -⟩
  have hfirst := @setValue_of_answer twoPropsMem 0 0 0 [] twoProps twoProps_wellFormed
    twoProps_holds ⟨1, .int, 0, 0, 0, by decide⟩ 32 (.leaf (intLeaf 5)) rfl
  have hnone : query twoPropsMem (contentsFindProp twoPropsMem 0 16) askLong = none :=
    query_cons_mistyped hfirst (by decide)
  rw [query] at hnone
  rw [contentsQuery, hnone] at hres
  cases hres

end TwoProps

end QueryRequest
end Pinos
