import Pinos.Server.BlockLayout
import Pinos.Spa.QueryRequests

/-
The metadata that allocation parameters enable, as `find_meta_enable` and `alloc_buffers` of
`server/link.c` find it.

`alloc_buffers` reads two variables into which a query may have stored nothing.  What such a
variable holds is a parameter here.
-/

namespace Pinos
namespace AllocBuffers

open ByteMem
open PortBuffers (BufferTypes)

/-- The ids of `MetaEnable` and of the keys `type` and `size` in the type map. -/
structure MetaKeys where
  metaEnable : UInt32
  type : UInt32
  size : UInt32

/-- `sizeof (SpaAllocParam)`. -/
def sizeofSpaAllocParam : Nat := 16

/-- `spa_alloc_param_query`. -/
def allocParamQuery (m : Mem) (param : Nat) (args : List QueryArg) : Option QueryResult :=
  contentsQuery m param sizeofSpaAllocParam args

/-- What a query has left in a variable, if anything. -/
def stored (res : QueryResult) (dest : Nat) : Option UInt32 :=
  (res.stores.filter fun s => s.dest = dest).getLast?.map fun s => .ofNat (ofLE s.bytes)

/-- `spa_pod_is_object_type`. -/
def isObjectType (m : Mem) (pod : Nat) (type : UInt32) : Bool :=
  podType m pod = SpaPODType.object.code && m.u32 (pod + 12) = type.toNat

/-! ## The decision -/

/-- The type of the metadata that a parameter enables; no result at all when the arguments of the
query are read wrongly. -/
def queriedType (m : Mem) (keys : MetaKeys) (param : Nat) : Option (Option UInt32) :=
  if isObjectType m param keys.metaEnable then
    (allocParamQuery m param
      [.word keys.type, .word QueryType.id.code, .ptr 0, .word 0]).map fun res =>
        if res.count = 1 then stored res 0 else none
  else some none

/-- `find_meta_enable`. -/
def findMetaEnable (m : Mem) (keys : MetaKeys) (type : UInt32) : List Nat → Option (Option Nat)
  | [] => some none
  | param :: rest =>
    match queriedType m keys param with
    | none => none
    | some qtype => if qtype = some type then some (some param) else findMetaEnable m keys type rest

/-- The size that is set in a parameter. -/
def queriedSize (m : Mem) (keys : MetaKeys) (param : Nat) : Option UInt32 :=
  (allocParamQuery m param
    [.word keys.size, .word QueryType.int.code, .ptr 0, .word 0]).bind fun res =>
      if res.count = 1 then stored res 0 else none

/-- The metadata of a parameter that enables a type and has a size. -/
def enabledMeta (m : Mem) (keys : MetaKeys) (param : Nat) : Option Native.SpaMeta :=
  match queriedType m keys param with
  | some (some type) => (queriedSize m keys param).map fun size => ⟨type, size⟩
  | _ => none

/-- Where the type is found enabled with a size, its metadata is among that of the parameters. -/
theorem enabled_of_findMetaEnable {m : Mem} {keys : MetaKeys} {type size : UInt32}
    {params : List Nat} {param : Nat} (h : findMetaEnable m keys type params = some (some param))
    (hsize : queriedSize m keys param = some size) :
    ⟨type, size⟩ ∈ params.filterMap (enabledMeta m keys) := by
  induction params with
  | nil => cases h
  | cons p rest ih =>
    rw [findMetaEnable] at h
    split at h
    · cases h
    · rename_i qtype hqtype
      split at h
      · rename_i hfound
        cases h
        subst hfound
        refine List.mem_filterMap.mpr ⟨param, by simp, ?_⟩
        simp [enabledMeta, hqtype, hsize]
      · exact List.mem_filterMap.mpr (by
          obtain ⟨q, hq, hmeta⟩ := List.mem_filterMap.mp (ih h)
          exact ⟨q, by simp [hq], hmeta⟩)

/-! ## The buffers -/

/-- The query for both keys, into the variables `type` and `size`. -/
def bothArgs (keys : MetaKeys) : List QueryArg :=
  [.word keys.type, .word QueryType.id.code, .ptr 0, .word keys.size, .word QueryType.int.code,
    .ptr 1, .word 0]

/-- The loop of `alloc_buffers` over the parameters; `uninit` is what `type` and `size` hold in
each round before the query. -/
def collectMetas (m : Mem) (keys : MetaKeys) (uninit : Nat → UInt32 × UInt32) :
    Nat → List Nat → Option (List Native.SpaMeta)
  | _, [] => some []
  | i, param :: rest =>
    if podType m param = keys.metaEnable.toNat then
      match allocParamQuery m param (bothArgs keys) with
      | none => none
      | some res =>
        if res.count ≠ 1 then collectMetas m keys uninit (i + 1) rest
        else (collectMetas m keys uninit (i + 1) rest).map fun metas =>
          ⟨(stored res 0).getD (uninit i).1, (stored res 1).getD (uninit i).2⟩ :: metas
    else collectMetas m keys uninit (i + 1) rest

/-- `alloc_buffers`. -/
def allocBuffers (m : Mem) (keys : MetaKeys) (types : BufferTypes) (fd : Int)
    (uninit : Nat → UInt32 × UInt32) (n : UInt32) (params : List Nat) (dataSizes : List UInt64) :
    Option (List AllocatedBuffer) :=
  (collectMetas m keys uninit 0 params).map fun metas =>
    let shape : BufferShape :=
      ⟨⟨types.metaShared, PortBuffers.sizeofMetaShared⟩ :: metas, dataSizes⟩
    (List.range n.toNat).map (shape.buffer types fd)

/-- The metadata entries of a buffer. -/
def AllocatedBuffer.entries (b : AllocatedBuffer) : List (UInt32 × UInt32) :=
  b.metas.map fun m => (m.type, m.size)

theorem entries_buffer (shape : BufferShape) (types : BufferTypes) (fd : Int) (i : Nat) :
    (shape.buffer types fd i).entries = shape.metas.map fun m => (m.type, m.size) := by
  have hplaced (p : Nat) (ms : List Native.SpaMeta) :
      (PortBuffers.placeMetas p ms).map (fun m => (m.type, m.size)) =
        ms.map fun m => (m.type, m.size) := by
    induction ms generalizing p with
    | nil => rfl
    | cons m ms ih => simp [PortBuffers.placeMetas, ih]
  exact hplaced _ _

/-! ## What a query stores -/

section Query

variable {m : Mem} {findProp : UInt32 → Option Nat} {key next : UInt32} {args : List QueryArg}

/-- A key that is asked for as an id or as an int. -/
theorem queryv_word_type (hne : key ≠ 0) {t : QueryType} (ht : t = .id ∨ t = .int) (dest : Nat) :
    queryv m findProp key (.word t.code :: .ptr dest :: .word next :: args) =
      match setValue m findProp key with
      | some value =>
        if t.accepts (podType m value) then
          (queryv m findProp next args).map fun res =>
            ⟨1 + res.count, ⟨dest, m.read (value + 8) 4⟩ :: res.stores⟩
        else none
      | none => queryv m findProp next args := by
  have htargets : (⟨key, t, dest, 0, 0, hne⟩ : QueryRequest).targets = [.ptr dest] := by
    rcases ht with rfl | rfl <;> rfl
  have hreads (value : Nat) : (⟨key, t, dest, 0, 0, hne⟩ : QueryRequest).reads m value =
      [⟨dest, m.read (value + 8) 4⟩] := by
    rcases ht with rfl | rfl <;> rfl
  have hskip : collectSkip t.code (.ptr dest :: .word next :: args) =
      some (.word next :: args) := by
    rcases ht with rfl | rfl <;> rfl
  rw [queryv_word hne, queryKey]
  cases setValue m findProp key with
  | none => simp [hskip, argWord]
  | some value =>
    have hcollect := QueryRequest.collect_targets (m := m) ⟨key, t, dest, 0, 0, hne⟩ value
      (.word next :: args)
    rw [htargets, List.singleton_append] at hcollect
    dsimp only at hcollect ⊢
    rw [hcollect, hreads]
    split
    · simp [argWord]
    · simp [argWord]

/-- The last key stores its value alone. -/
theorem queryv_last {res : QueryResult}
    (h : queryv m findProp key [.word QueryType.int.code, .ptr 1, .word 0] = some res) :
    res = ⟨0, []⟩ ∨ ∃ bytes, res = ⟨1, [⟨1, bytes⟩]⟩ := by
  by_cases hne : key = 0
  · rw [hne, queryv_zero] at h
    exact Or.inl (Option.some.inj h).symm
  rw [queryv_word_type hne (.inr rfl), queryv_zero] at h
  split at h
  · split at h
    · exact Or.inr ⟨_, (Option.some.inj h).symm⟩
    · cases h
  · exact Or.inl (Option.some.inj h).symm

/-- A query for both keys that stores one value leaves the other variable as it was. -/
theorem stored_of_count_one {keys : MetaKeys} {param : Nat} {res : QueryResult}
    (h : allocParamQuery m param (bothArgs keys) = some res) (hone : res.count = 1) :
    stored res 0 = none ∨ stored res 1 = none := by
  have hquery : queryv m (contentsFindProp m param sizeofSpaAllocParam) keys.type
      (.word QueryType.id.code :: .ptr 0 :: .word keys.size ::
        [.word QueryType.int.code, .ptr 1, .word 0]) = some res := h
  by_cases hne : keys.type = 0
  · rw [hne, queryv_zero] at hquery
    cases hquery
    cases hone
  rw [queryv_word_type hne (.inl rfl)] at hquery
  split at hquery
  · split at hquery
    · obtain ⟨last, hlast, rfl⟩ := Option.map_eq_some_iff.mp hquery
      rcases queryv_last hlast with rfl | ⟨bytes, rfl⟩
      · exact Or.inr rfl
      · cases hone
    · cases hquery
  · rcases queryv_last hquery with rfl | ⟨bytes, rfl⟩
    · cases hone
    · exact Or.inl rfl

end Query

/-! ## Whether the buffers carry what is enabled -/

section Agree

variable {m : Mem} {keys : MetaKeys} {params : List Nat} {uninit : Nat → UInt32 × UInt32}

/-- The query of every parameter that `alloc_buffers` looks at reads its arguments well, with a
number of values that is asked about. -/
def Queries (m : Mem) (keys : MetaKeys) (params : List Nat) (count : Nat → Prop) : Prop :=
  ∀ param ∈ params, podType m param = keys.metaEnable.toNat →
    ∃ res, allocParamQuery m param (bothArgs keys) = some res ∧ count res.count

theorem queries_cons {param : Nat} {rest : List Nat} {count : Nat → Prop} :
    Queries m keys (param :: rest) count ↔
      (podType m param = keys.metaEnable.toNat →
        ∃ res, allocParamQuery m param (bothArgs keys) = some res ∧ count res.count) ∧
      Queries m keys rest count := by
  simp [Queries]

theorem collectMetas_isSome {i : Nat} : (collectMetas m keys uninit i params).isSome ↔
    Queries m keys params fun _ => True := by
  induction params generalizing i with
  | nil => simp [collectMetas, Queries]
  | cons param rest ih =>
    rw [collectMetas, queries_cons, ← ih (i := i + 1)]
    split
    · rename_i htype
      split
      · rename_i hquery
        simp [htype, hquery]
      · rename_i res hquery
        split <;> simp [hquery]
    · rename_i htype
      simp [htype]

/-- Nothing is collected when no query stores one of two values. -/
theorem collectMetas_eq_nil (h : Queries m keys params (· ≠ 1)) {i : Nat} :
    collectMetas m keys uninit i params = some [] := by
  induction params generalizing i with
  | nil => rfl
  | cons param rest ih =>
    rw [queries_cons] at h
    rw [collectMetas]
    split
    · rename_i htype
      obtain ⟨res, hquery, hcount⟩ := h.1 htype
      simp only [hquery, if_pos hcount]
      exact ih h.2
    · exact ih h.2

/-- What is collected otherwise depends on what the variables held. -/
theorem collectMetas_varies (h : Queries m keys params fun _ => True)
    (hone : ¬ Queries m keys params (· ≠ 1)) {i : Nat} {metas metas' : List Native.SpaMeta}
    (hmetas : collectMetas m keys (fun _ => (0, 0)) i params = some metas)
    (hmetas' : collectMetas m keys (fun _ => (1, 1)) i params = some metas') :
    metas ≠ metas' := by
  induction params generalizing i metas metas' with
  | nil => exact absurd (fun _ hp => absurd hp List.not_mem_nil) hone
  | cons param rest ih =>
    rw [queries_cons] at h hone
    rw [collectMetas] at hmetas hmetas'
    by_cases htype : podType m param = keys.metaEnable.toNat
    · obtain ⟨res, hquery, -⟩ := h.1 htype
      simp only [if_pos htype, hquery] at hmetas hmetas'
      by_cases hcount : res.count = 1
      · rw [if_neg (not_not_intro hcount)] at hmetas hmetas'
        obtain ⟨rest₁, -, rfl⟩ := Option.map_eq_some_iff.mp hmetas
        obtain ⟨rest₂, -, rfl⟩ := Option.map_eq_some_iff.mp hmetas'
        intro hsame
        have hhead := (List.cons.inj hsame).1
        rw [Native.SpaMeta.mk.injEq] at hhead
        rcases stored_of_count_one hquery hcount with hnone | hnone
        · rw [hnone] at hhead
          exact absurd hhead.1 (by decide)
        · rw [hnone] at hhead
          exact absurd hhead.2 (by decide)
      · rw [if_pos hcount] at hmetas hmetas'
        exact ih h.2 (fun hrest => hone ⟨fun _ => ⟨res, hquery, hcount⟩, hrest⟩) hmetas hmetas'
    · rw [if_neg htype] at hmetas hmetas'
      exact ih h.2 (fun hrest => hone ⟨fun h => absurd h htype, hrest⟩) hmetas hmetas'

/-- Besides the shared metadata the buffers carry what is enabled with a size, whatever the
variables hold, exactly when nothing is enabled with a size and no query of `alloc_buffers` stores
one of its two values. -/
theorem buffers_carry_enabled_iff (m : Mem) (keys : MetaKeys) (types : BufferTypes) (fd : Int)
    (n : UInt32) (params : List Nat) (dataSizes : List UInt64) :
    (∀ uninit, ∃ buffers, allocBuffers m keys types fd uninit n params dataSizes = some buffers ∧
      ∀ b ∈ buffers, b.entries = (types.metaShared, PortBuffers.sizeofMetaShared) ::
        (params.filterMap (enabledMeta m keys)).map fun m => (m.type, m.size)) ↔
      Queries m keys params (fun count => n = 0 ∨ count ≠ 1) ∧
        (n = 0 ∨ params.filterMap (enabledMeta m keys) = []) := by
  have hentries (metas : List Native.SpaMeta) :
      (∀ b ∈ (List.range n.toNat).map (BufferShape.buffer
          ⟨⟨types.metaShared, PortBuffers.sizeofMetaShared⟩ :: metas, dataSizes⟩ types fd),
        b.entries = (types.metaShared, PortBuffers.sizeofMetaShared) ::
          (params.filterMap (enabledMeta m keys)).map fun m => (m.type, m.size)) ↔
      n = 0 ∨ metas = params.filterMap (enabledMeta m keys) := by
    have hinj : Function.Injective fun m : Native.SpaMeta => (m.type, m.size) := by
      rintro ⟨type, size⟩ ⟨type', size'⟩ h
      obtain ⟨rfl, rfl⟩ := Prod.mk.inj h
      rfl
    simp only [List.forall_mem_map, entries_buffer, List.map_cons, List.cons.injEq, true_and,
      (List.map_injective_iff.mpr hinj).eq_iff]
    by_cases hn : n = 0
    · subst hn
      simp
    · have hpos : 0 < n.toNat := Nat.pos_of_ne_zero fun h => hn (UInt32.toNat_inj.mp h)
      simp only [hn, false_or]
      exact ⟨fun h => h 0 (List.mem_range.mpr hpos), fun h _ _ => h⟩
  have hleft (uninit : Nat → UInt32 × UInt32) :
      (∃ buffers, allocBuffers m keys types fd uninit n params dataSizes = some buffers ∧
        ∀ b ∈ buffers, b.entries = (types.metaShared, PortBuffers.sizeofMetaShared) ::
          (params.filterMap (enabledMeta m keys)).map fun m => (m.type, m.size)) ↔
      ∃ metas, collectMetas m keys uninit 0 params = some metas ∧
        (n = 0 ∨ metas = params.filterMap (enabledMeta m keys)) := by
    rw [allocBuffers]
    cases collectMetas m keys uninit 0 params with
    | none => simp
    | some metas => simpa using hentries metas
  simp only [hleft]
  constructor
  · intro h
    have hdefined : Queries m keys params fun _ => True := by
      obtain ⟨metas, hmetas, -⟩ := h fun _ => (0, 0)
      exact (collectMetas_isSome (i := 0)).mp (by rw [hmetas]; rfl)
    by_cases hn : n = 0
    · refine ⟨fun param hparam htype => ?_, .inl hn⟩
      obtain ⟨res, hquery, -⟩ := hdefined param hparam htype
      exact ⟨res, hquery, .inl hn⟩
    obtain ⟨metas, hmetas, henabled⟩ := h fun _ => (0, 0)
    obtain ⟨metas', hmetas', henabled'⟩ := h fun _ => (1, 1)
    have hsame : metas = metas' :=
      (henabled.resolve_left hn).trans (henabled'.resolve_left hn).symm
    have hone : Queries m keys params (· ≠ 1) := by
      by_contra hone
      exact collectMetas_varies hdefined hone hmetas hmetas' hsame
    rw [collectMetas_eq_nil hone] at hmetas
    cases hmetas
    refine ⟨fun param hparam htype => ?_, .inr (henabled.resolve_left hn).symm⟩
    obtain ⟨res, hquery, hcount⟩ := hone param hparam htype
    exact ⟨res, hquery, .inr hcount⟩
  · rintro ⟨hqueries, hnone⟩ uninit
    by_cases hn : n = 0
    · have hdefined : Queries m keys params fun _ => True := fun param hparam htype => by
        obtain ⟨res, hquery, -⟩ := hqueries param hparam htype
        exact ⟨res, hquery, trivial⟩
      obtain ⟨metas, hmetas⟩ := Option.isSome_iff_exists.mp
        ((@collectMetas_isSome m keys params uninit 0).mpr hdefined)
      exact ⟨metas, hmetas, .inl hn⟩
    · have hone : Queries m keys params (· ≠ 1) := fun param hparam htype => by
        obtain ⟨res, hquery, hcount⟩ := hqueries param hparam htype
        exact ⟨res, hquery, hcount.resolve_left hn⟩
      exact ⟨[], collectMetas_eq_nil hone, .inr (hnone.resolve_left hn).symm⟩

end Agree

/-! ## A parameter that enables a type -/

section Enabling

open QueryRequest (intLeaf)

theorem id_isLeaf : SpaPODType.id.isLeaf = true := rfl

theorem idLeaf_sized (n : Nat) (k : Nat) (h : SpaPODType.id.bodySize? = some k) :
    (toLE 4 n).length = k := by
  cases h
  exact length_toLE 4 n

def idLeaf (n : Nat) : Leaf :=
  ⟨.id, toLE 4 n, id_isLeaf, idLeaf_sized n⟩

/-- The type 9, with 64 bytes. -/
def enablingProps : List Pod :=
  [.prop 1 0 (.leaf (idLeaf 9)) [], .prop 2 0 (.leaf (intLeaf 64)) []]

def enablingMem : Mem := Mem.write (fun _ => 0) 0 (Pod.object 0 7 enablingProps).encode

def enablingKeys : MetaKeys := ⟨7, 1, 2⟩

theorem enabling_wellFormed : (Pod.object 0 7 enablingProps).WellFormed := by
  refine .object 0 7 enablingProps (fun p hp => ?_) (by decide)
  simp only [enablingProps, List.mem_cons, List.not_mem_nil, or_false] at hp
  rcases hp with rfl | rfl
  · exact .prop 1 0 _ [] (.leaf _ (by decide)) (by decide) (by simp) (by decide)
  · exact .prop 2 0 _ [] (.leaf _ (by decide)) (by decide) (by simp) (by decide)

theorem enabling_holds : enablingMem.Holds 0 (Pod.object 0 7 enablingProps).encode :=
  Mem.holds_write _ 0 _

/-- A query for one key that has an answer. -/
theorem enabling_query {key : UInt32} (hne : key ≠ 0) {t : QueryType} (ht : t = .id ∨ t = .int)
    {at_ : Nat} {value : Pod}
    (h : (⟨key, t, 0, 0, 0, hne⟩ : QueryRequest).answer 16 enablingProps = some (at_, value))
    (htype : t.accepts (podType enablingMem at_)) :
    allocParamQuery enablingMem 0 [.word key, .word t.code, .ptr 0, .word 0] =
      some ⟨1, [⟨0, enablingMem.read (at_ + 8) 4⟩]⟩ := by
  have hset : setValue enablingMem (contentsFindProp enablingMem 0 sizeofSpaAllocParam) key =
      some at_ :=
    @QueryRequest.setValue_of_answer enablingMem 0 0 7 [] enablingProps enabling_wellFormed
      enabling_holds ⟨key, t, 0, 0, 0, hne⟩ at_ value h
  show queryv enablingMem _ key [.word t.code, .ptr 0, .word 0] = _
  rw [queryv_word_type hne ht, hset, queryv_zero]
  simp [htype]

theorem queriedType_enabling : queriedType enablingMem enablingKeys 0 = some (some 9) := by
  have hobject : isObjectType enablingMem 0 enablingKeys.metaEnable = true := by
    decide
  have hquery := @enabling_query 1 (by decide) .id (.inl rfl) 32 (.leaf (idLeaf 9)) rfl (by decide)
  rw [queriedType, if_pos hobject]
  show (allocParamQuery enablingMem 0 [.word 1, .word QueryType.id.code, .ptr 0, .word 0]).map _ = _
  rw [hquery]
  decide

theorem queriedSize_enabling : queriedSize enablingMem enablingKeys 0 = some 64 := by
  have hquery := @enabling_query 2 (by decide) .int (.inr rfl) 64 (.leaf (intLeaf 64)) rfl
    (by decide)
  rw [queriedSize]
  show (allocParamQuery enablingMem 0 [.word 2, .word QueryType.int.code, .ptr 0, .word 0]).bind _ =
    _
  rw [hquery]
  decide

/-- The type 9 is found enabled with 64 bytes, and the buffers have the shared metadata alone. -/
theorem not_buffers_carry_enabled :
    findMetaEnable enablingMem enablingKeys 9 [0] = some (some 0) ∧
    queriedSize enablingMem enablingKeys 0 = some 64 ∧
    ∃ b, allocBuffers enablingMem enablingKeys BufferShape.exampleTypes 3 (fun _ => (0, 0)) 1 [0] [] =
        some [b] ∧ b.entries = [(0, PortBuffers.sizeofMetaShared)] := by
  have hother : ¬ podType enablingMem 0 = enablingKeys.metaEnable.toNat := by
    decide
  refine ⟨?_, queriedSize_enabling, ?_⟩
  · rw [findMetaEnable, queriedType_enabling]
    rfl
  · have hmetas : collectMetas enablingMem enablingKeys (fun _ => (0, 0)) 0 [0] =
        some [] := by
      rw [collectMetas, if_neg hother]
      rfl
    refine ⟨_, by rw [allocBuffers, hmetas]; rfl, ?_⟩
    rw [entries_buffer]
    rfl

end Enabling

end AllocBuffers
end Pinos
