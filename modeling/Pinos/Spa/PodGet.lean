import Pinos.Spa.PodAdd
import Pinos.Spa.PodIter

/-
`spa_pod_iter_get` of `spa/pod-iter.h`: reading the values of a struct in order.

A function that calls it is given as a `Get`: what it asks for, and how it goes on
with what it is given.  `run` executes a `Get` on the memory of an iterator, and
`read` on the values that were written there; `run_eq_read` says that the two agree.
-/

namespace Pinos

open ByteMem

/-- A pod that is an object: a format, properties, an event or a command. -/
structure SpaPODObject where
  body : List UInt8
  small : 8 + body.length < 2 ^ 32

def SpaPODObject.blob (o : SpaPODObject) : PodBlob := ⟨.object, o.body, o.small⟩

theorem CString.takeWhile_noNul (bs : List UInt8) : (0 : UInt8) ∉ bs.takeWhile (· != 0) := by
  induction bs with
  | nil => exact List.not_mem_nil
  | cons b bs ih =>
    by_cases hb : b = 0
    · simp [hb]
    · rw [List.takeWhile_cons, if_pos (by simpa using hb), List.mem_cons]
      rintro (h | h)
      · exact hb h.symm
      · exact ih h

/-- The C string in the `n` bytes at `p`. -/
def CString.read (m : Mem) (p n : Nat) : CString :=
  ⟨(m.read p n).takeWhile (· != 0), takeWhile_noNul _⟩

/-- An array and its length, which is a `uint32_t`. -/
structure Counted (α : Type) where
  items : List α
  small : items.length < 2 ^ 32
  deriving DecidableEq

namespace Counted

variable {α β : Type}

def nil : Counted α := ⟨[], Nat.two_pow_pos 32⟩

def count (xs : Counted α) : UInt32 := .ofNat xs.items.length

def map (f : α → β) (xs : Counted α) : Counted β :=
  ⟨xs.items.map f, by rw [List.length_map]; exact xs.small⟩

theorem toNat_count (xs : Counted α) : xs.count.toNat = xs.items.length := by
  rw [count, UInt32.toNat_ofNat']
  exact Nat.mod_eq_of_lt xs.small

end Counted

/-- The type and the body of a value that `spa_pod_iter_get` can ask for. -/
def PodCall.field : PodCall → Option (SpaPODType × List UInt8)
  | .int val => some (.int, toLE 4 val.toNat)
  | .id val => some (.id, toLE 4 val.toNat)
  | .long val => some (.long, toLE 4 val.toNat)
  | .string str => some (.string, (str.getD .empty).bytes)
  | .bytes data => some (.bytes, data)
  | .pod none => some (.none, [])
  | .pod (some blob) => if blob.type = .object then some (.object, blob.body) else none
  | _ => none

/-- Each constructor but the first two is a type that `spa_pod_iter_get` is asked for. -/
inductive Get (α : Type) where
  | done (result : α)
  /-- `return false;` -/
  | fail
  | int (k : UInt32 → Get α)
  | id (k : UInt32 → Get α)
  | long (k : UInt64 → Get α)
  | string (k : CString → Get α)
  | bytes (k : List UInt8 → Get α)
  | object (k : SpaPODObject → Get α)
  /-- `-SPA_POD_TYPE_OBJECT` -/
  | objectOrNull (k : Option SpaPODObject → Get α)
  /-- `-SPA_POD_TYPE_STRUCT` and, when that is not NULL, `spa_pod_iter_pod` on it, from
  where the next values are read. -/
  | structOrNull (k : Bool → Get α)

namespace Get

variable {α β : Type}

def bind (f : α → Get β) : Get α → Get β
  | done a => f a
  | fail => fail
  | int k => int fun val => bind f (k val)
  | id k => id fun val => bind f (k val)
  | long k => long fun val => bind f (k val)
  | string k => string fun str => bind f (k str)
  | bytes k => bytes fun data => bind f (k data)
  | object k => object fun pod => bind f (k pod)
  | objectOrNull k => objectOrNull fun pod => bind f (k pod)
  | structOrNull k => structOrNull fun found => bind f (k found)

instance : Monad Get where
  pure := done
  bind g f := bind f g

def getInt : Get UInt32 := int done

def getId : Get UInt32 := id done

def getLong : Get UInt64 := long done

def getString : Get (Option CString) := string fun str => done (some str)

def getBytes : Get (List UInt8) := bytes done

def getObject : Get (Option SpaPODObject) := object fun pod => done (some pod)

def getObjectOrNull : Get (Option SpaPODObject) := objectOrNull done

def getStructOrNull : Get Bool := structOrNull done

/-- A loop that reads `n` times the same. -/
def getList (get : Get α) : Nat → Get (List α)
  | 0 => pure []
  | n + 1 => do
    let x ← get
    let rest ← getList get n
    pure (x :: rest)

/-- A length and as many elements. -/
def getArray (get : Get α) : Get (Counted α) := do
  let n ← getInt
  let items ← getList get n.toNat
  if h : items.length < 2 ^ 32 then pure ⟨items, h⟩ else fail

/-- Whether a value is asked for. -/
def asks : Get α → Bool
  | done _ | fail => false
  | _ => true

/-! ## On memory -/

/-- The next pod, when there is one and `SPA_POD_COLLECT` finds its type to be `type`. -/
def nextOf (m : Mem) (it : SpaPODIter) (type : SpaPODType) : Option (Nat × SpaPODIter) :=
  if it.hasNext m then
    if podType m (it.next m).1 = type.code then some (it.next m) else none
  else none

/-- The object at `pod`. -/
def objectAt (m : Mem) (pod : Nat) : Option SpaPODObject :=
  let body := m.read (pod + 8) (podBodySize m pod)
  if h : 8 + body.length < 2 ^ 32 then some ⟨body, h⟩ else none

/-- `spa_pod_iter_get` and what comes after it; there is no result when a call fails. -/
def run (m : Mem) : Get α → SpaPODIter → Option α
  | done a, _ => some a
  | fail, _ => none
  | int k, it =>
    match nextOf m it .int with
    | none => none
    | some (pod, it) => run m (k (.ofNat (m.u32 (pod + 8)))) it
  | id k, it =>
    match nextOf m it .id with
    | none => none
    | some (pod, it) => run m (k (.ofNat (m.u32 (pod + 8)))) it
  | long k, it =>
    match nextOf m it .long with
    | none => none
    | some (pod, it) => run m (k (.ofNat (m.u64 (pod + 8)))) it
  | string k, it =>
    match nextOf m it .string with
    | none => none
    | some (pod, it) => run m (k (.read m (pod + 8) (podBodySize m pod))) it
  | bytes k, it =>
    match nextOf m it .bytes with
    | none => none
    | some (pod, it) => run m (k (m.read (pod + 8) (podBodySize m pod))) it
  | object k, it =>
    match nextOf m it .object with
    | none => none
    | some (pod, it) =>
      match objectAt m pod with
      | none => none
      | some o => run m (k o) it
  | objectOrNull k, it =>
    match nextOf m it .none with
    | some (_, it) => run m (k none) it
    | none =>
      match nextOf m it .object with
      | none => none
      | some (pod, it) =>
        match objectAt m pod with
        | none => none
        | some o => run m (k (some o)) it
  | structOrNull k, it =>
    match nextOf m it .none with
    | some (_, it) => run m (k false) it
    | none =>
      match nextOf m it .struct with
      | none => none
      | some (pod, _) => run m (k true) (SpaPODIter.pod m pod).1

/-! ## On values -/

/-- What a `Get` makes of values that were written, and those it leaves.  Of a long
only the lower half was written. -/
def read : Get α → List PodCall → Option (α × List PodCall)
  | done a, values => some (a, values)
  | int k, .int val :: values => read (k val) values
  | id k, .id val :: values => read (k val) values
  | long k, .long val :: values => read (k val.toUInt32.toUInt64) values
  | string k, .string str :: values => read (k (str.getD .empty)) values
  | bytes k, .bytes data :: values => read (k data) values
  | object k, .pod (some blob) :: values =>
    if blob.type = .object then read (k ⟨blob.body, blob.small⟩) values else none
  | objectOrNull k, .pod none :: values => read (k none) values
  | objectOrNull k, .pod (some blob) :: values =>
    if blob.type = .object then read (k (some ⟨blob.body, blob.small⟩)) values else none
  | structOrNull k, .pod none :: values => read (k false) values
  | structOrNull k, .pushStruct :: values => read (k true) values
  | _, _ => none

/-- What is read first and then what is read of the rest. -/
theorem read_bind (g : Get α) (f : α → Get β) (values : List PodCall) :
    (g >>= f).read values = (g.read values).bind fun r => (f r.1).read r.2 := by
  show (bind f g).read values = _
  induction g generalizing values with
  | done a => rfl
  | fail => rfl
  | int k ih | id k ih | long k ih | string k ih | bytes k ih =>
    rw [bind]
    cases values with
    | nil => rfl
    | cons c values => cases c <;> first | rfl | exact ih _ _
  | object k ih =>
    rw [bind]
    cases values with
    | nil => rfl
    | cons c values =>
      cases c with
      | pod pod =>
        cases pod with
        | none => rfl
        | some blob =>
          rw [read, read]
          split
          · exact ih _ _
          · rfl
      | _ => rfl
  | objectOrNull k ih =>
    rw [bind]
    cases values with
    | nil => rfl
    | cons c values =>
      cases c with
      | pod pod =>
        cases pod with
        | none => exact ih _ _
        | some blob =>
          rw [read, read]
          split
          · exact ih _ _
          · rfl
      | _ => rfl
  | structOrNull k ih =>
    rw [bind]
    cases values with
    | nil => rfl
    | cons c values =>
      cases c with
      | pod pod =>
        cases pod with
        | none => exact ih _ _
        | some blob => rfl
      | pushStruct => exact ih _ _
      | _ => rfl

/-! ## The two agree -/

/-- Where an iterator stands: the values that follow it were written as `calls` says.
Of a struct only its own values matter, since nobody comes back to those behind it. -/
inductive At (m : Mem) : SpaPODIter → List PodCall → Prop
  | stop {it : SpaPODIter} {calls : List PodCall} : it.offset = it.size →
      it.size + 8 < 2 ^ 32 → (∀ c ∈ calls.head?, c = .pop) → At m it calls
  | value {it : SpaPODIter} {c : PodCall} {calls : List PodCall} {type : SpaPODType}
      {body : List UInt8} : c.field = some (type, body) →
      m.Holds (it.data + it.offset) (Pod.aligned (Pod.withHeader type body)) →
      it.offset + (Pod.aligned (Pod.withHeader type body)).length ≤ it.size →
      it.size + 8 < 2 ^ 32 →
      At m { it with offset := it.offset + (Pod.aligned (Pod.withHeader type body)).length }
        calls → At m it (c :: calls)
  | struct {it : SpaPODIter} {calls : List PodCall} {body : List UInt8} :
      m.Holds (it.data + it.offset) (Pod.aligned (Pod.withHeader .struct body)) →
      it.offset + (Pod.aligned (Pod.withHeader .struct body)).length ≤ it.size →
      it.size + 8 < 2 ^ 32 →
      At m (.contents (it.data + it.offset + 8) body.length) calls → At m it (.pushStruct :: calls)

variable {m : Mem} {it : SpaPODIter}

theorem nextOf_end (hend : it.offset = it.size) (hlt : it.size + 8 < 2 ^ 32) (t : SpaPODType) :
    nextOf m it t = none := by
  rw [nextOf, SpaPODIter.hasNext_end hend hlt, if_neg Bool.false_ne_true]

theorem nextOf_holds {type : SpaPODType} {body : List UInt8}
    (h : m.Holds (it.data + it.offset) (Pod.aligned (Pod.withHeader type body)))
    (hfit : it.offset + (Pod.aligned (Pod.withHeader type body)).length ≤ it.size)
    (hlt : it.size + 8 < 2 ^ 32) (t : SpaPODType) :
    nextOf m it t = if t = type then some (it.data + it.offset,
      { it with offset := it.offset + (Pod.aligned (Pod.withHeader type body)).length })
      else none := by
  obtain ⟨hmore, hnext⟩ := SpaPODIter.next_holds h hfit hlt
  obtain ⟨-, htype, -⟩ := SpaPODIter.holds_aligned h (by omega)
  rw [nextOf, if_pos hmore, hnext, htype]
  by_cases ht : t = type
  · rw [if_pos ht, if_pos (congrArg _ ht.symm)]
  · rw [if_neg ht, if_neg fun heq => ht (SpaPODType.code_inj heq).symm]

theorem objectAt_holds {o : SpaPODObject} {pod : Nat} (hsize : podBodySize m pod = o.body.length)
    (h : m.Holds (pod + 8) o.body) : objectAt m pod = some o := by
  have hread : m.read (pod + 8) o.body.length = o.body := h
  rw [objectAt, hsize, hread]
  exact dif_pos o.small

theorem read_string {str : CString} {p : Nat} (h : m.Holds p str.bytes) :
    CString.read m p str.bytes.length = str := by
  have hread : m.read p str.bytes.length = str.bytes := h
  have hchars : str.bytes.takeWhile (· != 0) = str.chars := by
    rw [CString.bytes, List.takeWhile_append_of_pos]
    · simp
    · intro b hb
      have : b ≠ 0 := fun heq => str.noNul (heq ▸ hb)
      simpa using this
  obtain ⟨chars, noNul⟩ := str
  rw [CString.read, CString.mk.injEq, hread]
  exact hchars

theorem u32_value {p : Nat} {val : UInt32} (h : m.Holds p (toLE 4 val.toNat)) :
    UInt32.ofNat (m.u32 p) = val := by
  rw [h.u32, Nat.mod_eq_of_lt val.toNat_lt]
  exact UInt32.ofNat_toNat

/-- A long is read with the padding behind its lower half. -/
theorem u64_value {p : Nat} {val : UInt64}
    (h : m.Holds p (Pod.aligned (Pod.withHeader .long (toLE 4 val.toNat)))) :
    UInt64.ofNat (m.u64 (p + 8)) = val.toUInt32.toUInt64 := by
  have hbytes : Pod.aligned (Pod.withHeader .long (toLE 4 val.toNat)) =
      SpaPOD.bytes ⟨4, .long⟩ ++ toLE 8 (val.toNat % 256 ^ 4) := by
    rw [SpaPODBuilder.aligned_withHeader, show 8 = 4 + 4 from rfl, toLE_add, toLE_mod 4,
      Nat.div_eq_of_lt (Nat.mod_lt _ (by decide)), length_toLE, Pod.aligned, length_toLE]
    rfl
  rw [hbytes] at h
  have hval := h.right.u64
  rw [SpaPOD.length_bytes] at hval
  apply UInt64.toNat_inj.mp
  rw [UInt64.toNat_ofNat', hval, UInt32.toNat_toUInt64, UInt64.toNat_toUInt32]
  show val.toNat % 2 ^ 32 % 2 ^ 64 % 2 ^ 64 = val.toNat % 2 ^ 32
  omega

theorem field_blob {blob : PodBlob} {type : SpaPODType} {body : List UInt8}
    (h : (PodCall.pod (some blob)).field = some (type, body)) :
    blob.type = .object ∧ type = .object ∧ body = blob.body := by
  rw [PodCall.field] at h
  split at h
  · next ht =>
    cases h
    exact ⟨ht, rfl, rfl⟩
  · cases h

/-- Nothing is read at the end of a struct. -/
theorem read_end {g : Get α} {calls : List PodCall} (h : ∀ c ∈ calls.head?, c = .pop)
    (hg : g.asks = true) : g.read calls = none := by
  cases calls with
  | nil => cases g <;> first | rfl | cases hg
  | cons c calls =>
    obtain rfl := h c rfl
    cases g <;> first | rfl | cases hg

/-- The two agree on a `Get`, wherever it is run. -/
def Agree (m : Mem) (g : Get α) : Prop :=
  ∀ {it : SpaPODIter} {calls : List PodCall}, At m it calls →
    g.run m it = (g.read calls).map Prod.fst

/-- A `Get` that asks for one type fails where there is another one, and agrees when it does on
values of that type. -/
theorem agree_of_type {g : Get α} (type : SpaPODType) (take : Nat → SpaPODIter → Option α)
    (hasks : g.asks = true) (hstruct : type ≠ .struct)
    (hrun : ∀ it, g.run m it = (nextOf m it type).bind fun next => take next.1 next.2)
    (hother : ∀ c calls, c.field.map Prod.fst ≠ some type → g.read (c :: calls) = none)
    (hvalue : ∀ (it it' : SpaPODIter) (c : PodCall) (calls : List PodCall) (body : List UInt8),
      c.field = some (type, body) →
      m.Holds (it.data + it.offset) (Pod.aligned (Pod.withHeader type body)) →
      (Pod.aligned (Pod.withHeader type body)).length < 2 ^ 32 →
      At m it' calls → take (it.data + it.offset) it' = (g.read (c :: calls)).map Prod.fst) :
    Agree m g := by
  intro it calls h
  rw [hrun]
  cases h with
  | stop hend hlt hcalls =>
    rw [nextOf_end hend hlt, read_end hcalls hasks]
    rfl
  | struct hholds hfit hlt _ =>
    rw [nextOf_holds hholds hfit hlt, if_neg hstruct,
      hother .pushStruct _ (Option.some_ne_none _).symm]
    rfl
  | @value _ c calls t body hfield hholds hfit hlt hrest =>
    rw [nextOf_holds hholds hfit hlt]
    by_cases ht : type = t
    · subst ht
      rw [if_pos rfl]
      exact hvalue _ _ c calls body hfield hholds (by omega) hrest
    · have hne : c.field.map Prod.fst ≠ some type := by
        rw [hfield]
        exact fun heq => ht (Option.some.inj heq).symm
      rw [if_neg ht, hother c calls hne]
      rfl

theorem agree_int {k : UInt32 → Get α} (ih : ∀ val, Agree m (k val)) :
    Agree m (int k) := by
  refine agree_of_type .int
    (fun pod it => run m (k (.ofNat (m.u32 (pod + 8)))) it) rfl (by decide) ?_ ?_ ?_
  · intro it
    rw [run]
    cases nextOf m it .int <;> rfl
  · intro c calls hne
    cases c <;> first | rfl | exact absurd rfl hne
  · intro it it' c calls body hfield hholds hlen hrest
    cases c with
    | int val =>
      cases hfield
      obtain ⟨-, -, hbody⟩ := SpaPODIter.holds_aligned hholds hlen
      show run m (k (.ofNat (m.u32 _))) _ = _
      rw [u32_value hbody]
      exact ih val hrest
    | pod pod =>
      cases pod with
      | none => cases hfield
      | some blob => cases (field_blob hfield).2.1
    | _ => cases hfield

theorem agree_id {k : UInt32 → Get α} (ih : ∀ val, Agree m (k val)) :
    Agree m (id k) := by
  refine agree_of_type .id
    (fun pod it => run m (k (.ofNat (m.u32 (pod + 8)))) it) rfl (by decide) ?_ ?_ ?_
  · intro it
    rw [run]
    cases nextOf m it .id <;> rfl
  · intro c calls hne
    cases c <;> first | rfl | exact absurd rfl hne
  · intro it it' c calls body hfield hholds hlen hrest
    cases c with
    | id val =>
      cases hfield
      obtain ⟨-, -, hbody⟩ := SpaPODIter.holds_aligned hholds hlen
      show run m (k (.ofNat (m.u32 _))) _ = _
      rw [u32_value hbody]
      exact ih val hrest
    | pod pod =>
      cases pod with
      | none => cases hfield
      | some blob => cases (field_blob hfield).2.1
    | _ => cases hfield

theorem agree_long {k : UInt64 → Get α} (ih : ∀ val, Agree m (k val)) :
    Agree m (long k) := by
  refine agree_of_type .long
    (fun pod it => run m (k (.ofNat (m.u64 (pod + 8)))) it) rfl (by decide) ?_ ?_ ?_
  · intro it
    rw [run]
    cases nextOf m it .long <;> rfl
  · intro c calls hne
    cases c <;> first | rfl | exact absurd rfl hne
  · intro it it' c calls body hfield hholds hlen hrest
    cases c with
    | long val =>
      cases hfield
      show run m (k (.ofNat (m.u64 _))) _ = _
      rw [u64_value hholds]
      exact ih _ hrest
    | pod pod =>
      cases pod with
      | none => cases hfield
      | some blob => cases (field_blob hfield).2.1
    | _ => cases hfield

theorem agree_string {k : CString → Get α} (ih : ∀ str, Agree m (k str)) :
    Agree m (string k) := by
  refine agree_of_type .string
    (fun pod it => run m (k (.read m (pod + 8) (podBodySize m pod))) it) rfl (by decide) ?_ ?_ ?_
  · intro it
    rw [run]
    cases nextOf m it .string <;> rfl
  · intro c calls hne
    cases c <;> first | rfl | exact absurd rfl hne
  · intro it it' c calls body hfield hholds hlen hrest
    cases c with
    | string str =>
      cases hfield
      obtain ⟨hsize, -, hbody⟩ := SpaPODIter.holds_aligned hholds hlen
      show run m (k (.read m _ (podBodySize m _))) _ = _
      rw [hsize, read_string hbody]
      exact ih _ hrest
    | pod pod =>
      cases pod with
      | none => cases hfield
      | some blob => cases (field_blob hfield).2.1
    | _ => cases hfield

theorem agree_bytes {k : List UInt8 → Get α} (ih : ∀ data, Agree m (k data)) :
    Agree m (bytes k) := by
  refine agree_of_type .bytes
    (fun pod it => run m (k (m.read (pod + 8) (podBodySize m pod))) it) rfl (by decide) ?_ ?_ ?_
  · intro it
    rw [run]
    cases nextOf m it .bytes <;> rfl
  · intro c calls hne
    cases c <;> first | rfl | exact absurd rfl hne
  · intro it it' c calls body hfield hholds hlen hrest
    cases c with
    | bytes data =>
      cases hfield
      obtain ⟨hsize, -, hbody⟩ := SpaPODIter.holds_aligned hholds hlen
      have hread : m.read (it.data + it.offset + 8) body.length = body := hbody
      show run m (k (m.read _ (podBodySize m _))) _ = _
      rw [hsize, hread]
      exact ih body hrest
    | pod pod =>
      cases pod with
      | none => cases hfield
      | some blob => cases (field_blob hfield).2.1
    | _ => cases hfield

theorem agree_object {k : SpaPODObject → Get α} (ih : ∀ pod, Agree m (k pod)) :
    Agree m (object k) := by
  refine agree_of_type .object (fun pod it => (objectAt m pod).bind fun o => run m (k o) it) rfl
    (by decide) ?_ ?_ ?_
  · intro it
    rw [run]
    cases nextOf m it .object with
    | none => rfl
    | some next =>
      dsimp only [Option.bind_some]
      cases objectAt m next.1 <;> rfl
  · intro c calls hne
    cases c with
    | pod pod =>
      cases pod with
      | none => rfl
      | some blob =>
        rw [read]
        refine if_neg fun ht => hne ?_
        rw [PodCall.field, if_pos ht]
        rfl
    | _ => rfl
  · intro it it' c calls body hfield hholds hlen hrest
    cases c with
    | pod pod =>
      cases pod with
      | none => cases hfield
      | some blob =>
        obtain ⟨ht, -, rfl⟩ := field_blob hfield
        obtain ⟨hsize, -, hbody⟩ := SpaPODIter.holds_aligned hholds hlen
        have hat : objectAt m (it.data + it.offset) = some ⟨blob.body, blob.small⟩ :=
          objectAt_holds hsize hbody
        rw [read, if_pos ht, hat]
        exact ih _ hrest
    | _ => cases hfield

theorem agree_objectOrNull {k : Option SpaPODObject → Get α} (ih : ∀ pod, Agree m (k pod)) :
    Agree m (objectOrNull k) := by
  intro it calls h
  rw [run]
  cases h with
  | stop hend hlt hcalls =>
    rw [nextOf_end hend hlt, nextOf_end hend hlt, read_end hcalls rfl]
    rfl
  | struct hholds hfit hlt _ =>
    rw [nextOf_holds hholds hfit hlt, nextOf_holds hholds hfit hlt]
    rfl
  | @value _ c _ _ body hfield hholds hfit hlt hrest =>
    rw [nextOf_holds hholds hfit hlt, nextOf_holds hholds hfit hlt]
    cases c with
    | pod pod =>
      cases pod with
      | none =>
        cases hfield
        exact ih none hrest
      | some blob =>
        obtain ⟨ht, rfl, rfl⟩ := field_blob hfield
        obtain ⟨hsize, -, hbody⟩ := SpaPODIter.holds_aligned hholds (by omega)
        have hat : objectAt m (it.data + it.offset) = some ⟨blob.body, blob.small⟩ :=
          objectAt_holds hsize hbody
        rw [if_neg (by decide), if_pos rfl, read, if_pos ht]
        simp only [hat]
        exact ih _ hrest
    | _ => cases hfield <;> rfl

theorem agree_structOrNull {k : Bool → Get α} (ih : ∀ found, Agree m (k found)) :
    Agree m (structOrNull k) := by
  intro it calls h
  rw [run]
  cases h with
  | stop hend hlt hcalls =>
    rw [nextOf_end hend hlt, nextOf_end hend hlt, read_end hcalls rfl]
    rfl
  | struct hholds hfit hlt hinner =>
    rw [nextOf_holds hholds hfit hlt, nextOf_holds hholds hfit hlt]
    obtain ⟨hsize, htype, -⟩ := SpaPODIter.holds_aligned hholds (by omega)
    show run m (k true) (SpaPODIter.pod m (it.data + it.offset)).1 = _
    rw [SpaPODIter.pod_struct htype, SpaPODIter.structContents_eq, hsize]
    exact ih true hinner
  | @value _ c _ _ body hfield hholds hfit hlt hrest =>
    rw [nextOf_holds hholds hfit hlt, nextOf_holds hholds hfit hlt]
    cases c with
    | pod pod =>
      cases pod with
      | none =>
        cases hfield
        exact ih false hrest
      | some blob =>
        obtain ⟨-, rfl, rfl⟩ := field_blob hfield
        rfl
    | _ => cases hfield <;> rfl

/-- A value is found as it was written, and nothing is found for a wrong type. -/
theorem run_eq_read (g : Get α) : Agree m g := by
  induction g with
  | done a => exact fun _ => rfl
  | fail => exact fun _ => rfl
  | int k ih => exact agree_int fun val => ih val
  | id k ih => exact agree_id fun val => ih val
  | long k ih => exact agree_long fun val => ih val
  | string k ih => exact agree_string fun str => ih str
  | bytes k ih => exact agree_bytes fun data => ih data
  | object k ih => exact agree_object fun pod => ih pod
  | objectOrNull k ih => exact agree_objectOrNull fun pod => ih pod
  | structOrNull k ih => exact agree_structOrNull fun found => ih found

end Get
end Pinos
