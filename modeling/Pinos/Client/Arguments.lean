import Pinos.Client.Introspect

/-
The arguments of calls that are more than one value: how the marshal functions of
`client/protocol-native.c` and `server/protocol-native.c` write them, and how their
demarshal functions read them.
-/

namespace Pinos
namespace Native

open Get

variable {α : Type}

/-! ## Writing -/

/-- The values between the start of a struct and its end. -/
def podStruct (values : List PodCall) : List PodCall := .pushStruct :: (values ++ [.pop])

/-- A length and as many elements. -/
def putArray (put : α → List PodCall) (xs : Counted α) : List PodCall :=
  .int xs.count :: xs.items.flatMap put

def putString (str : Option CString) : List PodCall := [.string str]

def putObject (pod : Option SpaPODObject) : List PodCall := [.pod (pod.map SpaPODObject.blob)]

def putItem (item : SpaDictItem) : List PodCall := [.string item.key, .string item.value]

/-- A dictionary that is NULL has no items. -/
def putDict (props : Option SpaDict) : List PodCall := putArray putItem (props.getD .nil)

/-- The same with the number of items in an `int`, which may be negative. -/
def putDictInt (props : Option SpaDict) : List PodCall :=
  let props := props.getD .nil
  .int props.count :: (props.items.take props.count.toInt32.toInt.toNat).flatMap putItem

def putMeta (m : SpaMeta) : List PodCall := [.id m.type, .int m.size]

def putData (d : SpaData) : List PodCall :=
  [.id d.type, .int d.data.toUInt32, .int d.flags, .int d.mapoffset, .int d.maxsize]

def putBuffer (b : PinosClientNodeBuffer) : List PodCall :=
  [.int b.memId, .int b.offset, .int b.size, .int b.buffer.id] ++
    putArray putMeta b.buffer.metas ++ putArray putData b.buffer.datas

/-! ## Reading -/

def getItem : Get SpaDictItem := do
  let key ← getString
  let value ← getString
  pure { key, value }

def getDict : Get SpaDict := getArray getItem

def getStrings : Get (Counted (Option CString)) := getArray getString

def getObjects : Get (Counted (Option SpaPODObject)) := getArray getObject

def getMeta : Get SpaMeta := do
  let type ← getId
  let size ← getInt
  pure { type, size }

def getData : Get SpaData := do
  let type ← getId
  let dataId ← getInt
  let flags ← getInt
  let mapoffset ← getInt
  let maxsize ← getInt
  pure { type, flags, mapoffset, maxsize, data := dataId.toUInt64 }

def getBuffer : Get PinosClientNodeBuffer := do
  let memId ← getInt
  let offset ← getInt
  let size ← getInt
  let id ← getInt
  let metas ← getArray getMeta
  let datas ← getArray getData
  pure { memId, offset, size, buffer := { id, metas, datas } }

/-! ## What is read of what was written -/

/-- A NULL string may arrive as an empty one. -/
def filled (str : Option CString) : Option CString := some (str.getD .empty)

def SpaDictItem.filled (item : SpaDictItem) : SpaDictItem :=
  { key := Native.filled item.key, value := Native.filled item.value }

def filledDict (props : Option SpaDict) : Option SpaDict := props.map (.map .filled)

/-- The dictionary that arrives for one that was sent, also for NULL. -/
def sentDict (props : Option SpaDict) : SpaDict := (props.getD .nil).map .filled

/-- What arrives of a long. -/
def cutLong (val : UInt64) : UInt64 := val.toUInt32.toUInt64

/-- A pointer is sent in an `int`. -/
def SpaData.cut (d : SpaData) : SpaData := { d with data := cutLong d.data }

def SpaBuffer.cut (buf : SpaBuffer) : SpaBuffer := { buf with datas := buf.datas.map SpaData.cut }

def PinosClientNodeBuffer.cut (b : PinosClientNodeBuffer) : PinosClientNodeBuffer :=
  { b with buffer := b.buffer.cut }

variable {α β : Type} (rest : List PodCall)

/-- A value that is read, and what is read of the rest. -/
theorem read_then {g : Get α} {values : List PodCall} {a : α} (h : g.read values = some (a, rest))
    (f : α → Get β) : (g >>= f).read values = (f a).read rest := by
  rw [read_bind, h, Option.bind_some]

theorem read_stop {g : Get α} {values : List PodCall} (h : g.read values = none)
    (f : α → Get β) : (g >>= f).read values = none := by
  rw [read_bind, h, Option.bind_none]

@[simp] theorem read_pure (a : α) : (pure a : Get α).read rest = some (a, rest) := rfl

@[simp] theorem read_fail : (Get.fail : Get α).read rest = none := rfl

/-! One value. -/

section Value

variable (f : UInt32 → Get α) (fstr : Option CString → Get α) (fpod : Option SpaPODObject → Get α)
  (ffound : Bool → Get α)

@[simp ↓] theorem read_getInt (val : UInt32) :
    (getInt >>= f).read (.int val :: rest) = (f val).read rest := rfl

@[simp ↓] theorem read_getId (val : UInt32) :
    (getId >>= f).read (.id val :: rest) = (f val).read rest := rfl

@[simp ↓] theorem read_getLong (f : UInt64 → Get α) (val : UInt64) :
    (getLong >>= f).read (.long val :: rest) = (f (cutLong val)).read rest := rfl

@[simp ↓] theorem read_getString (str : Option CString) :
    (getString >>= fstr).read (.string str :: rest) = (fstr (filled str)).read rest := rfl

@[simp ↓] theorem read_getBytes (f : List UInt8 → Get α) (data : List UInt8) :
    (getBytes >>= f).read (.bytes data :: rest) = (f data).read rest := rfl

@[simp ↓] theorem read_getObjectOrNull (pod : Option SpaPODObject) :
    (getObjectOrNull >>= fpod).read (putObject pod ++ rest) = (fpod pod).read rest := by
  cases pod <;> rfl

@[simp ↓] theorem read_getObject (pod : Option SpaPODObject) :
    (getObject >>= fpod).read (putObject pod ++ rest) =
      pod.bind fun o => (fpod (some o)).read rest := by
  cases pod <;> rfl

@[simp ↓] theorem read_getStructOrNull :
    (getStructOrNull >>= ffound).read (.pushStruct :: rest) = (ffound true).read rest := rfl

@[simp ↓] theorem read_getStructOrNull_null :
    (getStructOrNull >>= ffound).read (.pod none :: rest) = (ffound false).read rest := rfl

end Value

/-! Arrays. -/

/-- A loop over elements that are each read as `f` says. -/
theorem read_getList {get : Get β} {put : α → List PodCall} {f : α → β}
    (hget : ∀ x rest, get.read (put x ++ rest) = some (f x, rest)) (xs : List α) :
    (getList get xs.length).read (xs.flatMap put ++ rest) = some (xs.map f, rest) := by
  induction xs with
  | nil => rfl
  | cons x xs ih =>
    rw [List.flatMap_cons, List.append_assoc, List.length_cons, getList, read_then _ (hget x _),
      read_then _ ih]
    rfl

/-- An array is what its loop reads. -/
theorem read_getArray (get : Get β) (n : UInt32) :
    (getArray get).read (.int n :: rest) = ((getList get n.toNat).read rest).bind fun r =>
      if h : r.1.length < 2 ^ 32 then some (⟨r.1, h⟩, r.2) else none := by
  rw [getArray, read_getInt, read_bind]
  congr 1
  funext r
  split <;> rfl

theorem read_getArray_putArray {get : Get β} {put : α → List PodCall} {f : α → β}
    (hget : ∀ x rest, get.read (put x ++ rest) = some (f x, rest)) (xs : Counted α) :
    (getArray get).read (putArray put xs ++ rest) = some (xs.map f, rest) := by
  rw [putArray, List.cons_append, read_getArray, xs.toNat_count, read_getList rest hget,
    Option.bind_some, dif_pos (by rw [List.length_map]; exact xs.small)]
  rfl

@[simp ↓] theorem read_getStrings (f : Counted (Option CString) → Get α)
    (types : Counted (Option CString)) :
    (getStrings >>= f).read (putArray putString types ++ rest) = (f (types.map filled)).read rest :=
  read_then rest (read_getArray_putArray rest (fun _ _ => rfl) types) f

@[simp ↓] theorem read_getDict (f : SpaDict → Get α) (props : Option SpaDict) :
    (getDict >>= f).read (putDict props ++ rest) = (f (sentDict props)).read rest :=
  read_then rest (read_getArray_putArray rest (fun _ _ => rfl) _) f

/-! Dictionaries with an `int` for the number of items. -/

/-- A dictionary whose length fits an `int`. -/
def CountsInt (props : Option SpaDict) : Prop := (props.getD .nil).items.length < 2 ^ 31

theorem toNat_toInt32 (n : UInt32) :
    n.toInt32.toInt.toNat = if n.toNat < 2 ^ 31 then n.toNat else 0 := by
  have hint : n.toInt32.toInt = if 2 * n.toNat < 2 ^ 32 then (n.toNat : Int) else n.toNat - 2 ^ 32 :=
    BitVec.toInt_eq_toNat_cond n.toBitVec
  have hlt := n.toNat_lt
  rw [hint]
  split <;> split <;> omega

theorem putDictInt_eq {props : Option SpaDict} (h : CountsInt props) :
    putDictInt props = putDict props := by
  have hfits : (props.getD .nil).items.length < 2 ^ 31 := h
  simp only [putDictInt, toNat_toInt32, Counted.toNat_count, if_pos hfits, List.take_length]
  rfl

/-- A number of items that is negative as an `int` is sent without the items. -/
theorem putDictInt_eq_count {props : Option SpaDict} (h : ¬ CountsInt props) :
    putDictInt props = [.int (props.getD .nil).count] := by
  have hmany : ¬ (props.getD .nil).items.length < 2 ^ 31 := h
  simp only [putDictInt, toNat_toInt32, Counted.toNat_count, if_neg hmany, List.take_zero,
    List.flatMap_nil]

@[simp ↓] theorem read_getDict_putDictInt {props : Option SpaDict} (h : CountsInt props)
    (f : SpaDict → Get α) :
    (getDict >>= f).read (putDictInt props ++ rest) = (f (sentDict props)).read rest := by
  rw [putDictInt_eq h, read_getDict]

/-- The loop that reads the items stops at the end of the struct. -/
@[simp ↓] theorem read_getDict_putDictInt_none {props : Option SpaDict} (h : ¬ CountsInt props)
    (f : SpaDict → Get α) : (getDict >>= f).read (putDictInt props ++ .pop :: rest) = none := by
  obtain ⟨n, hn⟩ : ∃ n, (props.getD .nil).items.length = n + 1 :=
    Nat.exists_eq_succ_of_ne_zero fun hzero => h (by rw [CountsInt, hzero]; decide)
  apply read_stop
  rw [putDictInt_eq_count h, getDict, List.cons_append, read_getArray, Counted.toNat_count, hn]
  rfl

/-! Objects, of which none may be NULL. -/

theorem read_getList_getObject {pods : List (Option SpaPODObject)} (h : none ∉ pods) :
    (getList getObject pods.length).read (pods.flatMap putObject ++ rest) = some (pods, rest) := by
  induction pods with
  | nil => rfl
  | cons pod pods ih =>
    obtain ⟨o, rfl⟩ := Option.ne_none_iff_exists'.mp fun heq => h (heq ▸ List.mem_cons_self)
    rw [List.flatMap_cons, List.append_assoc, List.length_cons, getList, read_getObject,
      Option.bind_some, read_then _ (ih fun hmem => h (List.mem_cons_of_mem _ hmem))]
    rfl

/-- The loop stops at the first object that is NULL. -/
theorem read_getList_getObject_none {pods : List (Option SpaPODObject)} (h : none ∈ pods) :
    (getList getObject pods.length).read (pods.flatMap putObject ++ rest) = none := by
  induction pods with
  | nil => cases h
  | cons pod pods ih =>
    rw [List.flatMap_cons, List.append_assoc, List.length_cons, getList, read_getObject]
    cases pod with
    | none => rfl
    | some o =>
      rw [Option.bind_some]
      exact read_stop (ih ((List.mem_cons.mp h).resolve_left fun heq => by cases heq)) _

variable (fpods : Counted (Option SpaPODObject) → Get α)

@[simp ↓] theorem read_getObjects {pods : Counted (Option SpaPODObject)} (h : none ∉ pods.items) :
    (getObjects >>= fpods).read (putArray putObject pods ++ rest) = (fpods pods).read rest := by
  apply read_then
  rw [getObjects, putArray, List.cons_append, read_getArray, pods.toNat_count,
    read_getList_getObject rest h]
  exact dif_pos pods.small

@[simp ↓] theorem read_getObjects_none {pods : Counted (Option SpaPODObject)}
    (h : none ∈ pods.items) :
    (getObjects >>= fpods).read (putArray putObject pods ++ rest) = none := by
  apply read_stop
  rw [getObjects, putArray, List.cons_append, read_getArray, pods.toNat_count,
    read_getList_getObject_none rest h]
  rfl

/-! Buffers. -/

theorem read_getMetas (metas : Counted SpaMeta) :
    (getArray getMeta).read (putArray putMeta metas ++ rest) = some (metas, rest) := by
  have hread : (getArray getMeta).read (putArray putMeta metas ++ rest) =
      some (metas.map fun m => m, rest) := read_getArray_putArray rest (fun _ _ => rfl) metas
  obtain ⟨items, hsmall⟩ := metas
  rw [hread, Counted.map, Option.some.injEq, Prod.mk.injEq, Counted.mk.injEq]
  exact ⟨List.map_id _, rfl⟩

theorem read_getDatas (datas : Counted SpaData) :
    (getArray getData).read (putArray putData datas ++ rest) = some (datas.map SpaData.cut, rest) :=
  read_getArray_putArray rest (fun _ _ => rfl) datas

theorem read_getBuffer (b : PinosClientNodeBuffer) :
    getBuffer.read (putBuffer b ++ rest) = some (b.cut, rest) := by
  have hmetas := read_getMetas (putArray putData b.buffer.datas ++ rest) b.buffer.metas
  have hdatas := read_getDatas rest b.buffer.datas
  simp only [getBuffer, putBuffer, List.cons_append, List.nil_append, List.append_assoc,
    read_getInt, read_then _ hmetas, read_then _ hdatas]
  rfl

@[simp ↓] theorem read_getBuffers (f : Counted PinosClientNodeBuffer → Get α)
    (buffers : Counted PinosClientNodeBuffer) :
    (getArray getBuffer >>= f).read (putArray putBuffer buffers ++ rest) =
      (f (buffers.map PinosClientNodeBuffer.cut)).read rest :=
  read_then rest (read_getArray_putArray rest (fun b rest => read_getBuffer rest b) buffers) f

end Native
end Pinos
