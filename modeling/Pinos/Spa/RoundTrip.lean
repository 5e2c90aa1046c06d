import Pinos.Spa.PodAppend
import Pinos.Spa.PodIter

/-
Writing a tree of values with the direct builder calls and walking over the
result with an iterator.
-/

namespace Pinos

open ByteMem

/-- Values that `spa_pod_builder_*` has a call for, properties and arrays aside.
Floating point values are given by their representation. -/
inductive Value where
  | bool (val : Bool)
  | id (val : UInt32)
  | int (val : UInt32)
  | long (val : UInt64)
  | float (val : UInt32)
  | double (val : UInt64)
  | string (str : CString)
  | stringLen (str : List UInt8)
  | bytes (data : List UInt8)
  | rectangle (width height : UInt32)
  | fraction (num denom : UInt32)
  | struct (contents : List Value)
  | object (id type : UInt32) (contents : List Value)

namespace Value

open SpaPODBuilder

variable {σ : Type} [PodStore σ] [LawfulPodStore σ] {b b' : SpaPODBuilder σ}

mutual
def build : Value → SpaPODBuilder σ → SpaPODBuilder σ
  | .bool val, b => (b.bool val).1
  | .id val, b => (b.id val).1
  | .int val, b => (b.int val).1
  | .long val, b => (b.long val).1
  | .float val, b => (b.float val).1
  | .double val, b => (b.double val).1
  | .string str, b => (b.string (some str)).1
  | .stringLen str, b => (b.stringLen str).1
  | .bytes data, b => (b.bytes data).1
  | .rectangle width height, b => (b.rectangle width height).1
  | .fraction num denom, b => (b.fraction num denom).1
  | .struct contents, b => (buildAll contents (b.pushStruct).1).pop
  | .object objectId type contents, b => (buildAll contents (b.pushObject objectId type).1).pop

def buildAll : List Value → SpaPODBuilder σ → SpaPODBuilder σ
  | [], b => b
  | v :: rest, b => buildAll rest (v.build b)
end

def type : Value → SpaPODType
  | .bool _ => .bool
  | .id _ => .id
  | .int _ => .int
  | .long _ => .long
  | .float _ => .float
  | .double _ => .double
  | .string _ | .stringLen _ => .string
  | .bytes _ => .bytes
  | .rectangle _ _ => .rectangle
  | .fraction _ _ => .fraction
  | .struct _ => .struct
  | .object _ _ _ => .object

mutual
/-- The bytes after the header. -/
def body : Value → List UInt8
  | .bool val => toLE 4 (if val then 1 else 0)
  | .id val | .int val | .float val => toLE 4 val.toNat
  | .long val | .double val => toLE 8 val.toNat
  | .string str => str.bytes
  | .stringLen str => str
  | .bytes data => data
  | .rectangle width height => toLE 4 width.toNat ++ toLE 4 height.toNat
  | .fraction num denom => toLE 4 num.toNat ++ toLE 4 denom.toNat
  | .struct contents => contentsBytes contents
  | .object objectId type contents => toLE 4 objectId.toNat ++ toLE 4 type.toNat ++ contentsBytes contents

def contentsBytes : List Value → List UInt8
  | [] => []
  | v :: rest => Pod.aligned (Pod.withHeader v.type v.body) ++ contentsBytes rest
end

/-- The value as it stands in memory, up to the place of the next one. -/
def encode (v : Value) : List UInt8 := Pod.aligned (Pod.withHeader v.type v.body)

theorem contentsBytes_cons (v : Value) (rest : List Value) :
    contentsBytes (v :: rest) = v.encode ++ contentsBytes rest := by
  rw [contentsBytes, encode]

theorem length_encode (v : Value) : v.encode.length = roundUpN (8 + v.body.length) 8 := by
  rw [encode, Pod.length_aligned, Pod.length_withHeader, roundUpN_eight]

theorem length_encode_mod (v : Value) : v.encode.length % 8 = 0 :=
  Pod.length_aligned_mod _

theorem length_contentsBytes_mod (vs : List Value) : (contentsBytes vs).length % 8 = 0 := by
  induction vs with
  | nil => rw [contentsBytes, List.length_nil]
  | cons v rest ih =>
    have hv := v.length_encode_mod
    rw [contentsBytes_cons, List.length_append]
    omega

theorem encode_of_mod {v : Value} (h : v.body.length % 8 = 0) :
    v.encode = Pod.withHeader v.type v.body := by
  apply Pod.aligned_of_mod
  rw [Pod.length_withHeader]
  omega

/-! ## Writing -/

/-- The state in which the next value goes at an aligned offset and not into an
array. -/
structure Ready (b : SpaPODBuilder σ) : Prop where
  aligned : b.offset % 8 = 0
  inArray : b.inArray = false
  stack : stackInArray b.stack = false

omit [LawfulPodStore σ] in
theorem Ready.after {bs : List UInt8} (h : Ready b) (ha : Appends b b' bs)
    (hmod : bs.length % 8 = 0) : Ready b' where
  aligned := by
    have := h.aligned
    rw [ha.offset]
    omega
  inArray := ha.inArray.trans h.inArray
  stack := by rw [ha.stack, stackInArray_grow, h.stack]

/-- A container that has been entered: its contents go at an aligned offset. -/
theorem container_ready (t : SpaPODType) (fields : List UInt8) {n : Nat}
    (ht : (⟨.ofNat fields.length, t⟩ : SpaPOD).isArrayLike = false)
    (h : Ready b) (hroom : b.Room (8 + (fields.length + n))) (hfields : fields.length % 8 = 0) :
    Ready (b.pushContainer ⟨.ofNat fields.length, t⟩ fields).1 ∧
      (b.pushContainer ⟨.ofNat fields.length, t⟩ fields).1.Room n := by
  have hhead : (SpaPOD.bytes ⟨.ofNat fields.length, t⟩ ++ fields).length = 8 + fields.length := by
    rw [List.length_append, SpaPOD.length_bytes]
  have hroom' : b.Room ((SpaPOD.bytes ⟨.ofNat fields.length, t⟩ ++ fields).length + n) := by
    rw [hhead, Nat.add_assoc]
    exact hroom
  have hraw := (raw_appends (hroom'.mono (Nat.le_add_right _ _))).1
  have hafter := hroom'.after hraw
  refine ⟨⟨?_, ht, ht⟩, hafter.lt, hafter.accepts⟩
  have := (h.after hraw (by rw [hhead]; omega)).aligned
  exact this

/-- A container: what is to be shown of its contents is asked in the state right
after the push. -/
theorem build_container (t : SpaPODType) (fields : List UInt8) {contents : List UInt8}
    (ht : (⟨.ofNat fields.length, t⟩ : SpaPOD).isArrayLike = false)
    (h : Ready b) (hroom : b.Room (8 + (fields ++ contents).length))
    (hfields : fields.length % 8 = 0) (hmod : contents.length % 8 = 0)
    (hinner : Ready (b.pushContainer ⟨.ofNat fields.length, t⟩ fields).1 →
      (b.pushContainer ⟨.ofNat fields.length, t⟩ fields).1.Room contents.length →
      Appends (b.pushContainer ⟨.ofNat fields.length, t⟩ fields).1 b' contents) :
    Appends b b'.pop (Pod.withHeader t (fields ++ contents)) := by
  have hlen : (fields ++ contents).length = fields.length + contents.length :=
    List.length_append
  obtain ⟨hready, hafter⟩ := container_ready t fields ht h (hlen ▸ hroom) hfields
  apply container_appends (hinner hready hafter) hroom h.aligned
  · rw [hlen]
    omega
  · rw [h.inArray, h.stack]

mutual
theorem build_appends : ∀ (v : Value) (b : SpaPODBuilder σ), Ready b → b.Room v.encode.length →
    Appends b (v.build b) v.encode
  | .bool _, b, h, hroom | .id _, b, h, hroom | .int _, b, h, hroom | .long _, b, h, hroom
  | .float _, b, h, hroom | .double _, b, h, hroom | .rectangle _ _, b, h, hroom
  | .fraction _ _, b, h, hroom => by
      rw [encode] at hroom ⊢
      simp only [type, body] at hroom ⊢
      exact primitive_appends h.inArray hroom
  | .string _, b, _, hroom | .stringLen _, b, _, hroom | .bytes _, b, _, hroom => by
      rw [encode] at hroom ⊢
      simp only [type, body] at hroom ⊢
      exact sized_appends hroom
  | .struct contents, b, h, hroom => by
      have hmod := length_contentsBytes_mod contents
      have hbody : (struct contents).body = [] ++ contentsBytes contents := by
        rw [body, List.nil_append]
      rw [encode_of_mod (by rw [hbody]; exact hmod), hbody] at hroom ⊢
      rw [Pod.length_withHeader] at hroom
      exact build_container .struct [] rfl h hroom rfl hmod (buildAll_appends contents _)
  | .object objectId type contents, b, h, hroom => by
      have hmod := length_contentsBytes_mod contents
      have hfields : (toLE 4 objectId.toNat ++ toLE 4 type.toNat).length = 8 := by
        rw [List.length_append, length_toLE, length_toLE]
      have hbody : (object objectId type contents).body =
          (toLE 4 objectId.toNat ++ toLE 4 type.toNat) ++ contentsBytes contents := by
        rw [body]
      rw [encode_of_mod (by rw [hbody, List.length_append, hfields]; omega), hbody] at hroom ⊢
      rw [Pod.length_withHeader] at hroom
      refine build_container .object _ rfl h hroom (by rw [hfields]) hmod ?_
      rw [hfields]
      exact buildAll_appends contents _

theorem buildAll_appends : ∀ (vs : List Value) (b : SpaPODBuilder σ), Ready b →
    b.Room (contentsBytes vs).length → Appends b (buildAll vs b) (contentsBytes vs)
  | [], b, _, _ => by
      rw [contentsBytes]
      exact Appends.refl b
  | v :: rest, b, h, hroom => by
      rw [contentsBytes_cons] at hroom ⊢
      rw [List.length_append] at hroom
      have hv := build_appends v b h (hroom.mono (Nat.le_add_right _ _))
      exact hv.trans (buildAll_appends rest _ (h.after hv v.length_encode_mod) (hroom.after hv))
end

/-! ## Reading -/

mutual
/-- What a reader should find when the value stands at address `p`. -/
def visitAt : Value → Nat → SpaPODIter.Visit
  | .struct contents, p =>
      .struct p (contentsBytes contents).length (visitAllAt contents (p + 8))
        (contentsBytes contents).length
  | .object objectId type contents, p =>
      .object p (8 + (contentsBytes contents).length) objectId.toNat type.toNat
        (visitAllAt contents (p + 16)) (contentsBytes contents).length
  | v, p => .leaf p v.type.code v.body

def visitAllAt : List Value → Nat → List SpaPODIter.Visit
  | [], _ => []
  | v :: rest, p => v.visitAt p :: visitAllAt rest (p + v.encode.length)
end

mutual
/-- How many steps a walk over the value takes. -/
def steps : Value → Nat
  | .struct contents | .object _ _ contents => stepsAll contents + 1
  | _ => 1

def stepsAll : List Value → Nat
  | [] => 1
  | v :: rest => v.steps + stepsAll rest + 1
end

theorem visitAt_pod (v : Value) (p : Nat) : (v.visitAt p).pod = p := by
  cases v <;> simp [visitAt, SpaPODIter.Visit.pod]

theorem visitAt_size (v : Value) (p : Nat) : (v.visitAt p).size = v.body.length := by
  cases v <;> simp [visitAt, SpaPODIter.Visit.size, body, ← Nat.add_assoc]

theorem visitAllAt_covers (vs : List Value) (p : Nat) :
    SpaPODIter.Visit.Covers (visitAllAt vs p) p (p + (contentsBytes vs).length) := by
  induction vs generalizing p with
  | nil =>
    rw [visitAllAt, contentsBytes]
    exact rfl
  | cons v rest ih =>
    rw [visitAllAt, contentsBytes_cons, List.length_append, ← Nat.add_assoc]
    refine ⟨v.visitAt_pod p, ?_⟩
    rw [visitAt_size, ← length_encode]
    exact ih (p + v.encode.length)

mutual
theorem visitAt_tight : ∀ (v : Value) (p : Nat), (v.visitAt p).Tight
  | .bool _, _ | .id _, _ | .int _, _ | .long _, _ | .float _, _ | .double _, _
  | .string _, _ | .stringLen _, _ | .bytes _, _ | .rectangle _ _, _ | .fraction _ _, _ => by
      rw [visitAt] <;> first | exact .leaf _ _ _ | simp
  | .struct contents, p => by
      rw [visitAt]
      exact .struct (visitAllAt_tight contents (p + 8)) (visitAllAt_covers contents _).fills
  | .object objectId type contents, p => by
      rw [visitAt]
      refine .object (visitAllAt_tight contents (p + 16)) ?_ (Nat.le_add_right _ _)
      rw [Nat.add_sub_cancel_left]
      exact (visitAllAt_covers contents _).fills

theorem visitAllAt_tight : ∀ (vs : List Value) (p : Nat), ∀ w ∈ visitAllAt vs p, w.Tight
  | [], _ => by simp [visitAllAt]
  | v :: rest, p => by
      intro w hw
      rw [visitAllAt] at hw
      rcases List.mem_cons.mp hw with rfl | hw
      · exact visitAt_tight v p
      · exact visitAllAt_tight rest _ w hw
end

theorem holds_encode {m : Mem} {p : Nat} {v : Value} (h : m.Holds p v.encode)
    (hlen : v.encode.length < 2 ^ 32) :
    podBodySize m p = v.body.length ∧ podType m p = v.type.code ∧ m.Holds (p + 8) v.body :=
  SpaPODIter.holds_aligned h hlen

open SpaPODIter in
theorem visit_leaf {m : Mem} {p fuel : Nat} {v : Value} (h : m.Holds p v.encode)
    (hlen : v.encode.length < 2 ^ 32) (hleaf : v.type.isLeaf = true) :
    visit m (fuel + 1) p = some (.leaf p v.type.code v.body) := by
  obtain ⟨hsize, htype, hbody⟩ := holds_encode h hlen
  have hns : podType m p ≠ SpaPODType.struct.code := by
    intro heq
    rw [SpaPODType.code_inj (htype.symm.trans heq)] at hleaf
    exact absurd hleaf (by decide)
  have hno : podType m p ≠ SpaPODType.object.code := by
    intro heq
    rw [SpaPODType.code_inj (htype.symm.trans heq)] at hleaf
    exact absurd hleaf (by decide)
  have hread : m.read (p + 8) v.body.length = v.body := hbody
  rw [visit, SpaPODIter.pod, if_neg hns, if_neg hno, htype, hsize]
  simp only [hread]

open SpaPODIter in
mutual
theorem visit_encode {m : Mem} : ∀ (v : Value) (p fuel : Nat), m.Holds p v.encode →
    v.encode.length < 2 ^ 32 → v.steps ≤ fuel → visit m fuel p = some (v.visitAt p)
  | v, p, 0, _, _, hfuel => by
      cases v <;> simp [steps] at hfuel
  | .bool _, p, fuel + 1, h, hlen, _ | .id _, p, fuel + 1, h, hlen, _
  | .int _, p, fuel + 1, h, hlen, _ | .long _, p, fuel + 1, h, hlen, _
  | .float _, p, fuel + 1, h, hlen, _ | .double _, p, fuel + 1, h, hlen, _
  | .string _, p, fuel + 1, h, hlen, _ | .stringLen _, p, fuel + 1, h, hlen, _
  | .bytes _, p, fuel + 1, h, hlen, _ | .rectangle _ _, p, fuel + 1, h, hlen, _
  | .fraction _ _, p, fuel + 1, h, hlen, _ => visit_leaf h hlen rfl
  | .struct contents, p, fuel + 1, h, hlen, hfuel => by
      obtain ⟨hsize, htype, hbody⟩ := holds_encode h hlen
      rw [length_encode, roundUpN_eight] at hlen
      rw [body] at hsize hbody hlen
      rw [steps] at hfuel
      have hiter : structContents m p = .contents (p + 8) (contentsBytes contents).length := by
        rw [structContents_eq, hsize]
      have hall := visitAll_contents contents (structContents m p) fuel (by rwa [hiter])
        (by rw [hiter]; exact (Nat.zero_add _).symm)
        (by rw [hiter]; simp only [SpaPODIter.contents]; omega) (by omega)
      rw [visit_struct htype hall, hsize, hiter]
      rfl
  | .object objectId type contents, p, fuel + 1, h, hlen, hfuel => by
      obtain ⟨hsize, htype, hbody⟩ := holds_encode h hlen
      rw [length_encode, roundUpN_eight] at hlen
      rw [body, List.append_assoc] at hbody
      have hid := hbody.left.u32
      have htyp := hbody.right.left.u32
      have hcontents := hbody.right.right
      simp only [length_toLE, Nat.add_assoc] at htyp hcontents
      rw [Nat.mod_eq_of_lt objectId.toNat_lt] at hid
      rw [Nat.mod_eq_of_lt type.toNat_lt] at htyp
      have hlength : (object objectId type contents).body.length =
          8 + (contentsBytes contents).length := by
        rw [body, List.length_append, List.length_append, length_toLE, length_toLE]
      rw [hlength] at hsize hlen
      rw [steps] at hfuel
      have hiter : objectContents m p = .contents (p + 16) (contentsBytes contents).length := by
        rw [objectContents_eq (by omega), hsize, Nat.add_sub_cancel_left]
      have hall := visitAll_contents contents (objectContents m p) fuel (by rwa [hiter])
        (by rw [hiter]; exact (Nat.zero_add _).symm)
        (by rw [hiter]; simp only [SpaPODIter.contents]; omega) (by omega)
      rw [visit_object htype hall, hsize, hid, htyp, hiter]
      rfl

theorem visitAll_contents {m : Mem} : ∀ (vs : List Value) (iter : SpaPODIter) (fuel : Nat),
    m.Holds (iter.data + iter.offset) (contentsBytes vs) →
    iter.size = iter.offset + (contentsBytes vs).length → iter.size + 8 < 2 ^ 32 →
    stepsAll vs ≤ fuel →
    visitAll m fuel iter = some (visitAllAt vs (iter.data + iter.offset), iter.size)
  | vs, iter, 0, _, _, _, hfuel => by
      cases vs <;> simp [stepsAll] at hfuel
  | [], iter, fuel + 1, _, hsize, hlt, _ => by
      rw [contentsBytes, List.length_nil, Nat.add_zero] at hsize
      have hend := hasNext_end (m := m) hsize.symm hlt
      rw [visitAll, hend, visitAllAt, hsize]
      simp
  | v :: rest, iter, fuel + 1, h, hsize, hlt, hfuel => by
      rw [contentsBytes_cons] at h
      rw [contentsBytes_cons, List.length_append] at hsize
      rw [stepsAll] at hfuel
      obtain ⟨hmore, hnext⟩ :=
        next_holds h.left (by show iter.offset + v.encode.length ≤ _; omega) hlt
      rw [← encode] at hnext
      have hhead := visit_encode v (iter.data + iter.offset) fuel h.left (by omega) (by omega)
      have hrest := visitAll_contents rest { iter with offset := iter.offset + v.encode.length }
        fuel (by rw [← Nat.add_assoc]; exact h.right) (by simp only; omega) hlt (by omega)
      rw [visitAll, if_pos hmore, hnext]
      simp only [hhead, hrest, visitAllAt, Nat.add_assoc]
end

/-! ## A buffer of memory -/

/-- A plain buffer stays where it is. -/
theorem raw_data (b : SpaPODBuilder PodBuffer) (bs : List UInt8) :
    (b.raw bs).1.data.data = b.data.data := by
  simp only [raw, PodStore.raw]
  split <;> rfl

theorem pad_data (b : SpaPODBuilder PodBuffer) (n : Nat) :
    (b.pad n).data.data = b.data.data := by
  rw [pad]
  split
  · rfl
  · exact raw_data b _

theorem primitive_data (b : SpaPODBuilder PodBuffer) (t : SpaPODType) (bs : List UInt8) :
    (b.primitive t bs).1.data.data = b.data.data := by
  simp only [primitive]
  split <;> split <;> simp only [pad_data, raw_data]

theorem sized_data (b : SpaPODBuilder PodBuffer) (t : SpaPODType) (bs : List UInt8) :
    (b.sized t bs).1.data.data = b.data.data := by
  simp only [sized, rawPadded]
  split <;> simp only [pad_data, raw_data]

theorem pop_data (b : SpaPODBuilder PodBuffer) : b.pop.data.data = b.data.data := by
  rw [pop]
  split
  · rfl
  · rw [pad_data]
    split <;> rfl

mutual
theorem build_data : ∀ (v : Value) (b : SpaPODBuilder PodBuffer),
    (v.build b).data.data = b.data.data
  | .bool _, b | .id _, b | .int _, b | .long _, b | .float _, b | .double _, b
  | .rectangle _ _, b | .fraction _ _, b => by
      rw [build]
      exact primitive_data b _ _
  | .string _, b | .stringLen _, b | .bytes _, b => by
      rw [build]
      exact sized_data b _ _
  | .struct contents, b => by
      rw [build, pop_data, buildAll_data contents]
      exact raw_data b _
  | .object _ _ contents, b => by
      rw [build, pop_data, buildAll_data contents]
      exact raw_data b _

theorem buildAll_data : ∀ (vs : List Value) (b : SpaPODBuilder PodBuffer),
    (buildAll vs b).data.data = b.data.data
  | [], b => by rw [buildAll]
  | v :: rest, b => by rw [buildAll, buildAll_data rest, build_data v]
end

theorem build_holds (v : Value) (store : PodBuffer) {size : Nat}
    (hroom : v.encode.length ≤ size) (hsize : size < 2 ^ 32) :
    (v.build (SpaPODBuilder.init store size)).data.mem.Holds store.data v.encode := by
  let b := SpaPODBuilder.init store size
  have ha : Appends b (v.build b) v.encode :=
    build_appends v b ⟨rfl, rfl, rfl⟩ (SpaPODBuilder.room_init hroom hsize)
  have hview : (PodStore.view (v.build b).data).Holds 0 v.encode := by
    rw [ha.view]
    exact Mem.holds_write _ 0 _
  rw [Mem.holds_iff] at hview ⊢
  intro i hi
  have := hview i hi
  rw [Nat.zero_add] at this
  rw [← this]
  show _ = (v.build b).data.mem ((v.build b).data.data + i)
  rw [build_data]
  rfl

/-- A tree written into a buffer that is large enough is the tree a reader finds
there: the same values in the same order, each container filled by its children. -/
theorem visit_build (v : Value) (store : PodBuffer) {size : Nat}
    (hroom : v.encode.length ≤ size) (hsize : size < 2 ^ 32) :
    (∀ fuel, v.steps ≤ fuel →
      SpaPODIter.visit (v.build (SpaPODBuilder.init store size)).data.mem fuel store.data =
        some (v.visitAt store.data)) ∧
    (v.visitAt store.data).Tight := by
  refine ⟨?_, v.visitAt_tight store.data⟩
  intro fuel hfuel
  exact visit_encode v store.data fuel (build_holds v store hroom hsize) (by omega) hfuel

/-- An object with an integer and a string in a struct. -/
def nested : Value :=
  .struct [.object 1 2 [.int 7, .string ⟨[104, 105], by decide⟩], .long 9]

theorem length_encode_nested : nested.encode.length = 72 := by
  simp [nested, encode, body, contentsBytes, CString.bytes, Pod.length_aligned,
    Pod.length_withHeader, padLength_eq]

theorem visit_build_nested :
    (∀ fuel, nested.steps ≤ fuel →
      SpaPODIter.visit
        (nested.build (SpaPODBuilder.init (PodBuffer.mk (fun _ => 0) 4096) 72)).data.mem fuel
        4096 = some (nested.visitAt 4096)) ∧
    (nested.visitAt 4096).Tight := by
  have hroom : nested.encode.length ≤ 72 := Nat.le_of_eq length_encode_nested
  exact visit_build nested (PodBuffer.mk (fun _ => 0) 4096) hroom (by decide)

end Value
end Pinos
