import Pinos.Lib.Run
import Pinos.Spa.PodAppend

/-
`spa_pod_builder_addv` of `spa/pod-builder.h`: values given as an argument list, and
the direct calls that write the same values.

The loop of `spa_pod_builder_addv` reads a type and its value in each round, except
that the values of an array or property follow each other without their type.
`rounds` is that reading, and `add` what a round does with what it has read.
-/

namespace Pinos

open ByteMem

/-! ## The argument list -/

/-- A type argument: `SPA_POD_TYPE_INVALID`, a type or a type with a minus sign. -/
inductive VaType
  | invalid
  | pod (type : SpaPODType)
  | minus (type : SpaPODType)
  deriving DecidableEq, Repr

/-- A pod in memory, whose size fits the variable it is stored in. -/
structure PodBlob where
  type : SpaPODType
  body : List UInt8
  small : 8 + body.length < 2 ^ 32
  deriving DecidableEq

def PodBlob.bytes (p : PodBlob) : List UInt8 := Pod.withHeader p.type p.body

/-- What is written for a NULL pod. -/
def PodBlob.null : PodBlob := ⟨.none, [], by decide⟩

/-- A type argument, or all arguments that a value of some type is given as.  A float
is given by its representation, a pointer by what it points to. -/
inductive VaArg
  | type (type : VaType)
  | bool (val : Bool)
  | int (val : UInt32)
  | long (val : UInt64)
  | float (val : UInt32)
  | double (val : UInt64)
  | string (str : Option CString)
  | block (data : List UInt8)
  | pair (a b : UInt32)
  | frame
  | array (type : VaType) (nValues : Nat)
  | object (id type : UInt32)
  | prop (key flags : UInt32) (type : VaType) (nValues : Nat)
  | pod (pod : Option PodBlob)

/-- What one round writes, named by the direct call for it. -/
inductive PodCall
  | bool (val : Bool)
  | id (val : UInt32)
  | int (val : UInt32)
  | long (val : UInt64)
  | float (val : UInt32)
  | double (val : UInt64)
  | string (str : Option CString)
  | stringLen (str : List UInt8)
  | bytes (data : List UInt8)
  | rectangle (width height : UInt32)
  | fraction (num denom : UInt32)
  | pushArray
  | pushStruct
  | pushObject (id type : UInt32)
  | pushProp (key flags : UInt32)
  | pop
  | pod (pod : Option PodBlob)

/-- Types whose `case` reads no argument, or that have none. -/
def VaType.isSilent : VaType → Bool
  | .pod .none | .pod .bitmask => true
  | .minus .string | .minus .rectangle | .minus .fraction => false
  | .minus .array | .minus .struct | .minus .object | .minus .prop => false
  | .minus _ => true
  | _ => false

/-- The arguments of a value, with the new `type` and `n_values` where they change. -/
def readValue : VaType → VaArg → Option (PodCall × Option (VaType × Nat))
  | .pod .bool, .bool val => some (.bool val, none)
  | .pod .id, .int val => some (.id val, none)
  | .pod .int, .int val => some (.int val, none)
  | .pod .long, .long val => some (.long val, none)
  | .pod .float, .float val => some (.float val, none)
  | .pod .double, .double val => some (.double val, none)
  | .pod .string, .string str => some (.string str, none)
  | .minus .string, .block data => some (.stringLen data, none)
  | .pod .bytes, .block data => some (.bytes data, none)
  | .pod .rectangle, .pair a b | .minus .rectangle, .pair a b => some (.rectangle a b, none)
  | .pod .fraction, .pair a b | .minus .fraction, .pair a b => some (.fraction a b, none)
  | .pod .array, .array type nValues => some (.pushArray, some (type, nValues))
  | .pod .struct, .frame => some (.pushStruct, none)
  | .pod .object, .object id type => some (.pushObject id type, none)
  | .pod .prop, .prop key flags type nValues => some (.pushProp key flags, some (type, nValues))
  | .minus .array, .frame | .minus .struct, .frame | .minus .object, .frame
  | .minus .prop, .frame => some (.pop, none)
  | .pod .pod, .pod pod => some (.pod pod, none)
  | _, _ => none

/-- The rounds of the loop, for a list it can read.  `n_values` rounds in which nothing
happens are left out. -/
def rounds (type : VaType) (nValues : Nat) : List VaArg → Option (List PodCall)
  | [] => if type = .invalid then some [] else none
  | arg :: args =>
    if type = .invalid then some []
    else if type.isSilent then
      match arg with
      | .type next => rounds next 0 args
      | _ => none
    else
      match readValue type arg with
      | none => none
      | some (call, change) =>
        let (type, nValues) := change.getD (type, nValues)
        if nValues = 0 then
          match args with
          | .type next :: args => (rounds next 0 args).map (call :: ·)
          | _ => none
        else (rounds type (nValues - 1) args).map (call :: ·)

/-! ## What a round does -/

/-- What the `switch` leaves to the code behind it. -/
inductive Entry
  /-- `goto primitive`: the header, the pod to push and the body. -/
  | primitive (head : List UInt8) (frame : Option SpaPOD) (body : Option (List UInt8))
  /-- `goto extra` -/
  | extra (body : List UInt8)
  | pop

def Entry.of : PodCall → Entry
  | .bool val =>
    .primitive (SpaPOD.bytes ⟨4, .bool⟩) none (some (toLE 4 (if val then 1 else 0)))
  | .id val => .primitive (SpaPOD.bytes ⟨4, .id⟩) none (some (toLE 4 val.toNat))
  | .int val => .primitive (SpaPOD.bytes ⟨4, .int⟩) none (some (toLE 4 val.toNat))
  -- `sizeof (uint32_t)` is taken for the size of a long
  | .long val => .primitive (SpaPOD.bytes ⟨4, .long⟩) none (some (toLE 4 val.toNat))
  | .float val => .primitive (SpaPOD.bytes ⟨4, .float⟩) none (some (toLE 4 val.toNat))
  | .double val => .primitive (SpaPOD.bytes ⟨8, .double⟩) none (some (toLE 8 val.toNat))
  | .string str =>
    let body := (str.getD .empty).bytes
    .primitive (SpaPOD.bytes ⟨.ofNat body.length, .string⟩) none (some body)
  | .stringLen str => .primitive (SpaPOD.bytes ⟨.ofNat str.length, .string⟩) none (some str)
  | .bytes data => .primitive (SpaPOD.bytes ⟨.ofNat data.length, .bytes⟩) none (some data)
  | .rectangle width height =>
    .primitive (SpaPOD.bytes ⟨8, .rectangle⟩) none
      (some (toLE 4 width.toNat ++ toLE 4 height.toNat))
  | .fraction num denom =>
    .primitive (SpaPOD.bytes ⟨8, .fraction⟩) none (some (toLE 4 num.toNat ++ toLE 4 denom.toNat))
  | .pushArray => .primitive (SpaPOD.bytes ⟨0, .array⟩ ++ []) (some ⟨0, .array⟩) none
  | .pushStruct => .primitive (SpaPOD.bytes ⟨0, .struct⟩ ++ []) (some ⟨0, .struct⟩) none
  | .pushObject id type =>
    .primitive (SpaPOD.bytes ⟨8, .object⟩ ++ (toLE 4 id.toNat ++ toLE 4 type.toNat))
      (some ⟨8, .object⟩) none
  | .pushProp key flags =>
    .primitive (SpaPOD.bytes ⟨8, .prop⟩ ++ (toLE 4 key.toNat ++ toLE 4 flags.toNat))
      (some ⟨8, .prop⟩) none
  | .pop => .pop
  | .pod pod => .extra (pod.getD .null).bytes

namespace SpaPODBuilder

variable {σ : Type} [PodStore σ] {b d : SpaPODBuilder σ}

/-- Whether the next value gets its header. -/
def lead (b : SpaPODBuilder σ) : Bool := !b.inArray || b.first

/-- The loop over `data` and `size`, which enters a container after the first write. -/
def writeAll (b : SpaPODBuilder σ) (frame : Option SpaPOD) :
    List (List UInt8) → SpaPODBuilder σ
  | [] => b
  | data :: rest =>
    let (b', ref) := b.raw data
    let b'' := match frame with
      | some pod => b'.push pod ref
      | none => b'
    rest.foldl (fun b data => (b.raw data).1) b''

/-- A body and, outside arrays, its padding. -/
def bodyData (b : SpaPODBuilder σ) (body : List UInt8) : List (List UInt8) :=
  if b.inArray then [body] else [body, padding body.length]

def addEntry (b : SpaPODBuilder σ) : Entry → SpaPODBuilder σ
  | .primitive head frame body =>
    let bodies := (body.map b.bodyData).getD []
    if b.lead then { b with first := false }.writeAll frame (head :: bodies)
    else b.writeAll frame bodies
  | .extra body => b.writeAll none (b.bodyData body)
  | .pop => b.pop

/-- One round of `spa_pod_builder_addv`. -/
def add (b : SpaPODBuilder σ) (call : PodCall) : SpaPODBuilder σ := b.addEntry (.of call)

/-- The direct call; a whole pod is written with `spa_pod_builder_raw_padded`. -/
def call (b : SpaPODBuilder σ) : PodCall → SpaPODBuilder σ
  | .bool val => (b.bool val).1
  | .id val => (b.id val).1
  | .int val => (b.int val).1
  | .long val => (b.long val).1
  | .float val => (b.float val).1
  | .double val => (b.double val).1
  | .string str => (b.string str).1
  | .stringLen str => (b.stringLen str).1
  | .bytes data => (b.bytes data).1
  | .rectangle width height => (b.rectangle width height).1
  | .fraction num denom => (b.fraction num denom).1
  | .pushArray => b.pushArray.1
  | .pushStruct => b.pushStruct.1
  | .pushObject id type => (b.pushObject id type).1
  | .pushProp key flags => (b.pushProp key flags).1
  | .pop => b.pop
  | .pod pod => (b.rawPadded (pod.getD .null).bytes).1

/-- `spa_pod_builder_addv`, for an argument list it can read. -/
def addv (b : SpaPODBuilder σ) (type : VaType) (args : List VaArg) : Option (SpaPODBuilder σ) :=
  (rounds type 0 args).map fun calls => calls.foldl add b

/-! ## The two side by side -/

/-- The same bytes in the buffer, the same offset and the same stack of containers. -/
structure SameOutput (b d : SpaPODBuilder σ) : Prop where
  view : PodStore.view b.data = PodStore.view d.data
  offset : b.offset = d.offset
  stack : b.stack = d.stack

/-- The same but for `first`, the flag that only one of the two moves at times. -/
structure Same (b d : SpaPODBuilder σ) : Prop extends SameOutput b d where
  inArray : b.inArray = d.inArray
  accepts : PodStore.accepts b.data b.size = PodStore.accepts d.data d.size
  small : b.offset < 2 ^ 32

/-- Writes of `n` bytes and then `m` bytes are kept or dropped like one of `n + m`. -/
def Joint (b : SpaPODBuilder σ) (n m : Nat) : Prop :=
  let accepts := PodStore.accepts b.data b.size
  b.offset + n < 2 ^ 32 ∧ accepts b.offset (n + m) = true ∧ accepts b.offset n = true ∧
      accepts (b.offset + n) m = true ∨
    accepts b.offset (n + m) = false ∧ accepts b.offset n = false ∧
      accepts (toU32 (b.offset + n)) m = false

/-- A value that both give a header or neither does, and that header with the value. -/
def PrimitiveAgrees (b d : SpaPODBuilder σ) (n : Nat) : Prop :=
  b.lead = d.lead ∧ (b.lead = true → b.Joint 8 n)

/-- A value that the direct call always writes with its header and padding. -/
def SizedAgrees (b : SpaPODBuilder σ) (n : Nat) : Prop :=
  b.lead = true ∧ (b.inArray = true → n % 8 = 0)

/-- The values that `spa_pod_builder_addv`, at `b`, writes like the direct calls, at
`d`, do. -/
def Agrees (b d : SpaPODBuilder σ) : PodCall → Prop
  | .bool _ | .id _ | .int _ | .float _ => PrimitiveAgrees b d 4
  | .double _ | .rectangle _ _ | .fraction _ _ => PrimitiveAgrees b d 8
  | .long _ => False
  | .string str => SizedAgrees b (str.getD .empty).bytes.length
  | .stringLen str => SizedAgrees b str.length
  | .bytes data => SizedAgrees b data.length
  | .pushArray | .pushStruct | .pushObject _ _ | .pushProp _ _ => b.lead = true
  | .pop => True
  | .pod pod => b.inArray = true → (pod.getD .null).bytes.length % 8 = 0

instance (b : SpaPODBuilder σ) (n m : Nat) : Decidable (b.Joint n m) :=
  inferInstanceAs (Decidable (_ ∨ _))

instance (b d : SpaPODBuilder σ) (n : Nat) : Decidable (PrimitiveAgrees b d n) :=
  inferInstanceAs (Decidable (_ ∧ _))

instance (b : SpaPODBuilder σ) (n : Nat) : Decidable (b.SizedAgrees n) :=
  inferInstanceAs (Decidable (_ ∧ _))

instance (b d : SpaPODBuilder σ) : (c : PodCall) → Decidable (Agrees b d c)
  | .bool _ | .id _ | .int _ | .float _ => inferInstanceAs (Decidable (PrimitiveAgrees _ _ _))
  | .double _ | .rectangle _ _ | .fraction _ _ =>
    inferInstanceAs (Decidable (PrimitiveAgrees _ _ _))
  | .long _ => inferInstanceAs (Decidable False)
  | .string _ | .stringLen _ | .bytes _ => inferInstanceAs (Decidable (SizedAgrees _ _))
  | .pushArray | .pushStruct | .pushObject _ _ | .pushProp _ _ =>
    inferInstanceAs (Decidable (_ = _))
  | .pop => inferInstanceAs (Decidable True)
  | .pod _ => inferInstanceAs (Decidable (_ → _))

theorem Same.setFirst (h : Same b d) (f g : Bool) :
    Same { b with first := f } { d with first := g } :=
  ⟨⟨h.view, h.offset, h.stack⟩, h.inArray, h.accepts, h.small⟩

theorem Same.push (h : Same b d) (pod : SpaPOD) (ref : Nat) :
    Same (b.push pod ref) (d.push pod ref) where
  view := h.view
  offset := h.offset
  stack := by
    show _ :: b.stack = _ :: d.stack
    rw [h.stack]
  inArray := rfl
  accepts := h.accepts
  small := h.small

variable [LawfulPodStore σ]

theorem Same.raw (h : Same b d) (bs : List UInt8) :
    Same (b.raw bs).1 (d.raw bs).1 ∧ (b.raw bs).2 = (d.raw bs).2 := by
  have haccepts : PodStore.accepts (b.raw bs).1.data (b.raw bs).1.size =
      PodStore.accepts (d.raw bs).1.data (d.raw bs).1.size := by
    have hb := LawfulPodStore.accepts_raw b.data b.size b.offset bs
    have hd := LawfulPodStore.accepts_raw d.data d.size d.offset bs
    exact hb.trans (h.accepts.trans hd.symm)
  have hoffset : (b.raw bs).1.offset = (d.raw bs).1.offset := by
    show toU32 _ = toU32 _
    rw [h.offset]
  have hstack : (b.raw bs).1.stack = (d.raw bs).1.stack := by
    show b.stack.map _ = d.stack.map _
    rw [h.stack]
  have hview : PodStore.view (b.raw bs).1.data = PodStore.view (d.raw bs).1.data ∧
      (b.raw bs).2 = (d.raw bs).2 := by
    cases hacc : PodStore.accepts d.data d.size d.offset bs.length with
    | true =>
      have hacc' : PodStore.accepts b.data b.size b.offset bs.length = true := by
        rw [h.accepts, h.offset]
        exact hacc
      obtain ⟨hvb, hrb⟩ := LawfulPodStore.view_raw b.data b.size b.offset bs hacc'
      obtain ⟨hvd, hrd⟩ := LawfulPodStore.view_raw d.data d.size d.offset bs hacc
      refine ⟨?_, hrb.trans (h.offset.trans hrd.symm)⟩
      refine hvb.trans (Eq.trans ?_ hvd.symm)
      rw [h.view, h.offset]
    | false =>
      have hacc' : PodStore.accepts b.data b.size b.offset bs.length = false := by
        rw [h.accepts, h.offset]
        exact hacc
      obtain ⟨hvb, hrb⟩ := LawfulPodStore.view_drop b.data b.size b.offset bs hacc'
      obtain ⟨hvd, hrd⟩ := LawfulPodStore.view_drop d.data d.size d.offset bs hacc
      exact ⟨hvb.trans (h.view.trans hvd.symm), hrb.trans hrd.symm⟩
  exact ⟨⟨⟨hview.1, hoffset, hstack⟩, h.inArray, haccepts, toU32_lt _⟩, hview.2⟩

/-- A write of nothing does nothing. -/
theorem Same.rawNil (h : Same b d) : Same (b.raw []).1 d := by
  have hview : PodStore.view (b.raw []).1.data = PodStore.view b.data := by
    cases hacc : PodStore.accepts b.data b.size b.offset 0 with
    | true =>
      have := (LawfulPodStore.view_raw b.data b.size b.offset [] hacc).1
      rw [Mem.write_nil] at this
      exact this
    | false => exact (LawfulPodStore.view_drop b.data b.size b.offset [] hacc).1
  have hoffset : (b.raw []).1.offset = b.offset := toU32_of_lt h.small
  have hstack : (b.raw []).1.stack = b.stack := SpaPODFrame.map_grow_zero b.stack
  refine ⟨⟨hview.trans h.view, hoffset.trans h.offset, hstack.trans h.stack⟩, h.inArray, ?_, ?_⟩
  · exact (LawfulPodStore.accepts_raw b.data b.size b.offset []).trans h.accepts
  · rw [hoffset]
    exact h.small

theorem Same.pad (h : Same b d) (n : Nat) : Same (b.raw (padding n)).1 (d.pad n) := by
  rw [SpaPODBuilder.pad]
  split
  · next hzero =>
    have hnil : padding n = [] := by rw [padding, hzero]; rfl
    rw [hnil]
    exact h.rawNil
  · exact (h.raw _).1

theorem Same.pads (h : Same b d) (n : Nat) : Same (b.pad n) (d.pad n) := by
  rw [SpaPODBuilder.pad, SpaPODBuilder.pad]
  split
  · exact h
  · exact (h.raw _).1

/-- One write and the same in two parts. -/
theorem Same.split (h : Same b d) (xs ys : List UInt8) (hjoint : b.Joint xs.length ys.length) :
    Same ((b.raw xs).1.raw ys).1 (d.raw (xs ++ ys)).1 := by
  have hone : Same ((b.raw xs).1.raw ys).1 (b.raw (xs ++ ys)).1 := by
    have hoffset : ((b.raw xs).1.raw ys).1.offset = (b.raw (xs ++ ys)).1.offset := by
      show toU32 (toU32 (b.offset + xs.length) + ys.length) = toU32 (b.offset + (xs ++ ys).length)
      rw [List.length_append, toU32_add_toU32, Nat.add_assoc]
    have hstack : ((b.raw xs).1.raw ys).1.stack = (b.raw (xs ++ ys)).1.stack := by
      show (b.stack.map _).map _ = b.stack.map _
      rw [SpaPODFrame.map_grow_grow, List.length_append]
    have haccepts : PodStore.accepts (b.raw xs).1.data (b.raw xs).1.size =
        PodStore.accepts b.data b.size := LawfulPodStore.accepts_raw b.data b.size b.offset xs
    have haccepts' := (LawfulPodStore.accepts_raw (b.raw xs).1.data (b.raw xs).1.size
      (b.raw xs).1.offset ys).trans haccepts
    have hall := LawfulPodStore.accepts_raw b.data b.size b.offset (xs ++ ys)
    refine ⟨⟨?_, hoffset, hstack⟩, rfl, haccepts'.trans hall.symm, toU32_lt _⟩
    rw [Joint, ← List.length_append] at hjoint
    rcases hjoint with ⟨hlt, hboth, hfirst, hsecond⟩ | ⟨hboth, hfirst, hsecond⟩
    · have hoff : (b.raw xs).1.offset = b.offset + xs.length := toU32_of_lt hlt
      have hx := (LawfulPodStore.view_raw b.data b.size b.offset xs hfirst).1
      have hxy := (LawfulPodStore.view_raw b.data b.size b.offset (xs ++ ys) hboth).1
      rw [← haccepts, ← hoff] at hsecond
      have hy := (LawfulPodStore.view_raw _ _ _ ys hsecond).1
      refine hy.trans (Eq.trans ?_ hxy.symm)
      show (PodStore.view (PodStore.raw b.data b.size b.offset xs).1).write _ ys = _
      rw [hx, hoff, Mem.write_append]
    · have hx := (LawfulPodStore.view_drop b.data b.size b.offset xs hfirst).1
      have hxy := (LawfulPodStore.view_drop b.data b.size b.offset (xs ++ ys) hboth).1
      rw [← haccepts] at hsecond
      have hy := (LawfulPodStore.view_drop _ _ _ ys hsecond).1
      exact hy.trans (hx.trans hxy.symm)
  have htwo := (h.raw (xs ++ ys)).1
  exact ⟨⟨hone.view.trans htwo.view, hone.offset.trans htwo.offset, hone.stack.trans htwo.stack⟩,
    hone.inArray.trans htwo.inArray, hone.accepts.trans htwo.accepts, toU32_lt _⟩

omit [LawfulPodStore σ] in
@[simp] theorem raw_inArray (b : SpaPODBuilder σ) (bs : List UInt8) :
    (b.raw bs).1.inArray = b.inArray := rfl

omit [PodStore σ] [LawfulPodStore σ] in
theorem lead_of_inArray (h : b.inArray = false) : b.lead = true := by
  rw [lead, h]
  rfl

omit [PodStore σ] [LawfulPodStore σ] in
theorem inArray_of_lead (h : b.lead = false) : b.inArray = true := by
  by_contra hin
  rw [lead_of_inArray (Bool.eq_false_iff.mpr hin)] at h
  cases h

/-- Padding as `spa_pod_builder_addv` writes it. -/
def padOut (b : SpaPODBuilder σ) (n : Nat) : SpaPODBuilder σ :=
  if b.inArray then b else (b.raw (padding n)).1

omit [LawfulPodStore σ] in
theorem addEntry_value (b : SpaPODBuilder σ) (head body : List UInt8) :
    b.addEntry (.primitive head none (some body)) =
      if b.lead then (({ b with first := false }.raw head).1.raw body).1.padOut body.length
      else (b.raw body).1.padOut body.length := by
  show (if b.lead then _ else _) = _
  cases hb : b.inArray <;> simp [bodyData, hb, writeAll, padOut]

omit [LawfulPodStore σ] in
theorem addEntry_extra (b : SpaPODBuilder σ) (body : List UInt8) :
    b.addEntry (.extra body) = (b.raw body).1.padOut body.length := by
  show b.writeAll none (b.bodyData body) = _
  cases hb : b.inArray <;> simp [bodyData, hb, writeAll, padOut]

omit [LawfulPodStore σ] in
theorem addEntry_container (hlead : b.lead = true) (head : List UInt8) (pod : SpaPOD) :
    b.addEntry (.primitive head (some pod) none) =
      (({ b with first := false }.raw head).1.push pod ({ b with first := false }.raw head).2) := by
  show (if b.lead then _ else _) = _
  rw [if_pos hlead]
  rfl

theorem Same.padOut (h : Same b d) (n : Nat) :
    Same (b.padOut n) (if d.inArray then d else d.pad n) := by
  rw [SpaPODBuilder.padOut, h.inArray]
  split
  · exact h
  · exact h.pad n

theorem padding_withHeader (t : SpaPODType) (bs : List UInt8) :
    padLength (Pod.withHeader t bs).length = padLength bs.length := by
  rw [padLength_eq, padLength_eq, Pod.length_withHeader]
  omega

theorem Same.primitive (h : Same b d) {t : SpaPODType} {body : List UInt8} {n : Nat}
    (hn : body.length = n) (hagrees : PrimitiveAgrees b d n) :
    Same (b.addEntry (.primitive (SpaPOD.bytes ⟨.ofNat n, t⟩) none (some body)))
      (d.primitive t body).1 := by
  subst hn
  obtain ⟨hlead, hjoint⟩ := hagrees
  rw [addEntry_value]
  cases hb : b.lead with
  | true =>
    have hmore : (d.inArray && !d.first) = false := by
      have hd : d.lead = true := hlead.symm.trans hb
      rw [SpaPODBuilder.lead] at hd
      revert hd
      cases d.inArray <;> cases d.first <;> decide
    have hsplit := (h.setFirst false false).split (SpaPOD.bytes ⟨.ofNat body.length, t⟩)
      body (by rw [SpaPOD.length_bytes]; exact hjoint hb)
    have hpad := hsplit.padOut body.length
    have heq : (d.primitive t body).1 =
        if d.inArray then ({ d with first := false }.raw (Pod.withHeader t body)).1
        else ({ d with first := false }.raw (Pod.withHeader t body)).1.pad body.length := by
      simp only [SpaPODBuilder.primitive, hmore, Bool.false_eq_true, if_false, SpaPODBuilder.pad,
        padding, padding_withHeader]
    rw [heq]
    exact hpad
  | false =>
    have hin := inArray_of_lead hb
    have hd : d.inArray = true := h.inArray.symm.trans hin
    have hfirst : d.first = false := by
      have hd' : d.lead = false := hlead.symm.trans hb
      rw [SpaPODBuilder.lead, hd] at hd'
      exact hd'
    have hpad := (h.raw body).1.padOut body.length
    have hkeep : (d.raw body).1.inArray = true := hd
    rw [if_pos hkeep] at hpad
    have heq : (d.primitive t body).1 = (d.raw body).1 := by
      simp [SpaPODBuilder.primitive, hd, hfirst]
    rw [heq, if_neg Bool.false_ne_true]
    exact hpad

/-- `spa_pod_builder_raw_padded` pads in arrays too. -/
theorem Same.rawPadded (h : Same b d) {body : List UInt8}
    (hmod : b.inArray = true → body.length % 8 = 0) :
    Same ((b.raw body).1.padOut body.length) (d.rawPadded body).1 := by
  have hnopad : b.inArray = true → padLength body.length = 0 := fun hin =>
    padLength_of_mod (hmod hin)
  by_cases hempty : body.length = 0
  · have hnil : body = [] := List.length_eq_zero_iff.mp hempty
    subst hnil
    have hpad : padLength ([] : List UInt8).length = 0 := by decide
    have heq : (d.rawPadded []).1 = d := rfl
    rw [heq, SpaPODBuilder.padOut]
    split
    · exact h.rawNil
    · have hnone : padding ([] : List UInt8).length = [] := rfl
      rw [hnone]
      exact h.rawNil.rawNil
  · have heq : (d.rawPadded body).1 = (d.raw body).1.pad body.length := by
      rw [SpaPODBuilder.rawPadded, if_neg hempty]
    rw [heq, SpaPODBuilder.padOut, raw_inArray]
    split
    · next hin =>
      rw [SpaPODBuilder.pad, if_pos (hnopad hin)]
      exact (h.raw body).1
    · exact (h.raw body).1.pad _

theorem Same.sized (h : Same b d) {t : SpaPODType} {body : List UInt8}
    (hagrees : SizedAgrees b body.length) :
    Same (b.addEntry (.primitive (SpaPOD.bytes ⟨.ofNat body.length, t⟩) none (some body)))
      (d.sized t body).1 := by
  obtain ⟨hlead, hmod⟩ := hagrees
  rw [addEntry_value, if_pos hlead]
  have hhead := ((h.setFirst false d.first).raw (SpaPOD.bytes ⟨.ofNat body.length, t⟩)).1
  let b' := ({ b with first := false }.raw (SpaPOD.bytes ⟨.ofNat body.length, t⟩)).1
  let d' := (d.raw (SpaPOD.bytes ⟨.ofNat body.length, t⟩)).1
  have hall : Same ((b'.raw body).1.padOut body.length) (d'.rawPadded body).1 :=
    Same.rawPadded hhead hmod
  exact hall

theorem Same.container (h : Same b d) (hlead : b.lead = true) (pod : SpaPOD)
    (fields : List UInt8) :
    Same (b.addEntry (.primitive (pod.bytes ++ fields) (some pod) none))
      (d.pushContainer pod fields).1 := by
  rw [addEntry_container hlead]
  obtain ⟨hraw, href⟩ := (h.setFirst false d.first).raw (pod.bytes ++ fields)
  have hpush := hraw.push pod ({ b with first := false }.raw (pod.bytes ++ fields)).2
  rw [href] at hpush ⊢
  exact hpush

theorem Same.pop (h : Same b d) : Same b.pop d.pop := by
  cases hstack : d.stack with
  | nil =>
    have hb : b.pop = b := by rw [SpaPODBuilder.pop, h.stack, hstack]
    have hd : d.pop = d := by rw [SpaPODBuilder.pop, hstack]
    rw [hb, hd]
    exact h
  | cons frame rest =>
    have hstack' : b.stack = frame :: rest := h.stack.trans hstack
    rw [SpaPODBuilder.pop, SpaPODBuilder.pop, hstack, hstack']
    simp only
    split
    · rw [h.offset]
      apply Same.pads
      exact ⟨⟨h.view, rfl, rfl⟩, rfl, h.accepts, h.offset ▸ h.small⟩
    · rw [h.offset]
      apply Same.pads
      refine ⟨⟨?_, rfl, rfl⟩, rfl, ?_, ?_⟩
      · have hb := LawfulPodStore.view_patch b.data b.size d.offset frame.ref frame.pod.bytes
        have hd := LawfulPodStore.view_patch d.data d.size d.offset frame.ref frame.pod.bytes
        rw [h.view] at hb
        exact hb.trans hd.symm
      · have hb := LawfulPodStore.accepts_patch b.data b.size d.offset frame.ref frame.pod.bytes
        have hd := LawfulPodStore.accepts_patch d.data d.size d.offset frame.ref frame.pod.bytes
        exact hb.trans (h.accepts.trans hd.symm)
      · have := h.small
        rw [h.offset] at this
        exact this

theorem Same.add (h : Same b d) {c : PodCall} (hagrees : Agrees b d c) :
    Same (b.add c) (d.call c) := by
  cases c with
  | bool val => exact h.primitive (length_toLE _ _) hagrees
  | id val => exact h.primitive (length_toLE _ _) hagrees
  | int val => exact h.primitive (length_toLE _ _) hagrees
  | long val => exact hagrees.elim
  | float val => exact h.primitive (length_toLE _ _) hagrees
  | double val => exact h.primitive (length_toLE _ _) hagrees
  | string str => exact h.sized hagrees
  | stringLen str => exact h.sized hagrees
  | bytes data => exact h.sized hagrees
  | rectangle width height =>
    exact h.primitive (by rw [List.length_append, length_toLE, length_toLE]) hagrees
  | fraction num denom =>
    exact h.primitive (by rw [List.length_append, length_toLE, length_toLE]) hagrees
  | pushArray => exact h.container hagrees ⟨0, .array⟩ []
  | pushStruct => exact h.container hagrees ⟨0, .struct⟩ []
  | pushObject id type =>
    exact h.container hagrees ⟨8, .object⟩ (toLE 4 id.toNat ++ toLE 4 type.toNat)
  | pushProp key flags =>
    exact h.container hagrees ⟨8, .prop⟩ (toLE 4 key.toNat ++ toLE 4 flags.toNat)
  | pop => exact h.pop
  | pod pod =>
    show Same (b.addEntry (.extra _)) _
    rw [addEntry_extra]
    exact h.rawPadded hagrees

/-! ## Where the two differ -/

omit [LawfulPodStore σ] in
theorem offset_raw (bs : List UInt8) (h : b.offset + bs.length < 2 ^ 32) :
    (b.raw bs).1.offset = b.offset + bs.length := toU32_of_lt h

omit [LawfulPodStore σ] in
theorem offset_pad {n : Nat} (h : b.offset + padLength n < 2 ^ 32) :
    (b.pad n).offset = b.offset + padLength n := by
  rw [SpaPODBuilder.pad]
  split
  · next hzero => rw [hzero, Nat.add_zero]
  · rw [offset_raw _ (by rwa [length_padding]), length_padding]

omit [LawfulPodStore σ] in
theorem offset_padOut {n : Nat} (h : b.offset + padLength n < 2 ^ 32) :
    (b.padOut n).offset = b.offset + if b.inArray then 0 else padLength n := by
  rw [padOut]
  split
  · rfl
  · rw [offset_raw _ (by rwa [length_padding]), length_padding]

omit [LawfulPodStore σ] in
theorem offset_addEntry (head body : List UInt8)
    (h : b.offset + head.length + body.length + padLength body.length < 2 ^ 32) :
    (b.addEntry (.primitive head none (some body))).offset =
      b.offset + (if b.lead then head.length else 0) + body.length +
        if b.inArray then 0 else padLength body.length := by
  rw [addEntry_value]
  split
  · have hhead : ({ b with first := false }.raw head).1.offset = b.offset + head.length :=
      toU32_of_lt (show b.offset + head.length < 2 ^ 32 by omega)
    have hbody := offset_raw (b := ({ b with first := false }.raw head).1) body
      (by rw [hhead]; omega)
    rw [hhead] at hbody
    rw [offset_padOut (by rw [hbody]; exact h), hbody]
    rfl
  · have hbody := offset_raw (b := b) body (by omega)
    rw [offset_padOut (by rw [hbody]; omega), hbody]
    rfl

omit [LawfulPodStore σ] in
theorem offset_primitive {t : SpaPODType} (body : List UInt8)
    (h : d.offset + 8 + body.length + padLength body.length < 2 ^ 32) :
    (d.primitive t body).1.offset = d.offset + (if d.lead then 8 else 0) + body.length +
      if d.inArray then 0 else padLength body.length := by
  have hlen : (Pod.withHeader t body).length = 8 + body.length := Pod.length_withHeader t body
  cases hin : d.inArray with
  | false =>
    have hlead : d.lead = true := lead_of_inArray hin
    have heq : (d.primitive t body).1 = (({ d with first := false }.raw
        (Pod.withHeader t body)).1).pad (Pod.withHeader t body).length := by
      simp [SpaPODBuilder.primitive, hin]
    have hraw : ({ d with first := false }.raw (Pod.withHeader t body)).1.offset =
        d.offset + (8 + body.length) := by
      rw [← hlen]
      exact toU32_of_lt (show d.offset + (Pod.withHeader t body).length < 2 ^ 32 by omega)
    rw [heq, offset_pad (by rw [hraw, padding_withHeader]; omega), hraw, padding_withHeader, hlead]
    simp only [if_true, Bool.false_eq_true, if_false]
    omega
  | true =>
    cases hfirst : d.first with
    | true =>
      have heq : (d.primitive t body).1 =
          ({ d with first := false }.raw (Pod.withHeader t body)).1 := by
        simp [SpaPODBuilder.primitive, hin, hfirst]
      have hlead : d.lead = true := by rw [lead, hfirst, Bool.or_true]
      rw [heq, hlead, if_pos rfl, if_pos rfl, Nat.add_zero, Nat.add_assoc, ← hlen]
      exact toU32_of_lt (show d.offset + (Pod.withHeader t body).length < 2 ^ 32 by omega)
    | false =>
      have heq : (d.primitive t body).1 = (d.raw body).1 := by
        simp [SpaPODBuilder.primitive, hin, hfirst]
      have hlead : d.lead = false := by rw [lead, hfirst, hin]; rfl
      rw [heq, hlead, if_neg Bool.false_ne_true, if_pos rfl]
      exact offset_raw body (by omega)

omit [LawfulPodStore σ] in
theorem offset_rawPadded {body : List UInt8}
    (h : d.offset + body.length + padLength body.length < 2 ^ 32) :
    (d.rawPadded body).1.offset = d.offset + body.length + padLength body.length := by
  rw [SpaPODBuilder.rawPadded]
  split
  · next hempty =>
    have hnil : body = [] := List.length_eq_zero_iff.mp hempty
    subst hnil
    rfl
  · have hraw := offset_raw (b := d) body (by omega)
    show ((d.raw body).1.pad body.length).offset = _
    rw [offset_pad (by rw [hraw]; exact h), hraw]

omit [LawfulPodStore σ] in
theorem offset_sized {t : SpaPODType} {body : List UInt8}
    (h : d.offset + 8 + body.length + padLength body.length < 2 ^ 32) :
    (d.sized t body).1.offset = d.offset + 8 + body.length + padLength body.length := by
  let d' := (d.raw (SpaPOD.bytes ⟨.ofNat body.length, t⟩)).1
  have hhead : d'.offset = d.offset + 8 := by
    have := offset_raw (b := d) (SpaPOD.bytes ⟨.ofNat body.length, t⟩)
      (by rw [SpaPOD.length_bytes]; omega)
    rwa [SpaPOD.length_bytes] at this
  show (d'.rawPadded body).1.offset = _
  rw [offset_rawPadded (by rw [hhead]; exact h), hhead]

/-- No value takes more room than this, however it is written. -/
def room : PodCall → Nat
  | .string str => 16 + (str.getD .empty).bytes.length
  | .stringLen str => 16 + str.length
  | .bytes data => 16 + data.length
  | .pod pod => 16 + (pod.getD .null).bytes.length
  | _ => 24

omit [LawfulPodStore σ] in
theorem Room.joint {n m k : Nat} (h : b.Room k) (hk : n + m ≤ k) : b.Joint n m := by
  have hlt := h.lt
  have hboth := h.accepts 0 (n + m) (by omega)
  have hfirst := h.accepts 0 n (by omega)
  have hsecond := h.accepts n m hk
  exact Or.inl ⟨by omega, hboth, hfirst, hsecond⟩

theorem padLength_lt (n : Nat) : padLength n < 8 := by
  rw [padLength_eq]
  omega

omit [LawfulPodStore σ] in
theorem Same.primitive_differs (h : Same b d) {t : SpaPODType} {body : List UInt8} {n : Nat}
    (hn : body.length = n) (hroom : b.Room (16 + n)) (hnot : ¬ PrimitiveAgrees b d n) :
    (b.addEntry (.primitive (SpaPOD.bytes ⟨.ofNat n, t⟩) none (some body))).offset ≠
      (d.primitive t body).1.offset := by
  subst hn
  have hlead : b.lead ≠ d.lead := fun heq => hnot ⟨heq, fun _ => hroom.joint (by omega)⟩
  have hlt := hroom.lt
  have hpad := padLength_lt body.length
  rw [offset_addEntry _ _ (by rw [SpaPOD.length_bytes]; omega),
    offset_primitive _ (by rw [← h.offset]; omega), SpaPOD.length_bytes, h.offset, h.inArray]
  intro heq
  have hhead : (if b.lead then 8 else 0) = if d.lead then 8 else 0 := by omega
  revert hlead hhead
  cases b.lead <;> cases d.lead <;> simp

omit [LawfulPodStore σ] in
theorem Same.sized_differs (h : Same b d) {t : SpaPODType} {body : List UInt8}
    (hroom : b.Room (16 + body.length)) (hnot : ¬ SizedAgrees b body.length) :
    (b.addEntry (.primitive (SpaPOD.bytes ⟨.ofNat body.length, t⟩) none (some body))).offset ≠
      (d.sized t body).1.offset := by
  have hlt := hroom.lt
  have hpad := padLength_lt body.length
  rw [offset_addEntry _ _ (by rw [SpaPOD.length_bytes]; omega),
    offset_sized (by rw [← h.offset]; omega), SpaPOD.length_bytes, ← h.offset]
  by_cases hlead : b.lead = true
  · have hin : b.inArray = true := by
      by_contra hno
      exact hnot ⟨hlead, fun hin => absurd hin hno⟩
    have hmod : body.length % 8 ≠ 0 := fun hmod => hnot ⟨hlead, fun _ => hmod⟩
    have hpad' := padLength_eq body.length
    rw [if_pos hlead, if_pos hin]
    omega
  · have hin := inArray_of_lead (Bool.eq_false_iff.mpr hlead)
    rw [if_neg hlead, if_pos hin]
    omega

omit [LawfulPodStore σ] in
theorem Same.container_differs (h : Same b d) (hnot : ¬ b.lead = true) (pod : SpaPOD)
    (fields : List UInt8) {n : Nat} (hn : fields.length = n) (hroom : b.Room (8 + n)) :
    (b.addEntry (.primitive (pod.bytes ++ fields) (some pod) none)).offset ≠
      (d.pushContainer pod fields).1.offset := by
  subst hn
  have hadd : b.addEntry (.primitive (pod.bytes ++ fields) (some pod) none) = b := by
    show (if b.lead then _ else _) = _
    rw [if_neg hnot]
    rfl
  have hlen : (pod.bytes ++ fields).length = 8 + fields.length := by
    rw [List.length_append, SpaPOD.length_bytes]
  have hcall : (d.pushContainer pod fields).1.offset = d.offset + (pod.bytes ++ fields).length :=
    offset_raw _ (by rw [hlen, ← h.offset]; exact hroom.lt)
  rw [hadd, hcall, hlen, h.offset]
  omega

/-- A value outside arrays: the header, the body and the padding. -/
theorem addEntry_appends (hin : b.inArray = false) {head body : List UInt8}
    (hroom : b.Room (head.length + (body.length + (padding body.length).length))) :
    Appends b (b.addEntry (.primitive head none (some body)))
      (head ++ (body ++ padding body.length)) := by
  let b₀ : SpaPODBuilder σ := { b with first := false }
  have hin₀ : b₀.inArray = false := hin
  have hroom₀ : b₀.Room (head.length + (body.length + (padding body.length).length)) :=
    ⟨hroom.lt, hroom.accepts⟩
  have hone := (raw_appends (hroom₀.mono (Nat.le_add_right _ _))).1
  have hroom₁ := hroom₀.after hone
  have htwo := (raw_appends (hroom₁.mono (Nat.le_add_right _ _))).1
  have hthree := (raw_appends (hroom₁.after htwo)).1
  have heq : b.addEntry (.primitive head none (some body)) =
      (((b₀.raw head).1.raw body).1.raw (padding body.length)).1 := by
    rw [addEntry_value, if_pos (lead_of_inArray hin), SpaPODBuilder.padOut, raw_inArray,
      raw_inArray, if_neg (by rw [hin₀]; exact Bool.false_ne_true)]
  rw [heq]
  exact Appends.setFirst false (hone.trans (htwo.trans hthree))

theorem addEntry_extra_appends (hin : b.inArray = false) {body : List UInt8}
    (hroom : b.Room (Pod.aligned body).length) :
    Appends b (b.addEntry (.extra body)) (Pod.aligned body) := by
  rw [Pod.aligned, List.length_append] at hroom
  have hone := (raw_appends (hroom.mono (Nat.le_add_right _ _))).1
  have htwo := (raw_appends (hroom.after hone)).1
  rw [addEntry_extra, SpaPODBuilder.padOut, raw_inArray, if_neg (by rw [hin]; exact Bool.false_ne_true)]
  exact hone.trans htwo

/-- The size of a long. -/
theorem Same.long_differs (h : Same b d) (val : UInt64) (hroom : b.Room 24) :
    ¬ SameOutput (b.add (.long val)) (d.call (.long val)) := by
  intro hsame
  have hoffset := hsame.offset
  have hlt := hroom.lt
  have hadd := offset_addEntry (b := b) (SpaPOD.bytes ⟨4, .long⟩) (toLE 4 val.toNat)
    (by rw [SpaPOD.length_bytes, length_toLE, padLength_eq]; omega)
  have hcall := offset_primitive (d := d) (t := .long) (toLE 8 val.toNat)
    (by rw [length_toLE, padLength_eq, ← h.offset]; omega)
  rw [SpaPOD.length_bytes, length_toLE, padLength_eq] at hadd
  rw [length_toLE, padLength_eq] at hcall
  change (b.addEntry _).offset = (d.primitive _ _).1.offset at hoffset
  rw [show Entry.of (.long val) =
    .primitive (SpaPOD.bytes ⟨4, .long⟩) none (some (toLE 4 val.toNat)) from rfl, hadd, hcall,
    h.offset, h.inArray] at hoffset
  cases hin : d.inArray with
  | true =>
    rw [hin] at hoffset
    revert hoffset
    cases b.lead <;> cases d.lead <;> simp
  | false =>
    -- both write 16 bytes, the first of which is the size
    have hb : b.inArray = false := h.inArray.trans hin
    let head := SpaPOD.bytes ⟨4, .long⟩
    let body := toLE 4 val.toNat
    have hlen : head.length + (body.length + (padding body.length).length) = 16 := by
      rw [SpaPOD.length_bytes, length_padding, length_toLE]
      rfl
    have hbytes : PodStore.view (b.add (.long val)).data = _ :=
      (addEntry_appends hb (show b.Room (head.length + (body.length + (padding
        body.length).length)) from hroom.mono (by omega))).view
    have hlen' : (Pod.aligned (Pod.withHeader .long (toLE 8 val.toNat))).length = 16 := by
      rw [Pod.length_aligned, Pod.length_withHeader, length_toLE]
      rfl
    have hroomd : d.Room 24 := by
      refine ⟨?_, ?_⟩
      · rw [← h.offset]
        exact hroom.lt
      · rw [← h.offset, ← h.accepts]
        exact hroom.accepts
    have hbytes' : PodStore.view (d.call (.long val)).data = _ :=
      (primitive_appends hin (show d.Room (Pod.aligned (Pod.withHeader .long
        (toLE 8 val.toNat))).length from hroomd.mono (by omega))).view
    have hleft : PodStore.view (b.add (.long val)).data (b.offset + 0) = 4 := by
      rw [hbytes]
      exact Mem.write_inside _ _ (by rw [List.length_append, List.length_append]; omega)
    have hright : PodStore.view (d.call (.long val)).data (b.offset + 0) = 8 := by
      rw [hbytes', h.offset]
      exact Mem.write_inside _ _ (by omega)
    rw [hsame.view, hright] at hleft
    exact absurd hleft (by decide)

theorem Same.agrees_of_sameOutput (h : Same b d) {c : PodCall} (hroom : b.Room (room c))
    (hsame : SameOutput (b.add c) (d.call c)) : Agrees b d c := by
  by_contra hnot
  have hlt := hroom.lt
  cases c with
  | bool val =>
    exact h.primitive_differs (length_toLE _ _) (hroom.mono (show 20 ≤ 24 by decide)) hnot
      hsame.offset
  | id val =>
    exact h.primitive_differs (length_toLE _ _) (hroom.mono (show 20 ≤ 24 by decide)) hnot
      hsame.offset
  | int val =>
    exact h.primitive_differs (length_toLE _ _) (hroom.mono (show 20 ≤ 24 by decide)) hnot
      hsame.offset
  | long val => exact h.long_differs val hroom hsame
  | float val =>
    exact h.primitive_differs (length_toLE _ _) (hroom.mono (show 20 ≤ 24 by decide)) hnot
      hsame.offset
  | double val => exact h.primitive_differs (length_toLE _ _) hroom hnot hsame.offset
  | string str => exact h.sized_differs hroom hnot hsame.offset
  | stringLen str => exact h.sized_differs hroom hnot hsame.offset
  | bytes data => exact h.sized_differs hroom hnot hsame.offset
  | rectangle width height =>
    exact h.primitive_differs (by rw [List.length_append, length_toLE, length_toLE]) hroom hnot
      hsame.offset
  | fraction num denom =>
    exact h.primitive_differs (by rw [List.length_append, length_toLE, length_toLE]) hroom hnot
      hsame.offset
  | pushArray =>
    exact h.container_differs hnot ⟨0, .array⟩ [] rfl (hroom.mono (by decide))
      hsame.offset
  | pushStruct =>
    exact h.container_differs hnot ⟨0, .struct⟩ [] rfl (hroom.mono (by decide))
      hsame.offset
  | pushObject id type =>
    exact h.container_differs hnot ⟨8, .object⟩ _
      (by rw [List.length_append, length_toLE, length_toLE])
      (hroom.mono (show 16 ≤ 24 by decide)) hsame.offset
  | pushProp key flags =>
    exact h.container_differs hnot ⟨8, .prop⟩ _
      (by rw [List.length_append, length_toLE, length_toLE])
      (hroom.mono (show 16 ≤ 24 by decide)) hsame.offset
  | pop => exact hnot trivial
  | pod pod =>
    have hin : b.inArray = true := by
      by_contra hno
      exact hnot fun hin => absurd hin hno
    have hmod : (pod.getD .null).bytes.length % 8 ≠ 0 := fun hmod => hnot fun _ => hmod
    have hpad := padLength_eq (pod.getD .null).bytes.length
    have hoffset : (b.addEntry (.extra (pod.getD .null).bytes)).offset =
        (d.rawPadded (pod.getD .null).bytes).1.offset := hsame.offset
    simp only [room] at hlt
    have hraw := offset_raw (b := b) (pod.getD .null).bytes (by omega)
    rw [addEntry_extra, offset_padOut (by rw [hraw]; omega), hraw, raw_inArray, if_pos hin,
      offset_rawPadded (by rw [← h.offset]; omega), h.offset] at hoffset
    omega

/-! ## Argument lists -/

/-- The builder of `spa_pod_builder_addv` and the one of the direct calls. -/
def both (s : SpaPODBuilder σ × SpaPODBuilder σ) (c : PodCall) :
    SpaPODBuilder σ × SpaPODBuilder σ := (s.1.add c, s.2.call c)

def BothAgree (s : SpaPODBuilder σ × SpaPODBuilder σ) (c : PodCall) : Prop := Agrees s.1 s.2 c

def BothRoom (s : SpaPODBuilder σ × SpaPODBuilder σ) (c : PodCall) : Prop := s.1.Room (room c)

instance (s : SpaPODBuilder σ × SpaPODBuilder σ) (c : PodCall) : Decidable (BothAgree s c) :=
  inferInstanceAs (Decidable (Agrees _ _ c))

omit [LawfulPodStore σ] in
theorem run_both (s : SpaPODBuilder σ × SpaPODBuilder σ) (calls : List PodCall) :
    Run.run both s calls = (calls.foldl add s.1, calls.foldl call s.2) := by
  induction calls generalizing s with
  | nil => rfl
  | cons c calls ih =>
    rw [Run.run_cons, ih]
    rfl

/-- The output is the same after every value of the list. -/
def Follows (b d : SpaPODBuilder σ) (calls : List PodCall) : Prop :=
  ∀ done, done <+: calls → SameOutput (done.foldl add b) (done.foldl call d)

theorem Same.run (h : Same b d) {calls : List PodCall}
    (hagree : Run.Along both BothAgree (b, d) calls) :
    Same (calls.foldl SpaPODBuilder.add b) (calls.foldl SpaPODBuilder.call d) := by
  have hrun := Run.run_invariant (fun s => Same s.1 s.2)
    (fun s c (hs : Same s.1 s.2) (hc : BothAgree s c) => hs.add hc) (s := (b, d)) h hagree
  rwa [run_both] at hrun

theorem Same.follows (h : Same b d) {calls : List PodCall}
    (hagree : Run.Along both BothAgree (b, d) calls) : Follows b d calls := by
  intro done hdone
  induction done generalizing b d calls with
  | nil => exact h.toSameOutput
  | cons c done ih =>
    obtain ⟨rest, rfl⟩ := hdone
    exact ih (h.add hagree.1) hagree.2 ⟨rest, rfl⟩

theorem Same.agree_of_follows (h : Same b d) {calls : List PodCall}
    (hroom : Run.Along both BothRoom (b, d) calls) (hfollows : Follows b d calls) :
    Run.Along both BothAgree (b, d) calls := by
  induction calls generalizing b d with
  | nil => trivial
  | cons c calls ih =>
    have hagrees := h.agrees_of_sameOutput hroom.1 (hfollows [c] ⟨calls, rfl⟩)
    refine ⟨hagrees, ih (h.add hagrees) hroom.2 ?_⟩
    rintro done ⟨rest, rfl⟩
    exact hfollows (c :: done) ⟨rest, rfl⟩

/-- `spa_pod_builder_addv` writes what the direct calls write when each of its values is
one for which the two agree; and where there is room for the values, its output is
that of the direct calls all along only then. -/
theorem addv_sameOutput (b : SpaPODBuilder σ) (hb : b.offset < 2 ^ 32) {type : VaType}
    {args : List VaArg} {calls : List PodCall} (hcalls : rounds type 0 args = some calls) :
    (Run.Along both BothAgree (b, b) calls →
      ∃ b', b.addv type args = some b' ∧ SameOutput b' (calls.foldl call b)) ∧
    (Run.Along both BothRoom (b, b) calls →
      (Follows b b calls ↔ Run.Along both BothAgree (b, b) calls)) := by
  have hsame : Same b b := ⟨⟨rfl, rfl, rfl⟩, rfl, rfl, hb⟩
  have haddv : b.addv type args = some (calls.foldl add b) := by
    rw [addv, hcalls]
    rfl
  refine ⟨fun hagree => ⟨_, haddv, (hsame.run hagree).toSameOutput⟩, fun hroom => ⟨?_, ?_⟩⟩
  · exact hsame.agree_of_follows hroom
  · exact hsame.follows

/-- A buffer of 64 bytes. -/
def emptyBuffer : SpaPODBuilder PodBuffer := .init ⟨fun _ => 0, 0⟩ 64

/-- A struct with a property of two rectangles, and a string. -/
theorem addv_sameOutput_struct :
    ∃ b', emptyBuffer.addv (.pod .struct)
        [.frame, .type (.pod .prop), .prop 1 2 (.pod .rectangle) 2, .pair 3 4, .pair 5 6,
          .type (.minus .prop), .frame, .type (.pod .string), .string none,
          .type (.minus .struct), .frame, .type .invalid] = some b' ∧
      SameOutput b' ([.pushStruct, .pushProp 1 2, .rectangle 3 4, .rectangle 5 6, .pop,
        .string none, .pop].foldl call emptyBuffer) :=
  (addv_sameOutput emptyBuffer (by decide) rfl).1 (by decide)

/-- A long is given the size of an int. -/
theorem not_addv_sameOutput :
    ¬ ∀ (b b' : SpaPODBuilder PodBuffer) (type : VaType) (args : List VaArg)
      (calls : List PodCall), b.offset < 2 ^ 32 → rounds type 0 args = some calls →
      b.addv type args = some b' → SameOutput b' (calls.foldl call b) := by
  intro h
  have hsame := h emptyBuffer _ (.pod .long) [.long 1, .type .invalid] [.long 1] (by decide) rfl rfl
  have hbyte := congrFun hsame.view 0
  have hadd : PodStore.view ([PodCall.long 1].foldl add emptyBuffer).data 0 = 4 := by decide
  have hcall : PodStore.view ([PodCall.long 1].foldl call emptyBuffer).data 0 = 8 := by decide
  rw [hadd, hcall] at hbyte
  exact absurd hbyte (by decide)

end SpaPODBuilder
end Pinos
