import Pinos.Spa.Pod

/-
`spa/pod-builder.h`: the direct calls that write a POD value.

A builder writes through its `data` pointer or, when it has one, through its
`write` callback.  The two are instances of `PodStore`; everything else in the
header is the same for both and is written once here.
-/

namespace Pinos

open ByteMem

/-- The reference `-1`. -/
def invalidRef : Nat := 2 ^ 32 - 1

/-- Where the bytes of a builder go.  `raw` is what `spa_pod_builder_raw` does
with them and `patch` what `spa_pod_builder_pop` does; both are given the fields
`size` and `offset` of the builder and may move `size`, as a callback does when
it reserves room.  `view` is the memory `builder->data` points to. -/
class PodStore (σ : Type) where
  raw (store : σ) (size offset : Nat) (data : List UInt8) : σ × Nat × Nat
  patch (store : σ) (size offset ref : Nat) (data : List UInt8) : σ × Nat
  view (store : σ) : Mem
  /-- Whether `raw` keeps a run of `n` bytes. -/
  accepts (store : σ) (size offset n : Nat) : Bool

/-- The store of a builder without callback: memory somebody else owns. -/
structure PodBuffer where
  mem : Mem
  data : Nat

instance : PodStore PodBuffer where
  raw store size offset bs :=
    if size < toU32 (offset + bs.length) then (store, size, invalidRef)
    else ({ store with mem := store.mem.write (store.data + offset) bs }, size, offset)
  patch store size _ ref bs :=
    ({ store with mem := store.mem.write (store.data + ref) bs }, size)
  view store := fun i => store.mem (store.data + i)
  accepts _ size offset n := decide (toU32 (offset + n) ≤ size)

structure SpaPODFrame where
  pod : SpaPOD
  ref : Nat
  deriving DecidableEq, Repr

/-- The size of every open container grows with each byte written. -/
def SpaPODFrame.grow (n : Nat) (f : SpaPODFrame) : SpaPODFrame :=
  { f with pod := { f.pod with size := f.pod.size + .ofNat n } }

/-- `stack` is the chain of `parent` pointers, innermost frame first. -/
structure SpaPODBuilder (σ : Type) where
  data : σ
  size : Nat
  offset : Nat
  stack : List SpaPODFrame
  inArray : Bool
  first : Bool

/-- Containers whose elements follow each other without header and padding. -/
def SpaPOD.isArrayLike (p : SpaPOD) : Bool :=
  p.type == .array || p.type == .prop

/-- What `spa_pod_builder_pop` computes `in_array` from. -/
def stackInArray : List SpaPODFrame → Bool
  | [] => false
  | frame :: _ => frame.pod.isArrayLike

/-- A C string: the characters before the terminating NUL. -/
structure CString where
  chars : List UInt8
  noNul : (0 : UInt8) ∉ chars
  deriving DecidableEq

def CString.empty : CString := ⟨[], List.not_mem_nil⟩

def CString.bytes (s : CString) : List UInt8 := s.chars ++ [0]

namespace SpaPODBuilder

variable {σ : Type} [PodStore σ]

def init (store : σ) (size : Nat) : SpaPODBuilder σ :=
  { data := store, size := size, offset := 0, stack := [], inArray := false, first := false }

def push (b : SpaPODBuilder σ) (pod : SpaPOD) (ref : Nat) : SpaPODBuilder σ :=
  { b with
    stack := { pod := pod, ref := ref } :: b.stack
    inArray := pod.isArrayLike
    first := pod.isArrayLike }

def raw (b : SpaPODBuilder σ) (data : List UInt8) : SpaPODBuilder σ × Nat :=
  let (store, size, ref) := PodStore.raw b.data b.size b.offset data
  ({ b with
     data := store
     size := size
     offset := toU32 (b.offset + data.length)
     stack := b.stack.map (SpaPODFrame.grow data.length) }, ref)

def pad (b : SpaPODBuilder σ) (size : Nat) : SpaPODBuilder σ :=
  if padLength size = 0 then b else (b.raw (padding size)).1

def rawPadded (b : SpaPODBuilder σ) (data : List UInt8) : SpaPODBuilder σ × Nat :=
  if data.length = 0 then (b.pad 0, invalidRef)
  else
    let (b', ref) := b.raw data
    (b'.pad data.length, ref)

/-- Write the final header of the innermost container and leave it.  Callers pass
the frame they pushed last, which is the head of the stack. -/
def pop (b : SpaPODBuilder σ) : SpaPODBuilder σ :=
  match b.stack with
  | [] => b
  | frame :: rest =>
    let b' :=
      if frame.ref = invalidRef then b
      else
        let (store, size) := PodStore.patch b.data b.size b.offset frame.ref frame.pod.bytes
        { b with data := store, size := size }
    let b'' := { b' with stack := rest, inArray := stackInArray rest }
    b''.pad b''.offset

/-- A pod given as one block of memory: its type and the bytes after the header. -/
def primitive (b : SpaPODBuilder σ) (type : SpaPODType) (body : List UInt8) :
    SpaPODBuilder σ × Nat :=
  let more := b.inArray && !b.first
  let data := if more then body else Pod.withHeader type body
  let b := if more then b else { b with first := false }
  let (b', ref) := b.raw data
  (if b.inArray then b' else b'.pad data.length, ref)

def bool (b : SpaPODBuilder σ) (val : Bool) : SpaPODBuilder σ × Nat :=
  b.primitive .bool (toLE 4 (if val then 1 else 0))

def id (b : SpaPODBuilder σ) (val : UInt32) : SpaPODBuilder σ × Nat :=
  b.primitive .id (toLE 4 val.toNat)

def int (b : SpaPODBuilder σ) (val : UInt32) : SpaPODBuilder σ × Nat :=
  b.primitive .int (toLE 4 val.toNat)

def long (b : SpaPODBuilder σ) (val : UInt64) : SpaPODBuilder σ × Nat :=
  b.primitive .long (toLE 8 val.toNat)

/-- `val` is the representation of the float. -/
def float (b : SpaPODBuilder σ) (val : UInt32) : SpaPODBuilder σ × Nat :=
  b.primitive .float (toLE 4 val.toNat)

def double (b : SpaPODBuilder σ) (val : UInt64) : SpaPODBuilder σ × Nat :=
  b.primitive .double (toLE 8 val.toNat)

/-- Header and padded body written apart, whether or not in an array: the common
body of `spa_pod_builder_string_len` and `spa_pod_builder_bytes`. -/
def sized (b : SpaPODBuilder σ) (type : SpaPODType) (data : List UInt8) :
    SpaPODBuilder σ × Nat :=
  let (b', ref) := b.raw (SpaPOD.bytes ⟨.ofNat data.length, type⟩)
  let (b'', ref') := b'.rawPadded data
  (b'', if ref' = invalidRef then invalidRef else ref)

def stringLen (b : SpaPODBuilder σ) (str : List UInt8) : SpaPODBuilder σ × Nat :=
  b.sized .string str

/-- A NULL string is written as an empty one. -/
def string (b : SpaPODBuilder σ) (str : Option CString) : SpaPODBuilder σ × Nat :=
  b.stringLen (str.getD .empty).bytes

def bytes (b : SpaPODBuilder σ) (data : List UInt8) : SpaPODBuilder σ × Nat :=
  b.sized .bytes data

def rectangle (b : SpaPODBuilder σ) (width height : UInt32) : SpaPODBuilder σ × Nat :=
  b.primitive .rectangle (toLE 4 width.toNat ++ toLE 4 height.toNat)

def fraction (b : SpaPODBuilder σ) (num denom : UInt32) : SpaPODBuilder σ × Nat :=
  b.primitive .fraction (toLE 4 num.toNat ++ toLE 4 denom.toNat)

/-- Write the start of a container, `header` and what belongs to it, and enter it. -/
def pushContainer (b : SpaPODBuilder σ) (header : SpaPOD) (fields : List UInt8) :
    SpaPODBuilder σ × Nat :=
  let (b', ref) := b.raw (header.bytes ++ fields)
  (b'.push header ref, ref)

def pushArray (b : SpaPODBuilder σ) : SpaPODBuilder σ × Nat :=
  b.pushContainer ⟨0, .array⟩ []

def pushStruct (b : SpaPODBuilder σ) : SpaPODBuilder σ × Nat :=
  b.pushContainer ⟨0, .struct⟩ []

def pushObject (b : SpaPODBuilder σ) (id type : UInt32) : SpaPODBuilder σ × Nat :=
  b.pushContainer ⟨8, .object⟩ (toLE 4 id.toNat ++ toLE 4 type.toNat)

def pushProp (b : SpaPODBuilder σ) (key flags : UInt32) : SpaPODBuilder σ × Nat :=
  b.pushContainer ⟨8, .prop⟩ (toLE 4 key.toNat ++ toLE 4 flags.toNat)

end SpaPODBuilder
end Pinos
