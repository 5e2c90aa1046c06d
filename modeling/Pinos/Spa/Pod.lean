import Pinos.Lib.ByteMem

/-
The POD value format of `spa/pod.h`.

The first half is the layout as the headers declare it: type numbers, the
`SpaPOD` header and the 32-bit arithmetic the macros are computed in.  The
second half is the format seen from outside, finite trees of values and the
bytes that spell them.  Words are little-endian, as on the machines Pinos runs
on.
-/

namespace Pinos

open ByteMem

/-! ## 32-bit arithmetic -/

/-- The value a `uint32_t` keeps of `n`. -/
def toU32 (n : Nat) : Nat := n % 2 ^ 32

theorem toU32_lt (n : Nat) : toU32 n < 2 ^ 32 := Nat.mod_lt n (by decide)

theorem toU32_of_lt {n : Nat} (h : n < 2 ^ 32) : toU32 n = n := Nat.mod_eq_of_lt h

theorem toU32_add_toU32 (m n : Nat) : toU32 (toU32 m + n) = toU32 (m + n) :=
  Nat.mod_add_mod m (2 ^ 32) n

/-- `SPA_ROUND_UP_N (num, align)` for an alignment that is a power of two. -/
def roundUpN (num align : Nat) : Nat := (num + (align - 1)) / align * align

/-- How many bytes `spa_pod_builder_pad` adds after `size` bytes.  It is below 8,
so the wrap-around of the 32-bit subtraction does not show. -/
def padLength (size : Nat) : Nat := roundUpN size 8 - size

theorem roundUpN_eight (n : Nat) : roundUpN n 8 = n + padLength n := by
  unfold padLength roundUpN
  omega

theorem padLength_eq (size : Nat) : padLength size = (8 - size % 8) % 8 := by
  unfold padLength roundUpN
  omega

theorem padLength_of_mod {size : Nat} (h : size % 8 = 0) : padLength size = 0 := by
  rw [padLength_eq, h]

/-! ## Types -/

inductive SpaPODType
  | invalid | none | bool | id | int | long | float | double | string | bytes | pointer
  | rectangle | fraction | bitmask | array | struct | object | prop | pod
  deriving DecidableEq, Repr

namespace SpaPODType

/-- The number that stands for the type in a header. -/
def code : SpaPODType → Nat
  | invalid => 0
  | none => 1
  | bool => 2
  | id => 3
  | int => 4
  | long => 5
  | float => 6
  | double => 7
  | string => 8
  | bytes => 9
  | pointer => 10
  | rectangle => 11
  | fraction => 12
  | bitmask => 13
  | array => 14
  | struct => 15
  | object => 16
  | prop => 17
  | pod => 18

theorem code_lt (t : SpaPODType) : t.code < 2 ^ 32 := by
  cases t <;> decide

theorem code_inj {s t : SpaPODType} (h : s.code = t.code) : s = t := by
  cases s <;> cases t <;> first | rfl | (exact absurd h (by decide))

/-- Types whose pods have no pods inside. -/
def isLeaf : SpaPODType → Bool
  | none | bool | id | int | long | float | double | string | bytes | pointer
  | rectangle | fraction | bitmask => true
  | _ => false

/-- The body size of the types that have a fixed one. -/
def bodySize? : SpaPODType → Option Nat
  | none => some 0
  | bool | id | int | float => some 4
  | long | double | rectangle | fraction => some 8
  | pointer => some 16
  | _ => .none

end SpaPODType

/-! ## Headers -/

structure SpaPOD where
  size : UInt32
  type : SpaPODType
  deriving DecidableEq, Repr

/-- `sizeof (SpaPOD)`. -/
def sizeofSpaPOD : Nat := 8

def SpaPOD.bytes (p : SpaPOD) : List UInt8 := toLE 4 p.size.toNat ++ toLE 4 p.type.code

@[simp] theorem SpaPOD.length_bytes (p : SpaPOD) : p.bytes.length = 8 := by
  rw [bytes, List.length_append, length_toLE, length_toLE]

/-- `SPA_POD_BODY_SIZE (pod)` of the pod at address `p`. -/
def podBodySize (m : Mem) (p : Nat) : Nat := m.u32 p

/-- `SPA_POD_TYPE (pod)`. -/
def podType (m : Mem) (p : Nat) : Nat := m.u32 (p + 4)

/-- `SPA_POD_SIZE (pod)`, computed in 64 bits because `sizeof` is. -/
def podSize (m : Mem) (p : Nat) : Nat := sizeofSpaPOD + podBodySize m p

theorem holds_header {m : Mem} {p : Nat} {h : SpaPOD} (hh : m.Holds p h.bytes) :
    podBodySize m p = h.size.toNat ∧ podType m p = h.type.code := by
  obtain ⟨hsize, htype⟩ := Mem.holds_append.mp hh
  rw [length_toLE] at htype
  exact ⟨hsize.u32.trans (Nat.mod_eq_of_lt h.size.toNat_lt),
    htype.u32.trans (Nat.mod_eq_of_lt h.type.code_lt)⟩

/-! ## Value trees -/

/-- A pod without pods inside: its type and body, of the size the type fixes. -/
structure Leaf where
  type : SpaPODType
  body : List UInt8
  isLeaf : type.isLeaf = true
  sized : ∀ n, type.bodySize? = some n → body.length = n

inductive Pod where
  | leaf (value : Leaf)
  | array (type : SpaPODType) (size : UInt32) (elems : List Leaf)
  | struct (contents : List Pod)
  | object (id type : UInt32) (contents : List Pod)
  | prop (key flags : UInt32) (value : Pod) (alternatives : List Leaf)

/-- The zero bytes that follow `size` bytes of a pod inside a container. -/
def padding (size : Nat) : List UInt8 := List.replicate (padLength size) 0

@[simp] theorem length_padding (size : Nat) : (padding size).length = padLength size :=
  List.length_replicate

namespace Pod

def type : Pod → SpaPODType
  | leaf l => l.type
  | array _ _ _ => .array
  | struct _ => .struct
  | object _ _ _ => .object
  | prop _ _ _ _ => .prop

/-- Header and body of a pod of type `t` with body `bs`. -/
def withHeader (t : SpaPODType) (bs : List UInt8) : List UInt8 :=
  SpaPOD.bytes ⟨.ofNat bs.length, t⟩ ++ bs

/-- The same followed by the padding that aligns the next pod. -/
def aligned (bs : List UInt8) : List UInt8 := bs ++ padding bs.length

mutual
def body : Pod → List UInt8
  | leaf l => l.body
  | array t size elems => SpaPOD.bytes ⟨size, t⟩ ++ elems.flatMap Leaf.body
  | struct contents => contentsBytes contents
  | object id type contents => toLE 4 id.toNat ++ toLE 4 type.toNat ++ contentsBytes contents
  | prop key flags value alternatives =>
      toLE 4 key.toNat ++ toLE 4 flags.toNat ++ withHeader value.type (body value) ++
        alternatives.flatMap Leaf.body

/-- The pods of a container one after the other, each aligned. -/
def contentsBytes : List Pod → List UInt8
  | [] => []
  | p :: rest => aligned (withHeader p.type (body p)) ++ contentsBytes rest
end

def encode (p : Pod) : List UInt8 := withHeader p.type p.body

theorem length_withHeader (t : SpaPODType) (bs : List UInt8) :
    (withHeader t bs).length = 8 + bs.length := by
  rw [withHeader, List.length_append, SpaPOD.length_bytes]

/-- Reading back a header and what follows it. -/
theorem holds_withHeader {m : Mem} {a : Nat} {t : SpaPODType} {bs : List UInt8}
    (h : m.Holds a (withHeader t bs)) (hlen : bs.length < 2 ^ 32) :
    podBodySize m a = bs.length ∧ podType m a = t.code ∧ m.Holds (a + 8) bs := by
  obtain ⟨hsize, htype⟩ := holds_header h.left
  have hbody := h.right
  rw [SpaPOD.length_bytes] at hbody
  refine ⟨?_, htype, hbody⟩
  rw [hsize, UInt32.toNat_ofNat']
  exact Nat.mod_eq_of_lt hlen

theorem length_encode (p : Pod) : p.encode.length = 8 + p.body.length :=
  length_withHeader p.type p.body

theorem length_aligned (bs : List UInt8) :
    (aligned bs).length = bs.length + padLength bs.length := by
  rw [aligned, List.length_append, length_padding]

/-- What is aligned needs no padding. -/
theorem aligned_of_mod {bs : List UInt8} (h : bs.length % 8 = 0) : aligned bs = bs := by
  rw [aligned, padding, padLength_of_mod h, List.replicate_zero, List.append_nil]

theorem length_aligned_mod (bs : List UInt8) : (aligned bs).length % 8 = 0 := by
  rw [length_aligned, padLength_eq]
  omega

theorem contentsBytes_cons (p : Pod) (rest : List Pod) :
    contentsBytes (p :: rest) = aligned p.encode ++ contentsBytes rest := by
  rw [contentsBytes, encode]

theorem length_contentsBytes_mod (ps : List Pod) : (contentsBytes ps).length % 8 = 0 := by
  induction ps with
  | nil => rw [contentsBytes, List.length_nil]
  | cons p rest ih =>
    have hp := length_aligned_mod p.encode
    rw [contentsBytes_cons, List.length_append]
    omega

/-- What makes a tree a well-formed value: arrays and property alternatives
repeat one leaf type and size, the value of a property is not itself a property,
and every body fits a 32-bit size. -/
inductive WellFormed : Pod → Prop
  | leaf (l : Leaf) : l.body.length < 2 ^ 32 → WellFormed (leaf l)
  | array (t : SpaPODType) (size : UInt32) (elems : List Leaf) :
      (∀ e ∈ elems, e.type = t ∧ e.body.length = size.toNat) →
      (body (array t size elems)).length < 2 ^ 32 → WellFormed (array t size elems)
  | struct (contents : List Pod) : (∀ p ∈ contents, WellFormed p) →
      (body (struct contents)).length < 2 ^ 32 → WellFormed (struct contents)
  | object (id type : UInt32) (contents : List Pod) : (∀ p ∈ contents, WellFormed p) →
      (body (object id type contents)).length < 2 ^ 32 → WellFormed (object id type contents)
  | prop (key flags : UInt32) (value : Pod) (alternatives : List Leaf) : WellFormed value →
      value.type ≠ .prop →
      (∀ a ∈ alternatives, value.type = a.type ∧ a.body.length = value.body.length) →
      (body (prop key flags value alternatives)).length < 2 ^ 32 →
      WellFormed (prop key flags value alternatives)

theorem WellFormed.length_body {p : Pod} (h : WellFormed p) : p.body.length < 2 ^ 32 := by
  cases h <;> assumption

end Pod
end Pinos
