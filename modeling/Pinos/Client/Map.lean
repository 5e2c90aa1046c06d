import Mathlib.Algebra.Group.Nat.Defs
import Mathlib.Data.List.Basic

/-
`client/map.h`: a table of pointers indexed by small ids.

A slot is a union of a 64-bit pointer and a 32-bit link of the free list, told
apart by the lowest bit; `NULL` is 0.  Allocation of the table does not fail.
-/

namespace Pinos

structure PinosMap where
  items : List UInt64
  freeList : UInt32

namespace PinosMap

/-- Read the slot as `item->next`. -/
def itemNext (item : UInt64) : UInt32 := item.toUInt32

def itemIsFree (item : UInt64) : Bool := itemNext item % 2 == 1

/-- Write `item->next`, which leaves the upper half of the slot. -/
def setItemNext (item : UInt64) (next : UInt32) : UInt64 :=
  .ofNat (item.toNat / 2 ^ 32 * 2 ^ 32 + next.toNat)

/-- `PINOS_MAP_ID_TO_PTR (id)`. -/
def idToPtr (id : UInt32) : UInt64 := (id * 2).toUInt64

/-- `PINOS_MAP_PTR_TO_ID (p)`. -/
def ptrToId (p : UInt64) : UInt32 := p.toUInt32 / 2

def empty : PinosMap := { items := [], freeList := 0 }

def size (map : PinosMap) : Nat := map.items.length

def insertNew (map : PinosMap) (data : UInt64) : PinosMap × UInt32 :=
  if map.freeList ≠ 0 then
    let i := (map.freeList / 2).toNat
    ({ items := map.items.set i data, freeList := itemNext (map.items.getD i 0) }, .ofNat i)
  else ({ map with items := map.items ++ [data] }, .ofNat map.size)

def insertAt (map : PinosMap) (id : UInt32) (data : UInt64) : PinosMap × Bool :=
  if map.size < id.toNat then (map, false)
  else if id.toNat = map.size then ({ map with items := map.items ++ [data] }, true)
  else ({ map with items := map.items.set id.toNat data }, true)

def remove (map : PinosMap) (id : UInt32) : PinosMap :=
  { items := map.items.set id.toNat (setItemNext (map.items.getD id.toNat 0) map.freeList)
    freeList := id * 2 ||| 1 }

def lookup (map : PinosMap) (id : Nat) : UInt64 :=
  match map.items[id]? with
  | none => 0
  | some item => if itemIsFree item then 0 else item

/-- The id another id is mapped to in a table of ids; none when there is none. -/
def image (map : PinosMap) (id : Nat) : Option UInt32 :=
  if map.lookup id = 0 then none else some (ptrToId (map.lookup id))

end PinosMap
end Pinos
