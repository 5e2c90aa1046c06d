import Pinos.Lib.ByteMem
import Pinos.Lib.Run
import Pinos.Spa.Defs
import Pinos.Spa.Ringbuffer

/-
`client/loop.c`: calls handed over from another thread to the loop thread.

`loop_invoke` writes an item behind those that are queued and signals the loop,
and `event_func` calls the functions of all queued items.  Items lie in one
piece in the buffer, with a rule for what does not fit in front of its end.
-/

namespace Pinos

open ByteMem

/-- The arguments of a call from another thread; the size is that of the payload. -/
structure Invoke where
  func : UInt64
  seq : UInt32
  payload : List UInt8
  userData : UInt64
  deriving DecidableEq

/-- `DATAS_SIZE`. -/
def datasSize : Nat := 4096 * 8

/-- `sizeof (InvokeItem)`: `item_size` at 0, `func` at 8, `seq` at 16, `size` at 24,
`data` at 32 and `user_data` at 40. -/
def sizeofItem : Nat := 48

/-- The queue of a loop, whose `buffer_data` is at address `base`. -/
structure PinosLoop where
  buffer : SpaRingbuffer
  base : Nat
  mem : Mem
  inAddressSpace : base + datasSize < 2 ^ 64

namespace PinosLoop

/-- Where the payload of an item at `item` goes, and the size of the item, given the
remainder `l0`. -/
def place (base item : Nat) (l0 : UInt32) (size : Nat) : Nat × Nat :=
  if sizeofItem + size < l0.toNat then
    let itemSize := sizeofItem + size
    (item + sizeofItem, if l0.toNat < sizeofItem + itemSize then l0.toNat else itemSize)
  else (base, l0.toNat + 1 + size)

/-- The stores to an item, and the copy of the payload. -/
def store (mem : Mem) (item : Nat) (inv : Invoke) (place : Nat × Nat) : Mem :=
  let mem := mem.write (item + 8) (toLE 8 inv.func.toNat)
  let mem := mem.write (item + 16) (toLE 4 inv.seq.toNat)
  let mem := mem.write (item + 24) (toLE 8 inv.payload.length)
  let mem := mem.write (item + 40) (toLE 8 inv.userData.toNat)
  let mem := mem.write (item + 32) (toLE 8 place.1)
  let mem := mem.write item (toLE 8 place.2)
  mem.write place.1 inv.payload

/-- The remainder `l0` at an index, with the subtraction the wrong way round. -/
def remainder (l : PinosLoop) (idx avail : UInt32) : UInt32 :=
  let l0 := (idx &&& l.buffer.mask) + avail
  if l.buffer.size < l0 then l.buffer.size - l0 else l0

/-- The free space, or none if the call is refused. -/
def room (l : PinosLoop) : Option UInt32 :=
  let filled := l.buffer.getWriteIndex.1
  if filled < 0 ∨ l.buffer.size < filled.toUInt32 then none
  else
    let avail : Int32 := (l.buffer.size - filled.toUInt32).toInt32
    if avail.toInt64.toUInt64 < .ofNat sizeofItem then none else some avail.toUInt32

/-- `loop_invoke` from another thread. -/
def loopInvoke (l : PinosLoop) (inv : Invoke) : PinosLoop × SpaResult :=
  match l.room with
  | none => (l, SpaResult.error)
  | some avail =>
    let idx := l.buffer.getWriteIndex.2
    let item := l.base + (idx &&& l.buffer.mask).toNat
    let mem := store l.mem item inv (place l.base item (l.remainder idx avail) inv.payload.length)
    ({ l with
        mem := mem
        buffer := l.buffer.writeUpdate (.ofNat (idx.toNat + mem.u64 item)) },
      if inv.seq ≠ spaIdInvalid then SpaResult.returnAsync inv.seq else SpaResult.ok)

/-- The addresses that `loop_invoke` writes to: from where, and how many. -/
def writes (l : PinosLoop) (inv : Invoke) : List (Nat × Nat) :=
  match l.room with
  | none => []
  | some avail =>
    let idx := l.buffer.getWriteIndex.2
    let item := l.base + (idx &&& l.buffer.mask).toNat
    [(item, sizeofItem),
      ((place l.base item (l.remainder idx avail) inv.payload.length).1, inv.payload.length)]

/-- The call that an item asks for. -/
def itemAt (mem : Mem) (item : Nat) : Invoke where
  func := .ofNat (mem.u64 (item + 8))
  seq := .ofNat (mem.u32 (item + 16))
  payload := mem.read (mem.u64 (item + 32)) (mem.u64 (item + 24))
  userData := .ofNat (mem.u64 (item + 40))

/-- The loop of `event_func`; none if `fuel` turns are not enough. -/
def eventFunc (l : PinosLoop) : Nat → Option (PinosLoop × List Invoke)
  | 0 => none
  | fuel + 1 =>
    let (avail, index) := l.buffer.getReadIndex
    if 0 < avail then
      let item := l.base + (index &&& l.buffer.mask).toNat
      let l' := { l with
        buffer := l.buffer.readUpdate (.ofNat (index.toNat + l.mem.u64 item)) }
      (eventFunc l' fuel).map fun (l'', calls) => (l'', itemAt l.mem item :: calls)
    else some (l, [])

/-! ## Room and place -/

section Room

variable {l : PinosLoop} (hsize : l.buffer.size = 32768)
include hsize

theorem room_eq :
    l.room = if datasSize < l.buffer.filled + sizeofItem then none
      else some (l.buffer.size - (l.buffer.writeindex - l.buffer.readindex)) := by
  have hfilled : l.buffer.filled = (l.buffer.writeindex - l.buffer.readindex).toNat := rfl
  have hsizeNat : l.buffer.size.toNat = datasSize := by
    rw [hsize]
    rfl
  have hdatas : datasSize = 32768 := rfl
  have hitem : sizeofItem = 48 := rfl
  rw [room, SpaRingbuffer.getWriteIndex]
  simp only [UInt32.toUInt32_toInt32]
  by_cases hover : datasSize < l.buffer.filled
  · have hlt : l.buffer.size < l.buffer.writeindex - l.buffer.readindex := by
      rw [UInt32.lt_iff_toNat_lt, hsizeNat, ← hfilled]
      exact hover
    rw [if_pos (.inr hlt), if_pos (by omega)]
  · have hneg : ¬ (l.buffer.writeindex - l.buffer.readindex).toInt32 < 0 := by
      rw [Int32.lt_iff_toInt_lt, toInt32_toInt (by omega)]
      show ¬ ((l.buffer.writeindex - l.buffer.readindex).toNat : Int) < 0
      omega
    have hle : ¬ l.buffer.size < l.buffer.writeindex - l.buffer.readindex := by
      rw [UInt32.lt_iff_toNat_lt, hsizeNat, ← hfilled]
      exact hover
    have havail : (l.buffer.size - (l.buffer.writeindex - l.buffer.readindex)).toNat
        = datasSize - l.buffer.filled := by
      rw [UInt32.toNat_sub, ← hfilled, hsizeNat]
      omega
    rw [if_neg (not_or.mpr ⟨hneg, hle⟩)]
    by_cases hfull : datasSize < l.buffer.filled + sizeofItem
    · rw [if_pos hfull, if_pos]
      rw [UInt64.lt_iff_toNat_lt, widen_toNat (by omega), havail]
      show _ < 48
      omega
    · rw [if_neg hfull, if_neg]
      rw [UInt64.lt_iff_toNat_lt, widen_toNat (by omega), havail]
      show ¬ _ < 48
      omega

/-- With free space `a` in front of the end of the buffer, the remainder counts from
its start; with free space across the end it is close to `2 ^ 32`. -/
theorem remainder_toNat {avail : UInt32} (havail : avail.toNat ≤ datasSize) (idx : UInt32) :
    (l.remainder idx avail).toNat =
      if datasSize < idx.toNat % datasSize + avail.toNat then
        2 ^ 32 + datasSize - (idx.toNat % datasSize + avail.toNat)
      else idx.toNat % datasSize + avail.toNat := by
  have hsizeNat : l.buffer.size.toNat = datasSize := by
    rw [hsize]
    rfl
  have hdatas : datasSize = 32768 := rfl
  have hmasked := l.buffer.masked_toNat idx
  rw [hsizeNat] at hmasked
  have hmod := Nat.mod_lt idx.toNat (show 0 < datasSize by decide)
  have hsum : ((idx &&& l.buffer.mask) + avail).toNat = idx.toNat % datasSize + avail.toNat := by
    rw [UInt32.toNat_add, hmasked, Nat.mod_eq_of_lt (by omega)]
  rw [remainder]
  show UInt32.toNat (if _ then _ else _) = _
  by_cases hover : datasSize < idx.toNat % datasSize + avail.toNat
  · have hlt : l.buffer.size < (idx &&& l.buffer.mask) + avail := by
      rw [UInt32.lt_iff_toNat_lt, hsizeNat, hsum]
      exact hover
    rw [if_pos hlt, if_pos hover, UInt32.toNat_sub, hsum, hsizeNat]
    omega
  · have hle : ¬ l.buffer.size < (idx &&& l.buffer.mask) + avail := by
      rw [UInt32.lt_iff_toNat_lt, hsizeNat, hsum]
      exact hover
    rw [if_neg hle, if_neg hover, hsum]

end Room

/-! ## Writing an item -/

/-- Outside the item and its payload nothing changes. -/
theorem store_outside (mem : Mem) (item : Nat) (inv : Invoke) (place : Nat × Nat) {i : Nat}
    (hitem : i < item ∨ item + sizeofItem ≤ i)
    (hpayload : i < place.1 ∨ place.1 + inv.payload.length ≤ i) :
    store mem item inv place i = mem i := by
  have hsizeof : sizeofItem = 48 := rfl
  rw [store, Mem.write_outside _ hpayload]
  repeat rw [Mem.write_outside _ (by rw [length_toLE]; omega)]

/-- An item whose payload does not lie over it reads back as it was written. -/
theorem store_item (mem : Mem) (item : Nat) (inv : Invoke) (place : Nat × Nat)
    (hdest : place.1 < 2 ^ 64) (hsize : place.2 < 2 ^ 64) (hlen : inv.payload.length < 2 ^ 64)
    (hplace : inv.payload = [] ∨ item + sizeofItem ≤ place.1) :
    (store mem item inv place).u64 item = place.2 ∧
      (store mem item inv place).u64 (item + 24) = inv.payload.length ∧
        (store mem item inv place).u64 (item + 32) = place.1 ∧
          itemAt (store mem item inv place) item = inv := by
  have hsizeof : sizeofItem = 48 := rfl
  have hkeep : ∀ k, k + 8 ≤ 48 → ∀ m : Mem,
      (m.write place.1 inv.payload).u64 (item + k) = m.u64 (item + k) := by
    intro k hk m
    rcases hplace with hnil | hbehind
    · rw [hnil, Mem.write_nil]
    · exact Mem.u64_write_outside m (Or.inl (by omega))
  have hsizeAt : (store mem item inv place).u64 item = place.2 := by
    rw [store]
    have h := hkeep 0 (by omega)
    rw [Nat.add_zero] at h
    rw [h, Mem.u64_write, Nat.mod_eq_of_lt hsize]
  have hdestAt : (store mem item inv place).u64 (item + 32) = place.1 := by
    rw [store, hkeep 32 (by omega), Mem.u64_write_outside _ (by rw [length_toLE]; omega),
      Mem.u64_write, Nat.mod_eq_of_lt hdest]
  have huserAt : (store mem item inv place).u64 (item + 40) = inv.userData.toNat := by
    rw [store, hkeep 40 (by omega), Mem.u64_write_outside _ (by rw [length_toLE]; omega),
      Mem.u64_write_outside _ (by rw [length_toLE]; omega), Mem.u64_write,
      Nat.mod_eq_of_lt inv.userData.toNat_lt]
  have hlenAt : (store mem item inv place).u64 (item + 24) = inv.payload.length := by
    rw [store, hkeep 24 (by omega), Mem.u64_write_outside _ (by rw [length_toLE]; omega),
      Mem.u64_write_outside _ (by rw [length_toLE]; omega),
      Mem.u64_write_outside _ (by rw [length_toLE]; omega), Mem.u64_write,
      Nat.mod_eq_of_lt hlen]
  have hfuncAt : (store mem item inv place).u64 (item + 8) = inv.func.toNat := by
    rw [store, hkeep 8 (by omega)]
    repeat rw [Mem.u64_write_outside _ (by rw [length_toLE]; omega)]
    rw [Mem.u64_write, Nat.mod_eq_of_lt inv.func.toNat_lt]
  have hseqAt : (store mem item inv place).u32 (item + 16) = inv.seq.toNat := by
    have hkeep32 : ∀ m : Mem, (m.write place.1 inv.payload).u32 (item + 16) = m.u32 (item + 16) := by
      intro m
      rcases hplace with hnil | hbehind
      · rw [hnil, Mem.write_nil]
      · exact Mem.u32_write_outside m (Or.inl (by omega))
    rw [store, hkeep32]
    repeat rw [Mem.u32_write_outside _ (by rw [length_toLE]; omega)]
    rw [Mem.u32_write, Nat.mod_eq_of_lt inv.seq.toNat_lt]
  have hpayload : (store mem item inv place).read place.1 inv.payload.length = inv.payload :=
    Mem.holds_write _ _ _
  refine ⟨hsizeAt, hlenAt, hdestAt, ?_⟩
  rw [itemAt, hdestAt, huserAt, hlenAt, hfuncAt, hseqAt, hpayload, UInt64.ofNat_toNat,
    UInt64.ofNat_toNat, UInt32.ofNat_toNat]

end PinosLoop
end Pinos
