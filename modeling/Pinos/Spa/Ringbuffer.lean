import Pinos.Lib.ByteMem
import Pinos.Lib.ByteRing

/-
`spa/ringbuffer.h`: a ring of bytes whose indices run through all 32-bit values.

The size is a power of 2, so an index is brought into the ring by masking, and
the masked index goes on smoothly where the 32-bit index starts over.
-/

namespace Pinos

open ByteMem

structure SpaRingbuffer where
  readindex : UInt32
  writeindex : UInt32
  size : UInt32
  mask : UInt32
  size_pow : ∃ k, size.toNat = 2 ^ k
  mask_eq : mask = size - 1

/-- A value below `2 ^ 31` is not negative as an `int32_t`. -/
theorem toInt32_msb {x : UInt32} (h : x.toNat < 2 ^ 31) : x.toBitVec.msb = false := by
  rw [BitVec.msb_eq_false_iff_two_mul_lt]
  show 2 * x.toNat < 2 ^ 32
  omega

theorem toInt32_toInt {x : UInt32} (h : x.toNat < 2 ^ 31) : x.toInt32.toInt = x.toNat :=
  BitVec.toInt_eq_toNat_of_msb (toInt32_msb h)

theorem widen_toNat {x : UInt32} (h : x.toNat < 2 ^ 31) :
    x.toInt32.toInt64.toUInt64.toNat = x.toNat := by
  have hmsb := toInt32_msb h
  show (x.toBitVec.signExtend 64).toNat = x.toBitVec.toNat
  rw [BitVec.signExtend_eq_setWidth_of_msb_false hmsb, BitVec.toNat_setWidth]
  have hlt := x.toNat_lt
  exact Nat.mod_eq_of_lt (by omega)

namespace SpaRingbuffer

/-- `spa_ringbuffer_get_read_index`: how much can be read, and where. -/
def getReadIndex (rb : SpaRingbuffer) : Int32 × UInt32 :=
  ((rb.writeindex - rb.readindex).toInt32, rb.readindex)

/-- `spa_ringbuffer_get_write_index`: how much is filled, and where to write. -/
def getWriteIndex (rb : SpaRingbuffer) : Int32 × UInt32 :=
  ((rb.writeindex - rb.readindex).toInt32, rb.writeindex)

def readData (rb : SpaRingbuffer) (buffer : Mem) (offset len : UInt32) : List UInt8 :=
  let first := min len (rb.size - offset)
  buffer.read offset.toNat first.toNat ++
    if first < len then buffer.read 0 (len - first).toNat else []

/-- The first `len` bytes of `data` are copied. -/
def writeData (rb : SpaRingbuffer) (buffer : Mem) (offset : UInt32) (data : List UInt8)
    (len : UInt32) : Mem :=
  let first := min len (rb.size - offset)
  let buffer := buffer.write offset.toNat (data.take first.toNat)
  if first < len then buffer.write 0 ((data.take len.toNat).drop first.toNat) else buffer

def readUpdate (rb : SpaRingbuffer) (index : UInt32) : SpaRingbuffer :=
  { rb with readindex := index }

def writeUpdate (rb : SpaRingbuffer) (index : UInt32) : SpaRingbuffer :=
  { rb with writeindex := index }

/-- The number of bytes between the indices. -/
def filled (rb : SpaRingbuffer) : Nat := (rb.writeindex - rb.readindex).toNat

variable (rb : SpaRingbuffer)

theorem size_pos : 0 < rb.size.toNat := by
  obtain ⟨k, hk⟩ := rb.size_pow
  rw [hk]
  exact Nat.two_pow_pos k

theorem size_dvd : rb.size.toNat ∣ 2 ^ 32 := by
  obtain ⟨k, hk⟩ := rb.size_pow
  have hlt := rb.size.toNat_lt
  rw [hk] at hlt ⊢
  exact Nat.pow_dvd_pow 2 (Nat.le_of_lt ((Nat.pow_lt_pow_iff_right (by decide)).mp hlt))

theorem masked_toNat (index : UInt32) :
    (index &&& rb.mask).toNat = index.toNat % rb.size.toNat := by
  obtain ⟨k, hk⟩ := rb.size_pow
  have hpos := rb.size_pos
  have hlt := rb.size.toNat_lt
  have hmask : rb.mask.toNat = rb.size.toNat - 1 := by
    rw [rb.mask_eq, UInt32.toNat_sub]
    show (2 ^ 32 - 1 + rb.size.toNat) % 2 ^ 32 = _
    omega
  rw [UInt32.toNat_and, hmask, hk, Nat.and_two_pow_sub_one_eq_mod]

theorem index_mod (index : UInt32) (len : Nat) :
    (index + .ofNat len).toNat % rb.size.toNat = (index.toNat + len) % rb.size.toNat := by
  rw [UInt32.toNat_add, UInt32.toNat_ofNat', Nat.mod_mod_of_dvd _ rb.size_dvd, Nat.add_mod,
    Nat.mod_mod_of_dvd _ rb.size_dvd, ← Nat.add_mod]

/-- The write index lies behind what is filled, up to full rounds. -/
theorem writeindex_mod :
    rb.writeindex.toNat % rb.size.toNat = (rb.readindex.toNat + rb.filled) % rb.size.toNat := by
  rw [← rb.index_mod, filled, UInt32.ofNat_toNat]
  congr 2
  rw [UInt32.add_comm, UInt32.sub_add_cancel]

theorem filled_writeUpdate {len : Nat} (h : rb.filled + len < 2 ^ 32) :
    (rb.writeUpdate (rb.writeindex + .ofNat len)).filled = rb.filled + len := by
  have hfilled : rb.filled = (rb.writeindex - rb.readindex).toNat := rfl
  have hsub : rb.writeindex + .ofNat len - rb.readindex
      = rb.writeindex - rb.readindex + .ofNat len := by
    rw [UInt32.sub_eq_add_neg, UInt32.sub_eq_add_neg, UInt32.add_assoc, UInt32.add_assoc,
      UInt32.add_comm (-rb.readindex)]
  show (rb.writeindex + .ofNat len - rb.readindex).toNat = _
  rw [hsub, UInt32.toNat_add, UInt32.toNat_ofNat', ← hfilled, Nat.mod_eq_of_lt (by omega : len < _),
    Nat.mod_eq_of_lt h]

theorem filled_readUpdate {len : Nat} (h : len ≤ rb.filled) :
    (rb.readUpdate (rb.readindex + .ofNat len)).filled = rb.filled - len := by
  have hfilled : rb.filled = (rb.writeindex - rb.readindex).toNat := rfl
  have hlt := (rb.writeindex - rb.readindex).toNat_lt
  have hsub : rb.writeindex - (rb.readindex + .ofNat len)
      = rb.writeindex - rb.readindex - .ofNat len := by
    rw [UInt32.sub_eq_add_neg, UInt32.sub_eq_add_neg, UInt32.sub_eq_add_neg, UInt32.neg_add,
      UInt32.sub_eq_add_neg, UInt32.add_assoc]
  have hlen : (UInt32.ofNat len).toNat = len := by
    rw [UInt32.toNat_ofNat', Nat.mod_eq_of_lt (by omega)]
  show (rb.writeindex - (rb.readindex + .ofNat len)).toNat = _
  rw [hsub, UInt32.toNat_sub_of_le _ _ (UInt32.le_iff_toNat_le.mpr (by omega)), hlen, ← hfilled]

theorem first_toNat (index len : UInt32) :
    (min len (rb.size - (index &&& rb.mask))).toNat
      = min len.toNat (rb.size.toNat - index.toNat % rb.size.toNat) := by
  have hlt := Nat.mod_lt index.toNat rb.size_pos
  have hsize := rb.size.toNat_lt
  have hroom : (rb.size - (index &&& rb.mask)).toNat
      = rb.size.toNat - index.toNat % rb.size.toNat := by
    rw [UInt32.toNat_sub, rb.masked_toNat]
    omega
  rw [← hroom]
  show (if len ≤ _ then len else _ : UInt32).toNat = _
  by_cases hle : len ≤ rb.size - (index &&& rb.mask)
  · rw [if_pos hle, Nat.min_eq_left (UInt32.le_iff_toNat_le.mp hle)]
  · have hlt := Nat.lt_of_not_le (mt UInt32.le_iff_toNat_le.mpr hle)
    rw [if_neg hle, Nat.min_eq_right (Nat.le_of_lt hlt)]

/-- The two parts of a read are a read of the ring. -/
theorem readData_masked (buffer : Mem) (index len : UInt32) :
    rb.readData buffer (index &&& rb.mask) len
      = buffer.ringRead rb.size.toNat index.toNat len.toNat := by
  have hfirst := rb.first_toNat index len
  have hle : (min len (rb.size - (index &&& rb.mask))).toNat ≤ len.toNat := by omega
  rw [readData, Mem.ringRead, rb.masked_toNat, ← hfirst]
  congr 1
  by_cases hlt : min len (rb.size - (index &&& rb.mask)) < len
  · rw [if_pos hlt, UInt32.toNat_sub_of_le _ _ (UInt32.le_iff_toNat_le.mpr hle)]
  · have hge := mt UInt32.lt_iff_toNat_lt.mpr hlt
    rw [if_neg hlt, show len.toNat - _ = 0 by omega]
    rfl

/-- The two parts of a write are a write to the ring. -/
theorem writeData_masked (buffer : Mem) (index : UInt32) {data : List UInt8} {len : UInt32}
    (hlen : len.toNat ≤ data.length) :
    rb.writeData buffer (index &&& rb.mask) data len
      = buffer.ringWrite rb.size.toNat index.toNat (data.take len.toNat) := by
  have hfirst := rb.first_toNat index len
  have hle : (min len (rb.size - (index &&& rb.mask))).toNat ≤ len.toNat := by omega
  have htake : (data.take len.toNat).length = len.toNat := by
    rw [List.length_take, Nat.min_eq_left hlen]
  rw [writeData, Mem.ringWrite, rb.masked_toNat, htake, ← hfirst, List.take_take,
    Nat.min_eq_left hle]
  by_cases hlt : min len (rb.size - (index &&& rb.mask)) < len
  · rw [if_pos hlt]
  · have hge := mt UInt32.lt_iff_toNat_lt.mpr hlt
    rw [if_neg hlt, List.drop_eq_nil_of_le (by omega), Mem.write_nil]

end SpaRingbuffer
end Pinos
