import Pinos.Lib.ByteMem

/-
Signed 16-bit little-endian samples in byte-addressed memory.

A sample is an integer.  Storing one that does not fit keeps its low 16 bits, as an
assignment to an `int16_t` does; one that fits is read back as it was.
-/

namespace ByteMem

/-- The value of the bytes of a sample. -/
def signed16 (bs : List UInt8) : Int :=
  if ofLE bs < 32768 then ofLE bs else ofLE bs - 65536

/-- Sample number `k` of a list of bytes. -/
def sampleAt (bs : List UInt8) (k : Nat) : Int := signed16 ((bs.drop (2 * k)).take 2)

def Fits16 (v : Int) : Prop := -32768 ≤ v ∧ v ≤ 32767

theorem signed16_toLE {v : Int} (h : Fits16 v) : signed16 (toLE 2 (v % 65536).toNat) = v := by
  have hmod : (v % 65536).toNat % 256 ^ 2 = (v % 65536).toNat := Nat.mod_eq_of_lt (by omega)
  obtain ⟨hlow, hhigh⟩ := h
  rw [signed16, ofLE_toLE, hmod]
  split <;> omega

namespace Mem

def sample (m : Mem) (a : Nat) : Int := signed16 (m.read a 2)

def storeSample (m : Mem) (a : Nat) (v : Int) : Mem := m.write a (toLE 2 (v % 65536).toNat)

/-! ### Reading back -/

theorem sample_storeSample (m : Mem) (a : Nat) {v : Int} (h : Fits16 v) :
    (m.storeSample a v).sample a = v := by
  have hread : (m.storeSample a v).read a 2 = toLE 2 (v % 65536).toNat := by
    have hholds := holds_write m a (toLE 2 (v % 65536).toNat)
    unfold Holds at hholds
    rwa [length_toLE] at hholds
  rw [sample, hread, signed16_toLE h]

theorem sample_storeSample_outside (m : Mem) {a p : Nat} (v : Int) (h : p + 2 ≤ a ∨ a + 2 ≤ p) :
    (m.storeSample a v).sample p = m.sample p := by
  have hread : (m.storeSample a v).read p 2 = m.read p 2 :=
    read_write_outside m (by rwa [length_toLE])
  rw [sample, hread, sample]

/-! ### Samples of what was read -/

theorem sampleAt_read (m : Mem) (a : Nat) {n k : Nat} (h : 2 * k + 1 < n) :
    sampleAt (m.read a n) k = m.sample (a + 2 * k) := by
  rw [sampleAt, drop_read, take_read m (a + 2 * k) (by omega), sample]

end Mem
end ByteMem
