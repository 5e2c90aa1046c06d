import Mathlib.Algebra.Group.Nat.Defs

/-
`spa/defs.h`: results, and the sequence numbers packed into them.
-/

namespace Pinos

/-- The bits of a `SpaResult`. -/
abbrev SpaResult := UInt32

namespace SpaResult

def ok : SpaResult := 0

def waitSync : SpaResult := 2

def error : SpaResult := 0xFFFFFFFF

def errno : SpaResult := 0xFFFFFFFE

def haveBuffer : SpaResult := 0xFFFFFFF9

def needBuffer : SpaResult := 0xFFFFFFF8

def noFormat : SpaResult := 0xFFFFFFFC

def invalidPort : SpaResult := 0xFFFFFFFA

def notImplemented : SpaResult := 0xFFFFFFF4

def enumEnd : SpaResult := 0xFFFFFFF1

def invalidMediaType : SpaResult := 0xFFFFFFEE

def noMemory : SpaResult := 0xFFFFFFE0

def noPermission : SpaResult := 0xFFFFFFDF

/-- `SPA_RESULT_IS_ERROR`: the sign bit is set. -/
def isError (res : SpaResult) : Bool := 0x80000000 ≤ res

def isAsync (res : SpaResult) : Bool := res &&& 0xC0000000 == 0x40000000

def asyncSeq (res : SpaResult) : UInt32 := res &&& 0x3FFFFFFF

theorem asyncSeq_ne (res : SpaResult) : res.asyncSeq ≠ 0xFFFFFFFF := by
  intro h
  have hand := congrArg UInt32.toNat h
  rw [asyncSeq, UInt32.toNat_and] at hand
  have hle : res.toNat &&& 0x3FFFFFFF ≤ 0x3FFFFFFF := Nat.and_le_right
  have hand : res.toNat &&& 0x3FFFFFFF = 0xFFFFFFFF := hand
  omega

def returnAsync (seq : UInt32) : SpaResult := 0x40000000 ||| (seq &&& 0x3FFFFFFF)

theorem isAsync_returnAsync (seq : UInt32) : (returnAsync seq).isAsync = true := by
  rw [isAsync, returnAsync, beq_iff_eq]
  apply UInt32.toNat_inj.mp
  rw [UInt32.toNat_and, UInt32.toNat_or, UInt32.toNat_and, Nat.and_or_distrib_right, Nat.and_assoc]
  show 0x40000000 &&& 0xC0000000 ||| seq.toNat &&& (0x3FFFFFFF &&& 0xC0000000) = 0x40000000
  rw [show 0x3FFFFFFF &&& 0xC0000000 = 0 from rfl, Nat.and_zero]
  rfl

theorem returnAsync_ne_error (seq : UInt32) : returnAsync seq ≠ error := by
  intro h
  have hasync := isAsync_returnAsync seq
  rw [h] at hasync
  exact absurd hasync (by decide)

theorem asyncSeq_returnAsync (seq : UInt32) :
    (returnAsync seq).asyncSeq.toNat = seq.toNat % 2 ^ 30 := by
  rw [asyncSeq, returnAsync, UInt32.toNat_and, UInt32.toNat_or, UInt32.toNat_and,
    Nat.and_or_distrib_right, Nat.and_assoc]
  show 0x40000000 &&& 0x3FFFFFFF ||| seq.toNat &&& (2 ^ 30 - 1) = _
  rw [Nat.and_two_pow_sub_one_eq_mod]
  exact Nat.zero_or _

end SpaResult

/-- `SPA_ID_INVALID`. -/
def spaIdInvalid : UInt32 := 0xFFFFFFFF

end Pinos
