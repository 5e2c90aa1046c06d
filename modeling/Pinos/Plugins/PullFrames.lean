import Mathlib.Algebra.Order.Group.Nat
import Pinos.Lib.Run
import Pinos.Plugins.AlsaUtils

/-
Which pulls of an ALSA sink hand the bytes of its buffers on: those that come to the end of one
buffer at most, and this from the start of its data.
-/

namespace Pinos

open ByteMem

namespace SpaALSABuffer

/-- The bytes of a buffer that are still to be copied. -/
def rest (b : SpaALSABuffer) (readyOffset : Nat) : List UInt8 :=
  match b.rb with
  | some rb => b.data.ringRead rb.size.toNat rb.readindex.toNat rb.filled
  | none => b.data.read (b.chunkOffset.toNat + readyOffset) (b.chunkSize.toNat - readyOffset)

/-- The chunk is inside the data and has whole frames; a ringbuffer is not overrun. -/
def WellFormed (b : SpaALSABuffer) (frameSize : Nat) : Prop :=
  match b.rb with
  | some rb => rb.filled ≤ rb.size.toNat ∧ rb.filled < 2 ^ 31
  | none => b.chunkOffset.toNat + b.chunkSize.toNat ≤ b.maxsize.toNat ∧
    frameSize ∣ b.chunkSize.toNat

/-- Whole frames of a chunk were copied, and not more than there are. -/
def Reached (b : SpaALSABuffer) (frameSize readyOffset : Nat) : Prop :=
  b.rb = none → readyOffset ≤ b.chunkSize.toNat ∧ frameSize ∣ readyOffset

/-- What is copied is what is next, as far as there is room; the buffer is reused when that is
all of it, and the frames are counted. -/
structure CopiesRight (b : SpaALSABuffer) (frameSize readyOffset toWrite : Nat) : Prop where
  bytes : (b.copy readyOffset (toWrite * frameSize)).bytes =
    (b.rest readyOffset).take (toWrite * frameSize)
  reuse : (b.copy readyOffset (toWrite * frameSize)).reuse = true ↔
    (b.rest readyOffset).length ≤ toWrite * frameSize
  frames : min toWrite ((b.copy readyOffset (toWrite * frameSize)).nBytes / frameSize) * frameSize =
    (b.copy readyOffset (toWrite * frameSize)).bytes.length

/-- When a buffer is copied right: a chunk that is finished starts with its data, one that is not
has bytes left that `size` counts, or an offset beyond its size; a ringbuffer that is finished has
whole frames. -/
def Fits (b : SpaALSABuffer) (frameSize readyOffset room : Nat) : Prop :=
  match b.rb with
  | some rb => rb.filled < room → frameSize ∣ rb.filled
  | none =>
    if room < b.chunkSize.toNat - readyOffset then
      2 * readyOffset + room + b.chunkOffset.toNat < b.chunkSize.toNat ∨
        b.chunkSize.toNat < b.chunkOffset.toNat + readyOffset
    else b.chunkOffset = 0

variable {b : SpaALSABuffer} {frameSize readyOffset toWrite room : Nat}

theorem length_ringRead {m : Mem} {n p len : Nat} : (m.ringRead n p len).length = len := by
  rw [Mem.ringRead, List.length_append, Mem.length_read, Mem.length_read]
  omega

theorem length_rest : (b.rest readyOffset).length =
    match b.rb with
    | some rb => rb.filled
    | none => b.chunkSize.toNat - readyOffset := by
  unfold rest
  cases b.rb with
  | some rb => exact length_ringRead
  | none => exact Mem.length_read ..

/-- Reads of one place are the same when they have one length. -/
theorem read_inj {m : Mem} {a k n : Nat} : m.read a k = m.read a n ↔ k = n := by
  constructor
  · intro h
    have hlen := congrArg List.length h
    rwa [Mem.length_read, Mem.length_read] at hlen
  · rintro rfl
    rfl

theorem frames_of_dvd (hpos : 0 < frameSize) {n : Nat} (hn : n ≤ toWrite * frameSize)
    (hdvd : frameSize ∣ n) : min toWrite (n / frameSize) * frameSize = n := by
  obtain ⟨k, rfl⟩ := hdvd
  rw [Nat.mul_div_cancel_left k hpos, Nat.mul_comm frameSize k, Nat.min_eq_right]
  rw [Nat.mul_comm frameSize k] at hn
  exact Nat.le_of_mul_le_mul_right hn hpos

/-- What is left of a chunk, as `pull_frames` counts it. -/
def sizeLeft (b : SpaALSABuffer) (readyOffset : Nat) : Nat :=
  if b.chunkOffset.toNat + readyOffset ≤ b.chunkSize.toNat then
    b.chunkSize.toNat - (b.chunkOffset.toNat + readyOffset)
  else 2 ^ 64 + b.chunkSize.toNat - (b.chunkOffset.toNat + readyOffset)

theorem wellFormed_chunk (hrb : b.rb = none) (hwf : b.WellFormed frameSize) :
    b.chunkOffset.toNat + b.chunkSize.toNat ≤ b.maxsize.toNat ∧ frameSize ∣ b.chunkSize.toNat := by
  rw [WellFormed, hrb] at hwf
  exact hwf

/-- What a chunk gives. -/
theorem copy_chunk (hrb : b.rb = none) (hwf : b.WellFormed frameSize)
    (hle : readyOffset ≤ b.chunkSize.toNat) :
    b.copy readyOffset room =
      { nBytes := min (b.sizeLeft readyOffset) room
        bytes := b.data.read (b.chunkOffset.toNat + readyOffset) (min (b.sizeLeft readyOffset) room)
        buffer := b
        readyOffset := readyOffset + min (b.sizeLeft readyOffset) room
        reuse := decide (b.sizeLeft readyOffset ≤
          readyOffset + min (b.sizeLeft readyOffset) room) } := by
  obtain ⟨hinside, -⟩ := wellFormed_chunk hrb hwf
  have hmax := b.maxsize.toNat_lt
  have hoffs : min (b.chunkOffset.toNat + readyOffset) b.maxsize.toNat =
      b.chunkOffset.toNat + readyOffset := by omega
  have hsize : (min b.chunkSize.toNat b.maxsize.toNat + 2 ^ 64 -
      (b.chunkOffset.toNat + readyOffset)) % 2 ^ 64 = b.sizeLeft readyOffset := by
    rw [Nat.min_eq_left (by omega), sizeLeft]
    split
    · omega
    · omega
  rw [copy, hrb]
  dsimp only
  rw [copyChunk, hoffs, hsize]

/-- A chunk is copied right exactly when it fits. -/
theorem copiesRight_chunk (hpos : 0 < frameSize) (hrb : b.rb = none) (hwf : b.WellFormed frameSize)
    (hreached : b.Reached frameSize readyOffset) (hroom : toWrite * frameSize < 2 ^ 63) :
    b.CopiesRight frameSize readyOffset toWrite ↔
      b.Fits frameSize readyOffset (toWrite * frameSize) := by
  obtain ⟨hle, hdvd⟩ := hreached hrb
  obtain ⟨-, hwhole⟩ := wellFormed_chunk hrb hwf
  have hcopy := @copy_chunk b frameSize readyOffset (toWrite * frameSize) hrb hwf hle
  obtain ⟨size, hsize⟩ : ∃ size, size = b.sizeLeft readyOffset := ⟨_, rfl⟩
  rw [← hsize] at hcopy
  rw [sizeLeft] at hsize
  have hrest : (b.rest readyOffset).take (toWrite * frameSize) =
      b.data.read (b.chunkOffset.toNat + readyOffset)
        (min (b.chunkSize.toNat - readyOffset) (toWrite * frameSize)) := by
    rw [rest, hrb]
    dsimp only
    rw [← Mem.take_read _ _ (Nat.min_le_left _ (toWrite * frameSize)), List.take_eq_take_min,
      Mem.length_read, Nat.min_comm]
  have hlength : (b.rest readyOffset).length = b.chunkSize.toNat - readyOffset := by
    rw [length_rest, hrb]
  have hoffset : b.chunkOffset = 0 ↔ b.chunkOffset.toNat = 0 := by
    rw [← UInt32.toNat_inj]
    rfl
  have hbound := b.chunkSize.toNat_lt
  have hbound' := b.chunkOffset.toNat_lt
  have hfits : b.Fits frameSize readyOffset (toWrite * frameSize) ↔
      min size (toWrite * frameSize) =
          min (b.chunkSize.toNat - readyOffset) (toWrite * frameSize) ∧
        (size ≤ readyOffset + min size (toWrite * frameSize) ↔
          b.chunkSize.toNat - readyOffset ≤ toWrite * frameSize) := by
    rw [Fits, hrb]
    dsimp only
    rw [hoffset]
    generalize toWrite * frameSize = room at hroom
    split at hsize
    · split
      · omega
      · omega
    · split
      · omega
      · omega
  rw [hfits]
  constructor
  · intro hright
    have hbytes := hright.bytes
    have hreuse := hright.reuse
    rw [hcopy, hrest, read_inj] at hbytes
    rw [hcopy, hlength, decide_eq_true_iff] at hreuse
    exact ⟨hbytes, hreuse⟩
  · rintro ⟨hbytes, hreuse⟩
    refine ⟨?_, ?_, ?_⟩
    · rw [hcopy, hrest, read_inj]
      exact hbytes
    · rw [hcopy, hlength, decide_eq_true_iff]
      exact hreuse
    · rw [hcopy, Mem.length_read]
      dsimp only
      rw [hbytes]
      refine frames_of_dvd hpos (Nat.min_le_right _ _) ?_
      rcases Nat.le_total (b.chunkSize.toNat - readyOffset) (toWrite * frameSize) with h | h
      · rw [Nat.min_eq_left h]
        exact Nat.dvd_sub hwhole hdvd
      · rw [Nat.min_eq_right h]
        exact Nat.dvd_mul_left _ _

theorem take_ringRead {m : Mem} {n p k len : Nat} (hn : 0 < n) (hlen : len ≤ n) (hk : k ≤ len) :
    (m.ringRead n p len).take k = m.ringRead n p k := by
  rw [Mem.ringRead_eq hn hlen, Mem.ringRead_eq hn (Nat.le_trans hk hlen), Mem.take_read _ _ hk]

/-- What a ringbuffer gives. -/
theorem copy_ring {rb : SpaRingbuffer} (hrb : b.rb = some rb) (hwf : b.WellFormed frameSize) :
    b.copy readyOffset room =
      { nBytes := min rb.filled room
        bytes := b.data.ringRead rb.size.toNat rb.readindex.toNat (min rb.filled room)
        buffer := { b with rb := some (rb.readUpdate (rb.readindex + .ofNat (min rb.filled room))) }
        readyOffset
        reuse := decide (rb.filled = min rb.filled room) } := by
  have hwf : rb.filled ≤ rb.size.toNat ∧ rb.filled < 2 ^ 31 := by
    rw [WellFormed, hrb] at hwf
    exact hwf
  have havail : rb.getReadIndex.1.toInt64.toUInt64.toNat = rb.filled := widen_toNat hwf.2
  have hlen : (UInt32.ofNat (min rb.filled room)).toNat = min rb.filled room :=
    UInt32.toNat_ofNat_of_lt' (by
      show min rb.filled room < 2 ^ 32
      omega)
  rw [copy, hrb]
  dsimp only
  unfold copyRing
  dsimp only
  rw [havail, show rb.getReadIndex.2 = rb.readindex from rfl, rb.readData_masked, hlen]

/-- A ringbuffer is copied right exactly when it fits. -/
theorem copiesRight_ring (hpos : 0 < frameSize) {rb : SpaRingbuffer} (hrb : b.rb = some rb)
    (hwf : b.WellFormed frameSize) :
    b.CopiesRight frameSize readyOffset toWrite ↔
      b.Fits frameSize readyOffset (toWrite * frameSize) := by
  have hcopy := @copy_ring b frameSize readyOffset (toWrite * frameSize) rb hrb hwf
  have hwf : rb.filled ≤ rb.size.toNat ∧ rb.filled < 2 ^ 31 := by
    rw [WellFormed, hrb] at hwf
    exact hwf
  have hlength : (b.rest readyOffset).length = rb.filled := by
    rw [length_rest, hrb]
  have hframes : min toWrite (min rb.filled (toWrite * frameSize) / frameSize) * frameSize =
      min rb.filled (toWrite * frameSize) ↔ (rb.filled < toWrite * frameSize → frameSize ∣ rb.filled) := by
    constructor
    · intro hframes hlt
      rw [Nat.min_eq_left (Nat.le_of_lt hlt)] at hframes
      exact ⟨_, by rw [← hframes, Nat.mul_comm]⟩
    · intro hdvd
      refine frames_of_dvd hpos (Nat.min_le_right _ _) ?_
      rcases Nat.lt_or_ge rb.filled (toWrite * frameSize) with hlt | hge
      · rw [Nat.min_eq_left (Nat.le_of_lt hlt)]
        exact hdvd hlt
      · rw [Nat.min_eq_right hge]
        exact Nat.dvd_mul_left _ _
  have hfits : b.Fits frameSize readyOffset (toWrite * frameSize) ↔
      (rb.filled < toWrite * frameSize → frameSize ∣ rb.filled) := by
    rw [Fits, hrb]
  rw [hfits, ← hframes]
  constructor
  · intro hright
    have hcount := hright.frames
    rw [hcopy, length_ringRead] at hcount
    exact hcount
  · intro hcount
    refine ⟨?_, ?_, ?_⟩
    · rw [hcopy, rest, hrb]
      dsimp only
      rw [List.take_eq_take_min, length_ringRead, Nat.min_comm (toWrite * frameSize),
        take_ringRead rb.size_pos hwf.1 (Nat.min_le_left _ _)]
    · rw [hcopy, hlength, decide_eq_true_iff]
      omega
    · rw [hcopy, length_ringRead]
      exact hcount

theorem copiesRight_iff (hpos : 0 < frameSize) (hwf : b.WellFormed frameSize)
    (hreached : b.Reached frameSize readyOffset) (hroom : toWrite * frameSize < 2 ^ 63) :
    b.CopiesRight frameSize readyOffset toWrite ↔
      b.Fits frameSize readyOffset (toWrite * frameSize) := by
  cases hrb : b.rb with
  | none => exact copiesRight_chunk hpos hrb hwf hreached hroom
  | some rb => exact copiesRight_ring hpos hrb hwf

theorem wellFormed_ring {rb : SpaRingbuffer} (hrb : b.rb = some rb) (hwf : b.WellFormed frameSize) :
    rb.filled ≤ rb.size.toNat ∧ rb.filled < 2 ^ 31 := by
  rw [WellFormed, hrb] at hwf
  exact hwf

/-- What is left of a buffer that is copied right and not finished. -/
theorem CopiesRight.unfinished (h : b.CopiesRight frameSize readyOffset toWrite)
    (hwf : b.WellFormed frameSize) (hreached : b.Reached frameSize readyOffset)
    (hlong : toWrite * frameSize < (b.rest readyOffset).length) :
    let copied := b.copy readyOffset (toWrite * frameSize)
    copied.buffer.rest copied.readyOffset = (b.rest readyOffset).drop (toWrite * frameSize) ∧
      copied.buffer.WellFormed frameSize ∧
      copied.buffer.Reached frameSize copied.readyOffset := by
  dsimp only
  have hbytes := congrArg List.length h.bytes
  rw [List.length_take, Nat.min_eq_left (Nat.le_of_lt hlong)] at hbytes
  have hlength := @length_rest b readyOffset
  cases hrb : b.rb with
  | none =>
    obtain ⟨hle, hdvd⟩ := hreached hrb
    rw [copy_chunk hrb hwf hle] at hbytes ⊢
    rw [Mem.length_read] at hbytes
    dsimp only
    rw [hbytes]
    rw [hlength, hrb] at hlong
    dsimp only at hlong
    refine ⟨?_, hwf, fun _ => ⟨by omega, Nat.dvd_add hdvd (Nat.dvd_mul_left _ _)⟩⟩
    rw [rest, rest, hrb]
    dsimp only
    rw [Mem.drop_read, Nat.add_assoc, Nat.sub_sub]
  | some rb =>
    obtain ⟨hfilled, hsmall⟩ := wellFormed_ring hrb hwf
    rw [copy_ring hrb hwf] at hbytes ⊢
    rw [length_ringRead] at hbytes
    dsimp only
    rw [hbytes]
    rw [hlength, hrb] at hlong
    dsimp only at hlong
    have hnext := rb.filled_readUpdate (Nat.le_of_lt hlong)
    have hindex := rb.index_mod rb.readindex (toWrite * frameSize)
    generalize toWrite * frameSize = room at hlong hnext hindex ⊢
    refine ⟨?_, ?_, nofun⟩
    · rw [rest, rest, hrb]
      dsimp only
      rw [hnext]
      show b.data.ringRead rb.size.toNat (rb.readindex + .ofNat room).toNat _ = _
      rw [Mem.ringRead_eq rb.size_pos hfilled, Mem.drop_read,
        ← Mem.ringRead_eq rb.size_pos (Nat.le_trans (Nat.sub_le ..) hfilled), Mem.ringRead,
        Mem.ringRead, hindex]
    · show SpaRingbuffer.filled _ ≤ rb.size.toNat ∧ SpaRingbuffer.filled _ < 2 ^ 31
      rw [hnext]
      omega

end SpaALSABuffer
end Pinos
