import Pinos.Client.Loop
import Pinos.Lib.ByteMem
import Pinos.Lib.Run

/-
Runs of `loop_invoke` on one side and `event_func` on the other.

The queued items lie one behind the other along the positions of the ring, from
the read index on, and each ends before the end of the buffer.  An invoke goes
right when the code's remainder does not make it leave this layout.
-/

namespace Pinos

open ByteMem

/-- What an invoke takes of the buffer. -/
def itemLen (inv : Invoke) : Nat := sizeofItem + inv.payload.length

/-- Two runs of addresses have no byte in common. -/
def Apart (r r' : Nat × Nat) : Prop :=
  r.2 = 0 ∨ r'.2 = 0 ∨ r.1 + r.2 ≤ r'.1 ∨ r'.1 + r'.2 ≤ r.1

/-- A run of addresses lies in the buffer. -/
def InBuffer (base : Nat) (r : Nat × Nat) : Prop :=
  r.2 = 0 ∨ base ≤ r.1 ∧ r.1 + r.2 ≤ base + datasSize

inductive LoopOp where
  | invoke (inv : Invoke)
  | dispatch

/-- A loop, whether its event is signalled, the invokes accepted and executed so far,
and what the accepted ones that are not executed have written. -/
structure LoopUse where
  loop : PinosLoop
  signalled : Bool
  accepted : List Invoke
  executed : List Invoke
  held : List (List (Nat × Nat))

namespace LoopUse

/-- An empty queue at any index, in a buffer at any address. -/
def start (index : UInt32) (base : Nat) (hbase : base + datasSize < 2 ^ 64) (mem : Mem) :
    LoopUse where
  loop :=
    { buffer :=
        { readindex := index, writeindex := index, size := 32768, mask := 32767
          size_pow := ⟨15, rfl⟩, mask_eq := rfl }
      base := base, mem := mem, inAddressSpace := hbase }
  signalled := false
  accepted := []
  executed := []
  held := []

/-- One call of `loop_invoke`, or of `event_func` once the event is signalled; no
more than one turn for each byte of the queue is needed. -/
def step (s : LoopUse) : LoopOp → LoopUse
  | .invoke inv =>
    if (s.loop.loopInvoke inv).2 = SpaResult.error then { s with loop := (s.loop.loopInvoke inv).1 }
    else
      { s with
        loop := (s.loop.loopInvoke inv).1
        signalled := true
        accepted := s.accepted ++ [inv]
        held := s.held ++ [s.loop.writes inv] }
  | .dispatch =>
    if s.signalled then
      match s.loop.eventFunc (s.loop.buffer.filled + 1) with
      | some (loop, calls) =>
        { loop := loop, signalled := false, accepted := s.accepted
          executed := s.executed ++ calls, held := [] }
      | none => s
    else s

def Fits (s : LoopUse) (inv : Invoke) : Prop :=
  itemLen inv ≤ datasSize - s.loop.buffer.filled

instance (s : LoopUse) (inv : Invoke) : Decidable (s.Fits inv) :=
  inferInstanceAs (Decidable (itemLen inv ≤ datasSize - s.loop.buffer.filled))

def Answers (s : LoopUse) : LoopOp → Prop
  | .invoke inv =>
    (¬ s.Fits inv → (s.loop.loopInvoke inv).2 = SpaResult.error) ∧
      ((s.loop.loopInvoke inv).2 = SpaResult.error → (s.loop.loopInvoke inv).1 = s.loop) ∧
        ((s.loop.loopInvoke inv).2 ≠ SpaResult.error →
          (s.loop.writes inv).Pairwise Apart ∧
            ∀ r ∈ s.loop.writes inv, InBuffer s.loop.base r ∧ ∀ rs ∈ s.held, ∀ r' ∈ rs, Apart r' r)
  | .dispatch =>
    s.signalled = true → ∃ loop, s.loop.eventFunc (s.loop.buffer.filled + 1)
      = some (loop, s.accepted.drop s.executed.length)

/-- The step answers as it should, what is executed is a prefix of what was accepted,
and the loop will come to the rest. -/
def Right (s : LoopUse) (op : LoopOp) : Prop :=
  s.Answers op ∧ (s.step op).executed <+: (s.step op).accepted ∧
    ((s.step op).executed ≠ (s.step op).accepted → (s.step op).signalled = true)

/-- The invoke is refused, or its item fits in front of the end of the buffer without
filling an aligned buffer to the last byte. -/
def Safe (s : LoopUse) : LoopOp → Prop
  | .invoke inv =>
    datasSize - s.loop.buffer.filled < sizeofItem ∨
      s.Fits inv ∧ s.loop.buffer.writeindex.toNat % datasSize + itemLen inv ≤ datasSize ∧
        (s.loop.buffer.writeindex.toNat % datasSize = 0 →
          itemLen inv = datasSize - s.loop.buffer.filled → inv.payload = [])
  | .dispatch => True

/-! ## The layout of the queue -/

/-- The item of an invoke, with the runs it has written, at a position of the ring. -/
def ItemHolds (m : Mem) (base pos itemSize : Nat) (h : Invoke × List (Nat × Nat)) : Prop :=
  pos % datasSize + itemLen h.1 ≤ datasSize ∧ m.u64 (base + pos % datasSize) = itemSize ∧
    PinosLoop.itemAt m (base + pos % datasSize) = h.1 ∧
      m.u64 (base + pos % datasSize + 24) = h.1.payload.length ∧
        ∃ dest, m.u64 (base + pos % datasSize + 32) = dest ∧
          h.2 = [(base + pos % datasSize, sizeofItem), (dest, h.1.payload.length)] ∧
            (h.1.payload = [] ∨ dest = base + pos % datasSize + sizeofItem)

/-- The items lie between two positions, one behind the other and before `limit`. -/
def Laid (m : Mem) (base limit : Nat) : Nat → List (Invoke × List (Nat × Nat)) → Nat → Prop
  | pos, [], stop => pos = stop
  | pos, h :: hs, stop => ∃ itemSize, ItemHolds m base pos itemSize h ∧ itemLen h.1 ≤ itemSize ∧
      pos + itemLen h.1 ≤ limit ∧ Laid m base limit (pos + itemSize) hs stop

theorem Laid.le {m : Mem} {base limit : Nat} {hs : List (Invoke × List (Nat × Nat))}
    {pos stop : Nat} (h : Laid m base limit pos hs stop) : pos ≤ stop := by
  induction hs generalizing pos with
  | nil => exact Nat.le_of_eq h
  | cons h' hs ih =>
    obtain ⟨itemSize, -, -, -, hrest⟩ := h
    exact Nat.le_trans (Nat.le_add_right _ _) (ih hrest)

theorem Laid.append {m : Mem} {base limit : Nat} {hs : List (Invoke × List (Nat × Nat))}
    {pos stop itemSize : Nat} {h : Invoke × List (Nat × Nat)} (hlaid : Laid m base limit pos hs stop)
    (hitem : ItemHolds m base stop itemSize h) (hlen : itemLen h.1 ≤ itemSize)
    (hlimit : stop + itemLen h.1 ≤ limit) : Laid m base limit pos (hs ++ [h]) (stop + itemSize) := by
  induction hs generalizing pos with
  | nil =>
    have hpos : pos = stop := hlaid
    rw [hpos]
    exact ⟨itemSize, hitem, hlen, hlimit, rfl⟩
  | cons h' hs ih =>
    obtain ⟨itemSize', hitem', hlen', hlimit', hrest⟩ := hlaid
    exact ⟨itemSize', hitem', hlen', hlimit', ih hrest⟩

/-- Runs in one piece, one behind the other and within one round, do not meet. -/
theorem ring_apart {p len q len' : Nat} (hpq : p + len ≤ q) (hround : q + len' ≤ p + datasSize) :
    p % datasSize + len ≤ q % datasSize ∨ q % datasSize + len' ≤ p % datasSize := by
  have hdatas : datasSize = 32768 := rfl
  rw [hdatas] at hround ⊢
  omega

/-- The items stay where they are if only a run behind them is written. -/
theorem ItemHolds.congr {m m' : Mem} {base pos itemSize : Nat} {h : Invoke × List (Nat × Nat)}
    (hitem : ItemHolds m base pos itemSize h)
    (hm : ∀ i, base + pos % datasSize ≤ i → i < base + pos % datasSize + itemLen h.1 →
      m i = m' i) : ItemHolds m' base pos itemSize h := by
  obtain ⟨hend, hsize, hinv, hlen, dest, hdest, hruns, hpayload⟩ := hitem
  have hitemLen : itemLen h.1 = 48 + h.1.payload.length := rfl
  have h64 : ∀ k, k + 8 ≤ 48 → m'.u64 (base + pos % datasSize + k)
      = m.u64 (base + pos % datasSize + k) := by
    intro k hk
    apply Mem.u64_congr
    intro i hi hlt
    exact (hm i (by omega) (by omega)).symm
  have h32 : m'.u32 (base + pos % datasSize + 16) = m.u32 (base + pos % datasSize + 16) := by
    apply Mem.u32_congr
    intro i hi hlt
    exact (hm i (by omega) (by omega)).symm
  have hread : m'.read dest h.1.payload.length = m.read dest h.1.payload.length := by
    rcases hpayload with hnil | hdest'
    · rw [hnil]
      rfl
    · apply Mem.read_congr
      intro i hi hlt
      have hsizeof : sizeofItem = 48 := rfl
      exact (hm i (by omega) (by omega)).symm
  refine ⟨hend, ?_, ?_, ?_, dest, ?_, hruns, hpayload⟩
  · rw [← hsize]
    exact h64 0 (by omega)
  · rw [← hinv, PinosLoop.itemAt, PinosLoop.itemAt, h64 8 (by omega), h64 24 (by omega),
      h64 32 (by omega), h64 40 (by omega), h32, hdest, hlen, hread]
  · rw [h64 24 (by omega), hlen]
  · rw [h64 32 (by omega), hdest]

theorem Laid.congr {m m' : Mem} {base limit : Nat} {hs : List (Invoke × List (Nat × Nat))}
    {pos stop q len : Nat} (hlaid : Laid m base limit pos hs stop) (hq : stop ≤ q)
    (hround : q + len ≤ pos + datasSize)
    (hm : ∀ i, i < base + q % datasSize ∨ base + q % datasSize + len ≤ i → m i = m' i) :
    Laid m' base limit pos hs stop := by
  induction hs generalizing pos with
  | nil => exact hlaid
  | cons h hs ih =>
    obtain ⟨itemSize, hitem, hlen, hlimit, hrest⟩ := hlaid
    have hle := hrest.le
    refine ⟨itemSize, hitem.congr fun i hi hlt => ?_, hlen, hlimit, ih hrest (by omega)⟩
    have hapart : pos % datasSize + itemLen h.1 ≤ q % datasSize ∨
        q % datasSize + len ≤ pos % datasSize := ring_apart (by omega) hround
    exact hm i (by omega)

theorem Laid.item {m : Mem} {base limit : Nat} {hs : List (Invoke × List (Nat × Nat))}
    {pos stop : Nat} (hlaid : Laid m base limit pos hs stop) {h : Invoke × List (Nat × Nat)}
    (hmem : h ∈ hs) : ∃ p itemSize, ItemHolds m base p itemSize h ∧ pos ≤ p ∧
      p + itemLen h.1 ≤ stop := by
  induction hs generalizing pos with
  | nil => cases hmem
  | cons h' hs ih =>
    obtain ⟨itemSize, hitem, hlen, -, hrest⟩ := hlaid
    rcases List.mem_cons.mp hmem with rfl | hmem
    · have hle := hrest.le
      exact ⟨pos, itemSize, hitem, Nat.le_refl _, by omega⟩
    · obtain ⟨p, itemSize', hitem', hpos, hstop⟩ := ih hrest hmem
      exact ⟨p, itemSize', hitem', by omega, hstop⟩

/-- Runs that lie behind an item do not meet its own. -/
theorem ItemHolds.apart {m : Mem} {base pos itemSize : Nat} {h : Invoke × List (Nat × Nat)}
    (hitem : ItemHolds m base pos itemSize h) {r : Nat × Nat}
    (hr : r.2 = 0 ∨ base + pos % datasSize + itemLen h.1 ≤ r.1 ∨
      r.1 + r.2 ≤ base + pos % datasSize) : ∀ r' ∈ h.2, Apart r' r := by
  obtain ⟨-, -, -, -, dest, -, hruns, hpayload⟩ := hitem
  have hitemLen : itemLen h.1 = sizeofItem + h.1.payload.length := rfl
  intro r' hr'
  rw [hruns] at hr'
  rcases List.mem_cons.mp hr' with rfl | hr'
  · show _ ∨ r.2 = 0 ∨ base + pos % datasSize + sizeofItem ≤ r.1 ∨ _ ≤ base + pos % datasSize
    omega
  · rw [List.mem_singleton.mp hr']
    show h.1.payload.length = 0 ∨ r.2 = 0 ∨ dest + h.1.payload.length ≤ r.1 ∨ r.1 + r.2 ≤ dest
    rcases hpayload with hnil | hdest
    · exact .inl (List.length_eq_zero_iff.mpr hnil)
    · omega

structure Inv (s : LoopUse) : Prop where
  size : s.loop.buffer.size = 32768
  filled : s.loop.buffer.filled ≤ datasSize + sizeofItem
  split : ∃ hs : List (Invoke × List (Nat × Nat)),
    s.accepted = s.executed ++ hs.map Prod.fst ∧ s.held = hs.map Prod.snd ∧
      Laid s.loop.mem s.loop.base (s.loop.buffer.readindex.toNat + datasSize)
        s.loop.buffer.readindex.toNat hs
        (s.loop.buffer.readindex.toNat + s.loop.buffer.filled) ∧
      (hs ≠ [] → s.signalled = true)

theorem inv_start (index : UInt32) (base : Nat) (hbase : base + datasSize < 2 ^ 64) (mem : Mem) :
    (start index base hbase mem).Inv := by
  have hfilled : (start index base hbase mem).loop.buffer.filled = 0 := by
    rw [SpaRingbuffer.filled]
    show (index - index).toNat = 0
    rw [UInt32.sub_self]
    rfl
  refine ⟨rfl, ?_, [], rfl, rfl, ?_, fun h => absurd rfl h⟩
  · rw [hfilled]
    exact Nat.zero_le _
  · rw [hfilled]
    rfl

/-! ## An invoke -/

/-- Where a safe invoke puts its item. -/
theorem place_safe (base size : Nat) {offset avail : Nat} {l0 : UInt32}
    (hl0 : l0.toNat = if datasSize < offset + avail then 2 ^ 32 + datasSize - (offset + avail)
      else offset + avail)
    (hoffset : offset < datasSize) (havail : avail ≤ datasSize) (hfits : sizeofItem + size ≤ avail)
    (hlast : offset = 0 → sizeofItem + size = avail → size = 0) :
    ((PinosLoop.place base (base + offset) l0 size).1 = base + offset + sizeofItem ∨
        size = 0 ∧ (PinosLoop.place base (base + offset) l0 size).1 = base) ∧
      sizeofItem + size ≤ (PinosLoop.place base (base + offset) l0 size).2 ∧
        (PinosLoop.place base (base + offset) l0 size).2 ≤ avail + sizeofItem := by
  have hdatas : datasSize = 32768 := rfl
  have hsizeof : sizeofItem = 48 := rfl
  rw [PinosLoop.place]
  by_cases hroom : sizeofItem + size < l0.toNat
  · rw [if_pos hroom]
    refine ⟨.inl rfl, ?_⟩
    show _ ≤ (if l0.toNat < sizeofItem + (sizeofItem + size) then _ else _) ∧
      (if l0.toNat < sizeofItem + (sizeofItem + size) then _ else _) ≤ _
    by_cases hskip : l0.toNat < sizeofItem + (sizeofItem + size)
    · rw [if_pos hskip]
      omega
    · rw [if_neg hskip]
      omega
  · rw [if_neg hroom]
    have hwhole : ¬ datasSize < offset + avail := by
      intro hover
      rw [if_pos hover] at hl0
      omega
    rw [if_neg hwhole] at hl0
    have hzero := hlast (by omega) (by omega)
    refine ⟨.inr ⟨hzero, rfl⟩, ?_, ?_⟩
    · show _ ≤ l0.toNat + 1 + size
      omega
    · show l0.toNat + 1 + size ≤ _
      omega

theorem result_ne_error (seq : UInt32) :
    (if seq ≠ spaIdInvalid then SpaResult.returnAsync seq else SpaResult.ok) ≠ SpaResult.error := by
  split
  · exact SpaResult.returnAsync_ne_error seq
  · decide

theorem loopInvoke_none {l : PinosLoop} {inv : Invoke} (h : l.room = none) :
    l.loopInvoke inv = (l, SpaResult.error) ∧ l.writes inv = [] := by
  rw [PinosLoop.loopInvoke, PinosLoop.writes, h]
  exact ⟨rfl, rfl⟩

/-- The layout with one more item, written behind the others. -/
theorem Laid.store {m : Mem} {base start pos offset : Nat}
    {hs : List (Invoke × List (Nat × Nat))} (hlaid : Laid m base (start + datasSize) start hs pos)
    (hoffset : offset = pos % datasSize) {inv : Invoke} {place : Nat × Nat}
    (hspace : base + datasSize < 2 ^ 64) (hend : offset + itemLen inv ≤ datasSize)
    (hround : pos + itemLen inv ≤ start + datasSize)
    (hdest : place.1 = base + offset + sizeofItem ∨ inv.payload.length = 0 ∧ place.1 = base)
    (hmin : itemLen inv ≤ place.2) (hsize : place.2 < 2 ^ 64) :
    (PinosLoop.store m (base + offset) inv place).u64 (base + offset) = place.2 ∧
      Laid (PinosLoop.store m (base + offset) inv place) base (start + datasSize) start
        (hs ++ [(inv, [(base + offset, sizeofItem), (place.1, inv.payload.length)])])
        (pos + place.2) := by
  have hdatas : datasSize = 32768 := rfl
  have hsizeof : sizeofItem = 48 := rfl
  have hlen : itemLen inv = sizeofItem + inv.payload.length := rfl
  have hplace : inv.payload = [] ∨ base + offset + sizeofItem ≤ place.1 :=
    hdest.elim (fun h => .inr (Nat.le_of_eq h.symm)) fun h => .inl (List.length_eq_zero_iff.mp h.1)
  obtain ⟨hsizeAt, hlenAt, hdestAt, hitem⟩ :=
    PinosLoop.store_item m (base + offset) inv place (by omega) hsize (by omega) hplace
  refine ⟨hsizeAt, ?_⟩
  rw [hoffset] at hsizeAt hlenAt hdestAt hitem hend hdest ⊢
  refine Laid.append (hlaid.congr (Nat.le_refl pos) hround fun i hi => ?_) ?_ hmin hround
  · symm
    apply PinosLoop.store_outside
    · omega
    · omega
  · refine ⟨hend, hsizeAt, hitem, hlenAt, place.1, hdestAt, rfl, ?_⟩
    exact hdest.elim .inr fun h => .inl (List.length_eq_zero_iff.mp h.1)

/-- What an invoke does that is not refused, whatever the payload. -/
theorem Inv.invoke_eq {s : LoopUse} (hinv : s.Inv) (inv : Invoke) {offset avail : Nat}
    (hoffset : offset = s.loop.buffer.writeindex.toNat % datasSize)
    (havail : avail = datasSize - s.loop.buffer.filled)
    (hroom : ¬ datasSize < s.loop.buffer.filled + sizeofItem) :
    ∃ l0 : UInt32, ∃ place : Nat × Nat,
      (l0.toNat = if datasSize < offset + avail then 2 ^ 32 + datasSize - (offset + avail)
        else offset + avail) ∧
      place = PinosLoop.place s.loop.base (s.loop.base + offset) l0 inv.payload.length ∧
      (s.loop.loopInvoke inv).2 ≠ SpaResult.error ∧
      s.loop.writes inv = [(s.loop.base + offset, sizeofItem), (place.1, inv.payload.length)] ∧
      ∀ m, m = PinosLoop.store s.loop.mem (s.loop.base + offset) inv place →
        (s.loop.loopInvoke inv).1 =
          { s.loop with
            mem := m
            buffer := s.loop.buffer.writeUpdate
              (s.loop.buffer.writeindex + .ofNat (m.u64 (s.loop.base + offset))) } := by
  have hsize : s.loop.buffer.size.toNat = datasSize := by
    rw [hinv.size]
    rfl
  have hdatas : datasSize = 32768 := rfl
  have hsome : s.loop.room = some (s.loop.buffer.size
      - (s.loop.buffer.writeindex - s.loop.buffer.readindex)) := by
    rw [PinosLoop.room_eq hinv.size, if_neg hroom]
  have havail' : (s.loop.buffer.size
      - (s.loop.buffer.writeindex - s.loop.buffer.readindex)).toNat = avail := by
    have hfilled : s.loop.buffer.filled
        = (s.loop.buffer.writeindex - s.loop.buffer.readindex).toNat := rfl
    rw [UInt32.toNat_sub, ← hfilled, hsize]
    omega
  have hmasked : (s.loop.buffer.writeindex &&& s.loop.buffer.mask).toNat = offset := by
    rw [s.loop.buffer.masked_toNat, hsize, hoffset]
  have hle : (s.loop.buffer.size - (s.loop.buffer.writeindex - s.loop.buffer.readindex)).toNat
      ≤ datasSize := by omega
  have hl0 := PinosLoop.remainder_toNat hinv.size hle s.loop.buffer.writeindex
  rw [← hoffset, havail'] at hl0
  refine ⟨_, _, hl0, rfl, ?_, ?_, fun m hm => ?_⟩
  · rw [PinosLoop.loopInvoke, hsome]
    exact result_ne_error inv.seq
  · rw [PinosLoop.writes, hsome]
    simp only [SpaRingbuffer.getWriteIndex, hmasked]
  · rw [PinosLoop.loopInvoke, hsome, hm]
    simp only [SpaRingbuffer.getWriteIndex, hmasked, UInt32.ofNat_add, UInt32.ofNat_toNat]

/-- The item that a safe invoke writes, behind the queued ones. -/
theorem Inv.invoke_accepted {s : LoopUse} (hinv : s.Inv) {inv : Invoke}
    (hroom : ¬ datasSize < s.loop.buffer.filled + sizeofItem) (hsafe : s.Safe (.invoke inv)) :
    s.Answers (.invoke inv) ∧ (s.step (.invoke inv)).Inv := by
  have hdatas : datasSize = 32768 := rfl
  have hsizeof : sizeofItem = 48 := rfl
  have hlen : itemLen inv = sizeofItem + inv.payload.length := rfl
  have hspace := s.loop.inAddressSpace
  obtain ⟨hfits, hend, hlast⟩ := hsafe.resolve_left (by omega)
  have hfits : itemLen inv ≤ datasSize - s.loop.buffer.filled := hfits
  obtain ⟨offset, hoffset⟩ : ∃ offset, offset = s.loop.buffer.writeindex.toNat % datasSize :=
    ⟨_, rfl⟩
  obtain ⟨avail, havail⟩ : ∃ avail, avail = datasSize - s.loop.buffer.filled := ⟨_, rfl⟩
  rw [← hoffset, ← havail] at hlast
  rw [← hoffset] at hend
  have hpos : offset = (s.loop.buffer.readindex.toNat + s.loop.buffer.filled) % datasSize := by
    have h := s.loop.buffer.writeindex_mod
    have hsize : s.loop.buffer.size.toNat = datasSize := by
      rw [hinv.size]
      rfl
    rwa [hsize, ← hoffset] at h
  obtain ⟨l0, place, hl0, hplace, hok, hwrites, hcode⟩ := hinv.invoke_eq inv hoffset havail hroom
  have hzero : offset = 0 → sizeofItem + inv.payload.length = avail → inv.payload.length = 0 :=
    fun h h' => List.length_eq_zero_iff.mpr (hlast h h')
  obtain ⟨hdest, hmin, hmax⟩ := place_safe s.loop.base inv.payload.length hl0 (by omega) (by omega)
    (by omega) hzero
  rw [← hplace] at hdest hmin hmax
  obtain ⟨hs, hsplit, hheld, hlaid, hsignal⟩ := hinv.split
  obtain ⟨hsizeAt, hlaid'⟩ := hlaid.store hpos hspace hend (by omega) hdest hmin (by omega)
  have hcode := hcode _ rfl
  rw [hsizeAt] at hcode
  refine ⟨⟨fun hnot => absurd hfits hnot, fun herror => absurd herror hok, fun _ => ⟨?_, ?_⟩⟩, ?_⟩
  · rw [hwrites, List.pairwise_pair]
    show sizeofItem = 0 ∨ inv.payload.length = 0 ∨
      s.loop.base + offset + sizeofItem ≤ place.1 ∨ place.1 + inv.payload.length ≤ _
    omega
  · intro r hr
    have hrun : r.2 = 0 ∨ s.loop.base + offset ≤ r.1 ∧
        r.1 + r.2 ≤ s.loop.base + offset + itemLen inv := by
      rw [hwrites] at hr
      rcases List.mem_cons.mp hr with rfl | hr
      · exact .inr ⟨Nat.le_refl _, by show s.loop.base + offset + sizeofItem ≤ _; omega⟩
      · rw [List.mem_singleton.mp hr]
        show inv.payload.length = 0 ∨ _ ≤ place.1 ∧ place.1 + inv.payload.length ≤ _
        omega
    refine ⟨hrun.imp_right fun h => by omega, fun rs hrs => ?_⟩
    rw [hheld] at hrs
    obtain ⟨h, hmem, rfl⟩ := List.mem_map.mp hrs
    obtain ⟨p, itemSize, hitem, hstart, hstop⟩ := hlaid.item hmem
    apply hitem.apart
    have hapart : p % datasSize + itemLen h.1 ≤ offset ∨ offset + itemLen inv ≤ p % datasSize := by
      rw [hpos]
      exact ring_apart hstop (by omega)
    omega
  · have hstep : s.step (.invoke inv) =
        { s with
          loop := (s.loop.loopInvoke inv).1
          signalled := true
          accepted := s.accepted ++ [inv]
          held := s.held ++ [s.loop.writes inv] } := by
      rw [step, if_neg hok]
    rw [hstep, hcode, hwrites]
    have hfilled : (s.loop.buffer.writeUpdate (s.loop.buffer.writeindex + .ofNat place.2)).filled
        = s.loop.buffer.filled + place.2 :=
      s.loop.buffer.filled_writeUpdate (by omega)
    refine ⟨hinv.size, ?_, hs ++ [(inv, [(s.loop.base + offset, sizeofItem),
      (place.1, inv.payload.length)])], ?_, ?_, ?_, fun _ => rfl⟩
    · rw [hfilled]
      omega
    · rw [List.map_append, ← List.append_assoc, ← hsplit]
      rfl
    · rw [List.map_append, hheld]
      rfl
    · rw [hfilled, ← Nat.add_assoc]
      exact hlaid'

/-- An invoke that writes where it may is a safe one. -/
theorem Inv.safe_of_answers {s : LoopUse} (hinv : s.Inv) {inv : Invoke}
    (hanswers : s.Answers (.invoke inv)) : s.Safe (.invoke inv) := by
  have hdatas : datasSize = 32768 := rfl
  have hsizeof : sizeofItem = 48 := rfl
  have hlen : itemLen inv = sizeofItem + inv.payload.length := rfl
  by_cases hroom : datasSize < s.loop.buffer.filled + sizeofItem
  · exact .inl (by omega)
  obtain ⟨hrefuses, -, hwrites⟩ := hanswers
  obtain ⟨offset, hoffset⟩ : ∃ offset, offset = s.loop.buffer.writeindex.toNat % datasSize :=
    ⟨_, rfl⟩
  obtain ⟨avail, havail⟩ : ∃ avail, avail = datasSize - s.loop.buffer.filled := ⟨_, rfl⟩
  obtain ⟨l0, place, hl0, hplace, hok, hruns, -⟩ := hinv.invoke_eq inv hoffset havail hroom
  have hfits : s.Fits inv := by
    by_contra hnot
    exact hok (hrefuses hnot)
  obtain ⟨hpair, hinside⟩ := hwrites hok
  rw [hruns, List.pairwise_pair] at hpair
  rw [hruns] at hinside
  refine .inr ⟨hfits, ?_⟩
  have hfits : itemLen inv ≤ datasSize - s.loop.buffer.filled := hfits
  rw [← hoffset, ← havail]
  have hheader : sizeofItem = 0 ∨ s.loop.base ≤ s.loop.base + offset ∧
      s.loop.base + offset + sizeofItem ≤ s.loop.base + datasSize :=
    (hinside _ (List.mem_cons_self ..)).1
  have hpayload : inv.payload.length = 0 ∨ s.loop.base ≤ place.1 ∧
      place.1 + inv.payload.length ≤ s.loop.base + datasSize :=
    (hinside _ (List.mem_cons_of_mem _ (List.mem_singleton_self _))).1
  have hpair : sizeofItem = 0 ∨ inv.payload.length = 0 ∨
      s.loop.base + offset + sizeofItem ≤ place.1 ∨
        place.1 + inv.payload.length ≤ s.loop.base + offset := hpair
  rw [PinosLoop.place] at hplace
  by_cases hbehind : sizeofItem + inv.payload.length < l0.toNat
  · rw [if_pos hbehind] at hplace
    have hdest : place.1 = s.loop.base + offset + sizeofItem := congrArg Prod.fst hplace
    refine ⟨by omega, fun hzero hwhole => ?_⟩
    rw [if_neg (by omega)] at hl0
    omega
  · rw [if_neg hbehind] at hplace
    have hdest : place.1 = s.loop.base := congrArg Prod.fst hplace
    have hpart : ¬ datasSize < offset + avail := by
      intro hover
      rw [if_pos hover] at hl0
      omega
    rw [if_neg hpart] at hl0
    have hempty : inv.payload.length = 0 := by omega
    exact ⟨by omega, fun _ _ => List.length_eq_zero_iff.mp hempty⟩

/-! ## Dispatching -/

/-- The loop goes on as long as the queue holds something. -/
theorem readable_iff {l : PinosLoop} (hfilled : l.buffer.filled < 2 ^ 31) :
    0 < l.buffer.getReadIndex.1 ↔ 0 < l.buffer.filled := by
  have hdef : l.buffer.filled = (l.buffer.writeindex - l.buffer.readindex).toNat := rfl
  rw [SpaRingbuffer.getReadIndex, Int32.lt_iff_toInt_lt, toInt32_toInt (by omega), ← hdef]
  show (0 : Int) < _ ↔ _
  omega

/-- The loop of `event_func` calls the functions of all items that are laid out. -/
theorem eventFunc_laid {hs : List (Invoke × List (Nat × Nat))} {l : PinosLoop} {limit pos : Nat}
    (hsize : l.buffer.size = 32768) (hfilled : l.buffer.filled < 2 ^ 31)
    (hpos : l.buffer.readindex.toNat % datasSize = pos % datasSize)
    (hlaid : Laid l.mem l.base limit pos hs (pos + l.buffer.filled)) {fuel : Nat}
    (hfuel : l.buffer.filled < fuel) :
    ∃ l' : PinosLoop, l.eventFunc fuel = some (l', hs.map Prod.fst) ∧ l'.base = l.base ∧
      l'.buffer.size = 32768 ∧ l'.buffer.filled = 0 := by
  induction hs generalizing l pos fuel with
  | nil =>
    obtain ⟨fuel, rfl⟩ : ∃ k, fuel = k + 1 := ⟨fuel - 1, by omega⟩
    have hempty : l.buffer.filled = 0 := by
      have hstop : pos = pos + l.buffer.filled := hlaid
      omega
    refine ⟨l, ?_, rfl, hsize, hempty⟩
    have hread : ¬ 0 < l.buffer.getReadIndex.1 := by
      rw [readable_iff hfilled, hempty]
      exact Nat.lt_irrefl 0
    rw [PinosLoop.eventFunc]
    exact if_neg hread
  | cons h hs ih =>
    obtain ⟨fuel, rfl⟩ : ∃ k, fuel = k + 1 := ⟨fuel - 1, by omega⟩
    obtain ⟨itemSize, ⟨-, hitemSize, hitem, -⟩, hlen, -, hrest⟩ := hlaid
    have hle := hrest.le
    have hitemLen : itemLen h.1 = sizeofItem + h.1.payload.length := rfl
    have hsizeof : sizeofItem = 48 := rfl
    have hsizeNat : l.buffer.size.toNat = datasSize := by
      rw [hsize]
      rfl
    have haddress : (l.buffer.readindex &&& l.buffer.mask).toNat = pos % datasSize := by
      rw [l.buffer.masked_toNat, hsizeNat, hpos]
    have hfilled' := l.buffer.filled_readUpdate (by omega : itemSize ≤ l.buffer.filled)
    have hmod := l.buffer.index_mod l.buffer.readindex itemSize
    rw [hsizeNat, Nat.add_mod, hpos, ← Nat.add_mod] at hmod
    have hstop : pos + l.buffer.filled = pos + itemSize + (l.buffer.filled - itemSize) := by omega
    rw [hstop, ← hfilled'] at hrest
    obtain ⟨l', hrun, hbase, hsize', hempty⟩ :=
      ih (l := { l with buffer := l.buffer.readUpdate (l.buffer.readindex + .ofNat itemSize) })
        hsize (by rw [hfilled']; omega) hmod hrest (by rw [hfilled']; omega : _ < fuel)
    refine ⟨l', ?_, hbase, hsize', hempty⟩
    rw [PinosLoop.eventFunc]
    have hread : 0 < l.buffer.getReadIndex.1 := (readable_iff hfilled).mpr (by omega)
    refine (if_pos hread).trans ?_
    show (PinosLoop.eventFunc { l with buffer := l.buffer.readUpdate (.ofNat
      (l.buffer.readindex.toNat + l.mem.u64 (l.base
        + (l.buffer.readindex &&& l.buffer.mask).toNat))) } fuel).map
      (fun x => (x.1, PinosLoop.itemAt l.mem (l.base
        + (l.buffer.readindex &&& l.buffer.mask).toNat) :: x.2)) = _
    rw [haddress, hitemSize, hitem, UInt32.ofNat_add, UInt32.ofNat_toNat, hrun]
    rfl

/-! ## Runs -/

theorem Inv.dispatch {s : LoopUse} (hinv : s.Inv) :
    s.Answers .dispatch ∧ (s.step .dispatch).Inv := by
  have hdatas : datasSize = 32768 := rfl
  have hsizeof : sizeofItem = 48 := rfl
  have hfilled := hinv.filled
  obtain ⟨hs, hsplit, hheld, hlaid, hsignal⟩ := hinv.split
  obtain ⟨loop, hrun, hbase, hsize, hempty⟩ := eventFunc_laid hinv.size (by omega) rfl hlaid
    (Nat.lt_succ_self _)
  have hrest : s.accepted.drop s.executed.length = hs.map Prod.fst := by
    rw [hsplit, List.drop_left]
  refine ⟨fun _ => ⟨loop, by rw [hrest]; exact hrun⟩, ?_⟩
  by_cases hsignalled : s.signalled = true
  · have hstep : s.step .dispatch =
        { loop := loop, signalled := false, accepted := s.accepted
          executed := s.executed ++ hs.map Prod.fst, held := [] } := by
      rw [step, if_pos hsignalled, hrun]
    rw [hstep]
    refine ⟨hsize, ?_, [], ?_, rfl, ?_, fun h => absurd rfl h⟩
    · show loop.buffer.filled ≤ _
      omega
    · rw [List.map_nil, List.append_nil]
      exact hsplit
    · show loop.buffer.readindex.toNat = loop.buffer.readindex.toNat + loop.buffer.filled
      omega
  · rw [step, if_neg hsignalled]
    exact hinv

theorem Inv.invoke_refused {s : LoopUse} (hinv : s.Inv) {inv : Invoke}
    (hroom : datasSize < s.loop.buffer.filled + sizeofItem) :
    s.Answers (.invoke inv) ∧ (s.step (.invoke inv)).Inv := by
  have hnone : s.loop.room = none := by rw [PinosLoop.room_eq hinv.size, if_pos hroom]
  obtain ⟨hcode, hwrites⟩ := @loopInvoke_none _ inv hnone
  have hresult : (s.loop.loopInvoke inv).2 = SpaResult.error := by rw [hcode]
  refine ⟨⟨fun _ => hresult, fun _ => by rw [hcode], fun h => absurd hresult h⟩, ?_⟩
  rw [step, if_pos hresult, hcode]
  exact hinv

/-- In a state with a laid out queue, a safe step answers and keeps the layout. -/
theorem Inv.op_safe {s : LoopUse} (hinv : s.Inv) {op : LoopOp} (hsafe : s.Safe op) :
    s.Answers op ∧ (s.step op).Inv := by
  cases op with
  | invoke inv =>
    by_cases hroom : datasSize < s.loop.buffer.filled + sizeofItem
    · exact hinv.invoke_refused hroom
    · exact hinv.invoke_accepted hroom hsafe
  | dispatch => exact hinv.dispatch

theorem Inv.executed {s : LoopUse} (hinv : s.Inv) :
    s.executed <+: s.accepted ∧ (s.executed ≠ s.accepted → s.signalled = true) := by
  obtain ⟨hs, hsplit, -, -, hsignal⟩ := hinv.split
  refine ⟨⟨hs.map Prod.fst, hsplit.symm⟩, fun hne => hsignal fun hnil => hne ?_⟩
  rw [hsplit, hnil, List.map_nil, List.append_nil]

theorem Inv.op_right_iff {s : LoopUse} (hinv : s.Inv) (op : LoopOp) : s.Right op ↔ s.Safe op := by
  constructor
  · rintro ⟨hanswers, -⟩
    cases op with
    | invoke inv => exact hinv.safe_of_answers hanswers
    | dispatch => trivial
  · intro hsafe
    obtain ⟨hanswers, hstep⟩ := hinv.op_safe hsafe
    exact ⟨hanswers, hstep.executed⟩

/-- Every accepted call is executed once, in order and as it was made, nothing is
overwritten and what does not fit is refused, exactly when every invoke is safe. -/
theorem run_executes_iff (index : UInt32) (base : Nat) (hbase : base + datasSize < 2 ^ 64) (mem : Mem)
    (ops : List LoopOp) :
    Run.Along step Right (start index base hbase mem) ops ↔
      Run.Along step Safe (start index base hbase mem) ops := by
  have hadmits : ∀ (s : LoopUse) (ops : List LoopOp), Run.Along step (fun _ _ => True) s ops := by
    intro s ops
    induction ops generalizing s with
    | nil => trivial
    | cons op ops ih => exact ⟨trivial, ih _⟩
  exact Run.along_iff Inv (fun _ op hinv _ => hinv.op_right_iff op)
    (fun _ _ hinv _ hsafe => (hinv.op_safe hsafe).2) (inv_start index base hbase mem) (hadmits _ _)

theorem run_executes_small :
    Run.Along step Right (start 0 4096 (by decide) fun _ => 0)
      [.invoke ⟨1, 2, [3], 4⟩, .dispatch] :=
  (run_executes_iff 0 4096 (by decide) (fun _ => 0) _).mpr
    ⟨.inr ⟨by decide, by decide, by decide⟩, trivial, trivial⟩

/-- A payload that fills an empty buffer to the last byte is copied over its own item. -/
theorem not_run_executes :
    ¬ ∀ (index : UInt32) (base : Nat) (hbase : base + datasSize < 2 ^ 64) (mem : Mem)
      (ops : List LoopOp), Run.Along step Right (start index base hbase mem) ops := by
  intro h
  -- The payload stays a variable, so that nothing counts its bytes one by one.
  obtain ⟨payload, hlength⟩ : ∃ payload : List UInt8, payload.length = 32720 :=
    ⟨_, List.length_replicate (a := 0)⟩
  have hright := h 0 4096 (by decide) (fun _ => 0) [.invoke ⟨1, 2, payload, 4⟩]
  have hinv := inv_start 0 4096 (by decide) fun _ => 0
  obtain hfull | ⟨-, -, hwhole⟩ := hinv.safe_of_answers hright.1.1
  · exact absurd hfull (by decide)
  · have hlen : itemLen ⟨1, 2, payload, 4⟩ = 32768 := by
      rw [itemLen, hlength]
      rfl
    have hnil : payload = [] := hwhole rfl hlen
    rw [hnil] at hlength
    exact absurd hlength (by decide)

end LoopUse
end Pinos
