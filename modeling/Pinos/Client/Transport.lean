import Pinos.Lib.ByteRing
import Pinos.Lib.Run
import Pinos.Spa.Ringbuffer

/-
`client/transport.c`: events of a node in a ring of shared memory.

The producer adds events at one end, the consumer looks at the head of the next
event and then takes it off.  Each call is one step, and the steps of the two
come in any order.
-/

namespace Pinos

open ByteMem

/-- `SPA_POD_SIZE` of the bytes of an event. -/
def eventSize (event : List UInt8) : Nat := 8 + ofLE (event.take 4)

/-- Both ends of the transport: the ring with its data, and the head that the
consumer read last (`current` and `current_index`). -/
structure Transport where
  ring : SpaRingbuffer
  data : Mem
  current : List UInt8
  currentIndex : UInt32

namespace Transport

/-- `sizeof (SpaEvent)`. -/
def sizeofEvent : UInt32 := 16

def addEvent (t : Transport) (event : List UInt8) : Transport × Bool :=
  let (filled, index) := t.ring.getWriteIndex
  let avail : Int32 := (t.ring.size - filled.toUInt32).toInt32
  let size := UInt32.ofNat (eventSize event)
  if avail.toUInt32 < size then (t, false)
  else
    ({ t with
        data := t.ring.writeData t.data (index &&& t.ring.mask) event size
        ring := t.ring.writeUpdate (index + size) }, true)

/-- The comparison is unsigned, since `sizeof` is. -/
def nextEvent (t : Transport) : Transport × Option (List UInt8) :=
  let (avail, index) := t.ring.getReadIndex
  let t := { t with currentIndex := index }
  if avail.toInt64.toUInt64 < 16 then (t, none)
  else
    let current := t.ring.readData t.data (index &&& t.ring.mask) sizeofEvent
    ({ t with current := current }, some current)

def parseEvent (t : Transport) : Transport × List UInt8 :=
  let size := UInt32.ofNat (eventSize t.current)
  ({ t with ring := t.ring.readUpdate (t.currentIndex + size) },
    t.ring.readData t.data (t.currentIndex &&& t.ring.mask) size)

/-- All bytes between the indices. -/
def contents (t : Transport) : List UInt8 :=
  t.ring.readData t.data (t.ring.readindex &&& t.ring.mask) (t.ring.writeindex - t.ring.readindex)

end Transport

inductive TransportOp where
  | add (event : List UInt8)
  | next
  | parse

/-- A transport, the events accepted and parsed so far, and whether the consumer's
last call was a `next` that found an event. -/
structure TransportUse where
  transport : Transport
  accepted : List (List UInt8)
  parsed : List (List UInt8)
  fetched : Bool

namespace TransportUse

/-- An empty ring of `1 << 12` bytes, at any index. -/
def start (index : UInt32) (data : Mem) (current : List UInt8) : TransportUse where
  transport :=
    { ring :=
        { readindex := index, writeindex := index, size := 4096, mask := 4095
          size_pow := ⟨12, rfl⟩, mask_eq := rfl }
      data := data, current := current, currentIndex := index }
  accepted := []
  parsed := []
  fetched := false

def step (s : TransportUse) : TransportOp → TransportUse
  | .add event =>
    { s with
      transport := (s.transport.addEvent event).1
      accepted := if (s.transport.addEvent event).2 then s.accepted ++ [event] else s.accepted }
  | .next =>
    { s with
      transport := s.transport.nextEvent.1
      fetched := s.transport.nextEvent.2.isSome }
  | .parse =>
    { s with
      transport := s.transport.parseEvent.1
      parsed := s.parsed ++ [s.transport.parseEvent.2]
      fetched := false }

/-- The bytes of the events that were accepted and not parsed. -/
def unread (s : TransportUse) : List UInt8 := (s.accepted.drop s.parsed.length).flatten

def free (s : TransportUse) : Nat := s.transport.ring.size.toNat - s.unread.length

/-- An event of at least `sizeof (SpaEvent)` bytes with its own size. -/
def IsEvent (event : List UInt8) : Prop := 16 ≤ event.length ∧ event.length = eventSize event

instance (event : List UInt8) : Decidable (IsEvent event) := inferInstanceAs (Decidable (_ ∧ _))

/-- The producer adds events, and the consumer parses what it has found. -/
def Admits (s : TransportUse) : TransportOp → Prop
  | .add event => IsEvent event
  | .next => True
  | .parse => s.fetched = true

instance (s : TransportUse) : (op : TransportOp) → Decidable (s.Admits op)
  | .add event => inferInstanceAs (Decidable (IsEvent event))
  | .next => inferInstanceAs (Decidable True)
  | .parse => inferInstanceAs (Decidable (s.fetched = true))

def Answers (s : TransportUse) : TransportOp → Prop
  | .add event =>
    ((s.transport.addEvent event).2 = false ↔ s.free < event.length) ∧
      ((s.transport.addEvent event).2 = false → (s.transport.addEvent event).1 = s.transport) ∧
      ((s.transport.addEvent event).2 = true →
        (s.transport.addEvent event).1.contents = s.transport.contents ++ event ∧
          ∀ a, s.transport.ring.size.toNat ≤ a →
            (s.transport.addEvent event).1.data a = s.transport.data a)
  | .next => s.transport.nextEvent.2.isSome = true ↔ s.unread ≠ []
  | .parse => True

/-- The step answers as it should, what is parsed is a prefix of what was accepted,
and the ring holds the rest. -/
def Right (s : TransportUse) (op : TransportOp) : Prop :=
  s.Answers op ∧ (s.step op).parsed <+: (s.step op).accepted ∧
    (s.step op).transport.contents = (s.step op).unread

/-- The size of an event does not wrap to one that fits. -/
def Safe (s : TransportUse) : TransportOp → Prop
  | .add event => event.length < 2 ^ 32 ∨ s.free < event.length % 2 ^ 32
  | _ => True

structure Inv (s : TransportUse) : Prop where
  size : s.transport.ring.size = 4096
  events : ∀ event ∈ s.accepted, IsEvent event
  split : ∃ waiting, s.accepted = s.parsed ++ waiting ∧
    (s.fetched = true → s.transport.currentIndex = s.transport.ring.readindex ∧
      ∃ event rest, waiting = event :: rest ∧ s.transport.current = event.take 16)
  filled : s.transport.ring.filled = s.unread.length
  fits : s.unread.length ≤ 4096
  bytes : (s.transport.data.unroll 4096).Holds s.transport.ring.readindex.toNat s.unread

theorem inv_start (index : UInt32) (data : Mem) (current : List UInt8) :
    (start index data current).Inv where
  size := rfl
  events _ h := nomatch h
  split := ⟨[], rfl, fun h => nomatch h⟩
  filled := by
    rw [SpaRingbuffer.filled]
    show (index - index).toNat = 0
    rw [UInt32.sub_self]
    rfl
  fits := Nat.zero_le _
  bytes := Mem.holds_nil _ _

theorem unread_of_split {s : TransportUse} {waiting : List (List UInt8)}
    (h : s.accepted = s.parsed ++ waiting) : s.unread = waiting.flatten := by
  rw [unread, h, List.drop_left]

/-- What the ring holds is what a read of all of it gives. -/
theorem Inv.contents_eq {s : TransportUse} (hinv : s.Inv) : s.transport.contents = s.unread := by
  have hsize : s.transport.ring.size.toNat = 4096 := by
    rw [hinv.size]
    rfl
  have hfilled : (s.transport.ring.writeindex - s.transport.ring.readindex).toNat
      = s.unread.length := hinv.filled
  rw [Transport.contents, SpaRingbuffer.readData_masked, hsize, hfilled,
    Mem.ringRead_eq (by decide) hinv.fits]
  exact hinv.bytes

theorem Inv.inOrder {s : TransportUse} (hinv : s.Inv) : s.parsed <+: s.accepted := by
  obtain ⟨waiting, hsplit, -⟩ := hinv.split
  exact ⟨waiting, hsplit.symm⟩

/-! ## Adding -/

theorem addEvent_eq (t : Transport) (event : List UInt8) :
    t.addEvent event =
      if t.ring.size - (t.ring.writeindex - t.ring.readindex) < .ofNat (eventSize event) then
        (t, false)
      else
        ({ t with
            data := t.ring.writeData t.data (t.ring.writeindex &&& t.ring.mask) event
              (.ofNat (eventSize event))
            ring := t.ring.writeUpdate (t.ring.writeindex + .ofNat (eventSize event)) }, true) := by
  simp [Transport.addEvent, SpaRingbuffer.getWriteIndex]

/-- The size that is compared is the lower 32 bits of the event's. -/
theorem Inv.addEvent_refuses {s : TransportUse} (hinv : s.Inv) {event : List UInt8}
    (hevent : IsEvent event) :
    (s.transport.addEvent event).2 = false ↔ s.free < event.length % 2 ^ 32 := by
  have hfilled : (s.transport.ring.writeindex - s.transport.ring.readindex).toNat
      = s.unread.length := hinv.filled
  have hfits := hinv.fits
  have havail : (s.transport.ring.size
      - (s.transport.ring.writeindex - s.transport.ring.readindex)).toNat = s.free := by
    have hsize : s.transport.ring.size.toNat = 4096 := by
      rw [hinv.size]
      rfl
    rw [UInt32.toNat_sub, hfilled, free, hsize]
    omega
  have hlt : s.transport.ring.size - (s.transport.ring.writeindex - s.transport.ring.readindex)
      < .ofNat (eventSize event) ↔ s.free < event.length % 2 ^ 32 := by
    rw [UInt32.lt_iff_toNat_lt, havail, UInt32.toNat_ofNat', ← hevent.2]
  rw [addEvent_eq, ← hlt]
  split
  next h => simp [h]
  next h => simp [h]

theorem addEvent_refused {t : Transport} {event : List UInt8} (h : (t.addEvent event).2 = false) :
    (t.addEvent event).1 = t := by
  rw [addEvent_eq] at h ⊢
  split at h
  next hlt => rw [if_pos hlt]
  next => cases h

theorem addEvent_keeps (t : Transport) (event : List UInt8) :
    (t.addEvent event).1.ring.readindex = t.ring.readindex ∧
      (t.addEvent event).1.ring.size = t.ring.size ∧
        (t.addEvent event).1.current = t.current ∧
          (t.addEvent event).1.currentIndex = t.currentIndex := by
  rw [addEvent_eq]
  split
  · exact ⟨rfl, rfl, rfl, rfl⟩
  · exact ⟨rfl, rfl, rfl, rfl⟩

/-- Where an event lies in the ring once it is accepted: behind the unread ones. -/
theorem Inv.addEvent_accepted {s : TransportUse} (hinv : s.Inv) {event : List UInt8}
    (hevent : IsEvent event) (hlen : event.length ≤ s.free)
    (h : (s.transport.addEvent event).2 = true) :
    ((s.transport.addEvent event).1.data.unroll 4096).Holds s.transport.ring.readindex.toNat
        (s.unread ++ event) ∧
      (s.transport.addEvent event).1.ring.filled = s.unread.length + event.length ∧
      (∀ a, 4096 ≤ a → (s.transport.addEvent event).1.data a = s.transport.data a) := by
  have hsize : s.transport.ring.size.toNat = 4096 := by
    rw [hinv.size]
    rfl
  have hfits := hinv.fits
  have hroom : s.unread.length + event.length ≤ 4096 := by
    rw [free, hsize] at hlen
    omega
  have hlen32 : (UInt32.ofNat (eventSize event)).toNat = event.length := by
    rw [UInt32.toNat_ofNat', ← hevent.2]
    omega
  have hpos := s.transport.ring.writeindex_mod
  rw [hsize, hinv.filled] at hpos
  have hadd : (s.transport.addEvent event).1 =
      { s.transport with
        data := s.transport.data.ringWrite 4096
          (s.transport.ring.readindex.toNat + s.unread.length) event
        ring := s.transport.ring.writeUpdate
          (s.transport.ring.writeindex + .ofNat event.length) } := by
    rw [addEvent_eq] at h ⊢
    split at h
    next => cases h
    next hge =>
      rw [if_neg hge, SpaRingbuffer.writeData_masked _ _ _ (Nat.le_of_eq hlen32), hlen32, hsize,
        List.take_length, Mem.ringWrite_congr hpos, ← hevent.2]
  rw [hadd]
  refine ⟨?_, ?_, fun a ha => ?_⟩
  · apply Mem.holds_append.mpr
    exact ⟨hinv.bytes.ringWrite (by decide) rfl hroom, Mem.holds_ringWrite (by decide) (by omega)⟩
  · rw [SpaRingbuffer.filled_writeUpdate, hinv.filled]
    rw [hinv.filled]
    omega
  · exact Mem.ringWrite_outside (by decide) (by omega) ha

theorem Inv.add {s : TransportUse} (hinv : s.Inv) {event : List UInt8} (hevent : IsEvent event) :
    (s.Right (.add event) → s.Safe (.add event)) ∧
      (s.Safe (.add event) → s.Answers (.add event) ∧ (s.step (.add event)).Inv) := by
  have hrefuses := hinv.addEvent_refuses hevent
  have hsize : s.transport.ring.size.toNat = 4096 := by
    rw [hinv.size]
    rfl
  have hfree : s.free ≤ 4096 := by
    rw [free, hsize]
    omega
  refine ⟨fun hright => ?_, fun hsafe => ?_⟩
  · by_cases hlen : event.length < 2 ^ 32
    · exact .inl hlen
    · exact .inr (hrefuses.mp (hright.1.1.mpr (by omega)))
  have hexact : (s.transport.addEvent event).2 = false ↔ s.free < event.length := by
    rw [hrefuses]
    rcases hsafe with hlen | hlen
    · rw [Nat.mod_eq_of_lt hlen]
    · omega
  cases hok : (s.transport.addEvent event).2 with
  | false =>
    have hsame := addEvent_refused hok
    have hstep : s.step (.add event) = s := by
      rw [step, hsame, hok]
      rfl
    rw [hstep]
    exact ⟨⟨hexact, fun _ => hsame, fun h => absurd (hok.symm.trans h) (by decide)⟩, hinv⟩
  | true =>
    have hlen : event.length ≤ s.free := by
      apply Nat.le_of_not_lt
      rw [← hexact, hok]
      decide
    obtain ⟨hbytes, hfilled, hfar⟩ := hinv.addEvent_accepted hevent hlen hok
    obtain ⟨hread, hring, hcurrent, hindex⟩ := addEvent_keeps s.transport event
    obtain ⟨waiting, hsplit, hfetched⟩ := hinv.split
    have hstep : s.step (.add event) =
        { s with
          transport := (s.transport.addEvent event).1
          accepted := s.accepted ++ [event] } := by
      rw [step, if_pos hok]
    have hsplit' : s.accepted ++ [event] = s.parsed ++ (waiting ++ [event]) := by
      rw [hsplit, List.append_assoc]
    have hunread : (s.step (.add event)).unread = s.unread ++ event := by
      rw [hstep, unread_of_split hsplit', unread_of_split hsplit, List.flatten_append,
        List.flatten_singleton]
    have hinv' : (s.step (.add event)).Inv := by
      refine ⟨?_, ?_, ?_, ?_, ?_, ?_⟩
      · rw [hstep]
        exact hring.trans hinv.size
      · intro e he
        rw [hstep] at he
        rcases List.mem_append.mp he with he | he
        · exact hinv.events e he
        · rw [List.mem_singleton.mp he]
          exact hevent
      · rw [hstep]
        refine ⟨waiting ++ [event], hsplit', fun h => ?_⟩
        obtain ⟨hcur, e, rest, hwaiting, hhead⟩ := hfetched h
        refine ⟨hindex.trans (hcur.trans hread.symm), e, rest ++ [event], ?_, hcurrent.trans hhead⟩
        rw [hwaiting, List.cons_append]
      · rw [hunread, List.length_append, hstep]
        exact hfilled
      · rw [hunread, List.length_append]
        rw [free, hsize] at hlen
        have := hevent.1
        omega
      · rw [hunread, hstep]
        show Mem.Holds _ (s.transport.addEvent event).1.ring.readindex.toNat _
        rw [hread]
        exact hbytes
    refine ⟨⟨hexact, fun h => absurd (hok.symm.trans h) (by decide), fun _ => ⟨?_, ?_⟩⟩, hinv'⟩
    · have hcontents := hinv'.contents_eq
      rw [hunread, ← hinv.contents_eq, hstep] at hcontents
      exact hcontents
    · rw [hsize]
      exact hfar

/-! ## Taking off -/

theorem nextEvent_eq (t : Transport) :
    t.nextEvent =
      if (t.ring.writeindex - t.ring.readindex).toInt32.toInt64.toUInt64 < 16 then
        ({ t with currentIndex := t.ring.readindex }, none)
      else
        ({ t with
            currentIndex := t.ring.readindex
            current := t.ring.readData t.data (t.ring.readindex &&& t.ring.mask)
              Transport.sizeofEvent },
          some (t.ring.readData t.data (t.ring.readindex &&& t.ring.mask)
            Transport.sizeofEvent)) :=
  rfl

/-- A read at the read index gives the first unread bytes. -/
theorem Inv.readData_eq {s : TransportUse} (hinv : s.Inv) (len : UInt32)
    (hlen : len.toNat ≤ s.unread.length) :
    s.transport.ring.readData s.transport.data
        (s.transport.ring.readindex &&& s.transport.ring.mask) len
      = s.unread.take len.toNat := by
  have hsize : s.transport.ring.size.toNat = 4096 := by
    rw [hinv.size]
    rfl
  have hbytes := hinv.bytes
  rw [← List.take_append_drop len.toNat s.unread] at hbytes
  have hfirst := hbytes.left
  rw [Mem.Holds, List.length_take, Nat.min_eq_left hlen] at hfirst
  have hfits := hinv.fits
  rw [SpaRingbuffer.readData_masked, hsize, Mem.ringRead_eq (by decide) (by omega), hfirst]

/-- The head of the first unread event. -/
theorem take_unread {s : TransportUse} {event : List UInt8} {rest : List (List UInt8)}
    (hsplit : s.accepted = s.parsed ++ event :: rest) {n : Nat} (hn : n ≤ event.length) :
    n ≤ s.unread.length ∧ s.unread.take n = event.take n := by
  rw [unread_of_split hsplit, List.flatten_cons]
  refine ⟨?_, List.take_append_of_le_length hn⟩
  rw [List.length_append]
  omega

theorem Inv.next {s : TransportUse} (hinv : s.Inv) :
    s.Answers .next ∧ (s.step .next).Inv := by
  obtain ⟨waiting, hsplit, -⟩ := hinv.split
  have hfilled : (s.transport.ring.writeindex - s.transport.ring.readindex).toNat
      = s.unread.length := hinv.filled
  have hfits := hinv.fits
  have hwide := widen_toNat (x := s.transport.ring.writeindex - s.transport.ring.readindex)
    (by omega)
  rw [Answers, step, nextEvent_eq]
  cases waiting with
  | nil =>
    have hempty : s.unread = [] := unread_of_split hsplit
    have hlt : (s.transport.ring.writeindex
        - s.transport.ring.readindex).toInt32.toInt64.toUInt64 < 16 := by
      rw [UInt64.lt_iff_toNat_lt, hwide, hfilled, hempty]
      decide
    rw [if_pos hlt]
    refine ⟨by simp [hempty], hinv.size, hinv.events, ⟨[], hsplit, fun h => nomatch h⟩,
      hinv.filled, hinv.fits, hinv.bytes⟩
  | cons event rest =>
    have hevent : IsEvent event := by
      apply hinv.events
      rw [hsplit]
      exact List.mem_append_right _ (List.mem_cons_self ..)
    obtain ⟨hlen, htake⟩ := take_unread hsplit hevent.1
    have hge : ¬ (s.transport.ring.writeindex
        - s.transport.ring.readindex).toInt32.toInt64.toUInt64 < 16 := by
      rw [UInt64.lt_iff_toNat_lt, hwide, hfilled]
      exact Nat.not_lt.mpr hlen
    have hnonempty : s.unread ≠ [] := by
      intro h
      rw [h] at hlen
      exact absurd hlen (by decide)
    rw [if_neg hge]
    refine ⟨by simp [hnonempty], hinv.size, hinv.events, ⟨event :: rest, hsplit, fun _ => ⟨rfl,
      event, rest, rfl, ?_⟩⟩, hinv.filled, hinv.fits, hinv.bytes⟩
    exact (hinv.readData_eq 16 hlen).trans htake

theorem Inv.parse {s : TransportUse} (hinv : s.Inv) (hfetched : s.fetched = true) :
    (s.step .parse).Inv := by
  obtain ⟨waiting, hsplit, hfound⟩ := hinv.split
  obtain ⟨hindex, event, rest, hwaiting, hcurrent⟩ := hfound hfetched
  rw [hwaiting] at hsplit
  have hevent : IsEvent event := by
    apply hinv.events
    rw [hsplit]
    exact List.mem_append_right _ (List.mem_cons_self ..)
  obtain ⟨hlen, htake⟩ := take_unread hsplit (Nat.le_refl event.length)
  rw [List.take_length] at htake
  have hfits := hinv.fits
  have hsize : eventSize s.transport.current = event.length := by
    rw [hevent.2, hcurrent, eventSize, eventSize, List.take_take]
    rfl
  have hsize32 : (UInt32.ofNat (eventSize s.transport.current)).toNat = event.length := by
    rw [hsize, UInt32.toNat_ofNat', Nat.mod_eq_of_lt (by omega)]
  have hparse : s.transport.parseEvent
      = ({ s.transport with
            ring := s.transport.ring.readUpdate
              (s.transport.ring.readindex + .ofNat event.length) }, event) := by
    have hread := hinv.readData_eq (.ofNat (eventSize s.transport.current))
      (by rw [hsize32]; exact hlen)
    rw [hsize32, htake] at hread
    rw [Transport.parseEvent, hindex, hread, hsize, ← hindex]
  have hsplit' : s.accepted = s.parsed ++ [event] ++ rest := by
    rw [hsplit, List.append_assoc, List.singleton_append]
  have hunread : (s.step .parse).unread = rest.flatten := by
    rw [step, hparse]
    exact unread_of_split hsplit'
  have hold : s.unread = event ++ rest.flatten := by
    rw [unread_of_split hsplit, List.flatten_cons]
  rw [hold, List.length_append] at hfits
  refine ⟨?_, hinv.events, ⟨rest, ?_, fun h => nomatch h⟩, ?_, ?_, ?_⟩
  · rw [step, hparse]
    exact hinv.size
  · rw [step, hparse]
    exact hsplit'
  · rw [hunread, step, hparse]
    show (s.transport.ring.readUpdate _).filled = _
    rw [SpaRingbuffer.filled_readUpdate _ (by rw [hinv.filled]; exact hlen), hinv.filled, hold,
      List.length_append, Nat.add_sub_cancel_left]
  · rw [hunread]
    omega
  · rw [hunread, step, hparse]
    have hmod := s.transport.ring.index_mod s.transport.ring.readindex event.length
    rw [hinv.size] at hmod
    have hbytes := hinv.bytes
    rw [hold] at hbytes
    exact (Mem.holds_unroll_congr hmod _).mpr hbytes.right

theorem Inv.op_right_iff {s : TransportUse} (hinv : s.Inv) {op : TransportOp}
    (hadmits : s.Admits op) : (s.Right op ↔ s.Safe op) ∧ (s.Safe op → (s.step op).Inv) := by
  have hright : s.Answers op → (s.step op).Inv → s.Right op :=
    fun hanswers h => ⟨hanswers, h.inOrder, h.contents_eq⟩
  cases op with
  | add event =>
    obtain ⟨honly, hsafe⟩ := hinv.add hadmits
    exact ⟨⟨honly, fun h => hright (hsafe h).1 (hsafe h).2⟩, fun h => (hsafe h).2⟩
  | next =>
    obtain ⟨hanswers, hstep⟩ := hinv.next
    exact ⟨⟨fun _ => trivial, fun _ => hright hanswers hstep⟩, fun _ => hstep⟩
  | parse =>
    have hstep := hinv.parse hadmits
    exact ⟨⟨fun _ => trivial, fun _ => hright trivial hstep⟩, fun _ => hstep⟩

/-- From an empty ring at any index, in any order of the steps of the two ends:
all is right exactly when no event's size wraps to one that fits. -/
theorem run_fifo_iff (index : UInt32) (data : Mem) (current : List UInt8)
    {ops : List TransportOp} (hadmits : Run.Along step Admits (start index data current) ops) :
    Run.Along step Right (start index data current) ops ↔
      Run.Along step Safe (start index data current) ops :=
  Run.along_iff Inv (fun _ _ h hop => (h.op_right_iff hop).1)
    (fun _ _ h hop => (h.op_right_iff hop).2) (inv_start index data current) hadmits

/-- Two events across the wrap of the indices, taken off while the second is added. -/
theorem run_fifo_iff_wrapping :
    let event : List UInt8 := [8, 0, 0, 0, 6, 0, 0, 0, 0, 0, 0, 0, 1, 0, 0, 0]
    let ops : List TransportOp := [.add event, .next, .add event, .parse, .next, .parse, .next]
    Run.Along step Right (start 0xFFFFFFF8 (fun _ => 0) []) ops ↔
      Run.Along step Safe (start 0xFFFFFFF8 (fun _ => 0) []) ops :=
  run_fifo_iff _ _ _ (by decide)

/-- An event of 2 ^ 32 bytes, whose size wraps to 0. -/
def hugeEvent : List UInt8 := toLE 4 (2 ^ 32 - 8) ++ List.replicate (2 ^ 32 - 4) 0

theorem hugeEvent_length : hugeEvent.length = 2 ^ 32 := by
  rw [hugeEvent, List.length_append, length_toLE, List.length_replicate]
  omega

theorem hugeEvent_isEvent : IsEvent hugeEvent := by
  have htake : hugeEvent.take 4 = toLE 4 (2 ^ 32 - 8) :=
    List.take_left' (length_toLE 4 _)
  refine ⟨?_, ?_⟩
  · rw [hugeEvent_length]
    decide
  · rw [eventSize, htake, ofLE_toLE, hugeEvent_length]
    omega

/-- The huge event is accepted by an empty ring. -/
theorem not_fifo : ¬ ∀ index data current ops,
    Run.Along step Admits (start index data current) ops →
      Run.Along step Right (start index data current) ops := by
  intro h
  have hright := h 0 (fun _ => 0) [] [.add hugeEvent] ⟨hugeEvent_isEvent, trivial⟩
  have hrefused := hright.1.1.1.mpr (by
    rw [hugeEvent_length]
    decide)
  have hlt := ((inv_start 0 (fun _ => 0) []).addEvent_refuses hugeEvent_isEvent).mp hrefused
  rw [hugeEvent_length] at hlt
  exact Nat.not_lt_zero _ hlt

end TransportUse
end Pinos
