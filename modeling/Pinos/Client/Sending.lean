import Pinos.Client.Framing

/-
Sending packets through a socket that takes them in pieces.
-/

namespace Pinos

open ByteMem

namespace ConnectionBuffer

variable {buf : ConnectionBuffer} {pending : List UInt8}

/-- A caller fills memory it was given. -/
def fill (buf : ConnectionBuffer) (a : Nat) (bytes : List UInt8) : ConnectionBuffer :=
  { buf with bufferData := buf.bufferData.write a bytes }

/-- A packet from `pinos_connection_begin_write`, which is asked for `slack` bytes more
than it needs, to `pinos_connection_end_write`. -/
def writePacket (buf : ConnectionBuffer) (slack : Nat) (p : Packet) : ConnectionBuffer :=
  let (buf, a) := buf.beginWrite (p.payload.length + slack)
  (buf.fill a p.payload).endWrite p.destId p.opcode p.payload.length

/-- The out buffer contains `pending` and nothing else. -/
structure Pending (buf : ConnectionBuffer) (pending : List UInt8) : Prop where
  size : pending.length = buf.bufferSize
  holds : buf.bufferData.Holds 0 pending

theorem ensureSize_eq (buf : ConnectionBuffer) (size : Nat) :
    ∃ maxsize, buf.ensureSize size = { buf with bufferMaxsize := maxsize } := by
  unfold ensureSize
  split
  · exact ⟨_, rfl⟩
  · exact ⟨buf.bufferMaxsize, rfl⟩

theorem Pending.read (h : buf.Pending pending) : buf.bufferData.read 0 buf.bufferSize = pending := by
  rw [← h.size]
  exact h.holds

/-- Memory behind the packets may be used freely. -/
theorem Pending.fill (h : buf.Pending pending) {a : Nat} (ha : buf.bufferSize ≤ a)
    (bytes : List UInt8) : (buf.fill a bytes).Pending pending where
  size := h.size
  holds := by
    apply h.holds.write_outside
    have := h.size
    omega

theorem Pending.maxsize (h : buf.Pending pending) (maxsize : Nat) :
    ({ buf with bufferMaxsize := maxsize } : ConnectionBuffer).Pending pending :=
  ⟨h.size, h.holds⟩

theorem Pending.ensureSize (h : buf.Pending pending) (size : Nat) :
    (buf.ensureSize size).Pending pending := by
  obtain ⟨maxsize, hsame⟩ := buf.ensureSize_eq size
  rw [hsame]
  exact h.maxsize maxsize

/-- A packet whose payload is in place behind the room for its header. -/
theorem Pending.endWrite (h : buf.Pending pending) {p : Packet}
    (hpayload : buf.bufferData.Holds (buf.bufferSize + 8) p.payload)
    (hp : 8 + p.payload.length < 2 ^ 32) :
    (buf.endWrite p.destId p.opcode p.payload.length).Pending (pending ++ p.bytes) ∧
      (buf.endWrite p.destId p.opcode p.payload.length).fds = buf.fds := by
  obtain ⟨maxsize, hsame⟩ := buf.ensureSize_eq (toU32 (8 + p.payload.length))
  rw [ConnectionBuffer.endWrite, hsame, toU32_of_lt hp]
  refine ⟨⟨?_, ?_⟩, rfl⟩
  · show (pending ++ p.bytes).length = buf.bufferSize + (8 + p.payload.length)
    rw [List.length_append, h.size, Packet.length_bytes]
  · rw [Packet.bytes]
    apply Mem.holds_append.mpr ⟨?_, ?_⟩
    · exact h.holds.write_outside (Or.inl (by rw [h.size, Nat.zero_add]))
    · rw [Nat.zero_add, h.size]
      apply Mem.holds_append.mpr ⟨Mem.holds_write _ _ _, ?_⟩
      simp only [List.length_append, length_toLE]
      exact hpayload.write_outside (Or.inr (by simp))

theorem Pending.writePacket (h : buf.Pending pending) (slack : Nat) {p : Packet}
    (hp : 8 + p.payload.length < 2 ^ 32) :
    (buf.writePacket slack p).Pending (pending ++ p.bytes) ∧
      (buf.writePacket slack p).fds = buf.fds := by
  obtain ⟨maxsize, hsame⟩ := buf.ensureSize_eq (toU32 (8 + (p.payload.length + slack)))
  rw [ConnectionBuffer.writePacket, beginWrite, hsame]
  exact ((h.maxsize maxsize).fill (Nat.le_add_right _ 8) p.payload).endWrite
    (Mem.holds_write _ _ _) hp

end ConnectionBuffer

/-! ## The sender -/

/-- A connection that sends: `flushing` says that `pinos_connection_flush` is inside
`sendmsg`, `handed` is what the socket has accepted and `written` what has been put
into the connection, both from the beginning. -/
structure Sender where
  buf : ConnectionBuffer
  flushing : Bool
  handed : List UInt8
  written : List Packet

inductive SendEvent
  /-- A packet is written.  `slack` is how much more memory is asked for than used. -/
  | write (slack : Nat) (packet : Packet)
  /-- `pinos_connection_begin_write` without the end: the memory is filled and left. -/
  | abandon (size : Nat) (bytes : List UInt8)
  /-- The caller calls `pinos_connection_flush`. -/
  | flush
  /-- `sendmsg` accepts `n` bytes, or as many as there are. -/
  | accept (n : Nat)
  | interrupted
  | failed
  deriving DecidableEq

namespace Sender

def start (mem : Mem) : Sender :=
  { buf := .new mem false, flushing := false, handed := [], written := [] }

def step (s : Sender) : SendEvent → Sender
  | .write slack p =>
    if s.flushing then s
    else { s with buf := s.buf.writePacket slack p, written := s.written ++ [p] }
  | .abandon size bytes =>
    if s.flushing then s
    else
      let (buf, a) := s.buf.beginWrite size
      { s with buf := buf.fill a bytes }
  | .flush => if s.flushing ∨ s.buf.bufferSize = 0 then s else { s with flushing := true }
  | .accept n =>
    if s.flushing then
      let len := min n s.buf.bufferSize
      { s with
        buf := (s.buf.flush (.sent len)).1
        flushing := false
        handed := s.handed ++ s.buf.flushed.1.take len }
    else s
  | .interrupted => if s.flushing then { s with buf := (s.buf.flush .interrupted).1 } else s
  | .failed =>
    if s.flushing then { s with buf := (s.buf.flush .failed).1, flushing := false } else s

/-- The socket takes everything it is offered or nothing, and sizes fit 32 bits. -/
def Whole (s : Sender) : SendEvent → Prop
  | .write _ p => 8 + p.payload.length < 2 ^ 32
  | .accept n => n = 0 ∨ s.buf.bufferSize ≤ n
  | _ => True

instance (s : Sender) : (e : SendEvent) → Decidable (Whole s e)
  | .write _ _ => inferInstanceAs (Decidable (_ < _))
  | .accept _ => inferInstanceAs (Decidable (_ ∨ _))
  | .abandon _ _ | .flush | .interrupted | .failed => inferInstanceAs (Decidable True)

structure Inv (s : Sender) (pending : List UInt8) : Prop where
  buffered : s.buf.Pending pending
  split : s.handed ++ pending = s.written.flatMap Packet.bytes

/-- What is asked of a sender: the socket has been given a first part of what was
written, and all of it when the buffer is empty. -/
structure LosesNothing (s : Sender) : Prop where
  inOrder : s.handed <+: s.written.flatMap Packet.bytes
  complete : s.buf.bufferSize = 0 → s.handed = s.written.flatMap Packet.bytes

variable {s : Sender} {pending : List UInt8}

theorem Inv.losesNothing (h : Inv s pending) : LosesNothing s where
  inOrder := ⟨pending, h.split⟩
  complete hempty := by
    have hnil : pending = [] := List.length_eq_zero_iff.mp (h.buffered.size.trans hempty)
    rw [← h.split, hnil, List.append_nil]

theorem inv_step {e : SendEvent} (h : Inv s pending) (hok : Whole s e) :
    ∃ pending', Inv (s.step e) pending' := by
  cases e with
  | write slack p =>
    rw [step]
    split
    · exact ⟨pending, h⟩
    · refine ⟨pending ++ p.bytes, (h.buffered.writePacket slack hok).1, ?_⟩
      show s.handed ++ (pending ++ p.bytes) = (s.written ++ [p]).flatMap Packet.bytes
      rw [← List.append_assoc, h.split, List.flatMap_append, List.flatMap_singleton]
  | abandon size bytes =>
    rw [step]
    split
    · exact ⟨pending, h⟩
    · refine ⟨pending, ?_, h.split⟩
      obtain ⟨maxsize, hsame⟩ := s.buf.ensureSize_eq (toU32 (8 + size))
      rw [ConnectionBuffer.beginWrite, hsame]
      exact (h.buffered.maxsize maxsize).fill (Nat.le_add_right _ 8) bytes
  | flush =>
    rw [step]
    split
    · exact ⟨pending, h⟩
    · exact ⟨pending, h.buffered, h.split⟩
  | accept n =>
    rw [step]
    split
    · have hflushed : s.buf.flushed.1 = pending := h.buffered.read
      have hsize := h.buffered.size
      rw [hflushed]
      rcases hok with rfl | hall
      · refine ⟨pending, ⟨?_, h.buffered.holds⟩, ?_⟩
        · show pending.length = s.buf.bufferSize - min 0 s.buf.bufferSize
          omega
        · show s.handed ++ pending.take (min 0 s.buf.bufferSize) ++ pending = _
          rw [Nat.zero_min, List.take_zero, List.append_nil]
          exact h.split
      · refine ⟨[], ⟨?_, Mem.holds_nil _ _⟩, ?_⟩
        · show 0 = s.buf.bufferSize - min n s.buf.bufferSize
          omega
        · show s.handed ++ pending.take (min n s.buf.bufferSize) ++ [] = _
          rw [Nat.min_eq_right hall, ← hsize, List.take_length, List.append_nil]
          exact h.split
    · exact ⟨pending, h⟩
  | interrupted =>
    rw [step]
    split
    · exact ⟨pending, h.buffered, h.split⟩
    · exact ⟨pending, h⟩
  | failed =>
    rw [step]
    split
    · exact ⟨pending, h.buffered, h.split⟩
    · exact ⟨pending, h⟩

/-- A sender whose socket takes all or nothing loses nothing. -/
theorem run_losesNothing (mem : Mem) (es : List SendEvent)
    (hok : Run.Along step Whole (start mem) es) : LosesNothing (Run.run step (start mem) es) := by
  have hstep : ∀ s e, (∃ pending, Inv s pending) → Whole s e → ∃ pending, Inv (s.step e) pending := by
    rintro s e ⟨pending, h⟩ he
    exact inv_step h he
  have hstart : Inv (start mem) [] := ⟨⟨rfl, Mem.holds_nil _ _⟩, rfl⟩
  obtain ⟨pending, h⟩ := Run.run_invariant (fun s => ∃ pending, Inv s pending) hstep ⟨[], hstart⟩ hok
  exact h.losesNothing

/-- Two packets, the second written while a send is being retried. -/
theorem run_losesNothing_twoPackets :
    LosesNothing (Run.run step (start fun _ => 0)
      [.write 0 ⟨1, 2, [3]⟩, .flush, .failed, .write 8 ⟨4, 5, []⟩, .flush, .accept 17]) :=
  run_losesNothing (fun _ => 0) _ (by decide)

/-- A send that takes 4 of 8 bytes is followed by one that starts again at the first. -/
theorem not_losesNothing :
    ¬ ∀ (mem : Mem) (es : List SendEvent),
      (∀ slack p, .write slack p ∈ es → 8 + p.payload.length < 2 ^ 32) →
      LosesNothing (Run.run step (start mem) es) := by
  intro h
  let es : List SendEvent :=
    [.write 0 ⟨1, 2, []⟩, .flush, .accept 4, .flush, .accept 4]
  have hsmall : ∀ slack p, SendEvent.write slack p ∈ es → 8 + p.payload.length < 2 ^ 32 := by
    intro slack p hp
    simp only [es, List.mem_cons, SendEvent.write.injEq, reduceCtorEq, or_false,
      List.not_mem_nil] at hp
    rw [hp.2]
    decide
  have hbad := (h (fun _ => 0) es hsmall).inOrder
  have hhanded : (Run.run step (start fun _ => 0) es).handed = toLE 4 1 ++ toLE 4 1 := by decide
  have hwritten : (Run.run step (start fun _ => 0) es).written = [⟨1, 2, []⟩] := by decide
  rw [hhanded, hwritten] at hbad
  exact absurd hbad (by decide)

end Sender
end Pinos
