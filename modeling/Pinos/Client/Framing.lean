import Pinos.Client.Connection
import Pinos.Lib.Run

/-
Receiving packets from a stream that arrives in pieces.
-/

namespace Pinos

open ByteMem

theorem Packet.length_bytes (p : Packet) : p.bytes.length = 8 + p.payload.length := by
  rw [bytes, List.length_append, List.length_append, length_toLE, length_toLE]

theorem Packet.bytes_ne_nil (p : Packet) : p.bytes ≠ [] := by
  intro h
  have := p.length_bytes
  rw [h, List.length_nil] at this
  omega

/-- The header has 24 bits for the length. -/
def Packet.Sized (p : Packet) : Prop := p.payload.length < 2 ^ 24

instance (p : Packet) : Decidable p.Sized := inferInstanceAs (Decidable (_ < _))

theorem Packet.word_lt {opcode : UInt8} {n : Nat} : Packet.word opcode n < 2 ^ 32 := by
  have := opcode.toNat_lt
  unfold word
  omega

theorem Packet.word_mod {p : Packet} (h : p.Sized) :
    Packet.word p.opcode p.payload.length % 2 ^ 24 = p.payload.length := by
  unfold word
  unfold Sized at h
  omega

theorem Packet.word_div (p : Packet) :
    UInt8.ofNat (Packet.word p.opcode p.payload.length / 2 ^ 24) = p.opcode := by
  have hdiv : Packet.word p.opcode p.payload.length / 2 ^ 24 = p.opcode.toNat := by
    unfold word
    omega
  rw [hdiv, UInt8.ofNat_toNat]

namespace ConnectionBuffer

variable {buf : ConnectionBuffer} {bytes stream : List UInt8} {packets : List Packet}

/-- `bytes` is what the buffer has from `offset` on. -/
structure Unread (buf : ConnectionBuffer) (bytes : List UInt8) : Prop where
  size : buf.offset + bytes.length = buf.bufferSize
  holds : buf.bufferData.Holds buf.offset bytes

/-- The position from which the next call goes on. -/
def advance (buf : ConnectionBuffer) : ConnectionBuffer :=
  { buf with offset := buf.offset + buf.size }

theorem ensureSize_room {size : Nat} (h : 0 < size) :
    (buf.ensureSize size).bufferSize < (buf.ensureSize size).bufferMaxsize := by
  unfold ensureSize
  split
  · show buf.bufferSize < roundUpN (buf.bufferSize + size) maxBufferSize
    unfold roundUpN maxBufferSize
    omega
  · omega

theorem Unread.ensureSize (h : buf.Unread bytes) (size : Nat) :
    (buf.ensureSize size).Unread bytes := by
  unfold ConnectionBuffer.ensureSize
  split
  · exact ⟨h.size, h.holds⟩
  · exact h

theorem ensureSize_size (buf : ConnectionBuffer) (size : Nat) :
    (buf.ensureSize size).size = buf.size ∧ (buf.ensureSize size).fds = buf.fds := by
  unfold ConnectionBuffer.ensureSize
  split <;> exact ⟨rfl, rfl⟩

/-- Waiting for the rest of a packet. -/
structure Partial (buf buf' : ConnectionBuffer) (bytes : List UInt8) : Prop where
  unread : buf'.Unread bytes
  update : buf'.update = true
  room : buf'.bufferSize < buf'.bufferMaxsize
  size : buf'.size = buf.size
  fds : buf'.fds = buf.fds

theorem Unread.waits (h : buf.Unread bytes) (size : Nat) (hsize : 0 < size) :
    Partial buf { buf.ensureSize size with update := true } bytes where
  unread := ⟨(h.ensureSize size).size, (h.ensureSize size).holds⟩
  update := rfl
  room := ensureSize_room hsize
  size := (ensureSize_size buf size).1
  fds := (ensureSize_size buf size).2

/-- A packet has been returned. -/
structure Took (buf buf' : ConnectionBuffer) (bytes : List UInt8) : Prop where
  unread : buf'.advance.Unread bytes
  update : buf'.update = buf.update
  maxsize : buf'.bufferMaxsize = buf.bufferMaxsize
  fds : buf'.fds = buf.fds

theorem Unread.append (h : buf.Unread bytes) (chunk : List UInt8) (fds : List Int)
    (update : Bool) :
    ({ buf with
       bufferData := buf.bufferData.write buf.bufferSize chunk
       bufferSize := buf.bufferSize + chunk.length
       fds := fds
       update := update } : ConnectionBuffer).Unread (bytes ++ chunk) := by
  refine ⟨?_, ?_⟩
  · rw [List.length_append, ← Nat.add_assoc, h.size]
  · apply Mem.holds_append.mpr ⟨?_, ?_⟩
    · exact h.holds.write_outside (Or.inl (Nat.le_of_eq h.size))
    · rw [h.size]
      exact Mem.holds_write _ _ _

/-- What `readPacket` does when the buffer and what is still to come are packets. -/
theorem Unread.readPacket (h : buf.Unread bytes)
    (hsplit : bytes ++ stream = packets.flatMap Packet.bytes)
    (hsized : ∀ p ∈ packets, p.Sized) :
    (bytes = [] ∧ buf.readPacket = ({ buf.clear with update := true }, .returns none)) ∨
    (∃ buf', buf.readPacket = (buf', .waits) ∧ Partial buf buf' bytes ∧ stream ≠ []) ∨
    (∃ p rest bytes' buf', packets = p :: rest ∧ bytes = p.bytes ++ bytes' ∧
      buf.readPacket = (buf', .returns (some p)) ∧ Took buf buf' bytes') := by
  by_cases hempty : bytes = []
  · left
    refine ⟨hempty, ?_⟩
    have hend : buf.bufferSize ≤ buf.offset := by
      have := h.size
      rw [hempty, List.length_nil] at this
      omega
    rw [ConnectionBuffer.readPacket, if_pos hend]
  right
  have hpos : 0 < bytes.length := List.length_pos_of_ne_nil hempty
  have hsize := h.size
  have hmore : ¬ buf.bufferSize ≤ buf.offset := by omega
  have hrest : buf.bufferSize - buf.offset = bytes.length := by omega
  cases packets with
  | nil =>
    rw [List.flatMap_nil] at hsplit
    exact absurd (List.append_eq_nil_iff.mp hsplit).1 hempty
  | cons p rest =>
  have hp := hsized p List.mem_cons_self
  rw [List.flatMap_cons] at hsplit
  have hlen := congrArg List.length hsplit
  rw [List.length_append, List.length_append, Packet.length_bytes] at hlen
  by_cases hheader : bytes.length < 8
  · left
    refine ⟨_, ?_, h.waits 8 (by decide), ?_⟩
    · rw [ConnectionBuffer.readPacket, if_neg hmore, hrest]
      simp only [if_pos hheader]
    · intro hnil
      rw [hnil, List.length_nil] at hlen
      omega
  -- the header is there
  rw [Packet.bytes, List.append_assoc] at hsplit
  obtain ⟨body, rfl, hbody⟩ : ∃ body, bytes =
      (toLE 4 p.destId.toNat ++ toLE 4 (Packet.word p.opcode p.payload.length)) ++ body ∧
      p.payload ++ rest.flatMap Packet.bytes = body ++ stream := by
    rcases List.append_eq_append_iff.mp hsplit with ⟨t, ht, hs⟩ | ⟨t, ht, hs⟩
    · have htl := congrArg List.length ht
      simp only [List.length_append, length_toLE] at htl
      have hnil : t = [] := List.length_eq_zero_iff.mp (by omega)
      subst hnil
      exact ⟨[], by rw [List.append_nil] at ht ⊢; exact ht.symm, hs.symm⟩
    · exact ⟨t, ht, hs⟩
  have hdest := h.holds.left.left.u32
  have hword := h.holds.left.right.u32
  have hpayload := h.holds.right
  rw [Nat.mod_eq_of_lt p.destId.toNat_lt] at hdest
  rw [length_toLE, Nat.mod_eq_of_lt Packet.word_lt] at hword
  simp only [List.length_append, length_toLE] at hpayload hheader hrest hsize hlen
  by_cases hwhole : body.length < p.payload.length
  · left
    have hlong : 4 + 4 + body.length - 8 < p.payload.length := by omega
    refine ⟨_, ?_, h.waits _ (Nat.lt_of_le_of_lt (Nat.zero_le _) hwhole), ?_⟩
    · rw [ConnectionBuffer.readPacket, if_neg hmore, hrest]
      simp only [if_neg hheader, hword, Packet.word_mod hp, if_pos hlong]
    · intro hnil
      rw [hnil, List.append_nil] at hbody
      have := congrArg List.length hbody
      rw [List.length_append] at this
      omega
  · right
    obtain ⟨tail, rfl, htail⟩ : ∃ tail, body = p.payload ++ tail ∧
        rest.flatMap Packet.bytes = tail ++ stream := by
      rcases List.append_eq_append_iff.mp hbody with ⟨t, ht, hs⟩ | ⟨t, ht, hs⟩
      · exact ⟨t, ht, hs⟩
      · have htl := congrArg List.length ht
        rw [List.length_append] at htl
        have hnil : t = [] := List.length_eq_zero_iff.mp (by omega)
        subst hnil
        exact ⟨[], by rw [List.append_nil] at ht ⊢; exact ht.symm, hs.symm⟩
    have hshort : ¬ 4 + 4 + (p.payload ++ tail).length - 8 < p.payload.length := by
      rw [List.length_append]
      omega
    have hread : buf.bufferData.read (buf.offset + 8) p.payload.length = p.payload :=
      hpayload.left
    let after : ConnectionBuffer :=
      { buf with size := p.payload.length, data := buf.offset + 8, offset := buf.offset + 8 }
    refine ⟨p, rest, tail, after, rfl, ?_, ?_, ?_⟩
    · rw [Packet.bytes, List.append_assoc, List.append_assoc, List.append_assoc]
    · rw [ConnectionBuffer.readPacket, if_neg hmore, hrest]
      simp only [if_neg hheader, hdest, hword, Packet.word_mod hp, if_neg hshort, hread,
        Packet.word_div, UInt32.ofNat_toNat]
      rfl
    · refine ⟨⟨?_, ?_⟩, rfl, rfl, rfl⟩
      · show buf.offset + 8 + p.payload.length + tail.length = buf.bufferSize
        rw [List.length_append] at hsize
        omega
      · exact hpayload.right

end ConnectionBuffer

/-! ## The receiver -/

/-- A connection that receives: `stream` is what the socket still has to deliver,
`waiting` says that `pinos_connection_get_next` is inside `recvmsg`, and `returned`
are the packets it has returned. -/
structure Receiver where
  buf : ConnectionBuffer
  stream : List UInt8
  waiting : Bool
  returned : List Packet

inductive RecvEvent
  /-- The caller calls `pinos_connection_get_next`. -/
  | call
  /-- `recvmsg` returns `n + 1` bytes, or as many as there are and there is room for. -/
  | chunk (n : Nat)
  | interrupted
  /-- `recvmsg` fails with `EAGAIN`. -/
  | again
  deriving DecidableEq

namespace Receiver

def start (mem : Mem) (stream : List UInt8) : Receiver :=
  { buf := .new mem true, stream := stream, waiting := false, returned := [] }

def goOn (s : Receiver) (r : ConnectionBuffer × ConnectionBuffer.Progress) : Receiver :=
  match r.2 with
  | .waits => { s with buf := r.1, waiting := true }
  | .returns packet =>
    { s with buf := r.1, waiting := false, returned := s.returned ++ packet.toList }

def step (s : Receiver) : RecvEvent → Receiver
  | .call => if s.waiting then s else s.goOn s.buf.getNext
  | .chunk n =>
    if s.waiting ∧ s.stream ≠ [] then
      let len := min (n + 1) s.buf.recvRoom
      { s with stream := s.stream.drop len }.goOn
        (s.buf.refill (.received (s.stream.take len) []))
    else s
  | .interrupted => if s.waiting then s.goOn (s.buf.refill .interrupted) else s
  | .again => if s.waiting then s.goOn (s.buf.refill .failed) else s

/-- The buffer as the next packet is looked for. -/
def current (s : Receiver) : ConnectionBuffer := if s.waiting then s.buf else s.buf.advance

/-- The packets that have not been returned are the unread bytes of the buffer and
what the socket has. -/
structure Inv (packets : List Packet) (s : Receiver) (left : List Packet)
    (bytes : List UInt8) : Prop where
  packets : packets = s.returned ++ left
  split : bytes ++ s.stream = left.flatMap Packet.bytes
  unread : s.current.Unread bytes
  waiting : s.waiting = true → s.buf.update = true
  room : s.buf.update = true → s.buf.bufferSize < s.buf.bufferMaxsize
  drained : s.buf.update = true → s.stream = [] → bytes = []
  maxsize : 0 < s.buf.bufferMaxsize

variable {packets left : List Packet} {s : Receiver} {bytes : List UInt8}

theorem inv_start (mem : Mem) (packets : List Packet) :
    Inv packets (start mem (packets.flatMap Packet.bytes)) packets [] where
  packets := rfl
  split := rfl
  unread := ⟨rfl, Mem.holds_nil _ _⟩
  waiting h := by cases h
  room _ := show 0 < maxBufferSize by decide
  drained _ _ := rfl
  maxsize := show 0 < maxBufferSize by decide

/-- One pass over an up-to-date buffer. -/
theorem inv_readPacket {buf : ConnectionBuffer} (hpackets : packets = s.returned ++ left)
    (hsplit : bytes ++ s.stream = left.flatMap Packet.bytes) (hunread : buf.Unread bytes)
    (hupdate : buf.update = false) (hmax : 0 < buf.bufferMaxsize)
    (hsized : ∀ p ∈ packets, p.Sized) :
    ∃ left' bytes', Inv packets (s.goOn buf.readPacket) left' bytes' := by
  have hleft : ∀ p ∈ left, p.Sized := by
    intro p hp
    apply hsized
    rw [hpackets]
    exact List.mem_append_right _ hp
  rcases hunread.readPacket hsplit hleft with
    ⟨rfl, hr⟩ | ⟨buf', hr, hpart, hstream⟩ | ⟨p, rest, bytes', buf', rfl, rfl, hr, htook⟩
  · refine ⟨left, [], ?_⟩
    rw [hr]
    refine ⟨?_, hsplit, ⟨rfl, Mem.holds_nil _ _⟩, ?_, fun _ => hmax, fun _ _ => rfl, hmax⟩
    · exact hpackets.trans (by simp [goOn])
    · intro h
      cases h
  · refine ⟨left, bytes, ?_⟩
    rw [hr]
    refine ⟨hpackets, hsplit, hpart.unread, fun _ => hpart.update, fun _ => hpart.room, ?_, ?_⟩
    · intro _ hnil
      exact absurd hnil hstream
    · exact Nat.lt_of_le_of_lt (Nat.zero_le _) hpart.room
  · refine ⟨rest, bytes', ?_⟩
    rw [hr]
    have hno : buf'.update = false := htook.update.trans hupdate
    refine ⟨?_, ?_, htook.unread, ?_, ?_, ?_, ?_⟩
    · simp [goOn, hpackets]
    · rw [List.flatMap_cons, List.append_assoc] at hsplit
      exact List.append_cancel_left hsplit
    · intro h
      cases h
    · intro h
      change buf'.update = true at h
      rw [hno] at h
      cases h
    · intro h
      change buf'.update = true at h
      rw [hno] at h
      cases h
    · show 0 < buf'.bufferMaxsize
      rw [htook.maxsize]
      exact hmax

/-- `EAGAIN` arrives only while no packet with a payload has been returned since the
buffer was last empty: otherwise the next call moves past that payload again. -/
def Timely (s : Receiver) (e : RecvEvent) : Prop :=
  e = .again → s.waiting = true → s.buf.size = 0

instance (s : Receiver) (e : RecvEvent) : Decidable (Timely s e) :=
  inferInstanceAs (Decidable (_ → _ → _))

theorem inv_step {e : RecvEvent} (hsized : ∀ p ∈ packets, p.Sized) (h : Inv packets s left bytes)
    (hok : Timely s e) : ∃ left' bytes', Inv packets (s.step e) left' bytes' := by
  cases e with
  | call =>
    rw [step]
    split
    · exact ⟨left, bytes, h⟩
    · next hw =>
      have hunread := h.unread
      rw [current, if_neg hw] at hunread
      rw [ConnectionBuffer.getNext]
      split
      · next hu =>
        exact ⟨left, bytes, h.packets, h.split, hunread, fun _ => hu, h.room, h.drained, h.maxsize⟩
      · next hu =>
        exact inv_readPacket h.packets h.split hunread (Bool.eq_false_iff.mpr hu) h.maxsize hsized
  | chunk n =>
    rw [step]
    split
    · next hw =>
      have hunread := h.unread
      rw [current, if_pos hw.1] at hunread
      simp only [ConnectionBuffer.refill]
      apply inv_readPacket
        (s := { s with stream := s.stream.drop (min (n + 1) s.buf.recvRoom) })
        h.packets _ (hunread.append _ _ _) rfl h.maxsize hsized
      rw [← h.split, List.append_assoc, List.take_append_drop]
    · exact ⟨left, bytes, h⟩
  | interrupted =>
    rw [step]
    split
    · next hw =>
      have hunread := h.unread
      rw [current, if_pos hw] at hunread
      exact ⟨left, bytes, h.packets, h.split, hunread, fun _ => h.waiting hw, h.room, h.drained,
        h.maxsize⟩
    · exact ⟨left, bytes, h⟩
  | again =>
    rw [step]
    split
    · next hw =>
      have hunread := h.unread
      rw [current, if_pos hw] at hunread
      refine ⟨left, bytes, ?_, h.split, ?_, ?_, h.room, h.drained, h.maxsize⟩
      · exact h.packets.trans (by simp [goOn, ConnectionBuffer.refill])
      · have hsize : s.buf.size = 0 := hok rfl hw
        refine ⟨?_, ?_⟩
        · show s.buf.offset + s.buf.size + bytes.length = s.buf.bufferSize
          rw [hsize]
          exact hunread.size
        · show s.buf.bufferData.Holds (s.buf.offset + s.buf.size) bytes
          rw [hsize]
          exact hunread.holds
      · intro h
        cases h
    · exact ⟨left, bytes, h⟩

/-- What is asked of a receiver of `packets`: it has returned the first of them, it
takes some of what there is to receive, and once everything has been received it
returns all of them. -/
structure Delivers (packets : List Packet) (s : Receiver) : Prop where
  inOrder : s.returned <+: packets
  progress : s.waiting = true → s.stream ≠ [] →
    ∀ n, (s.step (.chunk n)).stream.length < s.stream.length
  complete : s.stream = [] →
    ∃ calls, (Run.run step s (List.replicate calls .call)).returned = packets

/-- What the buffer holds once everything has arrived is returned call by call. -/
theorem Inv.complete (hsized : ∀ p ∈ packets, p.Sized) (h : Inv packets s left bytes)
    (hstream : s.stream = []) :
    ∃ calls, (Run.run step s (List.replicate calls .call)).returned = packets := by
  induction left generalizing s bytes with
  | nil => exact ⟨0, by rw [h.packets, List.append_nil]; rfl⟩
  | cons p rest ih =>
    have hbytes : bytes = p.bytes ++ rest.flatMap Packet.bytes := by
      have := h.split
      rwa [hstream, List.append_nil, List.flatMap_cons] at this
    have hmore : bytes ≠ [] := by
      rw [hbytes]
      exact fun hnil => p.bytes_ne_nil (List.append_eq_nil_iff.mp hnil).1
    have hupdate : s.buf.update ≠ true := fun hu => hmore (h.drained hu hstream)
    have hw : s.waiting ≠ true := fun hw => hupdate (h.waiting hw)
    have hunread := h.unread
    rw [current, if_neg hw] at hunread
    have hleft : ∀ q ∈ p :: rest, q.Sized := by
      intro q hq
      apply hsized
      rw [h.packets]
      exact List.mem_append_right _ hq
    -- with nothing left to come the pass over the buffer finds the whole packet
    rcases hunread.readPacket h.split hleft with
      ⟨hnil, -⟩ | ⟨buf', -, -, hne⟩ | ⟨q, rest', bytes', buf', hcons, -, hr, -⟩
    · exact absurd hnil hmore
    · exact absurd hstream hne
    · obtain ⟨rfl, rfl⟩ := List.cons.inj hcons
      have hstep : s.step .call = s.goOn (buf', .returns (some p)) := by
        rw [step, if_neg hw, ConnectionBuffer.getNext]
        show s.goOn (if s.buf.update = true then _ else s.buf.advance.readPacket) = _
        rw [if_neg hupdate, hr]
      obtain ⟨left', bytes'', hinv⟩ := inv_step (e := .call) hsized h (fun he => by cases he)
      rw [hstep] at hinv
      have hleft' : left' = rest := by
        have := hinv.packets
        rw [h.packets] at this
        have happ : s.returned ++ p :: rest = (s.returned ++ [p]) ++ left' := this
        rw [List.append_assoc] at happ
        exact (List.cons.inj (List.append_cancel_left happ)).2.symm
      subst hleft'
      obtain ⟨calls, hcalls⟩ := ih hinv hstream
      refine ⟨calls + 1, ?_⟩
      rw [List.replicate_succ, Run.run_cons, hstep]
      exact hcalls

theorem Inv.delivers (hsized : ∀ p ∈ packets, p.Sized) (h : Inv packets s left bytes) :
    Delivers packets s := by
  refine ⟨⟨left, h.packets.symm⟩, ?_, h.complete hsized⟩
  intro hw hstream n
  have hroom := h.room (h.waiting hw)
  have hpos : 0 < s.stream.length := List.length_pos_of_ne_nil hstream
  have hlen : 0 < min (n + 1) s.buf.recvRoom := by
    unfold ConnectionBuffer.recvRoom
    omega
  rw [step, if_pos ⟨hw, hstream⟩]
  have hdrop : ∀ r, ({ s with stream := s.stream.drop (min (n + 1) s.buf.recvRoom) }.goOn r).stream
      = s.stream.drop (min (n + 1) s.buf.recvRoom) := by
    intro r
    unfold goOn
    split <;> rfl
  rw [hdrop, List.length_drop]
  omega

/-- Receiving packets, however the stream is cut into pieces: a receiver whom
`EAGAIN` meets only in time returns the packets that were sent. -/
theorem run_delivers (mem : Mem) (packets : List Packet) (hsized : ∀ p ∈ packets, p.Sized)
    (es : List RecvEvent)
    (hok : Run.Along step Timely (start mem (packets.flatMap Packet.bytes)) es) :
    Delivers packets (Run.run step (start mem (packets.flatMap Packet.bytes)) es) := by
  have hstep : ∀ s e, (∃ left bytes, Inv packets s left bytes) → Timely s e →
      ∃ left bytes, Inv packets (s.step e) left bytes := by
    rintro s e ⟨left, bytes, h⟩ he
    exact inv_step hsized h he
  obtain ⟨left, bytes, h⟩ := Run.run_invariant (fun s => ∃ left bytes, Inv packets s left bytes)
    hstep ⟨packets, [], inv_start mem packets⟩ hok
  exact h.delivers hsized

/-- A packet with 8 bytes of payload, and one whose payload looks like a header. -/
def twoPackets : List Packet :=
  [⟨1, 2, List.replicate 8 7⟩, ⟨3, 4, List.replicate 8 0⟩]

/-- The first packet and half a header, then nothing for a while, then the rest. -/
def lateRest : List RecvEvent := [.call, .chunk 19, .call, .again, .call, .chunk 31]

theorem run_delivers_twoPackets :
    Delivers twoPackets (Run.run step (start (fun _ => 0) (twoPackets.flatMap Packet.bytes))
      [.call, .again, .call, .chunk 19, .call, .chunk 31]) :=
  run_delivers (fun _ => 0) twoPackets (by decide) _ (by decide)

/-- The rest that comes late is read from the middle of a payload. -/
theorem not_delivers :
    ¬ ∀ (mem : Mem) (packets : List Packet), (∀ p ∈ packets, p.Sized) →
      ∀ es, Delivers packets (Run.run step (start mem (packets.flatMap Packet.bytes)) es) := by
  intro h
  have hlate := (h (fun _ => 0) twoPackets (by decide) lateRest).inOrder
  have hgot : (Run.run step (start (fun _ => 0) (twoPackets.flatMap Packet.bytes))
      lateRest).returned = [⟨1, 2, List.replicate 8 7⟩, ⟨0, 0, []⟩] := by
    decide
  rw [hgot] at hlate
  exact absurd hlate (by decide)

end Receiver
end Pinos
