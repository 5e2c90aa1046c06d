import Pinos.Client.Sending

/-
File descriptors that go with the packets of a connection.

A message names a descriptor by its index in the table of the flush it is sent with,
and the receiver looks the index up in the table it received last.  The socket keeps
what each `sendmsg` was given apart from the others: `recvmsg` gives bytes from the
front, with the descriptors of every `sendmsg` whose bytes it is the first to reach.
-/

namespace Pinos

open ByteMem

/-- A packet and what `pinos_connection_add_fd` returned while it was made: pairs of
an index and the descriptor it was returned for. -/
structure Message where
  packet : Packet
  refs : List (Nat × Int)
  deriving DecidableEq

/-- A negative descriptor is sent as its opposite. -/
def Message.In (m : Message) (table : List Int) : Prop :=
  ∀ ref ∈ m.refs, table[ref.1]? = some (ref.2.natAbs : Int)

def messageBytes (ms : List Message) : List UInt8 := ms.flatMap fun m => m.packet.bytes

/-- What one `sendmsg` left in the socket, and the messages it is made of. -/
structure Segment where
  bytes : List UInt8
  fds : List Int
  messages : List Message

/-- The control message of a `sendmsg`, when it has one. -/
def Segment.cmsg (seg : Segment) : Option (List Int) :=
  if seg.fds = [] then none else some seg.fds

/-- Split off the segments that the next `n` bytes reach. -/
def touch : List Segment → Nat → List Segment × List Segment
  | [], _ => ([], [])
  | seg :: queue, n =>
    if n = 0 then ([], seg :: queue)
    else
      let (touched, queue') := touch queue (n - seg.bytes.length)
      (seg :: touched, queue')

def messagesOf (segs : List Segment) : List Message := segs.flatMap Segment.messages

namespace ConnectionBuffer

/-- `pinos_connection_add_fd` for one descriptor after the other; those that are not
accepted get no index. -/
def addFds (buf : ConnectionBuffer) : List Int → ConnectionBuffer × List (Nat × Int)
  | [] => (buf, [])
  | fd :: rest =>
    let (buf, index) := buf.addFd fd
    let (buf, refs) := buf.addFds rest
    (buf, (index.map fun i => (i, fd)).toList ++ refs)

end ConnectionBuffer

theorem Message.In.append {m : Message} {table : List Int} (h : m.In table) (more : List Int) :
    m.In (table ++ more) := by
  intro ref href
  obtain ⟨hlt, -⟩ := List.getElem?_eq_some_iff.mp (h ref href)
  rw [List.getElem?_append_left hlt]
  exact h ref href

theorem Message.in_of_refs {m : Message} (h : m.refs = []) (table : List Int) : m.In table := by
  intro ref href
  rw [h] at href
  exact absurd href List.not_mem_nil

theorem Message.In.refs_nil {m : Message} (h : m.In []) : m.refs = [] := by
  rw [List.eq_nil_iff_forall_not_mem]
  intro ref href
  have := h ref href
  rw [List.getElem?_nil] at this
  cases this

theorem touch_append (queue : List Segment) (n : Nat) :
    (touch queue n).1 ++ (touch queue n).2 = queue := by
  induction queue generalizing n with
  | nil => rfl
  | cons seg queue ih =>
    rw [touch]
    split
    · rfl
    · show seg :: ((touch queue _).1 ++ (touch queue _).2) = _
      rw [ih]

namespace ConnectionBuffer

theorem addFd_index (buf : ConnectionBuffer) (fd : Int) :
    ∃ more, (buf.addFd fd).1 = { buf with fds := buf.fds ++ more } ∧
      ∀ i, (buf.addFd fd).2 = some i → (buf.fds ++ more)[i]? = some fd := by
  unfold addFd
  split
  · next i hi =>
    refine ⟨[], by rw [List.append_nil], ?_⟩
    intro j hj
    cases hj
    rw [List.append_nil]
    obtain ⟨hlt, hfd, -⟩ := List.findIdx?_eq_some_iff_getElem.mp hi
    rw [List.getElem?_eq_getElem hlt]
    exact congrArg some (beq_iff_eq.mp hfd)
  · split
    · exact ⟨[], by rw [List.append_nil], by intro j hj; cases hj⟩
    · refine ⟨[fd], rfl, ?_⟩
      intro j hj
      cases hj
      rw [List.getElem?_append_right (Nat.le_refl _), Nat.sub_self]
      rfl

theorem addFds_index (buf : ConnectionBuffer) (fds : List Int) :
    ∃ more, (buf.addFds fds).1 = { buf with fds := buf.fds ++ more } ∧
      ∀ ref ∈ (buf.addFds fds).2, (buf.fds ++ more)[ref.1]? = some ref.2 := by
  induction fds generalizing buf with
  | nil => exact ⟨[], by rw [List.append_nil]; rfl, fun ref h => absurd h List.not_mem_nil⟩
  | cons fd rest ih =>
    obtain ⟨more, hone, hindex⟩ := buf.addFd_index fd
    obtain ⟨more', hrest, hrefs⟩ := ih (buf.addFd fd).1
    have hfds : (buf.addFd fd).1.fds = buf.fds ++ more := by rw [hone]
    rw [hfds] at hrest hrefs
    refine ⟨more ++ more', ?_, ?_⟩
    · show ((buf.addFd fd).1.addFds rest).1 = _
      rw [hrest, hone, List.append_assoc]
    · intro ref href
      rw [← List.append_assoc]
      rcases List.mem_append.mp href with hmem | hmem
      · obtain ⟨i, hi, rfl⟩ := Option.map_eq_some_iff.mp (Option.mem_toList.mp hmem)
        have hfound := hindex i hi
        obtain ⟨hlt, -⟩ := List.getElem?_eq_some_iff.mp hfound
        rw [List.getElem?_append_left hlt]
        exact hfound
      · exact hrefs ref hmem

/-- What a message carries is in the table that is flushed. -/
theorem in_flushed {buf : ConnectionBuffer} {m : Message}
    (h : ∀ ref ∈ m.refs, buf.fds[ref.1]? = some ref.2) : m.In buf.flushed.2 := by
  intro ref href
  show (buf.fds.map _)[ref.1]? = _
  rw [List.getElem?_map, h ref href]
  rfl

end ConnectionBuffer

/-! ## A connection between a sender and a receiver -/

/-- `buffered` are the messages in the out buffer, `queue` the segments nothing was
received of, `opened` the bytes left of the segments something was received of, and
`arrived` the messages of those that have not been returned.  `processing` says that
the last call of `pinos_connection_get_next` returned a packet. -/
structure Link where
  out : ConnectionBuffer
  flushing : Bool
  buffered : List Message
  sent : List Message
  queue : List Segment
  opened : List UInt8
  arrived : List Message
  inp : ConnectionBuffer
  waiting : Bool
  processing : Bool
  returned : List Packet

inductive LinkEvent
  /-- The sender adds descriptors and writes a packet that carries their indices. -/
  | write (fds : List Int) (slack : Nat) (packet : Packet)
  | flush
  | accept (n : Nat)
  | sendFailed
  /-- The receiver calls `pinos_connection_get_next`. -/
  | call
  | chunk (n : Nat)
  | again
  deriving DecidableEq

namespace Link

def start (mem mem' : Mem) : Link :=
  { out := .new mem false, flushing := false, buffered := [], sent := [], queue := [],
    opened := [], arrived := [], inp := .new mem' true, waiting := false,
    processing := false, returned := [] }

/-- The receiver's operation goes on or returns. -/
def goOn (s : Link) (r : ConnectionBuffer × ConnectionBuffer.Progress) : Link :=
  match r.2 with
  | .waits => { s with inp := r.1, waiting := true, processing := false }
  | .returns none => { s with inp := r.1, waiting := false, processing := false }
  | .returns (some p) =>
    { s with
      inp := r.1
      waiting := false
      processing := true
      returned := s.returned ++ [p]
      arrived := s.arrived.tail }

/-- The segments that `recvmsg` reaches when it gives `n` bytes, and the others. -/
def reached (s : Link) (n : Nat) : List Segment × List Segment :=
  touch s.queue (n - s.opened.length)

def cmsgs (s : Link) (n : Nat) : List (List Int) := (s.reached n).1.filterMap Segment.cmsg

/-- The bytes that are left of what `recvmsg` reaches when it gives `n`. -/
def readable (s : Link) (n : Nat) : List UInt8 :=
  s.opened ++ (s.reached n).1.flatMap Segment.bytes

def step (s : Link) : LinkEvent → Link
  | .write fds slack packet =>
    if s.flushing then s
    else
      let (out, refs) := s.out.addFds fds
      { s with
        out := out.writePacket slack packet
        buffered := s.buffered ++ [⟨packet, refs⟩]
        sent := s.sent ++ [⟨packet, refs⟩] }
  | .flush => if s.flushing ∨ s.out.bufferSize = 0 then s else { s with flushing := true }
  | .accept n =>
    if s.flushing then
      let len := min n s.out.bufferSize
      { s with
        out := (s.out.flush (.sent len)).1
        flushing := false
        buffered := []
        queue := s.queue ++ [⟨s.out.flushed.1.take len, s.out.flushed.2, s.buffered⟩] }
    else s
  | .sendFailed =>
    if s.flushing then { s with out := (s.out.flush .failed).1, flushing := false } else s
  | .call => if s.waiting then s else s.goOn s.inp.getNext
  | .chunk n =>
    let n := min (n + 1) s.inp.recvRoom
    if s.waiting ∧ (s.readable n).take n ≠ [] then
      { s with
        queue := (s.reached n).2
        opened := (s.readable n).drop n
        arrived := s.arrived ++ messagesOf (s.reached n).1 }.goOn
          (s.inp.refill (.received ((s.readable n).take n) (s.cmsgs n)))
    else s
  | .again => if s.waiting then s.goOn (s.inp.refill .failed) else s

/-- The message the receiver is processing. -/
def current (s : Link) : Option Message :=
  if s.processing then s.sent[s.returned.length - 1]? else none

/-- What is asked of a connection: the packets arrive in order, and the indices of the
message that is being processed resolve to the descriptors they were returned for. -/
structure Resolves (s : Link) : Prop where
  inOrder : s.returned <+: s.sent.map Message.packet
  resolves : ∀ m ∈ s.current, ∀ ref ∈ m.refs, s.inp.getFd ref.1 = (ref.2.natAbs : Int)

/-- No message that waits to be processed carries an index. -/
def Settled (s : Link) : Prop := ∀ m ∈ s.arrived, m.refs = []

/-- Packets have a length the header can give, `sendmsg` takes everything it is
offered, `EAGAIN` comes before a packet with a payload has been returned, the in
buffer runs empty only when no message of a flush that has been reached waits with
an index, and a table arrives alone and only when no message waits with an index. -/
def Orderly (s : Link) : LinkEvent → Prop
  | .write _ _ packet => packet.Sized
  | .accept n => s.out.bufferSize ≤ n
  | .again => s.waiting = true → s.inp.size = 0
  | .call => s.waiting = false → s.inp.update = false →
      s.inp.bufferSize ≤ s.inp.offset + s.inp.size → s.Settled
  | .chunk n =>
    let tables := s.cmsgs (min (n + 1) s.inp.recvRoom)
    tables.length ≤ 1 ∧ (tables ≠ [] → s.Settled)
  | .flush | .sendFailed => True

instance (s : Link) : Decidable s.Settled := inferInstanceAs (Decidable (∀ m ∈ _, _))

instance (s : Link) : (e : LinkEvent) → Decidable (Orderly s e)
  | .write _ _ packet => inferInstanceAs (Decidable packet.Sized)
  | .accept _ => inferInstanceAs (Decidable (_ ≤ _))
  | .again => inferInstanceAs (Decidable (_ → _))
  | .call => inferInstanceAs (Decidable (_ → _ → _ → _))
  | .chunk _ => inferInstanceAs (Decidable (_ ∧ (_ → _)))
  | .flush | .sendFailed => inferInstanceAs (Decidable True)

/-- The in buffer as the next packet is looked for. -/
def reading (s : Link) : ConnectionBuffer := if s.waiting then s.inp else s.inp.advance

/-- `done` are the messages that have been returned.  Every message behind them is in
the segments that were reached, in the queue or in the out buffer, and its indices
are in the table that is there. -/
structure Inv (s : Link) (done : List Message) (bytes : List UInt8) : Prop where
  sent : s.sent = done ++ (s.arrived ++ (messagesOf s.queue ++ s.buffered))
  returned : s.returned = done.map Message.packet
  sized : ∀ m ∈ s.sent, m.packet.Sized
  unread : s.reading.Unread bytes
  split : bytes ++ s.opened = messageBytes s.arrived
  queued : ∀ seg ∈ s.queue, seg.bytes = messageBytes seg.messages ∧
    ∀ m ∈ seg.messages, m.In seg.fds
  pending : s.out.Pending (messageBytes s.buffered)
  buffered : ∀ m ∈ s.buffered, m.In s.out.flushed.2
  arrived : ∀ m ∈ s.arrived, m.In s.inp.fds
  processing : s.processing = true → ∃ before m, done = before ++ [m] ∧ m.In s.inp.fds

variable {s : Link} {done : List Message} {bytes : List UInt8}

theorem inv_start (mem mem' : Mem) : Inv (start mem mem') [] [] where
  sent := rfl
  returned := rfl
  sized m h := absurd h List.not_mem_nil
  unread := ⟨rfl, Mem.holds_nil _ _⟩
  split := rfl
  queued seg h := absurd h List.not_mem_nil
  pending := ⟨rfl, Mem.holds_nil _ _⟩
  buffered m h := absurd h List.not_mem_nil
  arrived m h := absurd h List.not_mem_nil
  processing h := by cases h

theorem Inv.resolves (h : Inv s done bytes) : Resolves s where
  inOrder := by
    rw [h.returned, h.sent, List.map_append]
    exact List.prefix_append _ _
  resolves := by
    intro m hm ref href
    rw [current] at hm
    split at hm
    · next hp =>
      obtain ⟨before, m', rfl, hin⟩ := h.processing hp
      have hlast : s.sent[s.returned.length - 1]? = some m' := by
        rw [h.sent, h.returned, List.length_map, List.length_append, List.length_singleton,
          Nat.add_sub_cancel, List.append_assoc, List.getElem?_append_right (Nat.le_refl _),
          Nat.sub_self]
        rfl
      rw [hlast] at hm
      cases hm
      show s.inp.fds.getD ref.1 (-1) = _
      rw [List.getD_eq_getElem?_getD, hin ref href]
      rfl
    · cases hm

/-- One pass over the in buffer, in which the messages that wait are `s.arrived`. -/
theorem inv_readPacket {buf : ConnectionBuffer}
    (h : Inv { s with inp := buf, waiting := true, processing := false } done bytes)
    (hclear : bytes = [] → s.Settled) :
    ∃ done' bytes', Inv (s.goOn buf.readPacket) done' bytes' := by
  have hsized : ∀ p ∈ s.arrived.map Message.packet, p.Sized := by
    intro p hp
    obtain ⟨m, hm, rfl⟩ := List.mem_map.mp hp
    apply h.sized
    rw [h.sent]
    exact List.mem_append_right _ (List.mem_append_left _ hm)
  have hsplit : bytes ++ s.opened = (s.arrived.map Message.packet).flatMap Packet.bytes := by
    rw [List.flatMap_map]
    exact h.split
  have hunread : buf.Unread bytes := h.unread
  rcases hunread.readPacket hsplit hsized with
    ⟨rfl, hr⟩ | ⟨buf', hr, hpart, -⟩ | ⟨p, rest, bytes', buf', hcons, rfl, hr, htook⟩
  · -- the buffer is empty, and with it goes the table
    refine ⟨done, [], ?_⟩
    rw [hr]
    refine ⟨h.sent, h.returned, h.sized, ⟨rfl, Mem.holds_nil _ _⟩, h.split, h.queued, h.pending,
      h.buffered, ?_, fun hp => by cases hp⟩
    intro m hm
    exact Message.in_of_refs (hclear rfl m hm) _
  · refine ⟨done, bytes, ?_⟩
    rw [hr]
    refine ⟨h.sent, h.returned, h.sized, hpart.unread, h.split, h.queued, h.pending, h.buffered,
      ?_, fun hp => by cases hp⟩
    intro m hm
    show m.In buf'.fds
    rw [hpart.fds]
    exact h.arrived m hm
  · obtain ⟨m, waiting, harrived, rfl, rfl⟩ := List.map_eq_cons_iff.mp hcons
    refine ⟨done ++ [m], bytes', ?_⟩
    have htail : s.arrived.tail = waiting := by rw [harrived]; rfl
    have hin : ∀ m' ∈ s.arrived, m'.In buf'.fds := by
      intro m' hm'
      rw [htook.fds]
      exact h.arrived m' hm'
    rw [hr]
    refine ⟨?_, ?_, h.sized, htook.unread, ?_, h.queued, h.pending, h.buffered, ?_, ?_⟩
    · show s.sent = done ++ [m] ++ (s.arrived.tail ++ _)
      rw [htail, List.append_assoc, List.singleton_append, ← List.cons_append, ← harrived]
      exact h.sent
    · show s.returned ++ [m.packet] = (done ++ [m]).map Message.packet
      rw [List.map_append, ← h.returned]
      rfl
    · show bytes' ++ s.opened = messageBytes s.arrived.tail
      have hall : m.packet.bytes ++ bytes' ++ s.opened = messageBytes s.arrived := h.split
      rw [harrived, messageBytes, List.flatMap_cons, List.append_assoc] at hall
      rw [htail]
      exact List.append_cancel_left hall
    · intro m' hm'
      exact hin m' (List.mem_of_mem_tail hm')
    · intro _
      refine ⟨done, m, rfl, hin m ?_⟩
      rw [harrived]
      exact List.mem_cons_self

/-- When one table arrives it is that of every message that carries an index. -/
theorem in_table {segs : List Segment} {fds : List Int} {seg : Segment} {m : Message}
    (hin : m.In seg.fds) (hseg : seg ∈ segs) (hone : (segs.filterMap Segment.cmsg).length ≤ 1) :
    m.In ((segs.filterMap Segment.cmsg).getLastD fds) := by
  by_cases hfds : seg.fds = []
  · rw [hfds] at hin
    exact Message.in_of_refs hin.refs_nil _
  · have hmem : seg.fds ∈ segs.filterMap Segment.cmsg := by
      apply List.mem_filterMap.mpr ⟨seg, hseg, ?_⟩
      rw [Segment.cmsg, if_neg hfds]
    obtain ⟨table, htable⟩ := List.length_eq_one_iff.mp
      (Nat.le_antisymm hone (List.length_pos_of_mem hmem))
    rw [htable] at hmem ⊢
    rw [List.mem_singleton.mp hmem] at hin
    exact hin

theorem inv_write (h : Inv s done bytes) (fds : List Int) (slack : Nat) {packet : Packet}
    (hsized : packet.Sized) : Inv (s.step (.write fds slack packet)) done bytes := by
  rw [step]
  split
  · exact h
  obtain ⟨more, hout, hrefs⟩ := s.out.addFds_index fds
  let m : Message := ⟨packet, (s.out.addFds fds).2⟩
  have hpending : (s.out.addFds fds).1.Pending (messageBytes s.buffered) := by
    rw [hout]
    exact ⟨h.pending.size, h.pending.holds⟩
  have hsmall : 8 + packet.payload.length < 2 ^ 32 := by
    unfold Packet.Sized at hsized
    omega
  obtain ⟨hwritten, hfds⟩ := hpending.writePacket slack hsmall
  have hflushed : ((s.out.addFds fds).1.writePacket slack packet).flushed.2 =
      s.out.flushed.2 ++ more.map fun fd => (fd.natAbs : Int) := by
    show List.map _ ((s.out.addFds fds).1.writePacket slack packet).fds = _
    rw [hfds, hout]
    exact List.map_append
  refine ⟨?_, h.returned, ?_, h.unread, h.split, h.queued, ?_, ?_, h.arrived, h.processing⟩
  · show s.sent ++ [m] = done ++ (s.arrived ++ (messagesOf s.queue ++ (s.buffered ++ [m])))
    rw [h.sent]
    simp only [List.append_assoc]
  · intro m' hm'
    rcases List.mem_append.mp hm' with hold | hnew
    · exact h.sized m' hold
    · rw [List.mem_singleton.mp hnew]
      exact hsized
  · show ConnectionBuffer.Pending _ (messageBytes (s.buffered ++ [m]))
    rw [messageBytes, List.flatMap_append, List.flatMap_singleton]
    exact hwritten
  · intro m' hm'
    rcases List.mem_append.mp hm' with hold | hnew
    · show m'.In ((s.out.addFds fds).1.writePacket slack packet).flushed.2
      rw [hflushed]
      exact (h.buffered m' hold).append _
    · rw [List.mem_singleton.mp hnew]
      apply ConnectionBuffer.in_flushed
      show ∀ ref ∈ (s.out.addFds fds).2,
        ((s.out.addFds fds).1.writePacket slack packet).fds[ref.1]? = _
      rw [hfds, hout]
      exact hrefs

theorem inv_accept (h : Inv s done bytes) {n : Nat} (hall : s.out.bufferSize ≤ n) :
    Inv (s.step (.accept n)) done bytes := by
  rw [step]
  split
  · have hflushed : s.out.flushed.1.take (min n s.out.bufferSize) = messageBytes s.buffered := by
      rw [Nat.min_eq_right hall, ← h.pending.size]
      show List.take _ (Mem.read _ _ _) = _
      rw [h.pending.read, List.take_length]
    simp only [hflushed]
    refine ⟨?_, h.returned, h.sized, h.unread, h.split, ?_, ⟨?_, Mem.holds_nil _ _⟩, ?_, h.arrived,
      h.processing⟩
    · show s.sent = done ++ (s.arrived ++ (messagesOf (s.queue ++ [_]) ++ []))
      rw [messagesOf, List.flatMap_append, List.flatMap_singleton, List.append_nil]
      exact h.sent
    · intro seg hseg
      rcases List.mem_append.mp hseg with hold | hnew
      · exact h.queued seg hold
      · rw [List.mem_singleton.mp hnew]
        exact ⟨rfl, h.buffered⟩
    · show 0 = s.out.bufferSize - min n s.out.bufferSize
      omega
    · intro m hm
      exact absurd hm List.not_mem_nil
  · exact h

theorem inv_chunk (h : Inv s done bytes) {n : Nat} (hok : Orderly s (.chunk n)) :
    ∃ done' bytes', Inv (s.step (.chunk n)) done' bytes' := by
  rw [step]
  generalize hlen : min (n + 1) s.inp.recvRoom = len
  obtain ⟨hone, hsettled⟩ := hok
  rw [hlen] at hone hsettled
  split
  · next hgo =>
    obtain ⟨hwaiting, hsome⟩ := hgo
    have hunread := h.unread
    rw [reading, if_pos hwaiting] at hunread
    have hqueue : s.queue = (s.reached len).1 ++ (s.reached len).2 := (touch_append _ _).symm
    have hqueued : ∀ seg ∈ (s.reached len).1, seg ∈ s.queue := by
      intro seg hseg
      rw [hqueue]
      exact List.mem_append_left _ hseg
    have hreached : (s.reached len).1.flatMap Segment.bytes =
        messageBytes (messagesOf (s.reached len).1) := by
      rw [messageBytes, messagesOf, List.flatMap_assoc]
      exact List.flatMap_congr fun seg hseg => (h.queued seg (hqueued seg hseg)).1
    refine inv_readPacket (?_ : Inv _ done (bytes ++ (s.readable len).take len)) ?_
    · refine ⟨?_, h.returned, h.sized, hunread.append _ _ _, ?_, ?_, h.pending, h.buffered, ?_,
        fun hp => by cases hp⟩
      · show s.sent = done ++ (s.arrived ++ messagesOf (s.reached len).1 ++
          (messagesOf (s.reached len).2 ++ s.buffered))
        rw [h.sent, hqueue]
        simp only [messagesOf, List.flatMap_append, List.append_assoc]
      · show bytes ++ (s.readable len).take len ++ (s.readable len).drop len =
          messageBytes (s.arrived ++ messagesOf (s.reached len).1)
        rw [List.append_assoc, List.take_append_drop, readable, ← List.append_assoc, h.split,
          hreached, messageBytes, messageBytes, messageBytes, List.flatMap_append]
      · intro seg hseg
        apply h.queued
        rw [hqueue]
        exact List.mem_append_right _ hseg
      · intro m hm
        show m.In ((s.cmsgs len).getLastD s.inp.fds)
        rcases List.mem_append.mp hm with hold | hnew
        · by_cases hnone : s.cmsgs len = []
          · rw [hnone]
            exact h.arrived m hold
          · exact Message.in_of_refs (hsettled hnone m hold) _
        · obtain ⟨seg, hseg, hmem⟩ := List.mem_flatMap.mp hnew
          exact in_table ((h.queued seg (hqueued seg hseg)).2 m hmem) hseg hone
    · intro hnil
      exact absurd (List.append_eq_nil_iff.mp hnil).2 hsome
  · exact ⟨done, bytes, h⟩

theorem inv_step {e : LinkEvent} (h : Inv s done bytes) (hok : Orderly s e) :
    ∃ done' bytes', Inv (s.step e) done' bytes' := by
  cases e with
  | write fds slack packet => exact ⟨done, bytes, inv_write h fds slack hok⟩
  | flush =>
    refine ⟨done, bytes, ?_⟩
    rw [step]
    split
    · exact h
    · exact { h with }
  | accept n => exact ⟨done, bytes, inv_accept h hok⟩
  | sendFailed =>
    refine ⟨done, bytes, ?_⟩
    rw [step]
    split
    · exact { h with }
    · exact h
  | call =>
    rw [step]
    split
    · exact ⟨done, bytes, h⟩
    next hw =>
    have hunread := h.unread
    rw [reading, if_neg hw] at hunread
    have hadvanced : Inv { s with inp := s.inp.advance, waiting := true, processing := false }
        done bytes := ⟨h.sent, h.returned, h.sized, hunread, h.split, h.queued, h.pending, h.buffered,
      h.arrived, fun hp => by cases hp⟩
    rw [ConnectionBuffer.getNext]
    split
    · exact ⟨done, bytes, hadvanced⟩
    · next hu =>
      apply inv_readPacket hadvanced
      intro hnil
      have hsize := hunread.size
      rw [hnil, List.length_nil, Nat.add_zero] at hsize
      exact hok (Bool.eq_false_iff.mpr hw) (Bool.eq_false_iff.mpr hu) (Nat.le_of_eq hsize.symm)
  | chunk n => exact inv_chunk h hok
  | again =>
    refine ⟨done, bytes, ?_⟩
    rw [step]
    split
    · next hw =>
      have hunread := h.unread
      rw [reading, if_pos hw] at hunread
      have hsize : s.inp.size = 0 := hok hw
      refine ⟨h.sent, h.returned, h.sized, ⟨?_, ?_⟩, h.split, h.queued, h.pending, h.buffered,
        h.arrived, fun hp => by cases hp⟩
      · show s.inp.offset + s.inp.size + bytes.length = s.inp.bufferSize
        rw [hsize]
        exact hunread.size
      · show s.inp.bufferData.Holds (s.inp.offset + s.inp.size) bytes
        rw [hsize]
        exact hunread.holds
    · exact h

/-- In every orderly run the message that is being processed finds its descriptors. -/
theorem run_resolves (mem mem' : Mem) (es : List LinkEvent)
    (hok : Run.Along step Orderly (start mem mem') es) :
    Resolves (Run.run step (start mem mem') es) := by
  have hstep : ∀ s e, (∃ done bytes, Inv s done bytes) → Orderly s e →
      ∃ done bytes, Inv (s.step e) done bytes := by
    rintro s e ⟨done, bytes, h⟩ he
    exact inv_step h he
  obtain ⟨done, bytes, h⟩ := Run.run_invariant (fun s => ∃ done bytes, Inv s done bytes) hstep
    ⟨[], [], inv_start mem mem'⟩ hok
  exact h.resolves

/-- Two flushes, the second received when the message of the first has been processed. -/
theorem run_resolves_twoFlushes :
    Resolves (Run.run step (start (fun _ => 0) (fun _ => 0))
      [.write [5, 6] 0 ⟨1, 2, []⟩, .flush, .accept 8, .call, .chunk 7,
        .write [7] 0 ⟨3, 4, [9]⟩, .flush, .accept 9, .call, .call, .chunk 3, .chunk 5]) :=
  run_resolves _ _ _ (by decide)

/-- Two flushes received at once: index 0 of the first is looked up in the second. -/
theorem not_resolves :
    ¬ ∀ (mem mem' : Mem) (es : List LinkEvent),
      (∀ fds slack packet, .write fds slack packet ∈ es → packet.Sized) →
      Resolves (Run.run step (start mem mem') es) := by
  intro h
  let es : List LinkEvent :=
    [.write [5] 0 ⟨1, 2, []⟩, .flush, .accept 8, .write [7] 0 ⟨3, 4, []⟩, .flush, .accept 8,
      .call, .chunk 15]
  have hsized : ∀ fds slack packet, LinkEvent.write fds slack packet ∈ es → packet.Sized := by
    intro fds slack packet hp
    simp only [es, List.mem_cons, LinkEvent.write.injEq, reduceCtorEq, or_false, false_or,
      List.not_mem_nil] at hp
    rcases hp with ⟨-, -, rfl⟩ | ⟨-, -, rfl⟩ <;> decide
  have hcurrent : (Run.run step (start (fun _ => 0) fun _ => 0) es).current =
      some ⟨⟨1, 2, []⟩, [(0, 5)]⟩ := by decide
  have hfd : (Run.run step (start (fun _ => 0) fun _ => 0) es).inp.getFd 0 = 7 := by decide
  have hbad := (h (fun _ => 0) (fun _ => 0) es hsized).resolves _ hcurrent (0, 5)
    List.mem_cons_self
  rw [hfd] at hbad
  exact absurd hbad (by decide)

end Link
end Pinos
