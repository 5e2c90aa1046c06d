import Mathlib.Data.List.Forall2
import Pinos.Client.Conversation

/-
Conversations in which every call passes are faithful.
-/

namespace Pinos

open ByteMem

namespace Native

/-! ## The message of a call -/

namespace Posted

variable {p : Posted}

/-- The bytes of a call that passes. -/
theorem message_packet (h : Conversation.Passes p.msg p.out) :
    ∃ values vs, Payload (p.msg.marshal p.out).2 values vs ∧
      p.message.packet = ⟨p.destId, p.msg.opcode, Pod.withHeader .struct vs⟩ ∧
      8 + vs.length < 2 ^ 24 ∧
      p.sent.Pending (p.out.flushed.1 ++ p.message.packet.bytes) := by
  obtain ⟨values, vs, hpayload⟩ := p.msg.payload p.out
  have hlength : 8 + vs.length = p.msg.size p.out := hpayload.length_eq
  have hpending : p.sent.Pending (p.out.flushed.1 ++
      Packet.bytes ⟨p.destId, p.msg.opcode, Pod.withHeader .struct vs⟩) :=
    PinosMessage.sent_packet h.small h.reserved hpayload
  have hbefore : p.out.flushed.1.length = p.out.bufferSize := Mem.length_read _ _ _
  have hsize := hpending.size
  rw [List.length_append, hbefore, Packet.length_bytes] at hsize
  have hholds := hpending.holds.right
  rw [hbefore, Nat.zero_add, Packet.bytes] at hholds
  have hread := hholds.right
  rw [List.length_append, length_toLE, length_toLE] at hread
  have hpayloadLen : p.sent.bufferSize - p.out.bufferSize - 8 =
      (Pod.withHeader .struct vs).length := by
    dsimp only at hsize
    omega
  have hpacket : p.message.packet = ⟨p.destId, p.msg.opcode, Pod.withHeader .struct vs⟩ := by
    rw [message, hpayloadLen]
    exact congrArg (Packet.mk p.destId p.msg.opcode) hread
  refine ⟨values, vs, hpayload, hpacket, ?_, ?_⟩
  · rw [hlength]
    exact h.fits
  · rw [hpacket]
    exact hpending

theorem message_sized (h : Conversation.Passes p.msg p.out) : p.message.packet.Sized := by
  obtain ⟨values, vs, -, hpacket, hfits, -⟩ := message_packet h
  rw [hpacket]
  show (Pod.withHeader .struct vs).length < 2 ^ 24
  rw [Pod.length_withHeader]
  exact hfits

/-- The table with which a call is flushed has what was there and its descriptors. -/
theorem sent_table (p : Posted) :
    ∃ more, p.sent.flushed.2 = p.out.flushed.2 ++ more ∧ p.message.In p.sent.flushed.2 := by
  obtain ⟨more, hout, hrefs⟩ := p.out.addFds_index p.msg.fds
  have hsent : p.sent.flushed.2 = (p.out.addFds p.msg.fds).1.flushed.2 := by
    rw [← PinosMessage.marshal_fds]
    exact PinosMessage.sent_fds p.msg p.out p.destId
  refine ⟨more.map fun fd => (fd.natAbs : Int), ?_, ?_⟩
  · rw [hsent, hout]
    exact List.map_append
  · rw [hsent]
    apply ConnectionBuffer.in_flushed
    rw [hout]
    exact hrefs

end Posted

namespace PinosMessage

variable {out conn : ConnectionBuffer}

theorem addFds_length (fds : List Int) (h : out.fds.length ≤ maxFds) :
    (out.addFds fds).1.fds.length ≤ maxFds := by
  induction fds generalizing out with
  | nil => exact h
  | cons fd fds ih => exact ih (addFd_length h)

theorem sent_fds_length {p : Posted} (h : p.out.fds.length ≤ maxFds) :
    p.sent.fds.length ≤ maxFds := by
  have hsent : p.sent.flushed.2 = (p.out.addFds p.msg.fds).1.flushed.2 := by
    rw [← marshal_fds]
    exact sent_fds p.msg p.out p.destId
  have hlen := congrArg List.length hsent
  rw [ConnectionBuffer.flushed, ConnectionBuffer.flushed, List.length_map, List.length_map] at hlen
  rw [hlen]
  exact addFds_length p.msg.fds h

/-- What is received for a descriptor whose index is in the table that is there. -/
theorem getFd_of_index {fd : Int} (hlen : conn.fds.length ≤ maxFds)
    (hin : ∀ i, (out.addFd fd).2 = some i → conn.fds[i]? = some (fd.natAbs : Int)) :
    conn.getFd (Server.fdIndex (out.addFd fd).2).toNat =
      if HasPlace out fd then (fd.natAbs : Int) else -1 := by
  unfold maxFds at hlen
  cases hplace : (out.addFd fd).2 with
  | none =>
    have hnone : conn.fds[2 ^ 32 - 1]? = none := List.getElem?_eq_none (by omega)
    rw [if_neg (fun h => hasPlace_iff.mp h hplace), ConnectionBuffer.getFd,
      List.getD_eq_getElem?_getD]
    exact congrArg (Option.getD · (-1)) hnone
  | some i =>
    have hsome : HasPlace out fd := hasPlace_iff.mpr (by rw [hplace]; exact Option.some_ne_none i)
    have hfound := hin i hplace
    obtain ⟨hlt, -⟩ := List.getElem?_eq_some_iff.mp hfound
    have hi : (Server.fdIndex (some i)).toNat = i := by
      show (UInt32.ofNat i).toNat = i
      rw [UInt32.toNat_ofNat']
      exact Nat.mod_eq_of_lt (by omega)
    rw [if_pos hsome, ConnectionBuffer.getFd, hi, List.getD_eq_getElem?_getD, hfound]
    rfl

theorem mem_addFds_head {fd : Int} {rest : List Int} {i : Nat} (h : (out.addFd fd).2 = some i) :
    (i, fd) ∈ (out.addFds (fd :: rest)).2 := by
  rw [ConnectionBuffer.addFds]
  dsimp only
  rw [h]
  exact List.mem_append_left _ List.mem_cons_self

theorem mem_addFds_tail {fd : Int} {rest : List Int} {ref : Nat × Int}
    (h : ref ∈ ((out.addFd fd).1.addFds rest).2) : ref ∈ (out.addFds (fd :: rest)).2 := by
  rw [ConnectionBuffer.addFds]
  exact List.mem_append_right _ h

@[simp] theorem fds_translated (msg : PinosMessage) (types : PinosMap)
    (objs : SpaPODObject → SpaPODObject) : (msg.translated types objs).fds = msg.fds := by
  cases msg <;> rfl

/-- The indices of a call lead to the descriptors they were given for. -/
def Indexed (msg : PinosMessage) (out conn : ConnectionBuffer) : Prop :=
  ∀ ref ∈ (out.addFds msg.fds).2, conn.fds[ref.1]? = some (ref.2.natAbs : Int)

/-- A call is read as it was sent from any table in which its indices are. -/
theorem demarshalled_indexed (msg : PinosMessage) (hfds : out.fds.length ≤ maxFds)
    (hlen : conn.fds.length ≤ maxFds) (hin : msg.Indexed out conn) :
    ∃ d, (msg.demarshals conn)[msg.opcode.toNat]? = some d ∧
      (Reads d (msg.marshal out).2 msg ↔ msg.Intact out) := by
  -- the table the call was written with, for which this is known
  obtain ⟨own, hfdsOwn⟩ : ∃ own : ConnectionBuffer, own.fds = (msg.marshal out).1.flushed.2 :=
    ⟨{ conn with fds := _ }, rfl⟩
  obtain ⟨d, hd, hintact⟩ := @demarshalled_iff out own msg hfds hfdsOwn
  have hown : msg.Indexed out own := by
    obtain ⟨more, hout, hrefs⟩ := out.addFds_index msg.fds
    intro ref href
    rw [hfdsOwn, marshal_fds]
    have htable : (Message.mk ⟨0, 0, []⟩ (out.addFds msg.fds).2).In
        (out.addFds msg.fds).1.flushed.2 := by
      apply ConnectionBuffer.in_flushed
      rw [hout]
      exact hrefs
    exact htable ref href
  have hownLen : own.fds.length ≤ maxFds := by
    rw [hfdsOwn, ConnectionBuffer.flushed, List.length_map, marshal_fds]
    exact addFds_length msg.fds hfds
  clear hfdsOwn
  cases msg with
  | clientNodeNotifyDone readfd writefd =>
    have hread : conn.getFd (Server.fdIndex (out.addFd readfd).2).toNat =
        own.getFd (Server.fdIndex (out.addFd readfd).2).toNat := by
      rw [getFd_of_index hlen fun i hi => hin (i, readfd) (mem_addFds_head hi),
        getFd_of_index hownLen fun i hi => hown (i, readfd) (mem_addFds_head hi)]
    have hwrite : conn.getFd (Server.fdIndex ((out.addFd readfd).1.addFd writefd).2).toNat =
        own.getFd (Server.fdIndex ((out.addFd readfd).1.addFd writefd).2).toNat := by
      rw [getFd_of_index hlen fun i hi => hin (i, writefd) (mem_addFds_tail (mem_addFds_head hi)),
        getFd_of_index hownLen fun i hi =>
          hown (i, writefd) (mem_addFds_tail (mem_addFds_head hi))]
    refine ⟨_, rfl, ?_⟩
    rw [← hintact]
    cases hd
    simp [Reads, Client.clientNodeDemarshalDone, marshal, Server.clientNodeMarshalDone, podStruct,
      hread, hwrite]
  | clientNodeNotifyAddMem direction portId memId type memfd flags offset size =>
    have hget : conn.getFd (Server.fdIndex (out.addFd memfd).2).toNat =
        own.getFd (Server.fdIndex (out.addFd memfd).2).toNat := by
      rw [getFd_of_index hlen fun i hi => hin (i, memfd) (mem_addFds_head hi),
        getFd_of_index hownLen fun i hi => hown (i, memfd) (mem_addFds_head hi)]
    refine ⟨_, rfl, ?_⟩
    rw [← hintact]
    cases hd
    simp [Reads, Client.clientNodeDemarshalAddMem, marshal, Server.clientNodeMarshalAddMem,
      podStruct, hget]
  | clientNodeNotifyTransport memfd offset size =>
    have hget : conn.getFd (Server.fdIndex (out.addFd memfd).2).toNat =
        own.getFd (Server.fdIndex (out.addFd memfd).2).toNat := by
      rw [getFd_of_index hlen fun i hi => hin (i, memfd) (mem_addFds_head hi),
        getFd_of_index hownLen fun i hi => hown (i, memfd) (mem_addFds_head hi)]
    refine ⟨_, rfl, ?_⟩
    rw [← hintact]
    cases hd
    simp [Reads, Client.clientNodeDemarshalTransport, marshal, Server.clientNodeMarshalTransport,
      podStruct, hget]
  | _ =>
    cases hd
    exact ⟨_, rfl, hintact⟩

end PinosMessage
end Native

/-! ## The connection -/

/-- A packet that is returned is the memory that its receiver is given. -/
theorem ConnectionBuffer.readPacket_message {buf buf' : ConnectionBuffer} {p : Packet}
    (h : buf.readPacket = (buf', .returns (some p))) :
    buf'.data ≠ 0 ∧ buf'.size = p.payload.length ∧
      buf'.bufferData.read buf'.data buf'.size = p.payload := by
  rw [readPacket] at h
  split at h
  · cases h
  dsimp only at h
  split at h
  · cases h
  split at h
  · cases h
  cases h
  exact ⟨Nat.succ_ne_zero _, (Mem.length_read _ _ _).symm, rfl⟩

namespace Link

/-- The packet that was returned last is in memory. -/
def Shown (l : Link) : Prop :=
  ∃ p, l.returned.getLast? = some p ∧ l.inp.data ≠ 0 ∧ l.inp.size = p.payload.length ∧
    l.inp.bufferData.read l.inp.data l.inp.size = p.payload

/-- Tables have room for few descriptors, and a receiver waits only when what has come was
returned or is the start of a packet. -/
structure Tidy (l : Link) : Prop where
  out : l.out.fds.length ≤ maxFds
  queue : ∀ seg ∈ l.queue, seg.fds.length ≤ maxFds
  inp : l.inp.fds.length ≤ maxFds
  waiting : l.waiting = true → l.inp.update = true
  drained : l.inp.update = true → l.opened = [] → l.arrived = []
  processing : l.processing = true → l.Shown

variable {l : Link} {done : List Message} {bytes : List UInt8}

theorem tidy_start (mem mem' : Mem) : (start mem mem').Tidy where
  out := Nat.zero_le _
  queue seg h := absurd h List.not_mem_nil
  inp := Nat.zero_le _
  waiting h := by cases h
  drained _ _ := rfl
  processing h := by cases h

theorem messageBytes_eq_nil {ms : List Message} (h : messageBytes ms = []) : ms = [] := by
  cases ms with
  | nil => rfl
  | cons m ms =>
    rw [messageBytes, List.flatMap_cons] at h
    exact absurd (List.append_eq_nil_iff.mp h).1 m.packet.bytes_ne_nil

theorem Inv.sized_arrived (h : Inv l done bytes) : ∀ m ∈ l.arrived, m.packet.Sized := by
  intro m hm
  apply h.sized
  rw [h.sent]
  exact List.mem_append_right _ (List.mem_append_left _ hm)

/-- A pass over the in buffer. -/
theorem tidy_readPacket {buf : ConnectionBuffer} (hunread : buf.Unread bytes)
    (hsplit : bytes ++ l.opened = messageBytes l.arrived)
    (hsized : ∀ m ∈ l.arrived, m.packet.Sized) (hupdate : buf.update = false)
    (hout : l.out.fds.length ≤ maxFds) (hqueue : ∀ seg ∈ l.queue, seg.fds.length ≤ maxFds)
    (hinp : buf.fds.length ≤ maxFds) : (l.goOn buf.readPacket).Tidy := by
  have hpackets : ∀ p ∈ l.arrived.map Message.packet, p.Sized := by
    intro p hp
    obtain ⟨m, hm, rfl⟩ := List.mem_map.mp hp
    exact hsized m hm
  have hbytes : bytes ++ l.opened = (l.arrived.map Message.packet).flatMap Packet.bytes := by
    rw [List.flatMap_map]
    exact hsplit
  rcases hunread.readPacket hbytes hpackets with
    ⟨rfl, hr⟩ | ⟨buf', hr, hpart, hmore⟩ | ⟨p, rest, bytes', buf', hcons, rfl, hr, htook⟩
  · rw [hr]
    refine ⟨hout, hqueue, Nat.zero_le _, fun hw => absurd hw Bool.false_ne_true,
      fun _ hnil => ?_, fun hp => absurd hp Bool.false_ne_true⟩
    rw [show l.opened = [] from hnil] at hsplit
    exact messageBytes_eq_nil hsplit.symm
  · rw [hr]
    refine ⟨hout, hqueue, ?_, fun _ => hpart.update, fun _ hnil => absurd hnil hmore,
      fun hp => absurd hp Bool.false_ne_true⟩
    show buf'.fds.length ≤ maxFds
    rw [hpart.fds]
    exact hinp
  · have hno : buf'.update = false := htook.update.trans hupdate
    obtain ⟨hdata, hsize, hread⟩ := ConnectionBuffer.readPacket_message hr
    rw [hr]
    refine ⟨hout, hqueue, ?_, fun hw => absurd hw Bool.false_ne_true, fun hu => ?_,
      fun _ => ?_⟩
    · show buf'.fds.length ≤ maxFds
      rw [htook.fds]
      exact hinp
    · rw [show buf'.update = true from hu] at hno
      cases hno
    · exact ⟨p, List.getLast?_concat, hdata, hsize, hread⟩

theorem tidy_step {e : LinkEvent} (h : l.Tidy) (hinv : l.Inv done bytes) (hok : Orderly l e)
    (hwrite : ∀ fds slack packet, e ≠ .write fds slack packet) : (l.step e).Tidy := by
  cases e with
  | write fds slack packet => exact absurd rfl (hwrite fds slack packet)
  | flush =>
    rw [step]
    split
    · exact h
    · exact { h with }
  | accept n =>
    rw [step]
    split
    · refine ⟨Nat.zero_le _, ?_, h.inp, h.waiting, h.drained, h.processing⟩
      intro seg hseg
      rcases List.mem_append.mp hseg with hold | hnew
      · exact h.queue seg hold
      · rw [List.mem_singleton.mp hnew]
        exact (List.length_map _).trans_le h.out
    · exact h
  | sendFailed =>
    rw [step]
    split
    · exact { h with }
    · exact h
  | call =>
    rw [step]
    split
    · exact h
    next hw =>
    have hunread := hinv.unread
    rw [reading, if_neg hw] at hunread
    rw [ConnectionBuffer.getNext]
    split
    · next hu =>
      exact ⟨h.out, h.queue, h.inp, fun _ => hu, h.drained,
        fun hp => absurd hp Bool.false_ne_true⟩
    · next hu =>
      exact tidy_readPacket hunread hinv.split (hinv.sized_arrived) (Bool.eq_false_iff.mpr hu)
        h.out h.queue h.inp
  | chunk n =>
    rw [step]
    generalize min (n + 1) l.inp.recvRoom = len
    split
    · next hgo =>
      obtain ⟨hwaiting, -⟩ := hgo
      have hunread := hinv.unread
      rw [reading, if_pos hwaiting] at hunread
      have hreached : ∀ seg ∈ (l.reached len).1, seg ∈ l.queue := by
        intro seg hseg
        rw [← touch_append l.queue (len - l.opened.length)]
        exact List.mem_append_left _ hseg
      refine tidy_readPacket (hunread.append ((l.readable len).take len) _ false) ?_ ?_ rfl h.out
        ?_ ?_
      · show bytes ++ (l.readable len).take len ++ (l.readable len).drop len =
          messageBytes (l.arrived ++ messagesOf (l.reached len).1)
        have hbytes : (l.reached len).1.flatMap Segment.bytes =
            messageBytes (messagesOf (l.reached len).1) := by
          rw [messageBytes, messagesOf, List.flatMap_assoc]
          exact List.flatMap_congr fun seg hseg => (hinv.queued seg (hreached seg hseg)).1
        rw [List.append_assoc, List.take_append_drop, readable, ← List.append_assoc, hinv.split,
          hbytes, messageBytes, messageBytes, messageBytes, List.flatMap_append]
      · intro m hm
        apply hinv.sized
        rw [hinv.sent]
        apply List.mem_append_right
        rcases List.mem_append.mp hm with hold | hnew
        · exact List.mem_append_left _ hold
        · obtain ⟨seg, hseg, hmem⟩ := List.mem_flatMap.mp hnew
          exact List.mem_append_right _ (List.mem_append_left _
            (List.mem_flatMap.mpr ⟨seg, hreached seg hseg, hmem⟩))
      · intro seg hseg
        apply h.queue
        rw [← touch_append l.queue (len - l.opened.length)]
        exact List.mem_append_right _ hseg
      · show ((l.cmsgs len).getLastD l.inp.fds).length ≤ maxFds
        have hlast : (l.cmsgs len).getLastD l.inp.fds ∈ l.inp.fds :: l.cmsgs len :=
          List.getLastD_mem_cons
        rcases List.mem_cons.mp hlast with hsame | hmem
        · rw [hsame]
          exact h.inp
        · obtain ⟨seg, hseg, hcmsg⟩ := List.mem_filterMap.mp hmem
          rw [Segment.cmsg] at hcmsg
          split at hcmsg
          · cases hcmsg
          · rw [← Option.some.inj hcmsg]
            exact h.queue seg (hreached seg hseg)
    · exact h
  | again =>
    rw [step]
    split
    · exact ⟨h.out, h.queue, h.inp, fun hw => absurd hw Bool.false_ne_true, h.drained,
        fun hp => absurd hp Bool.false_ne_true⟩
    · exact h

/-- One step returns at most one packet. -/
theorem returned_step (l : Link) (e : LinkEvent) :
    (l.step e).returned = l.returned ∨
      ∃ p, (l.step e).returned = l.returned ++ [p] ∧ (l.step e).processing = true ∧
        (l.step e).waiting = false := by
  have hgoOn : ∀ (l' : Link) r, (l'.goOn r).returned = l'.returned ∨
      ∃ p, (l'.goOn r).returned = l'.returned ++ [p] ∧ (l'.goOn r).processing = true ∧
        (l'.goOn r).waiting = false := by
    intro l' r
    unfold goOn
    split
    · exact .inl rfl
    · exact .inl rfl
    · exact .inr ⟨_, rfl, rfl, rfl⟩
  cases e with
  | call =>
    rw [step]
    split
    · exact .inl rfl
    · exact hgoOn l _
  | chunk n =>
    simp only [step]
    split
    · exact hgoOn _ _
    · exact .inl rfl
  | again =>
    rw [step]
    split
    · exact hgoOn l _
    · exact .inl rfl
  | write fds slack packet =>
    rw [step]
    split <;> exact .inl rfl
  | flush =>
    rw [step]
    split <;> exact .inl rfl
  | accept n =>
    rw [step]
    split <;> exact .inl rfl
  | sendFailed =>
    rw [step]
    split <;> exact .inl rfl

/-- What the sender and the socket do leaves the receiver. -/
theorem carry_same (l : Link) {e : LinkEvent}
    (h : e = .flush ∨ (∃ n, e = .accept n) ∨ e = .sendFailed) :
    (l.step e).sent = l.sent ∧ (l.step e).returned = l.returned ∧ (l.step e).inp = l.inp ∧
      (l.step e).waiting = l.waiting ∧ (l.step e).processing = l.processing := by
  rcases h with rfl | ⟨n, rfl⟩ | rfl
  all_goals
    rw [step]
    split <;> exact ⟨rfl, rfl, rfl, rfl, rfl⟩

/-- What the receiver does leaves the sender. -/
theorem receive_same (l : Link) {e : LinkEvent}
    (h : e = .call ∨ (∃ n, e = .chunk n) ∨ e = .again) :
    (l.step e).sent = l.sent := by
  have hgoOn : ∀ (l' : Link) r, (l'.goOn r).sent = l'.sent := by
    intro l' r
    unfold goOn
    split <;> rfl
  rcases h with rfl | ⟨n, rfl⟩ | rfl
  · rw [step]
    split
    · rfl
    · exact hgoOn l _
  · simp only [step]
    split
    · exact hgoOn _ _
    · rfl
  · rw [step]
    split
    · exact hgoOn l _
    · rfl

end Link

/-! ## The conversation -/

namespace Native
namespace Conversation

/-- `message` says that one packet was returned that is not handled yet, and that it is in
memory. -/
structure Inv (s : Conversation) (done : List Message) (bytes : List UInt8) : Prop where
  link : s.link.Inv done bytes
  tidy : s.link.Tidy
  sent : s.link.sent = s.posted.map Posted.message
  posted : ∀ p ∈ s.posted, p.msg.isMethod = s.toServer ∧ p.out.fds.length ≤ maxFds ∧
    Passes p.msg p.out
  handled : List.Forall₂ HandledAs (s.posted.take s.handled.length) s.handled
  returned : s.link.returned.length = s.handled.length + s.message.toNat
  message : s.message = true → s.link.processing = true
  waiting : s.link.waiting = true → s.message = false

variable {s : Conversation} {done : List Message} {bytes : List UInt8}

theorem inv_start (toServer : Bool) (mem mem' : Mem) (objects : UInt32 → Option Interface)
    (types : PinosMap) : Inv (start toServer mem mem' objects types) [] [] where
  link := Link.inv_start mem mem'
  tidy := Link.tidy_start mem mem'
  sent := rfl
  posted _ h := absurd h List.not_mem_nil
  handled := .nil
  returned := rfl
  message h := absurd h Bool.false_ne_true
  waiting h := absurd h Bool.false_ne_true

/-- The calls that were handled have been made. -/
theorem Inv.handled_le (h : Inv s done bytes) :
    s.handled.length + s.message.toNat ≤ s.posted.length := by
  have hsent := congrArg List.length h.link.sent
  have hreturned := congrArg List.length h.link.returned
  rw [h.sent, List.length_map, List.length_append] at hsent
  rw [List.length_map, h.returned] at hreturned
  omega

theorem inv_post (h : Inv s done bytes) (destId : UInt32) {msg : PinosMessage}
    (hok : msg.isMethod = s.toServer ∧ Passes msg s.link.out) :
    Inv (s.post destId msg) done bytes := by
  rw [post]
  split
  · exact h
  obtain ⟨hmethod, hpasses⟩ := hok
  dsimp only
  generalize hp : (⟨destId, msg, s.link.out⟩ : Posted) = p
  obtain rfl : msg = p.msg := by rw [← hp]
  have hout : s.link.out = p.out := by rw [← hp]
  clear hp
  rw [hout] at hpasses
  obtain ⟨values, vs, -, -, -, hpending⟩ := Posted.message_packet hpasses
  obtain ⟨more, htable, hin⟩ := p.sent_table
  have hbuffered : p.out.flushed.1 = messageBytes s.link.buffered := by
    rw [← hout]
    exact h.link.pending.read
  have hfds : p.out.fds.length ≤ maxFds := by
    rw [← hout]
    exact h.tidy.out
  refine ⟨⟨?_, h.link.returned, ?_, h.link.unread, h.link.split, h.link.queued, ?_, ?_,
      h.link.arrived, h.link.processing⟩,
    ⟨PinosMessage.sent_fds_length hfds, h.tidy.queue, h.tidy.inp, h.tidy.waiting, h.tidy.drained,
      h.tidy.processing⟩, ?_, ?_, ?_, h.returned, h.message, h.waiting⟩
  · show s.link.sent ++ [p.message] =
      done ++ (s.link.arrived ++ (messagesOf s.link.queue ++ (s.link.buffered ++ [p.message])))
    rw [h.link.sent]
    simp only [List.append_assoc]
  · intro m hm
    rcases List.mem_append.mp hm with hold | hnew
    · exact h.link.sized m hold
    · rw [List.mem_singleton.mp hnew]
      exact Posted.message_sized hpasses
  · show ConnectionBuffer.Pending _ (messageBytes (s.link.buffered ++ [p.message]))
    rw [messageBytes, List.flatMap_append, List.flatMap_singleton]
    rw [hbuffered] at hpending
    exact hpending
  · intro m hm
    rcases List.mem_append.mp hm with hold | hnew
    · have hold' := h.link.buffered m hold
      rw [hout] at hold'
      show m.In p.sent.flushed.2
      rw [htable]
      exact hold'.append more
    · rw [List.mem_singleton.mp hnew]
      exact hin
  · show s.link.sent ++ [p.message] = (s.posted ++ [p]).map Posted.message
    rw [h.sent, List.map_append]
    rfl
  · intro q hq
    rcases List.mem_append.mp hq with hold | hnew
    · exact h.posted q hold
    · rw [List.mem_singleton.mp hnew]
      exact ⟨hmethod, hfds, hpasses⟩
  · show List.Forall₂ HandledAs ((s.posted ++ [p]).take s.handled.length) s.handled
    have hle := h.handled_le
    rw [List.take_append_of_le_length (by omega)]
    exact h.handled

theorem inv_carry (h : Inv s done bytes) {e : LinkEvent}
    (he : e = .flush ∨ (∃ n, e = .accept n) ∨ e = .sendFailed) (hok : s.link.Orderly e) :
    ∃ done' bytes', Inv (s.carry e) done' bytes' := by
  obtain ⟨hsent, hreturned, -, hwaiting, hprocessing⟩ := s.link.carry_same he
  obtain ⟨done', bytes', hlink⟩ := Link.inv_step h.link hok
  have hwrite : ∀ fds slack packet, e ≠ .write fds slack packet := by
    rintro fds slack packet rfl
    rcases he with he | ⟨n, he⟩ | he <;> cases he
  refine ⟨done', bytes', hlink, Link.tidy_step h.tidy h.link hok hwrite, hsent.trans h.sent,
    h.posted, h.handled, ?_, ?_, ?_⟩
  · show (s.link.step e).returned.length = _
    rw [hreturned]
    exact h.returned
  · intro hm
    exact hprocessing.trans (h.message hm)
  · intro hw
    exact h.waiting (hwaiting.symm.trans hw)

theorem inv_receive (h : Inv s done bytes) {e : LinkEvent}
    (he : e = .call ∨ (∃ n, e = .chunk n) ∨ e = .again) (hok : s.link.Orderly e) :
    ∃ done' bytes', Inv (s.receive e) done' bytes' := by
  rw [receive]
  split
  · exact ⟨done, bytes, h⟩
  next hfree =>
  have hidle : s.message = false := Bool.eq_false_iff.mpr fun hm => hfree (.inl hm)
  have hcount := h.returned
  rw [hidle, Bool.toNat_false, Nat.add_zero] at hcount
  obtain ⟨done', bytes', hlink⟩ := Link.inv_step h.link hok
  have hwrite : ∀ fds slack packet, e ≠ .write fds slack packet := by
    rintro fds slack packet rfl
    rcases he with he | ⟨n, he⟩ | he <;> cases he
  have htidy := Link.tidy_step h.tidy h.link hok hwrite
  have hsent := (s.link.receive_same he).trans h.sent
  refine ⟨done', bytes', hlink, htidy, hsent, h.posted, h.handled, ?_, ?_, ?_⟩
  all_goals dsimp only
  all_goals rcases s.link.returned_step e with hsame | ⟨p, hone, hprocessing, hreturned⟩
  · rw [hsame, hcount, decide_eq_false (Nat.lt_irrefl _)]
    rfl
  · rw [hone, List.length_append, List.length_singleton, hcount,
      decide_eq_true (Nat.lt_succ_self _)]
    rfl
  · rw [hsame, decide_eq_false (Nat.lt_irrefl _)]
    exact fun hm => absurd hm Bool.false_ne_true
  · exact fun _ => hprocessing
  · intro _
    rw [hsame]
    exact decide_eq_false (Nat.lt_irrefl _)
  · intro hw
    rw [hreturned] at hw
    cases hw

/-- The packet that is handled next, and what the receiver has of it. -/
structure Taken (s : Conversation) (p : Posted) : Prop where
  posted : s.posted[s.handled.length]? = some p
  packet : s.link.returned.getLast? = some p.message.packet
  indexed : p.msg.Indexed p.out s.link.inp
  data : s.link.inp.data ≠ 0
  size : s.link.inp.size = p.message.packet.payload.length
  holds : s.link.inp.bufferData.Holds s.link.inp.data p.message.packet.payload

theorem Inv.taken (h : Inv s done bytes) (hm : s.message = true) : ∃ p, s.Taken p := by
  have hprocessing := h.message hm
  obtain ⟨before, m, rfl, hin⟩ := h.link.processing hprocessing
  obtain ⟨packet, hlast, hdata, hsize, hread⟩ := h.tidy.processing hprocessing
  have hcount := h.returned
  rw [hm, Bool.toNat_true, h.link.returned, List.length_map, List.length_append,
    List.length_singleton] at hcount
  have hbefore : before.length = s.handled.length := by omega
  have hsent : s.link.sent[s.handled.length]? = some m := by
    rw [h.link.sent, ← hbefore, List.append_assoc, List.getElem?_append_right (Nat.le_refl _),
      Nat.sub_self]
    rfl
  rw [h.sent, List.getElem?_map] at hsent
  obtain ⟨p, hp, rfl⟩ := Option.map_eq_some_iff.mp hsent
  have hpacket : s.link.returned.getLast? = some p.message.packet := by
    rw [h.link.returned, List.map_append]
    exact List.getLast?_concat
  obtain rfl : p.message.packet = packet := Option.some.inj (hpacket.symm.trans hlast)
  refine ⟨p, hp, hpacket, hin, hdata, hsize, ?_⟩
  rw [Mem.Holds, ← hsize]
  exact hread

/-- An object that is there makes the call. -/
theorem Taken.called {p : Posted} (ht : s.Taken p) (h : Inv s done bytes) {object : Interface}
    (hobject : s.objects p.destId = some object) (hinterface : object = p.msg.interface)
    {objs : SpaPODObject → SpaPODObject} (hby : p.msg.TranslatedBy s.types objs p.out) :
    (∃ fuel, s.answer fuel p.message.packet =
      some (.called (p.msg.translated s.types objs).filled)) ∧
    ∀ fuel a, s.answer fuel p.message.packet = some a →
      a = .called (p.msg.translated s.types objs).filled := by
  obtain ⟨hmethod, hfds, hpasses⟩ := h.posted p (List.mem_of_getElem? ht.posted)
  obtain ⟨values, vs, hpayload, hpacket, hfits, -⟩ := Posted.message_packet hpasses
  have hsize := ht.size
  have hholds := ht.holds
  rw [hpacket] at hsize hholds
  rw [Pod.length_withHeader] at hsize
  obtain ⟨d, hd, hintact⟩ := (p.msg.translated s.types objs).demarshalled_indexed hfds h.tidy.inp
    (by
      intro ref href
      rw [PinosMessage.fds_translated] at href
      exact ht.indexed ref href)
  rw [PinosMessage.demarshals_translated, PinosMessage.opcode_translated] at hd
  have hreads := hintact.mpr ((PinosMessage.intact_translated _ _ _ _).mpr hpasses.intact)
  have hmod : s.link.inp.size = (8 + vs.length) % 2 ^ 24 := by
    rw [hsize, Nat.mod_eq_of_lt hfits]
  have hrun := (PinosMessage.run_translated_iff hd hpayload ht.data hholds (by omega) hmod
    hby).mpr ⟨hfits, hreads⟩
  have hdemarshals : s.demarshals object = p.msg.demarshals s.link.inp := by
    rw [demarshals, PinosMessage.demarshals, hinterface, hmethod]
  have hanswer : ∀ fuel, s.answer fuel p.message.packet =
      (d.run s.types fuel s.link.inp.bufferData s.link.inp.data s.link.inp.size).map
        fun r => (r.map Answer.called).getD .invalid := by
    intro fuel
    rw [answer, hpacket]
    dsimp only
    rw [hobject]
    dsimp only
    rw [hdemarshals, hd]
    dsimp only
    split
    · next hr => rw [hr]; rfl
    · next hr => rw [hr]; rfl
    · next hr => rw [hr]; rfl
  obtain ⟨fuel, hfuel⟩ := hrun
  refine ⟨⟨fuel, by rw [hanswer, hfuel]; rfl⟩, ?_⟩
  intro fuel' a ha
  rw [hanswer] at ha
  obtain ⟨r, hr, rfl⟩ := Option.map_eq_some_iff.mp ha
  rw [Demarshal.run_unique hr hfuel]
  rfl

theorem answer_unknown {packet : Packet} (fuel : Nat) (h : s.objects packet.destId = none) :
    s.answer fuel packet = some .unknown := by
  rw [answer, h]

/-- What is done with the packet that was taken. -/
theorem Taken.handledAs {p : Posted} (ht : s.Taken p) (h : Inv s done bytes) (hok : s.Expected)
    {fuel : Nat} {a : Answer} (ha : s.answer fuel p.message.packet = some a) :
    HandledAs p ⟨p.destId, s.objects p.destId, s.types, a⟩ := by
  refine ⟨rfl, fun hnone => ?_, fun object hobject => ?_⟩
  · rw [answer_unknown fuel (show s.objects p.message.packet.destId = none from hnone)] at ha
    exact (Option.some.inj ha).symm
  · obtain ⟨hinterface, objs, hby⟩ := hok p ht.posted object hobject
    exact ⟨objs, hby, (ht.called h hobject hinterface hby).2 fuel a ha⟩

theorem inv_handle (h : Inv s done bytes) (hok : s.Expected) (fuel : Nat) :
    Inv (s.handle fuel) done bytes := by
  rw [handle]
  split
  · next packet hm hlast =>
    obtain ⟨p, ht⟩ := h.taken hm
    obtain rfl : p.message.packet = packet := Option.some.inj (ht.packet.symm.trans hlast)
    split
    · exact h
    next a ha =>
    have hcount := h.returned
    rw [hm, Bool.toNat_true] at hcount
    refine ⟨h.link, h.tidy, h.sent, h.posted, ?_, ?_, fun hno => absurd hno Bool.false_ne_true,
      fun _ => rfl⟩
    · obtain ⟨hlt, hget⟩ := List.getElem?_eq_some_iff.mp ht.posted
      show List.Forall₂ HandledAs (s.posted.take (s.handled ++ [_]).length) (s.handled ++ [_])
      rw [List.length_append, List.length_singleton, List.take_succ_eq_append_getElem hlt, hget]
      exact List.rel_append h.handled (.cons (ht.handledAs h hok ha) .nil)
    · show s.link.returned.length = (s.handled ++ [_]).length + _
      rw [hcount, List.length_append]
      rfl
  · exact h

theorem inv_step {e : ConversationEvent} (h : Inv s done bytes) (hok : Orderly s e) :
    ∃ done' bytes', Inv (s.step e) done' bytes' := by
  cases e with
  | post destId msg => exact ⟨done, bytes, inv_post h destId hok⟩
  | flush => exact inv_carry h (.inl rfl) trivial
  | accept n => exact inv_carry h (.inr (.inl ⟨n, rfl⟩)) hok
  | sendFailed => exact inv_carry h (.inr (.inr rfl)) trivial
  | call => exact inv_receive h (.inl rfl) hok
  | chunk n => exact inv_receive h (.inr (.inl ⟨n, rfl⟩)) hok
  | again => exact inv_receive h (.inr (.inr rfl)) hok
  | handle fuel => exact ⟨done, bytes, inv_handle h hok fuel⟩
  | objects objects | types types | leave => exact ⟨done, bytes, { h with }⟩

theorem Inv.faithful (h : Inv s done bytes) : s.Faithful where
  handled := h.handled
  progress := by
    intro hm hok
    obtain ⟨p, ht⟩ := h.taken hm
    obtain ⟨fuel, a, ha⟩ : ∃ fuel a, s.answer fuel p.message.packet = some a := by
      cases hobject : s.objects p.destId with
      | none => exact ⟨0, _, answer_unknown 0 hobject⟩
      | some object =>
        obtain ⟨hinterface, objs, hby⟩ := hok p ht.posted object hobject
        obtain ⟨fuel, ha⟩ := (ht.called h hobject hinterface hby).1
        exact ⟨fuel, _, ha⟩
    refine ⟨fuel, ?_⟩
    show (s.handle fuel).message = false
    rw [handle, hm, ht.packet]
    dsimp only
    rw [ha]
  complete := by
    intro hw hbuffered hqueue hopened
    have harrived := h.tidy.drained (h.tidy.waiting hw) hopened
    have hsent := congrArg List.length h.link.sent
    have hreturned := congrArg List.length h.link.returned
    rw [h.sent, List.length_map, harrived, hqueue, hbuffered] at hsent
    rw [h.returned, h.waiting hw, List.length_map] at hreturned
    simp only [messagesOf, List.flatMap_nil, List.append_nil] at hsent
    rw [hsent, ← hreturned]
    rfl

/-- The core is at 0, a node at 5. -/
def coreAndNode (id : UInt32) : Option Interface :=
  if id = 0 then some .core else if id = 5 then some .clientNode else none

end Conversation
end Native
end Pinos
