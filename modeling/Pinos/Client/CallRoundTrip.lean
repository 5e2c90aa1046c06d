import Pinos.Client.Calls
import Pinos.Client.WriteValues

/-
A call from the marshal function of one side to the demarshal function of the other.
-/

namespace Pinos

open ByteMem

namespace Native

variable {α : Type} {values values' : List PodCall}

/-! ## The bytes of a message -/

def Fields (values : List PodCall) : Prop := ∀ c ∈ values, c.isField = true

@[simp] theorem fields_nil : Fields [] := fun _ hc => absurd hc List.not_mem_nil

@[simp] theorem fields_cons {c : PodCall} :
    Fields (c :: values) ↔ c.isField = true ∧ Fields values :=
  List.forall_mem_cons

@[simp] theorem fields_append : Fields (values ++ values') ↔ Fields values ∧ Fields values' :=
  List.forall_mem_append

@[simp] theorem fields_putObject (pod : Option SpaPODObject) : Fields (putObject pod) := by
  intro c hc
  rw [List.mem_singleton.mp hc]
  cases pod <;> rfl

theorem fields_flatMap {put : α → List PodCall} (h : ∀ x, Fields (put x)) (xs : List α) :
    Fields (xs.flatMap put) := by
  intro c hc
  obtain ⟨x, -, hmem⟩ := List.mem_flatMap.mp hc
  exact h x c hmem

theorem fields_putArray {put : α → List PodCall} (h : ∀ x, Fields (put x)) (xs : Counted α) :
    Fields (putArray put xs) :=
  fields_cons.mpr ⟨rfl, fields_flatMap h xs.items⟩

@[simp] theorem fields_putStrings (types : Counted (Option CString)) :
    Fields (putArray putString types) :=
  fields_putArray (fun _ => fields_cons.mpr ⟨rfl, fields_nil⟩) types

@[simp] theorem fields_putObjects (pods : Counted (Option SpaPODObject)) :
    Fields (putArray putObject pods) :=
  fields_putArray fields_putObject pods

theorem fields_putItem (item : SpaDictItem) : Fields (putItem item) :=
  fields_cons.mpr ⟨rfl, fields_cons.mpr ⟨rfl, fields_nil⟩⟩

@[simp] theorem fields_putDict (props : Option SpaDict) : Fields (putDict props) :=
  fields_putArray fields_putItem _

@[simp] theorem fields_putDictInt (props : Option SpaDict) : Fields (putDictInt props) :=
  fields_cons.mpr ⟨rfl, fields_flatMap fields_putItem _⟩

@[simp] theorem fields_putBuffers (buffers : Counted PinosClientNodeBuffer) :
    Fields (putArray putBuffer buffers) := by
  refine fields_putArray (fun b => ?_) buffers
  simp only [putBuffer, fields_append]
  refine ⟨⟨by simp [PodCall.isField, PodCall.field], fields_putArray ?_ _⟩, fields_putArray ?_ _⟩ <;>
    intro x <;> simp [putMeta, putData, PodCall.isField, PodCall.field]

theorem payload_of_fields (h : Fields values) :
    ∃ values' vs, Payload (podStruct values) values' vs := by
  obtain ⟨vs, hvs⟩ := Writes.of_fields h
  exact ⟨values, vs, .closed hvs⟩

theorem writes_putPortInfo (info : Option SpaPortInfo) :
    ∃ vs, Writes (Client.putPortInfo info) vs := by
  cases info with
  | none => exact ⟨_, .value rfl .nil⟩
  | some info =>
    have hfields : Fields ([.int info.flags, .int info.rate, .long info.maxbuffering,
        .long info.latency] ++ putArray putObject info.params ++ putDictInt info.extra) := by
      simp [PodCall.isField, PodCall.field]
    obtain ⟨vs, hvs⟩ := Writes.of_fields hfields
    exact ⟨_, .struct hvs .nil⟩

/-- What a marshal function adds is a struct with values and structs in it. -/
theorem PinosMessage.payload (msg : PinosMessage) (out : ConnectionBuffer) :
    ∃ values vs, Payload (msg.marshal out).2 values vs := by
  cases msg with
  | clientNodeDoDestroy => exact ⟨[], [], .unclosed⟩
  | clientNodeDoPortUpdate direction portId changeMask possibleFormats format props info =>
    have hfields : Fields ([.int direction, .int portId, .int changeMask] ++
        putArray putObject possibleFormats ++ putObject format ++ putObject props) := by
      simp [PodCall.isField, PodCall.field]
    obtain ⟨vs, hvs⟩ := Writes.of_fields hfields
    obtain ⟨vs', hvs'⟩ := writes_putPortInfo info
    exact ⟨_, _, .closed (hvs.append hvs')⟩
  | _ =>
    refine payload_of_fields ?_
    simp [PodCall.isField, PodCall.field]

/-! ## Sending and receiving -/

namespace PinosMessage

/-- A marshal function from its first value to `pinos_connection_end_write`. -/
def send (msg : PinosMessage) (out : ConnectionBuffer) (destId : UInt32) : ConnectionStore :=
  let (out, values) := msg.marshal out
  let b := values.foldl SpaPODBuilder.add (SpaPODBuilder.init (⟨out, false⟩ : ConnectionStore) 0)
  { b.data with out := b.data.out.endWrite destId msg.opcode b.offset }

/-- `on_context_data` of `client/context.c` and `connection_data` of
`modules/module-protocol-native.c` with the next packet, for an object with the interface
of `msg`: the call that is made, if any.  There is no result when the types are not
translated in the given number of steps. -/
def receive (msg : PinosMessage) (types : PinosMap) (fuel : Nat) (conn : ConnectionBuffer) :
    Option (Option PinosMessage) :=
  match conn.readPacket with
  | (conn, .returns (some packet)) =>
    match (msg.demarshals conn)[packet.opcode.toNat]? with
    | none => some none
    | some d => d.run types fuel conn.bufferData conn.data conn.size
  | _ => some none

/-- The writes of a marshal function, on the connection with the descriptors. -/
def writes (msg : PinosMessage) (out : ConnectionBuffer) : List MarshalCall :=
  (msg.marshal out).2.flatMap PodCall.writes

/-- The size of a message without its header. -/
def size (msg : PinosMessage) (out : ConnectionBuffer) : Nat :=
  ((msg.marshal out).2.map PodCall.size).sum

/-- Every write of a marshal function finds memory. -/
def Reserved (msg : PinosMessage) (out : ConnectionBuffer) : Prop :=
  Run.Along Marshal.step Marshal.Reserved (Marshal.start (msg.marshal out).1) (msg.writes out)

instance (msg : PinosMessage) (out : ConnectionBuffer) : Decidable (msg.Reserved out) :=
  inferInstanceAs (Decidable (Run.Along _ _ _ _))

end PinosMessage

/-- What was added to an out buffer is where the receiver reads next, and its
descriptors have come with it. -/
structure Delivered (before after conn : ConnectionBuffer) : Prop where
  bytes : conn.bufferData.Holds conn.offset
    (after.bufferData.read before.bufferSize (after.bufferSize - before.bufferSize))
  size : conn.offset + (after.bufferSize - before.bufferSize) ≤ conn.bufferSize
  fds : conn.fds = after.flushed.2

/-- What is asked of a call: it is written in memory that is there, and the receiver
makes the same call. -/
structure PinosMessage.RoundTrips (msg : PinosMessage) (types : PinosMap)
    (out : ConnectionBuffer) (destId : UInt32) (conn : ConnectionBuffer) : Prop where
  inside : (msg.send out destId).overrun = false
  called : ∃ fuel, msg.receive types fuel conn = some (some msg.filled)

end Native

/-- A whole packet is returned with as much of it as the 24 bits for its length say. -/
theorem ConnectionBuffer.readPacket_holds {buf : ConnectionBuffer} {p : Packet}
    (h : buf.bufferData.Holds buf.offset p.bytes)
    (hsize : buf.offset + p.bytes.length ≤ buf.bufferSize) :
    ∃ payload, buf.readPacket =
      ({ buf with
         size := p.payload.length % 2 ^ 24, data := buf.offset + 8, offset := buf.offset + 8 },
        .returns (some ⟨p.destId, p.opcode, payload⟩)) := by
  rw [Packet.length_bytes] at hsize
  rw [Packet.bytes] at h
  have hdest := h.left.left.u32
  have hword := h.left.right.u32
  rw [Nat.mod_eq_of_lt p.destId.toNat_lt] at hdest
  rw [length_toLE, Nat.mod_eq_of_lt Packet.word_lt] at hword
  have hlen : Packet.word p.opcode p.payload.length % 2 ^ 24 = p.payload.length % 2 ^ 24 := by
    unfold Packet.word
    omega
  have hmod := Nat.mod_le p.payload.length (2 ^ 24)
  refine ⟨buf.bufferData.read (buf.offset + 8) (p.payload.length % 2 ^ 24), ?_⟩
  rw [readPacket, if_neg (by omega)]
  simp only [hdest, hword, hlen]
  rw [if_neg (by omega), if_neg (by omega), Packet.word_div, UInt32.ofNat_toNat]

namespace Native

namespace PinosMessage

variable {msg : PinosMessage} {types : PinosMap} {out conn : ConnectionBuffer} {destId : UInt32}

theorem marshal_out (msg : PinosMessage) (out : ConnectionBuffer) :
    ∃ fds, (msg.marshal out).1 = { out with fds := fds } := by
  have hadd : ∀ (buf : ConnectionBuffer) fd, ∃ fds, (buf.addFd fd).1 = { buf with fds := fds } := by
    intro buf fd
    obtain ⟨more, hmore, -⟩ := buf.addFd_index fd
    exact ⟨_, hmore⟩
  cases msg with
  | clientNodeNotifyDone readfd writefd =>
    obtain ⟨fds, hread⟩ := hadd out readfd
    obtain ⟨fds', hwrite⟩ := hadd (out.addFd readfd).1 writefd
    exact ⟨fds', hwrite.trans (by rw [hread])⟩
  | clientNodeNotifyAddMem direction portId memId type memfd flags offset size => exact hadd out memfd
  | clientNodeNotifyTransport memfd offset size => exact hadd out memfd
  | _ => exact ⟨out.fds, rfl⟩

theorem plain (msg : PinosMessage) (out : ConnectionBuffer) : ∀ c ∈ (msg.marshal out).2, c.Plain := by
  obtain ⟨values, vs, hpayload⟩ := msg.payload out
  generalize (msg.marshal out).2 = calls at hpayload
  cases hpayload with
  | closed hvalues => exact (Writes.struct hvalues .nil).plain
  | unclosed =>
    intro c hc
    rw [List.mem_singleton.mp hc]
    exact .push

/-- The builder of a marshal function, by its values and by its writes. -/
theorem run_writes (msg : PinosMessage) (out : ConnectionBuffer) :
    (Run.run Marshal.step (Marshal.start (msg.marshal out).1) (msg.writes out)).builder =
      (msg.marshal out).2.foldl SpaPODBuilder.add (Marshal.start (msg.marshal out).1).builder :=
  (Marshal.flat_start _).run_values (msg.plain out)

/-- The condition that the writes of a call are measured by. -/
def Small (msg : PinosMessage) (out : ConnectionBuffer) : Prop :=
  ((msg.writes out).map MarshalCall.length).sum + 4096 ≤ 2 ^ 32

instance (msg : PinosMessage) (out : ConnectionBuffer) : Decidable (msg.Small out) :=
  inferInstanceAs (Decidable (_ ≤ _))

theorem reserved_iff (hsmall : msg.Small out) :
    msg.Reserved out ↔ (msg.send out destId).overrun = false := by
  have hinv := Marshal.inv_start _ (Marshal.pending_flushed (msg.marshal out).1)
  have hiff : msg.Reserved out ↔ _ := Marshal.along_reserved_iff hinv
    (by rw [Small] at hsmall; exact (Nat.zero_add _).symm ▸ hsmall)
  rw [run_writes] at hiff
  exact hiff

theorem size_le (msg : PinosMessage) (out : ConnectionBuffer) :
    msg.size out ≤ ((msg.writes out).map MarshalCall.length).sum :=
  Marshal.sizes_le (msg.plain out)

/-- What is added to the out buffer is a packet with the bytes of the struct. -/
theorem sent_packet (hsmall : msg.Small out) (hok : msg.Reserved out) {values : List PodCall}
    {vs : List UInt8} (hpayload : Payload (msg.marshal out).2 values vs) :
    (msg.send out destId).out.Pending
      (out.flushed.1 ++ Packet.bytes ⟨destId, msg.opcode, Pod.withHeader .struct vs⟩) := by
  have hsize := msg.size_le out
  have hlength : 8 + vs.length = msg.size out := hpayload.length_eq
  rw [Small] at hsmall
  have hinv := Marshal.inv_run (msg.marshal out).1 (msg.writes out) hok
  have hbuilder := msg.run_writes out
  have hroom : (SpaPODBuilder.init (⟨(msg.marshal out).1, false⟩ : ConnectionStore) 0).Room
      (8 + vs.length) := ⟨by show 0 + _ < _; omega, fun _ _ _ => rfl⟩
  obtain ⟨hview, hoffset⟩ := hpayload.holds _ 0 hroom
  have hend := hinv.marshals.finished destId msg.opcode
  have hwritten : (Run.run Marshal.step (Marshal.start (msg.marshal out).1) (msg.writes out)).written =
      Pod.withHeader .struct vs := by
    have hread := hinv.view
    have hlen := hinv.written
    rw [hbuilder] at hread hlen
    have hsame := hlen.trans (hoffset.trans (Pod.length_withHeader .struct vs).symm)
    rw [Mem.Holds, hsame] at hread
    exact hread.symm.trans hview
  obtain ⟨fds, hout⟩ := msg.marshal_out out
  have hflushed : (msg.marshal out).1.flushed.1 = out.flushed.1 := by
    rw [hout]
    rfl
  rw [hwritten, hbuilder, hflushed] at hend
  exact hend

theorem sent_fds (msg : PinosMessage) (out : ConnectionBuffer) (destId : UInt32) :
    (msg.send out destId).out.flushed.2 = (msg.marshal out).1.flushed.2 := by
  have hrun := Marshal.run_fds (Marshal.start (msg.marshal out).1) (msg.writes out)
  rw [run_writes] at hrun
  have hend : ∀ (buf : ConnectionBuffer) n, (buf.endWrite destId msg.opcode n).fds = buf.fds := by
    intro buf n
    obtain ⟨maxsize, hsame⟩ := buf.ensureSize_eq (toU32 (8 + n))
    rw [ConnectionBuffer.endWrite, hsame]
  show List.map _ (ConnectionBuffer.endWrite _ _ _ _).fds = List.map _ _
  rw [hend]
  exact congrArg _ hrun

/-- What the receiver makes of the packet. -/
theorem receive_packet (types : PinosMap) {vs : List UInt8}
    (hconn : conn.bufferData.Holds conn.offset
      (Packet.bytes ⟨destId, msg.opcode, Pod.withHeader .struct vs⟩))
    (hroom : conn.offset + (Packet.bytes ⟨destId, msg.opcode, Pod.withHeader .struct vs⟩).length ≤
      conn.bufferSize) :
    ∃ conn' : ConnectionBuffer, conn'.fds = conn.fds ∧ conn'.data ≠ 0 ∧
      conn'.bufferData.Holds conn'.data (Pod.withHeader .struct vs) ∧
      conn'.size = (8 + vs.length) % 2 ^ 24 ∧
      ∀ fuel, msg.receive types fuel conn =
        match (msg.demarshals conn')[msg.opcode.toNat]? with
        | none => some none
        | some d => d.run types fuel conn'.bufferData conn'.data conn'.size := by
  obtain ⟨payload, hread⟩ := ConnectionBuffer.readPacket_holds hconn hroom
  have hright := hconn
  rw [Packet.bytes] at hright
  replace hright := hright.right
  rw [List.length_append, length_toLE, length_toLE] at hright
  refine ⟨{ conn with
    size := (Pod.withHeader .struct vs).length % 2 ^ 24, data := conn.offset + 8,
    offset := conn.offset + 8 }, rfl, Nat.succ_ne_zero _, hright, ?_, ?_⟩
  · show (Pod.withHeader .struct vs).length % 2 ^ 24 = _
    rw [Pod.length_withHeader]
  · intro fuel
    rw [receive, hread]

/-- The packet is what the receiver finds where it reads next. -/
theorem delivered_packet {packet : Packet} {after : ConnectionBuffer}
    (hpending : after.Pending (out.flushed.1 ++ packet.bytes))
    (hconn : Delivered out after conn) :
    conn.bufferData.Holds conn.offset packet.bytes ∧
      conn.offset + packet.bytes.length ≤ conn.bufferSize := by
  have hbefore : out.flushed.1.length = out.bufferSize := Mem.length_read _ _ _
  have hsize := hpending.size
  rw [List.length_append, hbefore] at hsize
  have hlen : after.bufferSize - out.bufferSize = packet.bytes.length := by omega
  have hread := hpending.holds.right
  rw [hbefore, Nat.zero_add] at hread
  have hbytes := hconn.bytes
  rw [hlen, show after.bufferData.read out.bufferSize _ = _ from hread] at hbytes
  exact ⟨hbytes, hlen ▸ hconn.size⟩

/-- What a demarshal function is given is a call, or nothing when its size did not fit. -/
theorem run_iff {d : Demarshal PinosMessage} {m : Mem} {data size : Nat}
    {values : List PodCall} {vs : List UInt8}
    (hpayload : Payload (msg.marshal out).2 values vs) (hdata : data ≠ 0)
    (hm : m.Holds data (Pod.withHeader .struct vs)) (hlt : 8 + vs.length < 2 ^ 32)
    (hsize : size = (8 + vs.length) % 2 ^ 24)
    (htypes : ∀ c ∈ (msg.marshal out).2, c.KeptBy types) :
    (∃ fuel, d.run types fuel m data size = some (some msg.filled)) ↔
      8 + vs.length < 2 ^ 24 ∧ Reads d (msg.marshal out).2 msg := by
  by_cases hfits : 8 + vs.length < 2 ^ 24
  · rw [Nat.mod_eq_of_lt hfits] at hsize
    obtain ⟨stop, hstop, htail, hmem⟩ : ∃ stop, (∀ c ∈ stop.head?, c = PodCall.pop) ∧
        (msg.marshal out).2.tail = values ++ stop ∧ ∀ c ∈ values, c ∈ (msg.marshal out).2 := by
      generalize (msg.marshal out).2 = calls at hpayload
      cases hpayload with
      | closed =>
        refine ⟨[.pop], by simp, rfl, fun c hc => ?_⟩
        exact List.mem_cons_of_mem _ (List.mem_append_left _ hc)
      | unclosed => exact ⟨[], by simp, rfl, by simp⟩
    obtain ⟨fuel, hrun⟩ := Demarshal.run_whole (d := d) hpayload.writes hstop hdata hm hlt
      fun c hc => htypes c (hmem c hc)
    rw [← htail, ← hsize] at hrun
    constructor
    · rintro ⟨fuel', hcall⟩
      exact ⟨hfits, Demarshal.run_unique hrun hcall⟩
    · rintro ⟨-, hreads⟩
      exact ⟨fuel, hrun.trans (congrArg some hreads)⟩
  · refine iff_of_false ?_ fun h => hfits h.1
    rintro ⟨fuel, hcall⟩
    rw [Demarshal.run_short hdata hm hlt (by omega)] at hcall
    cases hcall

/-- The call that the receiver makes, when the bytes have been written. -/
theorem receive_iff (hfds : out.fds.length ≤ maxFds) (hsmall : msg.Small out)
    (hok : msg.Reserved out) (htypes : ∀ c ∈ (msg.marshal out).2, c.KeptBy types)
    (hconn : Delivered out (msg.send out destId).out conn) :
    (∃ fuel, msg.receive types fuel conn = some (some msg.filled)) ↔
      msg.size out < 2 ^ 24 ∧ msg.Intact out := by
  obtain ⟨values, vs, hpayload⟩ := msg.payload out
  have hlength : 8 + vs.length = msg.size out := hpayload.length_eq
  have hlt : 8 + vs.length < 2 ^ 32 := by
    have hle := msg.size_le out
    rw [Small] at hsmall
    omega
  obtain ⟨hholds, hroom⟩ := delivered_packet (sent_packet hsmall hok hpayload) hconn
  obtain ⟨conn', hsame, hdata, hm, hsize, hreceive⟩ :=
    receive_packet types hholds hroom
  have harrived : conn'.fds = (msg.marshal out).1.flushed.2 := by
    rw [hsame, hconn.fds, sent_fds]
  obtain ⟨d, hd, hintact⟩ := msg.demarshalled_iff hfds harrived
  simp only [hreceive, hd]
  rw [run_iff hpayload hdata hm hlt hsize htypes, hintact, hlength]

/-- A call arrives as it was sent if and only if its writes find memory, its size fits the
header of a packet and its arguments pass through the values that carry them. -/
theorem roundTrips_iff (msg : PinosMessage) (types : PinosMap) (out conn : ConnectionBuffer)
    (destId : UInt32) (hfds : out.fds.length ≤ maxFds) (hsmall : msg.Small out)
    (htypes : ∀ c ∈ (msg.marshal out).2, c.KeptBy types)
    (hconn : Delivered out (msg.send out destId).out conn) :
    msg.RoundTrips types out destId conn ↔
      msg.Reserved out ∧ msg.size out < 2 ^ 24 ∧ msg.Intact out := by
  constructor
  · rintro ⟨hinside, hcalled⟩
    have hok := (reserved_iff hsmall).mpr hinside
    exact ⟨hok, (receive_iff hfds hsmall hok htypes hconn).mp hcalled⟩
  · rintro ⟨hok, harrives⟩
    exact ⟨(reserved_iff hsmall).mp hok, (receive_iff hfds hsmall hok htypes hconn).mpr harrives⟩

/-- A connection that has got what was added to an out buffer. -/
def arrived (before after : ConnectionBuffer) : ConnectionBuffer :=
  { after with
    fds := after.flushed.2
    offset := before.bufferSize
    bufferSize := before.bufferSize + (after.bufferSize - before.bufferSize) }

theorem delivered_arrived (before after : ConnectionBuffer) :
    Delivered before after (arrived before after) :=
  ⟨congrArg (Mem.read _ _) (Mem.length_read _ _ _), Nat.le_refl _, rfl⟩

/-- A message with a descriptor. -/
theorem roundTrips_iff_transport :
    let msg := clientNodeNotifyTransport 5 0 64
    msg.RoundTrips ⟨[], 0⟩ Marshal.unflushed 3 (arrived Marshal.unflushed (msg.send Marshal.unflushed 3).out) := by
  intro msg
  refine (roundTrips_iff msg ⟨[], 0⟩ Marshal.unflushed _ 3 (by decide) (by decide) ?_
    (delivered_arrived _ _)).mpr ⟨by decide, by decide, ?_⟩
  · simp [msg, marshal, Server.clientNodeMarshalTransport, podStruct, PodCall.KeptBy]
  · show FdArrives Marshal.unflushed 5
    rw [FdArrives, if_pos (by decide)]
    decide

/-- Only half of the change mask of a link arrives. -/
theorem not_roundTrips :
    ¬ ∀ (msg : PinosMessage) (types : PinosMap) (out conn : ConnectionBuffer) (destId : UInt32),
      out.fds.length ≤ maxFds → msg.Small out → (∀ c ∈ (msg.marshal out).2, c.KeptBy types) →
      Delivered out (msg.send out destId).out conn → msg.RoundTrips types out destId conn := by
  intro h
  let msg := linkNotifyInfo ⟨2, 2 ^ 32, 3, 4, 5, 6⟩
  have hsmall : msg.Small Marshal.unflushed := by decide
  have hkept : ∀ c ∈ (msg.marshal Marshal.unflushed).2, c.KeptBy ⟨[], 0⟩ := by
    simp [msg, marshal, Server.linkMarshalInfo, podStruct, PodCall.KeptBy]
  have hconn := delivered_arrived Marshal.unflushed (msg.send Marshal.unflushed 3).out
  have hround := h msg ⟨[], 0⟩ Marshal.unflushed _ 3 (by decide) hsmall hkept hconn
  have hok := (reserved_iff hsmall).mpr hround.inside
  have hintact := ((receive_iff (by decide) hsmall hok hkept hconn).mp hround.called).2
  exact absurd (show (2 : Nat) ^ 32 < 2 ^ 32 from hintact) (Nat.lt_irrefl _)

end PinosMessage
end Native
end Pinos
