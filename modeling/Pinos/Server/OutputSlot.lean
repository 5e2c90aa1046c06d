import Mathlib.Logic.Function.Basic
import Pinos.Client.FreeBuffers
import Pinos.Server.ClientNode

/-
Runs of an output stream and of its client node, which share the slot of the one port.

The stream puts a buffer in the slot and the server takes it from there.  When the server
handles `HaveOutput` it copies the slot, and takes it again in `process_output`.
-/

namespace Pinos

/-- What the stream does, and the server: it handles the next event, while the consumers
may report a buffer that can be used again; it is pulled with the io of an input port; or a
consumer reports a buffer later. -/
inductive OutputOp where
  | send (id : UInt32) (room : Bool)
  | handleClient
  | needBufferDone
  | handleServer (reused : Option UInt32) (room : TransportEvent → Bool)
  | pull (io : SpaPortIO) (room : TransportEvent → Bool)
  | reuse (id : UInt32)

/-- A stream, its proxy and the events on their way to the stream; those on their way to the
server are those that the stream has added.  `takes` counts how often a buffer was taken
from the slot since it was sent. -/
structure OutputSlot where
  client : PinosStream
  proxy : SpaProxy
  ring : List TransportEvent
  takes : UInt32 → Nat

namespace SpaProxy

/-- `on_node_have_output` for the io of the output ports, with what the consumers report. -/
def haveOutput (this : SpaProxy) (reused : Option UInt32) : SpaProxy :=
  { this with
    outPorts := this.outPorts.map (Option.map fun io =>
      if io.bufferId = spaIdInvalid then io else ⟨.needBuffer, reused.getD io.bufferId⟩) }

def setOutputs (this : SpaProxy) (io : SpaPortIO) : SpaProxy :=
  { this with outPorts := this.outPorts.map (Option.map fun _ => io) }

/-- `on_node_reuse_buffer` for the io of the output ports. -/
def reuseBuffer (this : SpaProxy) (id : UInt32) : SpaProxy :=
  { this with outPorts := this.outPorts.map (Option.map fun io => { io with bufferId := id }) }

end SpaProxy

namespace OutputSlot

open PinosStream

def start (stream : PinosStream) : OutputSlot where
  client := stream
  proxy := ⟨[], [some .empty]⟩
  ring := []
  takes _ := 0

/-- The buffer in the slot. -/
def pending (s : OutputSlot) : Option UInt32 :=
  s.client.trans.outputs.head?.bind SpaPortIO.buffer?

/-- The counts when the server takes what is in the slot. -/
def taken (s : OutputSlot) : UInt32 → Nat :=
  match s.pending with
  | some id => Function.update s.takes id (s.takes id + 1)
  | none => s.takes

def process (s : OutputSlot) (room : TransportEvent → Bool) : OutputSlot :=
  let done := s.proxy.processOutput { s.client.trans with added := s.ring } room
  { proxy := done.1
    client := { s.client with trans := s.client.trans.withSlots done.2 }
    ring := done.2.added
    takes := s.taken }

/-- `handle_node_event`. -/
def handleNodeEvent (s : OutputSlot) (reused : Option UInt32) (room : TransportEvent → Bool) :
    TransportEvent → OutputSlot
  | .haveOutput =>
    process
      { s with
        proxy := (s.proxy.takeOutputs s.client.trans).haveOutput reused
        takes := s.taken }
      room
  | _ => s

def step (s : OutputSlot) : OutputOp → OutputSlot
  | .send id room =>
    { s with
      client := (s.client.sendBuffer id room).1
      takes := if s.client.sends id then Function.update s.takes id 0 else s.takes }
  | .handleClient =>
    match s.ring with
    | [] => s
    | event :: ring => { s with client := s.client.handleRtnodeEvent event, ring := ring }
  | .needBufferDone => { s with client := s.client.needBufferDone }
  | .handleServer reused room =>
    match s.client.trans.added with
    | [] => s
    | event :: added =>
      handleNodeEvent
        { s with client := { s.client with trans := { s.client.trans with added := added } } }
        reused room event
  | .pull io room => process { s with proxy := s.proxy.setOutputs io } room
  | .reuse id => { s with proxy := s.proxy.reuseBuffer id }

/-- The buffers that a step of the stream puts back in its free list. -/
def putBack (s : OutputSlot) : OutputOp → List UInt32
  | .handleClient =>
    match s.ring with
    | [] => []
    | event :: _ => (s.client.givenBack event).filter fun id => Marked s.client id
  | _ => []

/-- A buffer that is put back was taken once, none is taken twice, and none that is in the
slot is overwritten by another. -/
structure Right (s : OutputSlot) (op : OutputOp) : Prop where
  back : ∀ id ∈ s.putBack op, s.takes id = 1
  once : ∀ id, (s.step op).takes id ≤ 1
  kept : ∀ sent room id, op = .send sent room → s.pending = some id →
    (s.step op).pending = some id

/-- The slot is empty when the stream handles `NeedInput`, and does not have the buffer of a
`ReuseBuffer` for its port. -/
def SafeClient (s : OutputSlot) : TransportEvent → Prop
  | .haveOutput => True
  | .needInput => s.pending = none
  | .reuseBuffer portId bufferId => portId = s.client.portId → s.pending ≠ some bufferId

/-- The events are handled safely, and the slot is empty when the server handles
`HaveOutput`. -/
def Safe (s : OutputSlot) : OutputOp → Prop
  | .handleClient => ∀ event ∈ s.ring.head?, s.SafeClient event
  | .handleServer _ _ => .haveOutput ∈ s.client.trans.added.head? → s.pending = none
  | _ => True

/-! ## The invariant -/

/-- A buffer that is marked is in the slot and was not taken, or was taken once. -/
structure Inv (s : OutputSlot) : Prop where
  output : s.client.output = true
  numbered : s.client.Numbered
  valid : ∀ i id, s.client.idAt i = some id → id ≠ spaIdInvalid
  ports : ∃ io, s.proxy.outPorts = [some io]
  slots : ∃ slot, s.client.trans.outputs = [slot]
  nOutputs : s.client.trans.nOutputs = 1
  once : ∀ id, s.takes id ≤ 1
  waits : ∀ id, s.pending = some id → Marked s.client id ∧ s.takes id = 0
  gone : ∀ id, Marked s.client id → s.pending ≠ some id → s.takes id = 1

variable {s : OutputSlot}

theorem taken_of_none (h : s.pending = none) : s.taken = s.takes := by
  rw [taken, h]

theorem taken_of_some {id : UInt32} (h : s.pending = some id) :
    s.taken = Function.update s.takes id (s.takes id + 1) := by
  rw [taken, h]

/-- The io of the port is in the slot, without its buffer, and the other way round. -/
theorem process_eq (room : TransportEvent → Bool) {io slot : SpaPortIO} (hports : s.proxy.outPorts = [some io])
    (hslots : s.client.trans.outputs = [slot]) :
    ∃ ring, s.process room =
      { proxy := { s.proxy with outPorts := [some slot] }
        client := { s.client with trans := { s.client.trans with outputs := [io.clear] } }
        ring := ring
        takes := s.taken } := by
  refine ⟨(s.process room).ring, ?_⟩
  rw [process, SpaProxy.processOutput]
  simp only [PinosTransport.withSlots_addEvents]
  simp [PinosTransport.withSlots, SpaProxy.takeOutputs, hports, hslots]

/-- When what is in the slot is taken, every buffer that is marked was taken once. -/
theorem Inv.taken (h : s.Inv) :
    (∀ id, s.taken id ≤ 1) ∧ ∀ id, Marked s.client id → s.taken id = 1 := by
  cases hpending : s.pending with
  | none =>
    rw [taken_of_none hpending]
    exact ⟨h.once, fun id hmarked => h.gone id hmarked (by simp [hpending])⟩
  | some id =>
    rw [taken_of_some hpending, (h.waits id hpending).2]
    refine ⟨fun id' => ?_, fun id' hmarked => ?_⟩
    · rw [Function.update_apply]
      split
      · exact Nat.le_refl 1
      · exact h.once id'
    · rw [Function.update_apply]
      split
      · rfl
      · next hne =>
        refine h.gone id' hmarked fun hsame => hne ?_
        exact Option.some.inj (hsame.symm.trans hpending)

/-- The proxy exchanges the io of its port, whatever it is, with the slot. -/
theorem Inv.exchange (h : s.Inv) (room : TransportEvent → Bool) (proxy : SpaProxy)
    (hports : ∃ io, proxy.outPorts = [some io]) :
    (process { s with proxy := proxy } room).Inv ∧
      (process { s with proxy := proxy } room).takes = s.taken := by
  obtain ⟨io, hports⟩ := hports
  obtain ⟨slot, hslots⟩ := h.slots
  obtain ⟨ring, heq⟩ := process_eq (s := { s with proxy := proxy }) room hports hslots
  have htakes : (process { s with proxy := proxy } room).takes = s.taken := by
    rw [heq]
    rfl
  refine ⟨?_, htakes⟩
  rw [heq]
  refine ⟨h.output, ⟨h.numbered.distinct, h.numbered.ordered⟩, h.valid, ⟨slot, rfl⟩, ⟨_, rfl⟩,
    h.nOutputs, h.taken.1, fun id hsome => ?_, fun id hmarked _ => h.taken.2 id hmarked⟩
  have hempty : io.clear.buffer? = some id := hsome
  rw [io.buffer?_clear] at hempty
  cases hempty

theorem exists_map_outPorts {ports : List (Option SpaPortIO)} (h : ∃ io, ports = [some io])
    (f : SpaPortIO → SpaPortIO) : ∃ io, ports.map (Option.map f) = [some io] := by
  obtain ⟨io, rfl⟩ := h
  exact ⟨f io, rfl⟩

theorem Inv.withProxy (h : s.Inv) (proxy : SpaProxy) (hports : ∃ io, proxy.outPorts = [some io]) :
    Inv { s with proxy := proxy } :=
  ⟨h.output, h.numbered, h.valid, hports, h.slots, h.nOutputs, h.once, h.waits, h.gone⟩

theorem Inv.withAdded (h : s.Inv) (added : List TransportEvent) :
    Inv { s with client := { s.client with trans := { s.client.trans with added := added } } } :=
  ⟨h.output, ⟨h.numbered.distinct, h.numbered.ordered⟩, h.valid, h.ports, h.slots, h.nOutputs,
    h.once, h.waits, h.gone⟩

/-! ## The steps -/

/-- The server takes what is in the slot twice. -/
theorem Inv.haveOutput (h : s.Inv) (reused : Option UInt32) (room : TransportEvent → Bool) :
    ((∀ id, (s.handleNodeEvent reused room .haveOutput).takes id ≤ 1) ↔ s.pending = none) ∧
      (s.pending = none → (s.handleNodeEvent reused room .haveOutput).Inv) := by
  obtain ⟨io, hio⟩ := h.ports
  have hports : ∃ io, ((s.proxy.takeOutputs s.client.trans).haveOutput reused).outPorts = [some io] := by
    refine exists_map_outPorts ⟨s.client.trans.outputs[0]?.getD io, ?_⟩ _
    simp [SpaProxy.takeOutputs, hio]
  cases hpending : s.pending with
  | none =>
    have heq : s.handleNodeEvent reused room .haveOutput =
        process { s with proxy := (s.proxy.takeOutputs s.client.trans).haveOutput reused } room := by
      rw [handleNodeEvent, taken_of_none hpending]
    have hnext := h.exchange room _ hports
    rw [heq]
    exact ⟨iff_of_true (by rw [hnext.2]; exact h.taken.1) rfl, fun _ => hnext.1⟩
  | some id =>
    refine ⟨iff_of_false (fun honce => ?_) (by simp), fun hnone => by cases hnone⟩
    have htwice : (s.handleNodeEvent reused room .haveOutput).takes id = s.takes id + 1 + 1 := by
      have hstill : pending { s with takes := s.taken } = some id := hpending
      have hagain := congrFun (taken_of_some hstill) id
      rw [Function.update_self] at hagain
      refine hagain.trans ?_
      show s.taken id + 1 = _
      rw [taken_of_some hpending, Function.update_self]
    have hle := honce id
    rw [htwice] at hle
    omega

theorem sends_pending {id : UInt32} (h : s.client.sends id = true) : s.pending = none := by
  obtain ⟨slot, slots, i, hslots, hempty, -⟩ := sendBuffer_of_sends h true
  rw [pending, hslots]
  exact SpaPortIO.buffer?_eq_none.mpr hempty

theorem Inv.send (h : s.Inv) (id : UInt32) (room : Bool) : (s.step (.send id room)).Inv := by
  cases hsends : s.client.sends id with
  | false =>
    have hsame : s.step (.send id room) = s := by
      rw [step, sendBuffer_of_not_sends hsends, hsends]
      rfl
    rw [hsame]
    exact h
  | true =>
    have hpending := sends_pending hsends
    obtain ⟨slot, slots, i, hslots, hempty, hfind, hunused, hclient, -⟩ :=
      sendBuffer_of_sends hsends room
    have hid := h.numbered.findBuffer_eq_some.mp hfind
    have hmarks := marked_setUsed_true hid
    obtain ⟨only, hone⟩ := h.slots
    rw [hone] at hslots
    obtain ⟨rfl, rfl⟩ := List.cons.inj hslots
    rw [step, hclient, hsends]
    refine ⟨h.output, (h.numbered.setUsed true).congr rfl fun _ => rfl, fun j id' hj => ?_, h.ports,
      ⟨_, rfl⟩, h.nOutputs, fun id' => ?_, fun id' hsome => ?_, fun id' hmarked hne => ?_⟩
    · exact h.valid j id' ((idAt_setUsed true).symm.trans hj)
    · show Function.update s.takes id 0 id' ≤ 1
      rw [Function.update_apply]
      split
      · exact Nat.zero_le 1
      · exact h.once id'
    · have hsent : (⟨.haveBuffer, id⟩ : SpaPortIO).buffer? = some id' := hsome
      obtain ⟨rfl, -⟩ := SpaPortIO.buffer?_eq_some.mp hsent
      exact ⟨(hmarks id).mpr (.inr rfl), Function.update_self id 0 s.takes⟩
    · have hother : id' ≠ id := by
        intro hsame
        apply hne
        exact SpaPortIO.buffer?_eq_some.mpr ⟨hsame.symm, hsame ▸ h.valid i id hid⟩
      have hbefore := ((hmarks id').mp hmarked).resolve_right hother
      show Function.update s.takes id 0 id' = 1
      rw [Function.update_of_ne hother]
      exact h.gone id' hbefore (by simp [hpending])

/-- The stream puts back only what was taken if and only if the slot does not have it. -/
theorem Inv.handleClient (h : s.Inv) (event : TransportEvent) (ring : List TransportEvent) :
    ((∀ id ∈ s.client.givenBack event, Marked s.client id → s.takes id = 1) ↔ s.SafeClient event) ∧
      (s.SafeClient event →
        Inv { s with client := s.client.handleRtnodeEvent event, ring := ring }) := by
  obtain ⟨slot, hslots⟩ := h.slots
  have hpending : s.pending = slot.buffer? := by
    rw [pending, hslots]
    rfl
  cases event with
  | haveOutput =>
    refine ⟨iff_of_true (fun id hid => absurd hid List.not_mem_nil) trivial, fun _ => ?_⟩
    exact ⟨h.output, ⟨h.numbered.distinct, h.numbered.ordered⟩, h.valid, h.ports, h.slots,
      h.nOutputs, h.once, h.waits, h.gone⟩
  | needInput =>
    have hback : s.client.givenBack .needInput = slot.buffer?.toList := by
      rw [givenBack, h.nOutputs, hslots, PinosTransport.buffers]
      cases hbuffer : slot.buffer? <;> simp [hbuffer]
    rw [hback, ← hpending]
    cases hwaits : s.pending with
    | some id =>
      obtain ⟨hmarked, hzero⟩ := h.waits id hwaits
      refine ⟨iff_of_false (fun hall => ?_) (by simp [SafeClient, hwaits]), fun hsafe => ?_⟩
      · have hone := hall id (List.mem_singleton_self id) hmarked
        omega
      · rw [SafeClient, hwaits] at hsafe
        cases hsafe
    | none =>
      refine ⟨iff_of_true (fun id hid => absurd hid List.not_mem_nil) hwaits, fun _ => ?_⟩
      have hnothing : PinosTransport.buffers s.client.trans.nOutputs s.client.trans.outputs = [] := by
        have hnone : s.client.givenBack .needInput = [] := by rw [hback, ← hpending, hwaits]; rfl
        exact hnone
      have heq : s.client.handleRtnodeEvent .needInput =
          { s.client with
            trans := { s.client.trans with outputs := [slot.clear] }
            inNeedBuffer := true
            emitted := s.client.emitted ++ [.needBuffer] } := by
        have hcleared : PinosTransport.cleared s.client.trans.nOutputs s.client.trans.outputs =
            [slot.clear] := by
          rw [h.nOutputs, hslots]
          rfl
        rw [handleRtnodeEvent, hnothing, ← hcleared]
        rfl
      rw [heq]
      refine ⟨h.output, ⟨h.numbered.distinct, h.numbered.ordered⟩, h.valid, h.ports, ⟨_, rfl⟩,
        h.nOutputs, h.once, fun id hsome => ?_, fun id hmarked _ => ?_⟩
      · have hempty : slot.clear.buffer? = some id := hsome
        rw [slot.buffer?_clear] at hempty
        cases hempty
      · exact h.gone id hmarked (by simp [hwaits])
  | reuseBuffer portId bufferId =>
    by_cases hport : portId = s.client.portId
    · have heq : s.client.handleRtnodeEvent (.reuseBuffer portId bufferId) =
          s.client.reuseBuffer bufferId := by
        simp [handleRtnodeEvent, hport, h.output]
      have hback : s.client.givenBack (.reuseBuffer portId bufferId) = [bufferId] :=
        if_pos ⟨hport, h.output⟩
      rw [heq, hback]
      obtain ⟨hnot, hsame⟩ | ⟨hmarked, i, hid, hput⟩ := reuseBuffer_cases h.numbered bufferId
      · rw [hsame]
        refine ⟨iff_of_true ?_ fun _ hwaits => hnot (h.waits _ hwaits).1, fun _ => ?_⟩
        · intro id hin hmarked
          exact absurd (List.mem_singleton.mp hin ▸ hmarked) hnot
        · exact ⟨h.output, h.numbered, h.valid, h.ports, h.slots, h.nOutputs, h.once, h.waits, h.gone⟩
      · rw [hput]
        have hmarks := marked_setUsed_false h.numbered hid
        constructor
        · constructor
          · intro hall _ hwaits
            have hone := hall bufferId (List.mem_singleton_self bufferId) hmarked
            have hzero := (h.waits bufferId hwaits).2
            omega
          · intro hsafe id hin _
            rw [List.mem_singleton.mp hin]
            exact h.gone bufferId hmarked (hsafe hport)
        · intro hsafe
          refine ⟨h.output, (h.numbered.setUsed false).congr rfl fun _ => rfl, fun j id hj => ?_,
            h.ports, h.slots, h.nOutputs, h.once, fun id hwaits => ?_, fun id hstill hne => ?_⟩
          · exact h.valid j id ((idAt_setUsed false).symm.trans hj)
          · obtain ⟨hbefore, hzero⟩ := h.waits id hwaits
            exact ⟨(hmarks id).mpr ⟨hbefore, fun hsame => hsafe hport (hsame ▸ hwaits)⟩, hzero⟩
          · exact h.gone id ((hmarks id).mp hstill).1 hne
    · have heq : s.client.handleRtnodeEvent (.reuseBuffer portId bufferId) = s.client :=
        if_pos hport
      have hback : s.client.givenBack (.reuseBuffer portId bufferId) = [] :=
        if_neg fun hboth => hport hboth.1
      rw [heq, hback]
      refine ⟨iff_of_true (fun id hid => absurd hid List.not_mem_nil) fun hsame => absurd hsame hport,
        fun _ => ?_⟩
      exact ⟨h.output, h.numbered, h.valid, h.ports, h.slots, h.nOutputs, h.once, h.waits, h.gone⟩

theorem Right.of_inv {op : OutputOp} (hback : ∀ id ∈ s.putBack op, s.takes id = 1)
    (hnext : (s.step op).Inv)
    (hkept : ∀ sent room id, op = .send sent room → s.pending = some id →
      (s.step op).pending = some id) : s.Right op :=
  ⟨hback, hnext.once, hkept⟩

theorem Inv.client_iff (h : s.Inv) :
    (s.Right .handleClient ↔ s.Safe .handleClient) ∧
      (s.Safe .handleClient → (s.step .handleClient).Inv) := by
  have hkept : ∀ sent room id, OutputOp.handleClient = .send sent room → s.pending = some id →
      (s.step .handleClient).pending = some id := fun _ _ _ hop => by cases hop
  cases hring : s.ring with
  | nil =>
    have hnext : (s.step .handleClient).Inv := by
      rw [step, hring]
      exact h
    exact ⟨iff_of_true (.of_inv (by simp [putBack, hring]) hnext hkept) (by simp [Safe, hring]),
      fun _ => hnext⟩
  | cons event ring =>
    have hsafe : s.Safe .handleClient ↔ s.SafeClient event := by simp [Safe, hring]
    have hback : (∀ id ∈ s.putBack .handleClient, s.takes id = 1) ↔
        ∀ id ∈ s.client.givenBack event, Marked s.client id → s.takes id = 1 := by
      simp [putBack, hring]
    have hnext : s.Safe .handleClient → (s.step .handleClient).Inv := by
      intro hok
      rw [step, hring]
      exact (h.handleClient event ring).2 (hsafe.mp hok)
    have hiff := (h.handleClient event ring).1
    rw [← hback, ← hsafe] at hiff
    exact ⟨⟨fun hall => hiff.mp hall.back, fun hok => .of_inv (hiff.mpr hok) (hnext hok) hkept⟩,
      hnext⟩

theorem Inv.server_iff (h : s.Inv) (reused : Option UInt32) (room : TransportEvent → Bool) :
    (s.Right (.handleServer reused room) ↔ s.Safe (.handleServer reused room)) ∧
      (s.Safe (.handleServer reused room) → (s.step (.handleServer reused room)).Inv) := by
  have hback : ∀ id ∈ s.putBack (.handleServer reused room), s.takes id = 1 :=
    fun _ hid => absurd hid List.not_mem_nil
  have hkept : ∀ sent room' id, OutputOp.handleServer reused room = .send sent room' →
      s.pending = some id → (s.step (.handleServer reused room)).pending = some id :=
    fun _ _ _ hop => by cases hop
  cases hadded : s.client.trans.added with
  | nil =>
    have hnext : (s.step (.handleServer reused room)).Inv := by
      rw [step, hadded]
      exact h
    exact ⟨iff_of_true (.of_inv hback hnext hkept) (by simp [Safe, hadded]), fun _ => hnext⟩
  | cons event added =>
    have hread := h.withAdded added
    have hstep : s.step (.handleServer reused room) = handleNodeEvent
        { s with client := { s.client with trans := { s.client.trans with added := added } } }
        reused room event := by
      rw [step, hadded]
    by_cases hevent : event = .haveOutput
    · obtain ⟨honce, hnext⟩ := hread.haveOutput reused room
      rw [← hevent, ← hstep] at honce hnext
      have hsafe : s.Safe (.handleServer reused room) ↔ s.pending = none := by
        simp [Safe, hadded, hevent]
      rw [hsafe]
      exact ⟨⟨fun hall => honce.mp hall.once, fun hnone => .of_inv hback (hnext hnone) hkept⟩, hnext⟩
    · have hnext : (s.step (.handleServer reused room)).Inv := by
        rw [hstep]
        cases event with
        | haveOutput => exact absurd rfl hevent
        | needInput => exact hread
        | reuseBuffer portId bufferId => exact hread
      exact ⟨iff_of_true (.of_inv hback hnext hkept) (by simp [Safe, hadded, hevent]),
        fun _ => hnext⟩

/-- A step does right exactly when it is safe, and keeps the invariant. -/
theorem Inv.step_iff (h : s.Inv) (op : OutputOp) :
    (s.Right op ↔ s.Safe op) ∧ (s.Safe op → (s.step op).Inv) := by
  have hnothing : ∀ {ids : List UInt32}, ids = [] → ∀ id ∈ ids, s.takes id = 1 :=
    fun hnil id hid => absurd (hnil ▸ hid) List.not_mem_nil
  cases op with
  | send id room =>
    have hnext := h.send id room
    refine ⟨iff_of_true (.of_inv (hnothing rfl) hnext ?_) trivial, fun _ => hnext⟩
    intro sent room' id' hop hwaits
    cases hsends : s.client.sends id with
    | false =>
      rw [step, sendBuffer_of_not_sends hsends]
      exact hwaits
    | true =>
      rw [sends_pending hsends] at hwaits
      cases hwaits
  | handleClient => exact h.client_iff
  | needBufferDone =>
    have hnext : (s.step .needBufferDone).Inv :=
      ⟨h.output, ⟨h.numbered.distinct, h.numbered.ordered⟩, h.valid, h.ports, h.slots, h.nOutputs,
        h.once, h.waits, h.gone⟩
    exact ⟨iff_of_true (.of_inv (hnothing rfl) hnext fun _ _ _ hop => by cases hop) trivial,
      fun _ => hnext⟩
  | handleServer reused room => exact h.server_iff reused room
  | pull io room =>
    have hnext := (h.exchange room (s.proxy.setOutputs io) (exists_map_outPorts h.ports _)).1
    exact ⟨iff_of_true (.of_inv (hnothing rfl) hnext fun _ _ _ hop => by cases hop) trivial,
      fun _ => hnext⟩
  | reuse id =>
    have hnext := h.withProxy (s.proxy.reuseBuffer id) (exists_map_outPorts h.ports _)
    exact ⟨iff_of_true (.of_inv (hnothing rfl) hnext fun _ _ _ hop => by cases hop) trivial,
      fun _ => hnext⟩

/-! ## Runs -/

/-- An output stream that has not sent any of its buffers. -/
structure Unsent (stream : PinosStream) : Prop where
  output : stream.output = true
  numbered : stream.Numbered
  valid : ∀ i id, stream.idAt i = some id → id ≠ spaIdInvalid
  unused : ∀ i, stream.used i = false
  trans : stream.trans = .new 0 1

section Start

variable {types : StreamTypes} {mmap : MemId → Option UInt64} {stream stream' : PinosStream}

theorem Unsent.addMems (h : Unsent stream) (hnone : stream.bufferIds = []) (mems : List MemId) :
    Unsent (mems.foldl addMem stream) ∧ (mems.foldl addMem stream).bufferIds = [] := by
  induction mems generalizing stream with
  | nil => exact ⟨h, hnone⟩
  | cons mem mems ih =>
    obtain ⟨memIds, heq⟩ := stream.addMem_eq mem
    rw [List.foldl_cons, heq]
    exact ih ⟨h.output, ⟨h.numbered.distinct, h.numbered.ordered⟩, h.valid, h.unused, h.trans⟩ hnone

theorem Unsent.addBuffer (h : Unsent stream) {bid : BufferId}
    (hnew : bid.id ∉ stream.bufferIds.map BufferId.id) (hvalid : bid.id ≠ spaIdInvalid)
    (hunused : bid.used = false) : Unsent (stream.addBuffer bid) where
  output := h.output
  numbered := h.numbered.addBuffer hnew
  valid i id hi := by
    rw [idAt_addBuffer] at hi
    split at hi
    · exact Option.some.inj hi ▸ hvalid
    · exact h.valid i id hi
  unused i := by
    rw [used_addBuffer]
    split
    · exact hunused
    · exact h.unused i
  trans := h.trans

theorem Unsent.useBuffers {buffers : List PinosClientNodeBuffer} (h : Unsent stream)
    (hrun : buffers.foldlM (useBuffer types mmap) stream = some stream')
    (hnew : (stream.bufferIds.map BufferId.id ++ buffers.map PinosClientNodeBuffer.id).Nodup)
    (hvalid : ∀ b ∈ buffers, b.id ≠ spaIdInvalid) : Unsent stream' := by
  induction buffers generalizing stream with
  | nil =>
    cases hrun
    exact h
  | cons b buffers ih =>
    rw [List.foldlM_cons] at hrun
    obtain ⟨next, hone, hrest⟩ := Option.bind_eq_some_iff.mp hrun
    have hothers : ∀ b ∈ buffers, b.id ≠ spaIdInvalid :=
      fun b' hb' => hvalid b' (List.mem_cons_of_mem b hb')
    rw [List.map_cons] at hnew
    obtain ⟨-, rfl⟩ | ⟨-, mems, bid, hid, hused, rfl, -⟩ := useBuffer_cases hone
    · exact ih h hrest (hnew.sublist (List.Sublist.append_left (List.sublist_cons_self _ _) _)) hothers
    · have hmems : Unsent { stream with memIds := mems } :=
        ⟨h.output, ⟨h.numbered.distinct, h.numbered.ordered⟩, h.valid, h.unused, h.trans⟩
      have hout : bid.id ∉ stream.bufferIds.map BufferId.id := by
        intro hin
        rw [hid] at hin
        exact (List.nodup_append.mp hnew).2.2 _ hin _ List.mem_cons_self rfl
      have hunused : bid.used = false := by
        rw [hused, h.output]
        rfl
      refine ih (hmems.addBuffer hout (hid ▸ hvalid b List.mem_cons_self) hunused) hrest ?_ hothers
      show ((stream.bufferIds ++ [bid]).map BufferId.id ++ _).Nodup
      rw [List.map_append, List.append_assoc, List.map_singleton, hid]
      exact hnew

theorem inv_start (h : Unsent stream) : (start stream).Inv := by
  have hunmarked : ∀ id, ¬ Marked stream id := by
    intro id hmarked
    obtain ⟨i, -, -, hused⟩ := hmarked
    rw [h.unused i] at hused
    cases hused
  have hpending : (start stream).pending = none := by
    show stream.trans.outputs.head?.bind SpaPortIO.buffer? = none
    rw [h.trans]
    rfl
  refine ⟨h.output, h.numbered, h.valid, ⟨.empty, rfl⟩, ⟨.empty, ?_⟩, ?_, fun _ => Nat.zero_le 1,
    fun id hsome => ?_, fun id hmarked => absurd hmarked (hunmarked id)⟩
  · show stream.trans.outputs = _
    rw [h.trans]
    rfl
  · show stream.trans.nOutputs = 1
    rw [h.trans]
    rfl
  · rw [hpending] at hsome
    cases hsome

end Start

end OutputSlot
end Pinos
