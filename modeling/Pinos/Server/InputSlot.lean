import Pinos.Client.StreamBuffers
import Pinos.Lib.Entries
import Pinos.Lib.Run
import Pinos.Server.ClientNode

/-
Runs of a client node with input ports and of its stream, which reads the slots.

Each call of `process_input` copies the io of all ports to their slots, the io that it has
copied before and the slots that have not been read included.
-/

namespace Pinos

open Entries

/-- Buffers arrive in the io of some ports, and the node processes its input; a port is
pulled; the stream handles the next event. -/
inductive InputOp where
  | deliver (arrived : List (Option SpaPortIO)) (room : Bool)
  | pull (port : Nat)
  | handle

/-- A proxy, its stream and the events on their way to it, with the buffers that were
delivered on each port and those that the stream has reported. -/
structure InputSlots where
  proxy : SpaProxy
  client : PinosStream
  ring : List TransportEvent
  delivered : List (Nat × UInt32)
  reported : List (Nat × UInt32)

namespace InputSlots

/-- The ports that are there have an io, and the stream reads the first `n` slots. -/
def start (ports : List Bool) (n : Nat) : InputSlots where
  proxy := ⟨ports.map fun present => if present then some .empty else none, []⟩
  client :=
    { PinosStream.configured false with
      trans := ⟨n, 0, ports.map fun _ => .empty, [], []⟩ }
  ring := []
  delivered := []
  reported := []

/-- The io of the ports when buffers have arrived. -/
def arrive (s : InputSlots) (arrived : List (Option SpaPortIO)) : List (Option SpaPortIO) :=
  s.proxy.inPorts.mapIdx fun i port => port.map fun io => (entry arrived i).getD io

/-- The buffers that arrive. -/
def arrivals (s : InputSlots) (arrived : List (Option SpaPortIO)) : List (Option UInt32) :=
  s.proxy.inPorts.mapIdx fun i port =>
    port.bind fun _ => (entry arrived i).bind SpaPortIO.buffer?

/-- The buffers in the slots that the stream reads. -/
def pending (s : InputSlots) : List (Option UInt32) :=
  (s.client.trans.inputs.take s.client.trans.nInputs).map SpaPortIO.buffer?

def step (s : InputSlots) : InputOp → InputSlots
  | .deliver arrived room =>
    let proxy := { s.proxy with inPorts := s.arrive arrived }
    let done := proxy.processInput { s.client.trans with added := s.ring } room
    { s with
      proxy := done.1
      client := { s.client with trans := s.client.trans.withSlots done.2 }
      ring := done.2.added
      delivered := s.delivered ++ entries (s.arrivals arrived) }
  | .pull port =>
    { s with
      proxy :=
        { s.proxy with inPorts := s.proxy.inPorts.modify port (Option.map SpaPortIO.clear) } }
  | .handle =>
    match s.ring with
    | [] => s
    | event :: ring =>
      { s with
        client := s.client.handleRtnodeEvent event
        ring := ring
        reported := if event = .haveOutput then s.reported ++ entries s.pending else s.reported }

/-- On every port, what was delivered is what was reported and then what waits in the slot,
and an event is on its way for what waits. -/
structure Right (s : InputSlots) : Prop where
  heard : s.client.emitted = s.reported.map fun p => .newBuffer p.2
  told : entries s.pending ≠ [] → s.ring ≠ []
  each : ∀ i, s.delivered.filter (·.1 = i) =
    (s.reported ++ entries s.pending).filter (·.1 = i)

/-- The same in one order for all ports. -/
structure InOrder (s : InputSlots) : Prop where
  right : s.Right
  order : s.delivered = s.reported ++ entries s.pending

/-- The slot of a port on which a buffer arrives is read by the stream, and is empty; the
slots of the others have what is in their io; and the stream is told. -/
def Safe (s : InputSlots) : InputOp → Prop
  | .deliver arrived room =>
    (∀ i, match entry (s.arrivals arrived) i with
      | some _ => i < s.client.trans.nInputs ∧ entry s.pending i = none
      | none => ∀ io, i < s.client.trans.nInputs → entry (s.arrive arrived) i = some io →
        io.buffer? = entry s.pending i) ∧
      (entries (s.arrivals arrived) ≠ [] → room = true ∨ s.ring ≠ [])
  | _ => True

/-- Buffers arrive on ports behind those that have one in their slot. -/
def Behind (s : InputSlots) : InputOp → Prop
  | .deliver arrived _ =>
    ∀ p ∈ entries s.pending, ∀ q ∈ entries (s.arrivals arrived), p.1 < q.1
  | _ => True

/-! ## The slots after a step -/

structure Inv (s : InputSlots) : Prop where
  slots : s.client.trans.inputs.length = s.proxy.inPorts.length
  ring : ∀ event ∈ s.ring, event = .haveOutput
  right : s.Right

variable {s : InputSlots} {arrived : List (Option SpaPortIO)} {room : Bool} {i : Nat}

theorem entry_pending : entry s.pending i =
    if i < s.client.trans.nInputs then s.client.trans.inputs[i]?.bind SpaPortIO.buffer? else none := by
  rw [entry, pending, List.getElem?_map, List.getElem?_take]
  split
  · cases s.client.trans.inputs[i]? <;> rfl
  · rfl

theorem entry_arrive : entry (s.arrive arrived) i =
    (entry s.proxy.inPorts i).map fun io => (entry arrived i).getD io := by
  rw [entry, arrive, List.getElem?_mapIdx]
  cases hport : s.proxy.inPorts[i]? <;> simp [entry, hport]

theorem entry_arrivals : entry (s.arrivals arrived) i =
    (entry s.proxy.inPorts i).bind fun _ => (entry arrived i).bind SpaPortIO.buffer? := by
  rw [entry, arrivals, List.getElem?_mapIdx]
  cases hport : s.proxy.inPorts[i]? <;> simp [entry, hport]

theorem lt_of_entry_arrive {io : SpaPortIO} (h : entry (s.arrive arrived) i = some io) :
    i < s.proxy.inPorts.length := by
  rw [entry_arrive] at h
  obtain ⟨io', hio', -⟩ := Option.map_eq_some_iff.mp h
  exact (List.getElem?_eq_some_iff.mp (Option.join_eq_some_iff.mp hio')).1

/-- The slots that the stream reads have the io of their ports. -/
theorem entry_pending_deliver (h : s.Inv) : entry (s.step (.deliver arrived room)).pending i =
    if i < s.client.trans.nInputs then
      match entry (s.arrive arrived) i with
      | some io => io.buffer?
      | none => entry s.pending i
    else none := by
  have hinputs : (s.step (.deliver arrived room)).client.trans.inputs =
      s.client.trans.inputs.mapIdx fun i slot => (entry (s.arrive arrived) i).getD slot := by
    cases room <;> rfl
  have hn : (s.step (.deliver arrived room)).client.trans.nInputs = s.client.trans.nInputs := rfl
  rw [entry_pending, entry_pending, hn, hinputs, List.getElem?_mapIdx]
  split
  · cases hio : entry (s.arrive arrived) i with
    | none => cases s.client.trans.inputs[i]? <;> rfl
    | some io =>
      have hlt : i < s.client.trans.inputs.length := h.slots.symm ▸ lt_of_entry_arrive hio
      rw [List.getElem?_eq_getElem hlt]
      rfl
  · rfl

theorem ring_deliver : (s.step (.deliver arrived room)).ring =
    if room then s.ring ++ [.haveOutput] else s.ring := by
  cases room <;> rfl

/-- What waits in the slots is what waited and what has arrived if and only if the slots
are as they have to be. -/
theorem toList_pending_deliver (h : s.Inv) :
    (∀ i, (entry (s.step (.deliver arrived room)).pending i).toList =
      (entry s.pending i).toList ++ (entry (s.arrivals arrived) i).toList) ↔
    ∀ i, match entry (s.arrivals arrived) i with
      | some _ => i < s.client.trans.nInputs ∧ entry s.pending i = none
      | none => ∀ io, i < s.client.trans.nInputs → entry (s.arrive arrived) i = some io →
        io.buffer? = entry s.pending i := by
  refine forall_congr' fun i => ?_
  rw [entry_pending_deliver h]
  by_cases hlt : i < s.client.trans.nInputs
  · rw [if_pos hlt]
    cases harrival : entry (s.arrivals arrived) i with
    | none =>
      cases hio : entry (s.arrive arrived) i with
      | none => simp
      | some io => cases io.buffer? <;> cases entry s.pending i <;> simp [hlt]
    | some id =>
      rw [entry_arrivals, Option.bind_eq_some_iff] at harrival
      obtain ⟨io, hport, hbuffer⟩ := harrival
      obtain ⟨io', hio', hbuffer⟩ := Option.bind_eq_some_iff.mp hbuffer
      rw [entry_arrive, hport, hio']
      cases hpending : entry s.pending i with
      | none => simp [hbuffer, hlt]
      | some id' => simp [hbuffer]
  · rw [if_neg hlt]
    have hnone : entry s.pending i = none := by rw [entry_pending, if_neg hlt]
    cases entry (s.arrivals arrived) i with
    | none => simp [hlt, hnone]
    | some id => simp [hlt, hnone]

/-! ## Runs -/

theorem map_snd_pending : (entries s.pending).map Prod.snd =
    PinosTransport.buffers s.client.trans.nInputs s.client.trans.inputs := by
  rw [map_snd_entries, pending, List.filterMap_map]
  rfl

/-- The stream reports what waits in the slots and leaves them empty. -/
theorem Inv.handle (h : s.Inv) : (s.step .handle).Inv ∧
    (s.step .handle).delivered = s.delivered ∧
    (s.step .handle).reported ++ entries (s.step .handle).pending =
      s.reported ++ entries s.pending := by
  unfold step
  cases hring : s.ring with
  | nil => exact ⟨h, rfl, rfl⟩
  | cons event ring =>
    obtain rfl : event = .haveOutput := h.ring event (hring ▸ List.mem_cons_self)
    let s' : InputSlots :=
      { s with
        client := s.client.handleRtnodeEvent .haveOutput
        ring := ring
        reported := s.reported ++ entries s.pending }
    have hempty : entries s'.pending = [] := by
      apply List.map_eq_nil_iff.mp
      rw [map_snd_pending]
      exact PinosTransport.buffers_cleared _ _
    have hinv : s'.Inv := by
      refine ⟨?_, fun event hevent => h.ring event (hring ▸ List.mem_cons_of_mem _ hevent), ?_, ?_, ?_⟩
      · rw [← h.slots]
        exact PinosTransport.length_cleared _ _
      · show s.client.emitted ++ (PinosTransport.buffers _ _).map .newBuffer = _
        rw [h.right.heard, ← map_snd_pending, List.map_append, List.map_map]
        rfl
      · exact fun hnot => absurd hempty hnot
      · rw [hempty, List.append_nil]
        exact h.right.each
    exact ⟨hinv, rfl, (congrArg (s'.reported ++ ·) hempty).trans (List.append_nil _)⟩

theorem Inv.pull (h : s.Inv) (port : Nat) : (s.step (.pull port)).Inv where
  slots := by
    show s.client.trans.inputs.length = (s.proxy.inPorts.modify port _).length
    rw [List.length_modify]
    exact h.slots
  ring := h.ring
  right := ⟨h.right.heard, h.right.told, h.right.each⟩

/-- What is delivered is reported or waits if and only if it is safe to deliver it. -/
theorem Inv.deliver_iff (h : s.Inv) :
    (s.step (.deliver arrived room)).Right ↔ s.Safe (.deliver arrived room) := by
  have heach : (∀ i, (s.step (.deliver arrived room)).delivered.filter (·.1 = i) =
      ((s.step (.deliver arrived room)).reported ++
        entries (s.step (.deliver arrived room)).pending).filter (·.1 = i)) ↔
      ∀ i, (entry (s.step (.deliver arrived room)).pending i).toList =
        (entry s.pending i).toList ++ (entry (s.arrivals arrived) i).toList := by
    refine forall_congr' fun i => ?_
    show (s.delivered ++ entries (s.arrivals arrived)).filter _ =
      (s.reported ++ entries (s.step (.deliver arrived room)).pending).filter _ ↔ _
    rw [List.filter_append, h.right.each i, ← List.filter_append, List.append_assoc, List.filter_append,
      List.filter_append, List.filter_append, List.append_cancel_left_eq, filter_entries, filter_entries,
      filter_entries, ← List.map_append, (List.map_injective_iff.mpr (Prod.mk_right_injective i)).eq_iff]
    exact eq_comm
  have hevents : (s.step (.deliver arrived room)).ring ≠ [] ↔ room = true ∨ s.ring ≠ [] := by
    rw [ring_deliver]
    cases room <;> simp
  constructor
  · intro hright
    have heach := heach.mp hright.each
    refine ⟨(toList_pending_deliver h).mp heach, fun harrivals => hevents.mp (hright.told fun hnil => ?_)⟩
    apply harrivals
    rw [entries_eq_nil] at hnil ⊢
    intro i
    have hplace := heach i
    rw [hnil] at hplace
    exact Option.toList_eq_nil_iff.mp (List.append_eq_nil_iff.mp hplace.symm).2
  · rintro ⟨hslots, htold⟩
    have hsame := (@toList_pending_deliver s arrived room h).mpr hslots
    refine ⟨h.right.heard, fun hwaits => hevents.mpr ?_, heach.mpr hsame⟩
    by_contra hnot
    have hring : s.ring = [] := by
      by_contra hring
      exact hnot (.inr hring)
    have harrivals : entries (s.arrivals arrived) = [] := by
      by_contra harrivals
      exact hnot (htold harrivals)
    have hpending : entries s.pending = [] := by
      by_contra hpending
      exact h.right.told hpending hring
    apply hwaits
    rw [entries_eq_nil] at harrivals hpending ⊢
    intro i
    have hplace := hsame i
    rw [harrivals, hpending] at hplace
    exact Option.toList_eq_nil_iff.mp hplace

theorem Inv.deliver (h : s.Inv) (hsafe : s.Safe (.deliver arrived room)) :
    (s.step (.deliver arrived room)).Inv where
  slots := by
    have hinputs : (s.step (.deliver arrived room)).client.trans.inputs.length =
        s.client.trans.inputs.length := by
      cases room <;> exact List.length_mapIdx
    have hports : (s.step (.deliver arrived room)).proxy.inPorts.length =
        s.proxy.inPorts.length := (List.length_map _).trans List.length_mapIdx
    rw [hinputs, hports]
    exact h.slots
  ring event hevent := by
    rw [ring_deliver] at hevent
    cases room with
    | false => exact h.ring event hevent
    | true => exact (List.mem_append.mp hevent).elim (h.ring event) List.mem_singleton.mp
  right := h.deliver_iff.mpr hsafe

theorem Inv.step_iff (h : s.Inv) (op : InputOp) :
    ((s.step op).Right ↔ s.Safe op) ∧ (s.Safe op → (s.step op).Inv) := by
  cases op with
  | deliver arrived room => exact ⟨h.deliver_iff, h.deliver⟩
  | pull port => exact ⟨iff_of_true (h.pull port).right trivial, fun _ => h.pull port⟩
  | handle => exact ⟨iff_of_true h.handle.1.right trivial, fun _ => h.handle.1⟩

/-- The order of all ports is kept if buffers arrive on ports behind those that wait. -/
theorem Inv.inOrder_iff (h : s.Inv) (horder : s.delivered = s.reported ++ entries s.pending)
    (op : InputOp) : (s.step op).InOrder ↔ s.Safe op ∧ s.Behind op := by
  have hright := (h.step_iff op).1
  cases op with
  | deliver arrived room =>
    have hsame : (s.step (.deliver arrived room)).delivered =
        (s.step (.deliver arrived room)).reported ++
          entries (s.step (.deliver arrived room)).pending ↔
        entries (s.step (.deliver arrived room)).pending =
          entries s.pending ++ entries (s.arrivals arrived) := by
      show s.delivered ++ entries (s.arrivals arrived) =
        s.reported ++ entries (s.step (.deliver arrived room)).pending ↔ _
      rw [horder, List.append_assoc, List.append_cancel_left_eq]
      exact eq_comm
    constructor
    · rintro ⟨hnow, hall⟩
      exact ⟨hright.mp hnow, (entries_eq_append.mp (hsame.mp hall)).2⟩
    · rintro ⟨hsafe, hbehind⟩
      refine ⟨hright.mpr hsafe, hsame.mpr (entries_eq_append.mpr ⟨?_, hbehind⟩)⟩
      exact (toList_pending_deliver h).mpr hsafe.1
  | pull port => exact iff_of_true ⟨(h.pull port).right, horder⟩ ⟨trivial, trivial⟩
  | handle =>
    obtain ⟨hinv, hdelivered, hsame⟩ := h.handle
    exact iff_of_true ⟨hinv.right, (hdelivered.trans horder).trans hsame.symm⟩ ⟨trivial, trivial⟩

theorem inv_start (ports : List Bool) (n : Nat) :
    (start ports n).Inv ∧
      (start ports n).delivered = (start ports n).reported ++ entries (start ports n).pending := by
  have hempty : entries (start ports n).pending = [] := by
    rw [entries_eq_nil]
    intro i
    rw [entry_pending]
    split
    · show ((ports.map fun _ => SpaPortIO.empty)[i]?).bind SpaPortIO.buffer? = none
      rw [List.getElem?_map]
      cases ports[i]? <;> rfl
    · rfl
  refine ⟨⟨?_, fun _ hevent => absurd hevent List.not_mem_nil, rfl, fun hnot => absurd hempty hnot,
    fun i => ?_⟩, ?_⟩
  · exact (List.length_map _).trans (List.length_map _).symm
  · rw [hempty]
    rfl
  · rw [hempty]
    rfl

/-- In every run what is delivered is reported once, on every port in its order, if and only
if each slot is empty when a buffer arrives and otherwise the same as the io of its port; and
in the order of all ports if and only if buffers also arrive behind those that wait. -/
theorem run_reports_iff (ports : List Bool) (n : Nat) (ops : List InputOp) :
    (Run.Along step (fun s op => (s.step op).Right) (start ports n) ops ↔
      Run.Along step Safe (start ports n) ops) ∧
    (Run.Along step (fun s op => (s.step op).InOrder) (start ports n) ops ↔
      Run.Along step (fun s op => s.Safe op ∧ s.Behind op) (start ports n) ops) := by
  obtain ⟨hinv, horder⟩ := inv_start ports n
  have hall : Run.Along step (fun _ _ => True) (start ports n) ops :=
    Run.along_of_forall fun _ _ => trivial
  constructor
  · exact Run.along_iff Inv (fun s op h _ => (h.step_iff op).1) (fun s op h _ => (h.step_iff op).2)
      hinv hall
  · refine Run.along_iff (fun s => s.Inv ∧ s.delivered = s.reported ++ entries s.pending)
      (fun s op h _ => h.1.inOrder_iff h.2 op) (fun s op h _ hok => ?_) ⟨hinv, horder⟩ hall
    exact ⟨(h.1.step_iff op).2 hok.1, ((h.1.inOrder_iff h.2 op).mpr hok).order⟩

/-- A buffer that arrives before the slot has been read takes the place of the other. -/
theorem not_run_reports :
    ¬ ∀ (ports : List Bool) (n : Nat) (ops : List InputOp),
      Run.Along step (fun s op => (s.step op).Right) (start ports n) ops := by
  intro h
  have hright := (h [true] 1 [.deliver [some ⟨.haveBuffer, 1⟩] true,
    .deliver [some ⟨.haveBuffer, 2⟩] true]).2.1
  exact absurd (hright.each 0) (by decide)

end InputSlots
end Pinos
