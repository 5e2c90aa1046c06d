import Pinos.Spa.Defs

/-
The shared area of a transport (`client/transport.h`): a slot for the io of each port,
which both sides read and write, and the events that they send each other.
-/

namespace Pinos

/-- `SpaPortIO`. -/
structure SpaPortIO where
  status : SpaResult
  bufferId : UInt32
  deriving DecidableEq

namespace SpaPortIO

/-- The io of a port that has no buffer. -/
def empty : SpaPortIO := ⟨.ok, spaIdInvalid⟩

/-- The buffer of a slot, unless its id is `SPA_ID_INVALID`. -/
def buffer? (io : SpaPortIO) : Option UInt32 :=
  if io.bufferId = spaIdInvalid then none else some io.bufferId

/-- The slot without its buffer. -/
def clear (io : SpaPortIO) : SpaPortIO := { io with bufferId := spaIdInvalid }

@[simp] theorem buffer?_clear (io : SpaPortIO) : io.clear.buffer? = none := if_pos rfl

@[simp] theorem buffer?_empty : empty.buffer? = none := if_pos rfl

theorem buffer?_eq_none {io : SpaPortIO} : io.buffer? = none ↔ io.bufferId = spaIdInvalid := by
  by_cases h : io.bufferId = spaIdInvalid
  · simp [buffer?, h]
  · simp [buffer?, h]

theorem buffer?_eq_some {io : SpaPortIO} {id : UInt32} :
    io.buffer? = some id ↔ io.bufferId = id ∧ id ≠ spaIdInvalid := by
  by_cases h : io.bufferId = spaIdInvalid
  · rw [buffer?, if_pos h]
    exact iff_of_false (fun hsome => by cases hsome) fun hid => hid.2 (hid.1 ▸ h)
  · rw [buffer?, if_neg h, Option.some.injEq]
    exact ⟨fun hid => ⟨hid, hid ▸ h⟩, fun hid => hid.1⟩

end SpaPortIO

/-- The events of a transport. -/
inductive TransportEvent where
  | haveOutput
  | needInput
  | reuseBuffer (portId bufferId : UInt32)
  deriving DecidableEq

/-- A transport with the numbers of ports in its area, their slots, and the events that
this side has added to its ring. -/
structure PinosTransport where
  nInputs : Nat
  nOutputs : Nat
  inputs : List SpaPortIO
  outputs : List SpaPortIO
  added : List TransportEvent
  deriving DecidableEq

namespace PinosTransport

/-- A transport with all its ports. -/
def new (nInputs nOutputs : Nat) : PinosTransport where
  nInputs := nInputs
  nOutputs := nOutputs
  inputs := List.replicate nInputs .empty
  outputs := List.replicate nOutputs .empty
  added := []

/-- `pinos_transport_add_event`; without room in the ring the event is lost. -/
def addEvent (t : PinosTransport) (event : TransportEvent) (room : Bool) : PinosTransport :=
  if room then { t with added := t.added ++ [event] } else t

/-- The buffers in the first `n` slots. -/
def buffers (n : Nat) (slots : List SpaPortIO) : List UInt32 :=
  (slots.take n).filterMap SpaPortIO.buffer?

/-- The slots when the first `n` have been emptied. -/
def cleared (n : Nat) (slots : List SpaPortIO) : List SpaPortIO :=
  (slots.take n).map SpaPortIO.clear ++ slots.drop n

theorem length_cleared (n : Nat) (slots : List SpaPortIO) :
    (cleared n slots).length = slots.length := by
  rw [cleared, List.length_append, List.length_map, ← List.length_append, List.take_append_drop]

theorem take_cleared (n : Nat) (slots : List SpaPortIO) :
    (cleared n slots).take n = (slots.take n).map SpaPortIO.clear := by
  rw [cleared, List.take_append, List.length_map, List.length_take]
  rcases Nat.le_total n slots.length with hle | hle
  · rw [Nat.min_eq_left hle, Nat.sub_self, List.take_zero, List.append_nil, List.take_of_length_le]
    rw [List.length_map]
    exact List.length_take_le n slots
  · rw [List.drop_of_length_le hle, List.take_nil, List.append_nil, List.take_of_length_le]
    rw [List.length_map]
    exact List.length_take_le n slots

/-- A slot that has been emptied has no buffer. -/
theorem buffers_cleared (n : Nat) (slots : List SpaPortIO) : buffers n (cleared n slots) = [] := by
  rw [buffers, take_cleared, List.filterMap_map, List.filterMap_eq_nil_iff]
  exact fun io _ => io.buffer?_clear

end PinosTransport
end Pinos
