import Mathlib.Data.List.Basic
import Pinos.Server.ClientNode

/-
`server/node.c`: how buffers move between the ports of nodes, and come back.

The io of an output port has the buffer that the producer has put there, until it has the
id of one that can be used again.  Whatever it has when the producer processes its output
goes back to the producer.
-/

namespace Pinos

/-- How a node processes its output: `spa_proxy_node_process_output` or
`spa_v4l2_source_node_process_output`. -/
inductive Producer where
  | clientNode
  | v4l2Source
  deriving DecidableEq

/-- Nodes, their ports and the links between these; an input port has one link at most. -/
structure NodeGraph where
  producer : Nat → Producer
  outputPorts : Nat → List Nat
  inputPorts : Nat → List Nat
  outputNode : Nat → Nat
  portId : Nat → UInt32
  outputLinks : Nat → List Nat
  inputLink : Nat → Option Nat
  outputNode_of_mem : ∀ n p, p ∈ outputPorts n → outputNode p = n
  mem_outputLinks : ∀ p q, q ∈ outputLinks p ↔ inputLink q = some p

/-- What is left to be done of a call of `on_node_have_output` or `do_pull`. -/
inductive NodeWork where
  /-- The turn of the loop for an output port. -/
  | output (p : Nat)
  | deliver (p q : Nat)
  | settle (p : Nat)
  | processOutput (n : Nat)
  /-- The turn of the loop for an input port. -/
  | input (q : Nat)
  | pull (p q : Nat)
  deriving DecidableEq

/-- The io of all ports, the slots of the output ports of client nodes, and the calls that
are going on. -/
structure NodeFlow where
  outputs : Nat → SpaPortIO
  inputs : Nat → SpaPortIO
  slots : Nat → SpaPortIO
  calls : List (List NodeWork)

namespace NodeFlow

def empty : NodeFlow where
  outputs _ := .empty
  inputs _ := .empty
  slots _ := .empty
  calls := []

def setOutput (s : NodeFlow) (p : Nat) (io : SpaPortIO) : NodeFlow :=
  { s with outputs := fun p' => if p' = p then io else s.outputs p' }

def setInput (s : NodeFlow) (q : Nat) (io : SpaPortIO) : NodeFlow :=
  { s with inputs := fun q' => if q' = q then io else s.inputs q' }

variable (g : NodeGraph)

/-- The buffer that goes back to the producer of a port when its node processes output. -/
def returned (s : NodeFlow) (p : Nat) : Option UInt32 :=
  match g.producer (g.outputNode p) with
  | .clientNode => (s.outputs p).buffer?
  | .v4l2Source =>
    if (s.outputs p).status = .haveBuffer then none else (s.outputs p).buffer?

/-- `spa_node_process_output`. -/
def processOutput (s : NodeFlow) (n : Nat) : NodeFlow :=
  match g.producer n with
  | .clientNode =>
    { s with
      outputs := fun p => if p ∈ g.outputPorts n then s.slots p else s.outputs p
      slots := fun p => if p ∈ g.outputPorts n then (s.outputs p).clear else s.slots p }
  | .v4l2Source =>
    { s with
      outputs := fun p =>
        if p ∈ g.outputPorts n ∧ (s.outputs p).status ≠ .haveBuffer then (s.outputs p).clear
        else s.outputs p }

/-- A producer puts a buffer where it goes: the device in the io, a client in its slot. -/
def produce (s : NodeFlow) (p : Nat) (id : UInt32) : NodeFlow :=
  match g.producer (g.outputNode p) with
  | .clientNode =>
    { s with slots := fun p' => if p' = p then ⟨.haveBuffer, id⟩ else s.slots p' }
  | .v4l2Source => s.setOutput p ⟨.haveBuffer, id⟩

/-- `handle_node_event` copies the slots of a client. -/
def copySlots (s : NodeFlow) (n : Nat) : NodeFlow :=
  match g.producer n with
  | .clientNode =>
    { s with outputs := fun p => if p ∈ g.outputPorts n then s.slots p else s.outputs p }
  | .v4l2Source => s

/-- `on_node_have_output` is called. -/
def onNodeHaveOutput (s : NodeFlow) (n : Nat) : NodeFlow :=
  { s.copySlots g n with
    calls := ((g.outputPorts n).map .output ++ [.processOutput n]) :: s.calls }

/-- `on_node_need_input` is called when the node has written the io of its input ports. -/
def onNodeNeedInput (s : NodeFlow) (m : Nat) (ios : Nat → SpaPortIO) : NodeFlow :=
  { s with
    inputs := fun q => if q ∈ g.inputPorts m then ios q else s.inputs q
    calls := (g.inputPorts m).map .input :: s.calls }

/-- `on_node_reuse_buffer`; the id of the port is not looked at. -/
def onNodeReuseBuffer (s : NodeFlow) (m : Nat) (bufferId : UInt32) : NodeFlow :=
  { s with
    outputs := fun p =>
      if ∃ q ∈ g.inputPorts m, g.inputLink q = some p then { s.outputs p with bufferId := bufferId }
      else s.outputs p }

/-- `*po = *pi`, and the input port has no buffer any more. -/
def copyBack (s : NodeFlow) (p q : Nat) : NodeFlow :=
  (s.setOutput p (s.inputs q)).setInput q (s.inputs q).clear

/-- `*pi = *po`. -/
def deliver (s : NodeFlow) (p q : Nat) : NodeFlow := s.setInput q (s.outputs p)

/-- The port is pulled: only a client has a buffer then, as the io does not say so to the
device. -/
def pull (s : NodeFlow) (p q : Nat) : NodeFlow :=
  let s := (s.copyBack p q).processOutput g (g.outputNode p)
  match g.producer (g.outputNode p) with
  | .clientNode => s.deliver p q
  | .v4l2Source => s

/-- One piece of work, and what it leaves to be done. -/
def perform (s : NodeFlow) : NodeWork → NodeFlow × List NodeWork
  | .output p =>
    if (s.outputs p).bufferId = spaIdInvalid then (s, [])
    else (s, (g.outputLinks p).map (.deliver p) ++ [.settle p])
  | .deliver p q => (s.deliver p q, [])
  | .settle p => (s.setOutput p { s.outputs p with status := .needBuffer }, [])
  | .processOutput n => (s.processOutput g n, [])
  | .input q =>
    if (s.inputs q).status ≠ .needBuffer then (s, [])
    else (s, (g.inputLink q).toList.map (.pull · q))
  | .pull p q => (s.pull g p q, [])

/-- The next piece of work of a call. -/
def next (s : NodeFlow) (i : Nat) : Option NodeWork := s.calls[i]?.bind List.head?

/-- A call goes on. -/
def proceed (s : NodeFlow) (i : Nat) : NodeFlow :=
  match s.calls[i]? with
  | some (work :: rest) =>
    let done := s.perform g work
    { done.1 with calls := s.calls.set i (done.2 ++ rest) }
  | _ => s

end NodeFlow
end Pinos
