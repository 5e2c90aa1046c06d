import Mathlib.Logic.Function.Basic
import Pinos.Spa.Defs

/-
`server/node.h`, `server/port.h` and `server/link.h`: the nodes of the server, their ports
and the links between these.

Nodes, ports and links are numbered, and so are the blocks of memory: a pointer to a buffer
array is the number of the block that was allocated with it.
-/

namespace Pinos

inductive PinosDirection where
  | input
  | output
  deriving DecidableEq

inductive PinosPortState where
  | error
  | init
  | configure
  | ready
  | paused
  | streaming
  deriving DecidableEq

namespace PinosPortState

/-- The state in a `uint32_t`, as the functions of links compare it. -/
def bits : PinosPortState → UInt32
  | error => 0xFFFFFFFF
  | init => 0
  | configure => 1
  | ready => 2
  | paused => 3
  | streaming => 4

/-- The state as an enumeration, as the functions of ports compare it. -/
def value : PinosPortState → Int
  | error => -1
  | init => 0
  | configure => 1
  | ready => 2
  | paused => 3
  | streaming => 4

end PinosPortState

inductive PinosNodeState where
  | error
  | creating
  | suspended
  | idle
  | running
  deriving DecidableEq

def PinosNodeState.value : PinosNodeState → Int
  | error => -1
  | creating => 0
  | suspended => 1
  | idle => 2
  | running => 3

inductive PinosLinkState where
  | error
  | unlinked
  | init
  | negotiating
  | allocating
  | paused
  | running
  deriving DecidableEq

/-- The array of buffers and the memory behind it that `alloc_buffers` allocates. -/
structure BufferBlock where
  nBuffers : UInt32
  dataSize : UInt64
  dataStride : UInt64
  deriving DecidableEq

structure PinosPort where
  node : Nat
  direction : PinosDirection
  state : PinosPortState
  allocated : Bool
  bufferMem : Option Nat
  buffers : Option Nat
  nBuffers : UInt32
  links : List Nat
  rtLinks : List Nat
  /-- The array that the spa node has got last, and how many buffers. -/
  given : Option (Nat × UInt32)

structure PinosNode where
  state : PinosNodeState
  live : Bool
  dataLoop : Nat
  inputPorts : List Nat
  outputPorts : List Nat
  nUsedInputLinks : UInt32
  nUsedOutputLinks : UInt32
  /-- The work queue, with items for `on_state_complete`. -/
  work : List (SpaResult × PinosNodeState)

/-- The function of an item on the work queue of a link; the data is a port. -/
inductive LinkFunc where
  | checkStates
  | completeReady (port : Nat)
  | completePaused (port : Nat)
  | completeStreaming (port : Nat)
  deriving DecidableEq

/-- An item of the work queue of a link, for a node or the link itself. -/
structure LinkWork where
  node : Option Nat
  seq : UInt32
  res : SpaResult
  func : LinkFunc
  deriving DecidableEq

/-- What `pinos_work_queue_add` puts on the queue. -/
def LinkWork.new (node : Option Nat) (res : SpaResult) (func : LinkFunc) : LinkWork where
  node := node
  seq := if res.isAsync then res.asyncSeq else spaIdInvalid
  res := res
  func := func

inductive BufferOwner where
  | link
  | port (p : Nat)
  deriving DecidableEq

/-- `PinosLinkImpl`. -/
structure PinosLink where
  state : PinosLinkState
  /-- What the listeners of `state_changed` have been told. -/
  stateChanged : List PinosLinkState
  input : Option Nat
  output : Option Nat
  rtInput : Option Nat
  rtOutput : Option Nat
  bufferOwner : Option BufferOwner
  bufferMem : Option Nat
  buffers : Option Nat
  nBuffers : UInt32
  work : List LinkWork

structure Graph where
  nodes : Nat → PinosNode
  ports : Nat → PinosPort
  links : Nat → PinosLink
  /-- What has been allocated, and what of it freed. -/
  blocks : List BufferBlock
  freed : List Nat

namespace Graph

def modifyNode (g : Graph) (n : Nat) (f : PinosNode → PinosNode) : Graph :=
  { g with nodes := Function.update g.nodes n (f (g.nodes n)) }

def modifyPort (g : Graph) (p : Nat) (f : PinosPort → PinosPort) : Graph :=
  { g with ports := Function.update g.ports p (f (g.ports p)) }

def modifyLink (g : Graph) (l : Nat) (f : PinosLink → PinosLink) : Graph :=
  { g with links := Function.update g.links l (f (g.links l)) }

variable {g : Graph} {n p l i : Nat}

section Modify

variable {f : PinosNode → PinosNode}

@[simp] theorem nodes_modifyNode : (g.modifyNode n f).nodes n = f (g.nodes n) :=
  Function.update_self ..

theorem nodes_modifyNode_of_ne (h : i ≠ n) : (g.modifyNode n f).nodes i = g.nodes i :=
  Function.update_of_ne h ..

@[simp] theorem ports_modifyNode : (g.modifyNode n f).ports = g.ports := rfl
@[simp] theorem links_modifyNode : (g.modifyNode n f).links = g.links := rfl
@[simp] theorem blocks_modifyNode : (g.modifyNode n f).blocks = g.blocks := rfl
@[simp] theorem freed_modifyNode : (g.modifyNode n f).freed = g.freed := rfl

end Modify

section Modify

variable {f : PinosPort → PinosPort}

@[simp] theorem ports_modifyPort : (g.modifyPort p f).ports p = f (g.ports p) :=
  Function.update_self ..

theorem ports_modifyPort_of_ne (h : i ≠ p) : (g.modifyPort p f).ports i = g.ports i :=
  Function.update_of_ne h ..

@[simp] theorem nodes_modifyPort : (g.modifyPort p f).nodes = g.nodes := rfl
@[simp] theorem links_modifyPort : (g.modifyPort p f).links = g.links := rfl
@[simp] theorem blocks_modifyPort : (g.modifyPort p f).blocks = g.blocks := rfl
@[simp] theorem freed_modifyPort : (g.modifyPort p f).freed = g.freed := rfl

end Modify

section Modify

variable {f : PinosLink → PinosLink}

@[simp] theorem links_modifyLink : (g.modifyLink l f).links l = f (g.links l) :=
  Function.update_self ..

theorem links_modifyLink_of_ne (h : i ≠ l) : (g.modifyLink l f).links i = g.links i :=
  Function.update_of_ne h ..

@[simp] theorem nodes_modifyLink : (g.modifyLink l f).nodes = g.nodes := rfl
@[simp] theorem ports_modifyLink : (g.modifyLink l f).ports = g.ports := rfl
@[simp] theorem blocks_modifyLink : (g.modifyLink l f).blocks = g.blocks := rfl
@[simp] theorem freed_modifyLink : (g.modifyLink l f).freed = g.freed := rfl

end Modify

end Graph
end Pinos
