import Pinos.Lib.Run
import Pinos.Server.LinkStates
import Pinos.Server.UsedLinks

/-
`modules/module-suspend-on-idle.c`: nodes that have been idle for a while are suspended.

The module listens to requests and changes of states, wherever these come from.  What the loops
have been asked to do they may do at any time.
-/

namespace Pinos

/-- The graph, with the timers of the module: a `NodeInfo` has the number of its node. -/
structure SuspendOnIdle where
  graph : Graph
  nLinks : Nat
  known : Nat → Bool
  idleTimeout : Nat → Option Nat
  /-- The sources that are armed, with what they call `idle_timeout` for. -/
  timers : Nat → Option Nat
  nTimers : Nat

namespace Graph

/-! ## Requests for states -/

section Plugins

variable {Format : Type} (spa : SpaNodes Format) (fixate : Format → Format) (ringbuffer : UInt32)

/-- The node that `do_negotiate` suspends for a port. -/
def suspendRequests (g : Graph) (p : Nat) (state : PinosPortState) : List Nat :=
  if PinosPortState.configure.bits < state.bits ∧ (g.nodeOf p).state = .idle then
    [(g.ports p).node]
  else []

def negotiateRequests (fuel : Nat) (g : Graph) (l input output : Nat)
    (inState outState : PinosPortState) : List Nat :=
  if inState ≠ .configure ∧ outState ≠ .configure then []
  else
    let g := g.updateLinkState l .negotiating
    match findFormat spa fixate fuel g output input with
    | some (some _) => g.suspendRequests output outState ++ g.suspendRequests input inState
    | _ => []

/-- The nodes that `do_start` sets to run. -/
def startRequests (g : Graph) (input output : Nat) (inState outState : PinosPortState) :
    List Nat :=
  if inState.bits < PinosPortState.paused.bits ∨ outState.bits < PinosPortState.paused.bits then []
  else
    (if inState = .paused then [(g.ports input).node] else []) ++
      if outState = .paused then [(g.ports output).node] else []

/-- The nodes that `check_states` asks for another state, in their order. -/
def stateRequests (fuel : Nat) (g : Graph) (l : Nat) : List Nat :=
  if (g.links l).state = .error then []
  else
    match (g.links l).input, (g.links l).output with
    | some input, some output =>
      let inState := (g.ports input).state
      let outState := (g.ports output).state
      if (g.nodeOf input).state = .error ∨ (g.nodeOf output).state = .error then []
      else if inState = .streaming ∧ outState = .streaming then []
      else
        negotiateRequests spa fixate fuel g l input output inState outState ++
          match doNegotiate spa fixate fuel g l input output inState outState with
          | none => []
          | some (g, res) =>
            if res ≠ .ok then []
            else
              let (g, res) := g.doAllocation spa ringbuffer l input output inState outState
              if res ≠ .ok then [] else g.startRequests input output inState outState
    | _, _ => []

end Plugins

/-! ## Links that lose a port -/

/-- What `on_port_destroy` does for the side that has the port. -/
def unlinkSide (g : Graph) (dir : PinosDirection) (p l : Nat) : Graph :=
  let g := g.modifyLink l fun link => link.setSide none dir
  let g :=
    if (g.links l).bufferOwner = some (.port p) then
      g.modifyLink l fun link => { link with buffers := none, nBuffers := 0 }
    else g
  g.updateLinkState l .unlinked

def onPortDestroy (p : Nat) (g : Graph) (l : Nat) : Graph :=
  if (g.links l).input = some p then g.unlinkSide .input p l
  else if (g.links l).output = some p then g.unlinkSide .output p l
  else g

/-- `pinos_port_destroy`, with the links that listen to the port. -/
def portDestroy (g : Graph) (p : Nat) (listeners : List Nat) : Graph :=
  let dir := (g.ports p).direction
  (listeners.foldl (onPortDestroy p) g).modifyNode (g.ports p).node fun node =>
    node.setPorts ((node.ports dir).erase p) dir

/-- `pinos_port_get_link`. -/
def findLink (g : Graph) (output input : Nat) : Option Nat :=
  (g.ports output).links.find? fun l => (g.links l).input = some input

end Graph

namespace SuspendOnIdle

/-! ## The module -/

/-- `remove_idle_timeout`. -/
def removeIdleTimeout (s : SuspendOnIdle) (n : Nat) : SuspendOnIdle :=
  match s.idleTimeout n with
  | none => s
  | some t =>
    { s with
      timers := Function.update s.timers t none
      idleTimeout := Function.update s.idleTimeout n none }

def onNodeStateRequest (s : SuspendOnIdle) (n : Nat) : SuspendOnIdle :=
  if s.known n then s.removeIdleTimeout n else s

/-- A timer is added for a node, and armed. -/
def armTimer (s : SuspendOnIdle) (n : Nat) : SuspendOnIdle :=
  { s with
    timers := Function.update s.timers s.nTimers (some n)
    idleTimeout := Function.update s.idleTimeout n (some s.nTimers)
    nTimers := s.nTimers + 1 }

def onNodeStateChanged (s : SuspendOnIdle) (n : Nat) (state : PinosNodeState) : SuspendOnIdle :=
  if s.known n then if state ≠ .idle then s.removeIdleTimeout n else s.armTimer n else s

/-- The graph becomes another; the module is told when a node is in another state then. -/
def advance (s : SuspendOnIdle) (g : Graph) (n : Nat) : SuspendOnIdle :=
  let next := { s with graph := g }
  if (g.nodes n).state = (s.graph.nodes n).state then next
  else next.onNodeStateChanged n (g.nodes n).state

/-! ## What the server does -/

/-- `pinos_port_link`, with the properties and the format filter left out. -/
def portLink (s : SuspendOnIdle) (output input : Nat) : SuspendOnIdle :=
  if (s.graph.ports output).node = (s.graph.ports input).node then s
  else if (s.graph.ports input).links ≠ [] then s
  else if s.graph.findLink output input ≠ none then s
  else { s with graph := s.graph.addLink s.nLinks output input, nLinks := s.nLinks + 1 }

def removeSide (s : SuspendOnIdle) (dir : PinosDirection) (l : Nat) : SuspendOnIdle :=
  match (s.graph.links l).side dir with
  | none => s
  | some p => s.advance (s.graph.removeSide dir l) (s.graph.ports p).node

def doLinkRemoveDone (s : SuspendOnIdle) (l : Nat) : SuspendOnIdle :=
  (s.removeSide .input l).removeSide .output l

def doRemoveLinkDone (s : SuspendOnIdle) (l p : Nat) : SuspendOnIdle :=
  s.advance (s.graph.removeLinkDone l p) (s.graph.ports p).node

/-- `on_state_complete`, for an item on the queue of a node. -/
def onStateComplete (s : SuspendOnIdle) (n i : Nat) (res : SpaResult) : SuspendOnIdle :=
  match (s.graph.nodes n).work[i]? with
  | none => s
  | some item =>
    let g := s.graph.modifyNode n fun node => { node with work := node.work.eraseIdx i }
    s.advance (g.updateNodeState n (if res.isError then .error else item.2)) n

section Plugins

variable {Format : Type} (spa : Graph.SpaNodes Format)

/-- `pinos_node_set_state`. -/
def setNodeState (s : SuspendOnIdle) (n : Nat) (state : PinosNodeState) : SuspendOnIdle :=
  let s := s.onNodeStateRequest n
  { s with graph := (s.graph.setNodeState spa n state).1 }

/-- `idle_timeout`; the timer is armed for one time. -/
def onIdleTimeout (s : SuspendOnIdle) (t : Nat) : SuspendOnIdle :=
  match s.timers t with
  | none => s
  | some n =>
    ({ s with timers := Function.update s.timers t none }.removeIdleTimeout n).setNodeState spa n
      .suspended

variable (fixate : Format → Format) (ringbuffer : UInt32)

def checkStates (s : SuspendOnIdle) (fuel l : Nat) : SuspendOnIdle :=
  match s.graph.checkStates spa fixate ringbuffer fuel l with
  | none => s
  | some done =>
    { (s.graph.stateRequests spa fixate ringbuffer fuel l).foldl onNodeStateRequest s with
      graph := done.1 }

end Plugins

inductive Op (Format : Type) where
  | portLink (output input : Nat)
  | linkRemoveDone (l : Nat)
  | removeLinkDone (l p : Nat)
  | portDestroy (p : Nat) (listeners : List Nat)
  | nodeAdded (n : Nat)
  | nodeDestroy (n : Nat)
  | checkStates (spa : Graph.SpaNodes Format) (fuel l : Nat)
  | setNodeState (spa : Graph.SpaNodes Format) (n : Nat) (state : PinosNodeState)
  | stateComplete (n i : Nat) (res : SpaResult)
  /-- Formats and buffers change, and the states of ports. -/
  | ports (g : Graph)
  | idleTimeout (spa : Graph.SpaNodes Format) (t : Nat)

section Step

variable {Format : Type} (fixate : Format → Format) (ringbuffer : UInt32)

def step (s : SuspendOnIdle) : Op Format → SuspendOnIdle
  | .portLink output input => s.portLink output input
  | .linkRemoveDone l => s.doLinkRemoveDone l
  | .removeLinkDone l p => s.doRemoveLinkDone l p
  | .portDestroy p listeners => { s with graph := s.graph.portDestroy p listeners }
  | .nodeAdded n => { s with known := Function.update s.known n true }
  | .nodeDestroy n => { s.removeIdleTimeout n with known := Function.update s.known n false }
  | .checkStates spa fuel l => s.checkStates spa fixate ringbuffer fuel l
  | .setNodeState spa n state => s.setNodeState spa n state
  | .stateComplete n i res => s.onStateComplete n i res
  | .ports g => { s with graph := g }
  | .idleTimeout spa t => s.onIdleTimeout spa t

end Step

variable {Format : Type}

/-- A port is in the list of its node. -/
def Listed (s : SuspendOnIdle) (dir : PinosDirection) (p : Nat) : Prop :=
  p ∈ (s.graph.nodes (s.graph.ports p).node).ports dir

/-- Ports that are linked, unlinked or destroyed are there, and a link leaves a port that it
has. -/
def Admits (s : SuspendOnIdle) : Op Format → Prop
  | .portLink output input => s.Listed .output output ∧ s.Listed .input input
  | .removeLinkDone l p => ∀ q, (s.graph.links l).side (s.graph.ports p).direction = some q → q = p
  | .portDestroy p _ => s.Listed (s.graph.ports p).direction p
  | .ports g =>
    g.wiring = s.graph.wiring ∧ ∀ n, (g.nodes n).state = (s.graph.nodes n).state
  | _ => True

/-- No timer is armed for a node. -/
def Unarmed (s : SuspendOnIdle) (n : Nat) : Prop := ∀ t, s.timers t ≠ some n

/-- A node whose timer is armed is not linked, and there is room for another link in the
counters; a node with links does not become idle on request. -/
def Keeps (s : SuspendOnIdle) : Op Format → Prop
  | .portLink output input =>
    (s.graph.ports output).node ≠ (s.graph.ports input).node →
      (s.graph.ports input).links = [] → s.graph.findLink output input = none →
      s.Unarmed (s.graph.ports output).node ∧ s.Unarmed (s.graph.ports input).node ∧
        ((s.graph.nodeOf output).usedLinks .output).toNat + 1 < 2 ^ 32 ∧
        ((s.graph.nodeOf input).usedLinks .input).toNat + 1 < 2 ^ 32
  | .stateComplete n i res =>
    ∀ item, (s.graph.nodes n).work[i]? = some item → item.2 = .idle → res.isError = false →
      s.graph.nodeLinks n = []
  | _ => True

end SuspendOnIdle
end Pinos
