import Pinos.Server.Link

/-
`server/port.c`, `server/link.c` and `server/node.c`: how links and nodes come and go.

The functions that a loop is asked to invoke wait in its queue.  What is freed keeps what it
held last, and `wild` tells that something freed was used since, or a null pointer.
-/

namespace Pinos

/-! ## Both sides of a link -/

def PinosDirection.other : PinosDirection → PinosDirection
  | input => output
  | output => input

namespace PinosLink

def side (link : PinosLink) : PinosDirection → Option Nat
  | .input => link.input
  | .output => link.output

def rtSide (link : PinosLink) : PinosDirection → Option Nat
  | .input => link.rtInput
  | .output => link.rtOutput

def setSide (link : PinosLink) (port : Option Nat) : PinosDirection → PinosLink
  | .input => { link with input := port }
  | .output => { link with output := port }

def setRtSide (link : PinosLink) (port : Option Nat) : PinosDirection → PinosLink
  | .input => { link with rtInput := port }
  | .output => { link with rtOutput := port }

end PinosLink

namespace PinosNode

def ports (node : PinosNode) : PinosDirection → List Nat
  | .input => node.inputPorts
  | .output => node.outputPorts

def usedLinks (node : PinosNode) : PinosDirection → UInt32
  | .input => node.nUsedInputLinks
  | .output => node.nUsedOutputLinks

def setPorts (node : PinosNode) (ports : List Nat) : PinosDirection → PinosNode
  | .input => { node with inputPorts := ports }
  | .output => { node with outputPorts := ports }

def setUsedLinks (node : PinosNode) (count : UInt32) : PinosDirection → PinosNode
  | .input => { node with nUsedInputLinks := count }
  | .output => { node with nUsedOutputLinks := count }

def unused (node : PinosNode) : Bool := node.nUsedInputLinks = 0 ∧ node.nUsedOutputLinks = 0

end PinosNode

/-- What is allocated for the graph, and freed. -/
inductive Object where
  | node (n : Nat)
  | port (p : Nat)
  | link (l : Nat)
  deriving DecidableEq

/-- A function that a loop is asked to invoke, with its arguments. -/
inductive Invocation where
  | addLink (l p : Nat)
  | removeLink (l p : Nat)
  | removeLinkDone (l p : Nat)
  | clearBuffers (p : Nat)
  | clearBuffersDone (p : Nat)
  | linkRemove (l : Nat)
  | linkRemoveDone (l : Nat)
  | nodeRemove (n : Nat)
  | nodeRemoveDone (n : Nat)
  deriving DecidableEq

/-! ## What is done to the graph -/

namespace Graph

/-- The loop that the node of a port runs in. -/
def loopOf (g : Graph) (p : Nat) : Nat := (g.nodeOf p).dataLoop

/-- `pinos_port_pause_rt`; what the spa node answers does not matter. -/
def portPauseRt (g : Graph) (p : Nat) : Graph :=
  if (g.ports p).state.value ≤ PinosPortState.paused.value then g
  else g.modifyPort p fun port => { port with state := .paused }

/-- What `do_add_link` does. -/
def addRt (g : Graph) (l p : Nat) : Graph :=
  (g.modifyPort p fun port => { port with rtLinks := port.rtLinks ++ [l] }).modifyLink l fun link =>
    link.setRtSide (some p) (g.ports p).direction

/-- A side of a link leaves the port that it has in the realtime thread. -/
def removeRt (g : Graph) (dir : PinosDirection) (l : Nat) : Graph :=
  match (g.links l).rtSide dir with
  | none => g
  | some p =>
    ((g.portPauseRt p).modifyPort p fun port =>
      { port with rtLinks := port.rtLinks.erase l }).modifyLink l fun link =>
        link.setRtSide none dir

/-- What is used for that. -/
def rtUses (g : Graph) (dir : PinosDirection) (l : Nat) : List Object :=
  match (g.links l).rtSide dir with
  | none => []
  | some p => .port p :: .node (g.ports p).node :: (g.ports p).rtLinks.map .link

/-- `spa_node_port_use_buffers` without buffers, and what comes with it. -/
def clearPort (g : Graph) (p : Nat) : Graph :=
  g.modifyPort p fun port =>
    { port with buffers := none, nBuffers := 0, given := none, state := .ready }

/-- `pinos_node_update_state`. -/
def updateNodeState (g : Graph) (n : Nat) (state : PinosNodeState) : Graph :=
  g.modifyNode n fun node => { node with state := state }

/-- A link leaves the list of a port, and the count of a node. -/
def detach (g : Graph) (dir : PinosDirection) (l p n : Nat) : Graph :=
  (g.modifyPort p fun port => { port with links := port.links.erase l }).modifyNode n fun node =>
    node.setUsedLinks (node.usedLinks dir - 1) dir

/-- What is used for that. -/
def listUses (g : Graph) (p : Nat) : List Object :=
  .port p :: .node (g.ports p).node :: (g.ports p).links.map .link

def clearPortBuffers (g : Graph) (l p : Nat) : Graph :=
  if (g.links l).bufferOwner ≠ some (.port p) ∧
      PinosPortState.ready.value < (g.ports p).state.value then g.clearPort p
  else g

/-- What `do_link_remove_done` does for a side. -/
def removeSide (g : Graph) (dir : PinosDirection) (l : Nat) : Graph :=
  match (g.links l).side dir with
  | none => g
  | some p =>
    let n := (g.ports p).node
    let g := (g.detach dir l p n).clearPortBuffers l p
    let g :=
      if (g.nodes n).unused ∧ PinosNodeState.idle.value < (g.nodes n).state.value then
        g.updateNodeState n .idle
      else g
    g.modifyLink l fun link => link.setSide none dir

def sideUses (g : Graph) (dir : PinosDirection) (l : Nat) : List Object :=
  match (g.links l).side dir with
  | none => []
  | some p => g.listUses p

/-- What `do_remove_link_done` does; the node is that of the port. -/
def removeLinkDone (g : Graph) (l p : Nat) : Graph :=
  let n := (g.ports p).node
  let dir := (g.ports p).direction
  let g :=
    match (g.links l).side dir with
    | none => g
    | some q => (g.detach dir l q n).modifyLink l fun link => link.setSide none dir
  let g :=
    if (g.ports p).allocated = false ∧ PinosPortState.ready.value < (g.ports p).state.value then
      g.clearPort p
    else g
  if (g.nodes n).unused then g.updateNodeState n .idle else g

/-- What `pinos_link_new` fills in. -/
def newLink (output input : Nat) : PinosLink where
  state := .init
  stateChanged := []
  input := some input
  output := some output
  rtInput := none
  rtOutput := none
  bufferOwner := none
  bufferMem := none
  buffers := none
  nBuffers := 0
  work := []

def attach (g : Graph) (dir : PinosDirection) (l p : Nat) : Graph :=
  (g.modifyPort p fun port => { port with links := port.links ++ [l] }).modifyNode (g.ports p).node
    fun node => node.setUsedLinks (node.usedLinks dir + 1) dir

/-- What `pinos_port_link` does for a new link. -/
def addLink (g : Graph) (l output input : Nat) : Graph :=
  (((g.modifyNode (g.ports input).node fun node =>
    { node with live := (g.nodeOf output).live }).modifyLink l fun _ =>
      newLink output input).attach .output l output).attach .input l input

end Graph

/-! ## The loops -/

/-- The graph and the links that were made for it, with what the loops are asked for. -/
structure Daemon where
  graph : Graph
  nLinks : Nat
  refcount : Nat → Int
  /-- How many resources are bound to a link. -/
  resources : Nat → Nat
  /-- The links that listen to `destroy_signal` of a port or `async_complete` of a node. -/
  listeners : Object → List Nat
  mainLoop : List Invocation
  dataLoops : Nat → List Invocation
  freed : List Object
  wild : Bool

namespace Daemon

def modify (s : Daemon) (f : Graph → Graph) : Daemon := { s with graph := f s.graph }

/-- Objects are used. -/
def touch (s : Daemon) (objects : List Object) : Daemon :=
  { s with wild := s.wild || objects.any fun o => decide (o ∈ s.freed) }

/-- A null pointer is used. -/
def crash (s : Daemon) : Daemon := { s with wild := true }

def invokeMain (s : Daemon) (inv : Invocation) : Daemon :=
  { s with mainLoop := s.mainLoop ++ [inv] }

def invokeData (s : Daemon) (d : Nat) (inv : Invocation) : Daemon :=
  { s with dataLoops := Function.update s.dataLoops d (s.dataLoops d ++ [inv]) }

/-! ## Links that are made -/

def findLink (s : Daemon) (output input : Nat) : Option Nat :=
  (s.graph.ports output).links.find? fun l => (s.graph.links l).input = some input

/-- A link listens to a port and to its node. -/
def listen (s : Daemon) (l p : Nat) : Daemon :=
  let n := (s.graph.ports p).node
  let s := s.touch ((s.listeners (.port p) ++ s.listeners (.node n)).map .link)
  { s with
    listeners := fun o => if o = .port p ∨ o = .node n then s.listeners o ++ [l] else s.listeners o }

/-- A link for two ports: `pinos_link_new`, and what `pinos_port_link` does then. -/
def makeLink (s : Daemon) (output input : Nat) : Daemon :=
  let l := s.nLinks
  let g := s.graph.addLink l output input
  let s := (s.listen l input).listen l output
  let s :=
    { s with
      graph := g
      nLinks := l + 1
      refcount := Function.update s.refcount l 1
      resources := Function.update s.resources l 0 }
  (s.invokeData (g.loopOf output) (.addLink l output)).invokeData (g.loopOf input)
    (.addLink l input)

/-- `pinos_port_link`, with the properties and the format filter left out. -/
def portLink (s : Daemon) (output input : Nat) : Daemon :=
  let s := s.touch (s.graph.listUses output ++ s.graph.listUses input)
  if (s.graph.ports output).node = (s.graph.ports input).node then s
  else if (s.graph.ports input).links ≠ [] then s
  else if s.findLink output input ≠ none then s
  else s.makeLink output input

/-! ## Links that are removed -/

/-- `pinos_link_free`. -/
def linkFree (s : Daemon) (l : Nat) : Daemon :=
  { s with
    freed := s.freed ++ [.link l]
    graph := { s.graph with
      freed := s.graph.freed ++
        if (s.graph.links l).bufferOwner = some .link then (s.graph.links l).bufferMem.toList
        else [] } }

def unref (s : Daemon) (l : Nat) : Daemon :=
  let s := { s with refcount := Function.update s.refcount l (s.refcount l - 1) }
  if s.refcount l = 0 then s.linkFree l else s

/-- `link_unbind_func`. -/
def linkUnbind (s : Daemon) (l : Nat) : Daemon :=
  let s := s.touch [.link l]
  { s with resources := Function.update s.resources l (s.resources l - 1) }.unref l

/-- The resources are destroyed, one after the other. -/
def unbindAll (s : Daemon) (l : Nat) : Nat → Daemon
  | 0 => s
  | k + 1 => (s.linkUnbind l).unbindAll l k

/-- `link_bind_func`. -/
def linkBind (s : Daemon) (l : Nat) : Daemon :=
  let s := s.touch [.link l]
  { s with
    resources := Function.update s.resources l (s.resources l + 1)
    refcount := Function.update s.refcount l (s.refcount l + 1) }

/-- A link does not listen to a port and its node any more. -/
def stopListening (s : Daemon) (l p : Nat) : Daemon :=
  let n := (s.graph.ports p).node
  let s := s.touch (.port p :: .node n ::
    (s.listeners (.port p) ++ s.listeners (.node n)).map .link)
  { s with
    listeners := fun o =>
      if o = .port p ∨ o = .node n then (s.listeners o).erase l else s.listeners o }

/-- What `pinos_link_destroy` asks the loop of a side for. -/
def requestRemove (s : Daemon) (dir : PinosDirection) (l : Nat) : Daemon :=
  match (s.graph.links l).side dir with
  | none => s
  | some p =>
    let s := s.stopListening l p
    { s with refcount := Function.update s.refcount l (s.refcount l + 1) }.invokeData
      (s.graph.loopOf p) (.linkRemove l)

/-- `pinos_link_destroy`. -/
def linkDestroy (s : Daemon) (l : Nat) : Daemon :=
  let s := s.touch [.link l]
  let s := s.unbindAll l (s.resources l)
  ((s.requestRemove .input l).requestRemove .output l).unref l

def doLinkRemove (s : Daemon) (l : Nat) : Daemon :=
  let s := s.touch (.link l :: (s.graph.rtUses .input l ++ s.graph.rtUses .output l))
  (s.modify fun g => (g.removeRt .input l).removeRt .output l).invokeMain (.linkRemoveDone l)

def doLinkRemoveDone (s : Daemon) (l : Nat) : Daemon :=
  let s := s.touch (.link l :: (s.graph.sideUses .input l ++ s.graph.sideUses .output l))
  (s.modify fun g => (g.removeSide .input l).removeSide .output l).unref l

/-! ## Links that leave a port -/

/-- `pinos_port_unlink`. -/
def portUnlink (s : Daemon) (p l : Nat) : Daemon :=
  (s.touch [.port p, .node (s.graph.ports p).node]).invokeData (s.graph.loopOf p) (.removeLink l p)

def doAddLink (s : Daemon) (l p : Nat) : Daemon :=
  (s.touch (.port p :: .link l :: (s.graph.ports p).rtLinks.map .link)).modify fun g => g.addRt l p

def doRemoveLink (s : Daemon) (l p : Nat) : Daemon :=
  let dir := (s.graph.ports p).direction
  let s := s.touch ([.port p, .node (s.graph.ports p).node, .link l] ++ s.graph.rtUses dir l)
  if (s.graph.links l).rtSide dir = none then s.crash
  else (s.modify fun g => g.removeRt dir l).invokeMain (.removeLinkDone l p)

def doRemoveLinkDone (s : Daemon) (l p : Nat) : Daemon :=
  let s := s.touch ([.port p, .node (s.graph.ports p).node, .link l] ++
    s.graph.sideUses (s.graph.ports p).direction l)
  s.modify fun g => g.removeLinkDone l p

/-! ## Buffers that are cleared -/

/-- `pinos_port_clear_buffers`. -/
def portClearBuffers (s : Daemon) : Option Nat → Daemon
  | none => s.crash
  | some p =>
    (s.touch [.port p, .node (s.graph.ports p).node]).invokeData (s.graph.loopOf p)
      (.clearBuffers p)

def doClearBuffers (s : Daemon) (p : Nat) : Daemon :=
  let s := s.touch [.port p, .node (s.graph.ports p).node]
  (s.modify fun g => g.portPauseRt p).invokeMain (.clearBuffersDone p)

def doClearBuffersDone (s : Daemon) (p : Nat) : Daemon :=
  let s := s.touch [.port p, .node (s.graph.ports p).node]
  s.modify fun g =>
    if (g.ports p).state.value ≤ PinosPortState.ready.value then g else g.clearPort p

/-! ## Ports and nodes that are removed -/

/-- What `on_port_destroy` does for the side that has the port. -/
def portUnlinked (s : Daemon) (dir : PinosDirection) (l p : Nat) : Daemon :=
  let s := (s.stopListening l p).modify fun g => g.modifyLink l fun link => link.setSide none dir
  let s :=
    if (s.graph.links l).bufferOwner = some (.port p) then
      (s.modify fun g => g.modifyLink l fun link =>
        { link with buffers := none, nBuffers := 0 }).portClearBuffers
          ((s.graph.links l).side dir.other)
    else s
  (s.modify fun g => g.updateLinkState l .unlinked).linkDestroy l

def onPortDestroy (s : Daemon) (l p : Nat) : Daemon :=
  let s := s.touch [.link l]
  if (s.graph.links l).input = some p then s.portUnlinked .input l p
  else if (s.graph.links l).output = some p then s.portUnlinked .output l p
  else s

/-- `pinos_port_destroy`. -/
def portDestroy (s : Daemon) (p : Nat) : Daemon :=
  let dir := (s.graph.ports p).direction
  let n := (s.graph.ports p).node
  let s := (s.listeners (.port p)).foldl (fun s l => s.onPortDestroy l p) (s.touch [.port p])
  let s := (s.touch [.node n]).modify fun g => g.modifyNode n fun node =>
    node.setPorts ((node.ports dir).erase p) dir
  { s with freed := s.freed ++ [.port p] }

/-- `pinos_node_destroy`. -/
def nodeDestroy (s : Daemon) (n : Nat) : Daemon :=
  (s.touch [.node n]).invokeData (s.graph.nodes n).dataLoop (.nodeRemove n)

/-- The turn of the loops of `do_node_remove` for a link in the list of a port. -/
def removeRtLink (dir : PinosDirection) (s : Daemon) (l : Nat) : Daemon :=
  let s := s.touch (.link l :: s.graph.rtUses dir l)
  if (s.graph.links l).rtSide dir = none then s.crash else s.modify fun g => g.removeRt dir l

def removeRtLinks (dir : PinosDirection) (s : Daemon) (p : Nat) : Daemon :=
  (s.graph.ports p).rtLinks.foldl (removeRtLink dir) (s.touch [.port p])

def doNodeRemove (s : Daemon) (n : Nat) : Daemon :=
  let s := s.touch [.node n]
  let s := (s.graph.nodes n).inputPorts.foldl (removeRtLinks .input) s
  let s := (s.graph.nodes n).outputPorts.foldl (removeRtLinks .output) s
  s.invokeMain (.nodeRemoveDone n)

def doNodeRemoveDone (s : Daemon) (n : Nat) : Daemon :=
  let s := s.touch [.node n]
  let s := (s.graph.nodes n).inputPorts.foldl portDestroy s
  let s := (s.graph.nodes n).outputPorts.foldl portDestroy s
  { s with freed := s.freed ++ [.node n] }

/-! ## The loops at work -/

def perform (s : Daemon) : Invocation → Daemon
  | .addLink l p => s.doAddLink l p
  | .removeLink l p => s.doRemoveLink l p
  | .removeLinkDone l p => s.doRemoveLinkDone l p
  | .clearBuffers p => s.doClearBuffers p
  | .clearBuffersDone p => s.doClearBuffersDone p
  | .linkRemove l => s.doLinkRemove l
  | .linkRemoveDone l => s.doLinkRemoveDone l
  | .nodeRemove n => s.doNodeRemove n
  | .nodeRemoveDone n => s.doNodeRemoveDone n

/-- The main loop invokes what is first in its queue. -/
def runMain (s : Daemon) : Daemon :=
  match s.mainLoop with
  | [] => s
  | inv :: rest => { s with mainLoop := rest }.perform inv

def runData (s : Daemon) (d : Nat) : Daemon :=
  match s.dataLoops d with
  | [] => s
  | inv :: rest => { s with dataLoops := Function.update s.dataLoops d rest }.perform inv

end Daemon
end Pinos
