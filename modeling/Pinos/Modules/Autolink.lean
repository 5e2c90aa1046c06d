import Pinos.Server.LinkCounts

/-
`modules/module-autolink.c`, with `pinos_core_find_port` and `pinos_node_get_free_port`: ports
of nodes that ask for it are linked to free ports of other nodes, and inputs are to be linked
again when their output goes.

The listeners of the module are well linked here: a link notifies the module when the module
has made it.
-/

namespace Pinos

/-- The properties of a node that `try_link_port` reads, as `atoi` reads them. -/
structure AutolinkProperties where
  targetNode : Option Int
  autoconnect : Option Int

/-- The id of the node to link to; a node that does not ask for a link has none. -/
def AutolinkProperties.pathId (props : AutolinkProperties) : Option UInt32 :=
  match props.targetNode with
  | some id => some (UInt32.ofInt id)
  | none =>
    match props.autoconnect with
    | none => none
    | some autoconnect => if autoconnect = 0 then none else some spaIdInvalid

/-- The graph with what the core knows of its nodes, and the links that the module listens
to. -/
structure AutolinkCore where
  daemon : Daemon
  nPorts : Nat
  nodeList : List Nat
  globalId : Nat → Option UInt32
  maxPorts : Nat → PinosDirection → UInt32
  portCount : Nat → PinosDirection → UInt32
  portMap : Nat → PinosDirection → Nat → Option Nat
  properties : Nat → Option AutolinkProperties
  listening : List Nat

namespace Daemon

/-- What `pinos_port_link` returns. -/
def portLinked (s : Daemon) (output input : Nat) : Option Nat :=
  if (s.graph.ports output).node = (s.graph.ports input).node then none
  else if (s.graph.ports input).links ≠ [] then none
  else some ((s.findLink output input).getD s.nLinks)

/-- What `on_port_destroy` does before `port_unlinked` is emitted. -/
def leavePort (s : Daemon) (dir : PinosDirection) (l p : Nat) : Daemon :=
  let s := (s.stopListening l p).modify fun g => g.modifyLink l fun link => link.setSide none dir
  if (s.graph.links l).bufferOwner = some (.port p) then
    (s.modify fun g => g.modifyLink l fun link =>
      { link with buffers := none, nBuffers := 0 }).portClearBuffers
        ((s.graph.links l).side dir.other)
  else s

/-- What it does after that. -/
def unlinkedDestroy (s : Daemon) (l : Nat) : Daemon :=
  (s.modify fun g => g.updateLinkState l .unlinked).linkDestroy l

end Daemon

namespace AutolinkCore

def modifyDaemon (s : AutolinkCore) (f : Daemon → Daemon) : AutolinkCore :=
  { s with daemon := f s.daemon }

/-! ## Ports that are found -/

/-- What `pinos_port_new` fills in. -/
def newPort (n : Nat) (dir : PinosDirection) : PinosPort where
  node := n
  direction := dir
  state := .configure
  allocated := false
  bufferMem := none
  buffers := none
  nBuffers := 0
  links := []
  rtLinks := []
  given := none

/-- A new port has a place in the map of its node, and one in the list. -/
def addPort (s : AutolinkCore) (n : Nat) (dir : PinosDirection) (i place : Nat) : AutolinkCore :=
  let p := s.nPorts
  { s with
    daemon := (s.daemon.touch [.node n]).modify fun g =>
      (g.modifyPort p fun _ => newPort n dir).modifyNode n fun node =>
        node.setPorts ((node.ports dir).take place ++ p :: (node.ports dir).drop place) dir
    nPorts := p + 1
    portMap := Function.update s.portMap n
      (Function.update (s.portMap n) dir (Function.update (s.portMap n dir) i (some p))) }

def countPort (s : AutolinkCore) (n : Nat) (dir : PinosDirection) : AutolinkCore :=
  { s with
    portCount := Function.update s.portCount n
      (Function.update (s.portCount n) dir (s.portCount n dir + 1)) }

/-- `pinos_node_get_free_port`. -/
def getFreePort (s : AutolinkCore) (n : Nat) (dir : PinosDirection) : AutolinkCore × Option Nat :=
  let ports := (s.daemon.graph.nodes n).ports dir
  let s := s.modifyDaemon fun d => d.touch (.node n :: ports.map .port)
  match ports.find? fun p => (s.daemon.graph.ports p).links = [] with
  | some p => (s, some p)
  | none =>
    if s.portCount n dir < s.maxPorts n dir then
      match (List.range (s.maxPorts n dir).toNat).find? fun i => s.portMap n dir i = none with
      | some i => ((s.addPort n dir i 0).countPort n dir, some s.nPorts)
      | none => (s, none)
    else if dir = .output then (s, ports.head?)
    else (s, none)

section FindFormat

-- Whether `pinos_core_find_format` finds a format for an output and an input.
variable (findFormat : Graph → Nat → Nat → Bool)

def formatsMatch (g : Graph) (p q : Nat) : Bool :=
  match (g.ports p).direction with
  | .output => findFormat g p q
  | .input => findFormat g q p

/-- The loop of `pinos_core_find_port`, with the best port so far. -/
def findPortIn (q : Nat) (pathId : UInt32) :
    List Nat → AutolinkCore → Option Nat → AutolinkCore × Option Nat
  | [], s, best => (s, best)
  | n :: nodes, s, best =>
    match s.globalId n with
    | none => findPortIn q pathId nodes s best
    | some id =>
      let found := s.getFreePort n (s.daemon.graph.ports q).direction.other
      if pathId ≠ spaIdInvalid then
        if id ≠ pathId then findPortIn q pathId nodes s best
        else
          match found.2 with
          | some p => (found.1, some p)
          | none => findPortIn q pathId nodes found.1 none
      else
        match found.2 with
        | none => findPortIn q pathId nodes found.1 best
        | some p =>
          findPortIn q pathId nodes found.1
            (if formatsMatch findFormat found.1.daemon.graph p q then some p else best)

/-- `pinos_core_find_port`. -/
def findPort (s : AutolinkCore) (q : Nat) (pathId : UInt32) : AutolinkCore × Option Nat :=
  findPortIn findFormat q pathId s.nodeList s none

/-! ## Links that are made -/

/-- What `try_link_port` does with the two ports. -/
def linkPorts (s : AutolinkCore) (output input : Nat) : AutolinkCore :=
  match s.daemon.portLinked output input with
  | none => s.modifyDaemon fun d => d.portLink output input
  | some l =>
    { s with
      daemon := (s.daemon.portLink output input).modify fun g => g.linkActivate l
      listening := s.listening ++ [l] }

/-- The port that `try_link_port` finds. -/
def target (s : AutolinkCore) (p : Nat) : AutolinkCore × Option Nat :=
  match (s.properties (s.daemon.graph.ports p).node).bind AutolinkProperties.pathId with
  | none => (s, none)
  | some pathId => s.findPort findFormat p pathId

/-- `try_link_port`. -/
def tryLinkPort (s : AutolinkCore) (p : Nat) : AutolinkCore :=
  let found := s.target findFormat p
  match found.2 with
  | none => found.1
  | some q =>
    match (found.1.daemon.graph.ports p).direction with
    | .output => found.1.linkPorts p q
    | .input => found.1.linkPorts q p

/-! ## Ports that go -/

def onLinkPortUnlinked (s : AutolinkCore) (l p : Nat) : AutolinkCore :=
  if (s.daemon.graph.ports p).direction = .output then
    match (s.daemon.graph.links l).input with
    | none => s
    | some q => s.tryLinkPort findFormat q
  else s

/-- `on_port_destroy` with what the listener to `port_unlinked` does, for the side that has the
port. -/
def portUnlinked (s : AutolinkCore) (dir : PinosDirection) (l p : Nat) : AutolinkCore :=
  let s := s.modifyDaemon fun d => d.leavePort dir l p
  let s := if l ∈ s.listening then s.onLinkPortUnlinked findFormat l p else s
  s.modifyDaemon fun d => d.unlinkedDestroy l

def onPortDestroy (s : AutolinkCore) (l p : Nat) : AutolinkCore :=
  let s := s.modifyDaemon fun d => d.touch [.link l]
  if (s.daemon.graph.links l).input = some p then s.portUnlinked findFormat .input l p
  else if (s.daemon.graph.links l).output = some p then s.portUnlinked findFormat .output l p
  else s

/-- What `pinos_port_destroy` does when its listeners have been told. -/
def portFree (d : Daemon) (dir : PinosDirection) (n p : Nat) : Daemon :=
  let d := (d.touch [.node n]).modify fun g => g.modifyNode n fun node =>
    node.setPorts ((node.ports dir).erase p) dir
  { d with freed := d.freed ++ [.port p] }

/-- `pinos_port_destroy`. -/
def portDestroy (s : AutolinkCore) (p : Nat) : AutolinkCore :=
  let dir := (s.daemon.graph.ports p).direction
  let n := (s.daemon.graph.ports p).node
  let s := (s.daemon.listeners (.port p)).foldl (fun s l => s.onPortDestroy findFormat l p)
    (s.modifyDaemon fun d => d.touch [.port p])
  s.modifyDaemon fun d => portFree d dir n p

def doNodeRemoveDone (s : AutolinkCore) (n : Nat) : AutolinkCore :=
  let s := s.modifyDaemon fun d => d.touch [.node n]
  let s := (s.daemon.graph.nodes n).inputPorts.foldl (portDestroy findFormat) s
  let s := (s.daemon.graph.nodes n).outputPorts.foldl (portDestroy findFormat) s
  s.modifyDaemon fun d => { d with freed := d.freed ++ [.node n] }

/-- `pinos_node_destroy`. -/
def nodeDestroy (s : AutolinkCore) (n : Nat) : AutolinkCore :=
  { s with
    daemon := s.daemon.nodeDestroy n
    nodeList := s.nodeList.erase n
    globalId := Function.update s.globalId n none }

/-! ## The loops at work -/

/-- Only `do_node_remove_done` comes to the module. -/
def perform (s : AutolinkCore) : Invocation → AutolinkCore
  | .nodeRemoveDone n => s.doNodeRemoveDone findFormat n
  | inv => s.modifyDaemon fun d => d.perform inv

def runMain (s : AutolinkCore) : AutolinkCore :=
  match s.daemon.mainLoop with
  | [] => s
  | inv :: rest => (s.modifyDaemon fun d => { d with mainLoop := rest }).perform findFormat inv

def runData (s : AutolinkCore) (i : Nat) : AutolinkCore :=
  match s.daemon.dataLoops i with
  | [] => s
  | inv :: rest =>
    (s.modifyDaemon fun d =>
      { d with dataLoops := Function.update d.dataLoops i rest }).perform findFormat inv

/-- A turn of the main loop, or of the loop of nodes. -/
inductive LoopTurn where
  | mainLoop
  | dataLoop (i : Nat)

def turn (s : AutolinkCore) : LoopTurn → AutolinkCore
  | .mainLoop => s.runMain findFormat
  | .dataLoop i => s.runData findFormat i

inductive Op where
  | portLink (output input : Nat)
  | portUnlink (p l : Nat)
  | linkDestroy (l : Nat)
  | linkBind (l : Nat)
  | linkUnbind (l : Nat)
  | portDestroy (p : Nat)
  | nodeDestroy (n : Nat)
  | nodeAdded (n : Nat) (id : UInt32) (props : Option AutolinkProperties)
  | portAdded (n : Nat) (dir : PinosDirection) (i place : Nat)
  | tryLinkPort (p : Nat)
  /-- Formats, buffers and states change: `check_states` and what plugins answer. -/
  | states (g : Graph)
  | loop (t : LoopTurn)

def step (s : AutolinkCore) : Op → AutolinkCore
  | .portLink output input => s.modifyDaemon fun d => d.portLink output input
  | .portUnlink p l => s.modifyDaemon fun d => d.portUnlink p l
  | .linkDestroy l => s.modifyDaemon fun d => d.linkDestroy l
  | .linkBind l => s.modifyDaemon fun d => d.linkBind l
  | .linkUnbind l => s.modifyDaemon fun d => d.linkUnbind l
  | .portDestroy p => s.portDestroy findFormat p
  | .nodeDestroy n => s.nodeDestroy n
  | .nodeAdded n id props =>
    { s with
      nodeList := s.nodeList ++ [n]
      globalId := Function.update s.globalId n (some id)
      properties := Function.update s.properties n props }
  | .portAdded n dir i place => (s.addPort n dir i place).tryLinkPort findFormat s.nPorts
  | .tryLinkPort p => s.tryLinkPort findFormat p
  | .states g => s.modifyDaemon fun d => { d with graph := g }
  | .loop t => s.turn findFormat t

/-- The ports of a link are an output and an input, and no wires change with the states. -/
def Admits (s : AutolinkCore) : Op → Prop
  | .portLink output input =>
    output < s.nPorts ∧ input < s.nPorts ∧ (s.daemon.graph.ports output).direction = .output ∧
      (s.daemon.graph.ports input).direction = .input
  | .tryLinkPort p => p < s.nPorts
  | .states g => g.wiring = s.daemon.graph.wiring
  | _ => True

end FindFormat

/-- A run of `check_states` changes states. -/
theorem admits_checkStates {s : AutolinkCore} {Format : Type} {spa : Graph.SpaNodes Format}
    {fixate : Format → Format} {ringbuffer : UInt32} {fuel l : Nat} {done : Graph × SpaResult}
    (h : s.daemon.graph.checkStates spa fixate ringbuffer fuel l = some done) :
    s.Admits (.states done.1) :=
  Graph.wiring_checkStates h

end AutolinkCore
end Pinos
