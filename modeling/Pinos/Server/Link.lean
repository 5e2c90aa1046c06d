import Pinos.Server.Graph

/-
`server/link.c` with what it needs of `server/node.c` and `server/core.c`: a link negotiates
a format, allocates buffers and starts its nodes, one run of `check_states` after the other.
-/

namespace Pinos

namespace Graph

/-! ## The nodes of plugins -/

/-- What `spa_alloc_param_query` finds in an allocation parameter. -/
inductive SpaAllocParam where
  | metaEnable (type ringbufferSize ringbufferStride : Option UInt32)
  | buffers (size stride buffers : Option UInt32)
  | other

structure SpaPortInfo where
  flags : UInt32
  params : List SpaAllocParam

def canAllocBuffers : UInt32 := 4

def canUseBuffers : UInt32 := 8

def flagLive : UInt32 := 64

inductive SpaNodeCommand where
  | pause
  | start
  deriving DecidableEq

/-- The answers of the plugins to the calls on their nodes and the ports of these, in a run
of `check_states`. -/
structure SpaNodes (Format : Type) where
  sendCommand : Nat → SpaNodeCommand → SpaResult
  portGetInfo : Nat → SpaResult × SpaPortInfo
  portGetFormat : Nat → SpaResult × Option Format
  portEnumFormats : Nat → Option Format → UInt32 → SpaResult × Option Format
  portSetFormat : Nat → Option Format → SpaResult
  portAllocBuffers : Nat → Option Nat → UInt32 → SpaResult × UInt32
  portUseBuffers : Nat → Option Nat → UInt32 → SpaResult

/-! ## Nodes -/

/-- The node of a port. -/
def nodeOf (g : Graph) (p : Nat) : PinosNode := g.nodes (g.ports p).node

def addWork (g : Graph) (l : Nat) (item : LinkWork) : Graph :=
  g.modifyLink l fun link => { link with work := link.work ++ [item] }

/-- `pinos_link_activate`. -/
def linkActivate (g : Graph) (l : Nat) : Graph :=
  g.addWork l (.new none .waitSync .checkStates)

/-- The links in the lists of the ports of a node. -/
def nodeLinks (g : Graph) (n : Nat) : List Nat :=
  ((g.nodes n).inputPorts ++ (g.nodes n).outputPorts).flatMap fun p => (g.ports p).links

def nodeActivate (g : Graph) (n : Nat) : Graph :=
  (g.nodeLinks n).foldl linkActivate g

section Plugins

variable {Format : Type} (spa : SpaNodes Format)

def pauseNode (g : Graph) (n : Nat) : SpaResult :=
  if (g.nodes n).state.value ≤ PinosNodeState.idle.value then .ok
  else spa.sendCommand n .pause

def startNode (n : Nat) : SpaResult := spa.sendCommand n .start

/-- The turn of the loops of `suspend_node` for a port. -/
def suspendPort (g : Graph) (p : Nat) : Graph :=
  { g.modifyPort p fun port =>
      { port with buffers := none, nBuffers := 0, allocated := false, state := .configure } with
    freed := g.freed ++ if (g.ports p).allocated then (g.ports p).bufferMem.toList else [] }

def suspendNode (g : Graph) (n : Nat) : Graph × SpaResult :=
  ((g.nodes n).inputPorts ++ (g.nodes n).outputPorts).foldl
    (fun (g, _) p => (g.suspendPort p, spa.portSetFormat p none)) (g, .ok)

/-- `pinos_node_set_state`. -/
def setNodeState (g : Graph) (n : Nat) (state : PinosNodeState) : Graph × SpaResult :=
  match state with
  | .creating => (g, .error)
  | .suspended => finish (g.suspendNode spa n)
  | .idle => finish (g, g.pauseNode spa n)
  | .running => finish (g.nodeActivate n, startNode spa n)
  | .error => finish (g, .ok)
where
  /-- `on_state_complete` is put on the queue of the node. -/
  finish (done : Graph × SpaResult) : Graph × SpaResult :=
    if done.2.isError then done
    else
      (done.1.modifyNode n fun node => { node with work := node.work ++ [(done.2, state)] }, done.2)

/-! ## Formats -/

variable (fixate : Format → Format)

/-- The loop of `pinos_core_find_format`, with the turns it may take.  `none` is a loop that
goes on, or a null pointer that is to be fixated. -/
def enumFormats (output input : Nat) : Nat → Option Format → UInt32 → Option (Option Format)
  | 0, _, _ => none
  | fuel + 1, filter, iidx =>
    let (res, format) := spa.portEnumFormats input none iidx
    let filter := if res.isError then filter else format
    if res = .enumEnd ∧ iidx ≠ 0 then some none
    else
      let (res, format) := spa.portEnumFormats output filter 0
      if res = .enumEnd then enumFormats output input fuel filter (iidx + 1)
      else if res.isError then some none
      else format.map fun format => some (fixate format)

/-- The state of a port counts as `CONFIGURE` when its node is idle. -/
def idleState (g : Graph) (p : Nat) (state : PinosPortState) : PinosPortState :=
  if PinosPortState.configure.bits < state.bits ∧ (g.nodeOf p).state = .idle then .configure
  else state

/-- `pinos_core_find_format`. -/
def findFormat (fuel : Nat) (g : Graph) (output input : Nat) : Option (Option Format) :=
  let outState := g.idleState output (g.ports output).state
  let inState := g.idleState input (g.ports input).state
  if inState = .configure ∧ PinosPortState.configure.bits < outState.bits then
    let (res, format) := spa.portGetFormat output
    some (if res.isError then none else format)
  else if outState = .configure ∧ PinosPortState.configure.bits < inState.bits then
    let (res, format) := spa.portGetFormat input
    some (if res.isError then none else format)
  else if inState = .configure ∧ outState = .configure then
    enumFormats spa fixate output input fuel none 0
  else some none

/-! ## Links -/

/-- `pinos_link_update_state`. -/
def updateLinkState (g : Graph) (l : Nat) (state : PinosLinkState) : Graph :=
  g.modifyLink l fun link =>
    if state = link.state then link
    else { link with state := state, stateChanged := link.stateChanged ++ [state] }

/-- `do_negotiate` suspends the node of a port when it is idle. -/
def suspendIdle (g : Graph) (p : Nat) (state : PinosPortState) : Graph :=
  if PinosPortState.configure.bits < state.bits ∧ (g.nodeOf p).state = .idle then
    (g.setNodeState spa (g.ports p).node .suspended).1
  else g

/-- The end of `do_negotiate`: the input port gets the format. -/
def setInputFormat (g : Graph) (l input : Nat) (inState : PinosPortState) (format : Format)
    (res : SpaResult) : Graph × SpaResult :=
  if inState = .configure then
    let res2 := spa.portSetFormat input (some format)
    if res2.isError then (g.updateLinkState l .error, res)
    else
      (g.addWork l (.new (some (g.ports input).node) res2 (.completeReady input)),
        if res2 ≠ .ok then res2 else res)
  else (g, res)

def setFormats (g : Graph) (l input output : Nat) (inState outState : PinosPortState)
    (format : Format) : Graph × SpaResult :=
  if outState = .configure then
    let res := spa.portSetFormat output (some format)
    if res.isError then (g.updateLinkState l .error, res)
    else
      (g.addWork l (.new (some (g.ports output).node) res (.completeReady output))).setInputFormat
        spa l input inState format res
  else g.setInputFormat spa l input inState format .error

def doNegotiate (fuel : Nat) (g : Graph) (l input output : Nat)
    (inState outState : PinosPortState) : Option (Graph × SpaResult) :=
  if inState ≠ .configure ∧ outState ≠ .configure then some (g, .ok)
  else
    let g := g.updateLinkState l .negotiating
    (findFormat spa fixate fuel g output input).map fun format =>
      match format with
      | none => (g.updateLinkState l .error, .error)
      | some format =>
        ((g.suspendIdle spa output outState).suspendIdle spa input inState).setFormats spa l
          input output (g.idleState input inState) (g.idleState output outState) format

/-! ## Buffers -/

/-- `find_meta_enable`. -/
def findMetaEnable (ringbuffer : UInt32) (info : SpaPortInfo) :
    Option (Option UInt32 × Option UInt32) :=
  info.params.findSome? fun
    | .metaEnable type size stride => if type = some ringbuffer then some (size, stride) else none
    | _ => none

/-- `find_param` of `Buffers`. -/
def findBuffers (info : SpaPortInfo) : Option (Option UInt32 × Option UInt32 × Option UInt32) :=
  info.params.findSome? fun
    | .buffers size stride buffers => some (size, stride, buffers)
    | _ => none

/-- What an allocation parameter of a port makes of a block. -/
def widenBlock (block : BufferBlock) (info : SpaPortInfo) : BufferBlock :=
  match findBuffers info with
  | none => block
  | some (size, stride, buffers) =>
    { nBuffers :=
        let most := buffers.getD block.nBuffers
        if most = 0 then block.nBuffers else min most block.nBuffers
      dataSize := max block.dataSize (size.getD block.dataSize.toUInt32).toUInt64
      dataStride := max block.dataStride (stride.getD block.dataStride.toUInt32).toUInt64 }

/-- How large the buffers have to be; the size in the ringbuffer is read from the input port
only. -/
def bufferBlock (ringbuffer : UInt32) (iinfo oinfo : SpaPortInfo) : BufferBlock :=
  match findMetaEnable ringbuffer iinfo, findMetaEnable ringbuffer oinfo with
  | some (some size, some stride), some _ => ⟨1, size.toUInt64, stride.toUInt64⟩
  | some _, some _ => ⟨1, 1024, 0⟩
  | _, _ => widenBlock (widenBlock ⟨16, 0, 0⟩ iinfo) oinfo

/-- What the two ports are asked to do. -/
inductive AllocFlags where
  | delayed
  | noCommon
  | flags (inFlags outFlags : UInt32)

def hasFlag (flags flag : UInt32) : Bool := flags &&& flag ≠ 0

def allocFlags (inState outState : PinosPortState) (inFlags outFlags : UInt32) : AllocFlags :=
  if inState = .ready ∧ outState = .ready then
    if hasFlag outFlags canAllocBuffers ∧ hasFlag inFlags canUseBuffers then
      .flags canUseBuffers canAllocBuffers
    else if hasFlag outFlags canUseBuffers ∧ hasFlag inFlags canAllocBuffers then
      .flags canAllocBuffers canUseBuffers
    else if hasFlag outFlags canUseBuffers ∧ hasFlag inFlags canUseBuffers then
      .flags canUseBuffers canUseBuffers
    else if hasFlag outFlags canAllocBuffers ∧ hasFlag inFlags canAllocBuffers then
      .flags canAllocBuffers canAllocBuffers
    else .noCommon
  else if inState = .ready ∧ PinosPortState.ready.bits < outState.bits then
    .flags (inFlags &&& ~~~canAllocBuffers) (outFlags &&& ~~~canUseBuffers)
  else if outState = .ready ∧ PinosPortState.ready.bits < inState.bits then
    .flags (inFlags &&& ~~~canUseBuffers) (outFlags &&& ~~~canAllocBuffers)
  else .delayed

/-- The link takes the buffers of a port. -/
def reuseBuffers (g : Graph) (l p : Nat) : Graph :=
  g.modifyLink l fun link =>
    { link with
      nBuffers := (g.ports p).nBuffers
      buffers := (g.ports p).buffers
      bufferOwner := some (.port p) }

/-- The link allocates a block of its own. -/
def newBuffers (g : Graph) (l : Nat) (block : BufferBlock) : Graph :=
  { g.modifyLink l fun link =>
      { link with
        bufferOwner := some .link
        nBuffers := block.nBuffers
        buffers := some g.blocks.length
        bufferMem := some g.blocks.length } with
    blocks := g.blocks ++ [block] }

/-- A port allocates the memory of the buffers of the link. -/
def portAllocBuffers (g : Graph) (l p : Nat) : Graph × SpaResult :=
  let (res, nBuffers) := spa.portAllocBuffers p (g.links l).buffers (g.links l).nBuffers
  let g := g.modifyLink l fun link => { link with nBuffers := nBuffers }
  if res.isError then (g, res)
  else
    (((g.addWork l (.new (some (g.ports p).node) res (.completePaused p))).modifyPort p fun port =>
      { port with
        buffers := (g.links l).buffers
        nBuffers := (g.links l).nBuffers
        allocated := true
        bufferMem := (g.links l).bufferMem
        given := (g.links l).buffers.map fun block => (block, (g.links l).nBuffers) }).modifyLink l
      fun link => { link with bufferOwner := some (.port p) }, res)

/-- A port uses the buffers of the link. -/
def portUseBuffers (g : Graph) (l p : Nat) : Graph × SpaResult :=
  let res := spa.portUseBuffers p (g.links l).buffers (g.links l).nBuffers
  if res.isError then (g, res)
  else
    ((g.addWork l (.new (some (g.ports p).node) res (.completePaused p))).modifyPort p fun port =>
      { port with
        buffers := (g.links l).buffers
        nBuffers := (g.links l).nBuffers
        allocated := false
        given := (g.links l).buffers.map fun block => (block, (g.links l).nBuffers) }, res)

/-- The flags that are left when the link has buffers to use, with the result of what it
took. -/
def prepareBuffers (g : Graph) (l input output : Nat) (block : BufferBlock)
    (inFlags outFlags : UInt32) (res : SpaResult) : Graph × SpaResult × UInt32 × UInt32 :=
  if (g.links l).buffers ≠ none then (g, res, inFlags, outFlags)
  else if (g.ports output).nBuffers ≠ 0 then (g.reuseBuffers l output, res, canUseBuffers, 0)
  else if (g.ports input).nBuffers ≠ 0 then (g.reuseBuffers l input, res, 0, canUseBuffers)
  else
    let g := g.newBuffers l
      (if hasFlag inFlags canAllocBuffers ∨ hasFlag outFlags canAllocBuffers then
        { block with dataSize := 0 }
      else block)
    if hasFlag outFlags canAllocBuffers then
      let (g, res) := g.portAllocBuffers spa l output
      (g, res, inFlags, outFlags)
    else if hasFlag inFlags canAllocBuffers then
      let (g, res) := g.portAllocBuffers spa l input
      (g, res, inFlags, outFlags)
    else (g, res, inFlags, outFlags)

/-- The `error` label of `do_allocation`. -/
def allocationError (g : Graph) (l input output : Nat) : Graph :=
  ((g.modifyPort output clear).modifyPort input clear).updateLinkState l .error
where
  clear (port : PinosPort) : PinosPort :=
    { port with buffers := none, nBuffers := 0, allocated := false }

/-- The end of `do_allocation`. -/
def useBuffers (g : Graph) (l input output : Nat) (inFlags outFlags : UInt32) (res : SpaResult) :
    Graph × SpaResult :=
  let (g, res, failed) :=
    if hasFlag inFlags canUseBuffers then
      let (g, res) := g.portUseBuffers spa l input
      (g, res, res.isError)
    else if hasFlag outFlags canUseBuffers then
      let (g, res) := g.portUseBuffers spa l output
      (g, res, res.isError)
    else (g, res, true)
  if failed then (g.allocationError l input output, res) else (g, res)

def setLive (g : Graph) (input output : Nat) (outFlags : UInt32) : Graph :=
  if hasFlag outFlags flagLive then
    (g.modifyNode (g.ports output).node fun node => { node with live := true }).modifyNode
      (g.ports input).node fun node => { node with live := true }
  else g

variable (ringbuffer : UInt32)

def doAllocation (g : Graph) (l input output : Nat) (inState outState : PinosPortState) :
    Graph × SpaResult :=
  if inState ≠ .ready ∧ outState ≠ .ready then (g, .ok)
  else
    let g := g.updateLinkState l .allocating
    let (res, oinfo) := spa.portGetInfo output
    if res.isError then (g.allocationError l input output, res)
    else
      let (res, iinfo) := spa.portGetInfo input
      if res.isError then (g.allocationError l input output, res)
      else
        let g := g.setLive input output oinfo.flags
        match allocFlags inState outState iinfo.flags oinfo.flags with
        | .delayed => (g, .ok)
        | .noCommon => (g.allocationError l input output, .error)
        | .flags inFlags outFlags =>
          let (g, res, inFlags, outFlags) := g.prepareBuffers spa l input output
            (bufferBlock ringbuffer iinfo oinfo) inFlags outFlags res
          if res.isError then (g.allocationError l input output, res)
          else g.useBuffers spa l input output inFlags outFlags res

/-! ## Starting -/

/-- The node of a port is set to run. -/
def startPort (g : Graph) (l p : Nat) : Graph × SpaResult :=
  let (g, res) := g.setNodeState spa (g.ports p).node .running
  (g.addWork l (.new (some (g.ports p).node) res (.completeStreaming p)), res)

def doStart (g : Graph) (l input output : Nat) (inState outState : PinosPortState) :
    Graph × SpaResult :=
  if inState.bits < PinosPortState.paused.bits ∨ outState.bits < PinosPortState.paused.bits then
    (g, .ok)
  else if inState = .streaming ∧ outState = .streaming then (g.updateLinkState l .running, .ok)
  else
    let g := g.updateLinkState l .paused
    let (g, res) := if inState = .paused then g.startPort spa l input else (g, .ok)
    if outState = .paused then g.startPort spa l output else (g, res)

/-- `check_states`; `none` is a run that does not end. -/
def checkStates (fuel : Nat) (g : Graph) (l : Nat) : Option (Graph × SpaResult) :=
  if (g.links l).state = .error then some (g, .error)
  else
    match (g.links l).input, (g.links l).output with
    | some input, some output =>
      let inState := (g.ports input).state
      let outState := (g.ports output).state
      if (g.nodeOf input).state = .error ∨ (g.nodeOf output).state = .error then some (g, .error)
      else if inState = .streaming ∧ outState = .streaming then some (g, .ok)
      else
        (doNegotiate spa fixate fuel g l input output inState outState).map fun (g, res) =>
          if res ≠ .ok then exit g res
          else
            let (g, res) := g.doAllocation spa ringbuffer l input output inState outState
            if res ≠ .ok then exit g res
            else
              let (g, res) := g.doStart spa l input output inState outState
              exit g res
    | _, _ => some (g, .ok)
where
  exit (g : Graph) (res : SpaResult) : Graph × SpaResult :=
    if res.isError then (g, res) else (g.linkActivate l, res)

end Plugins

end Graph
end Pinos
