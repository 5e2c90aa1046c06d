import Pinos.Client.TransportArea

/-
`server/client-node.c`: the io of the ports of a proxy, and the slots of its transport.

The server writes and reads the io of the ports; the proxy passes it on to the client, and
takes what the client has put there, through the slots that both share.
-/

namespace Pinos

namespace PinosTransport

/-- The transport when the other side has changed the shared slots. -/
def withSlots (t t' : PinosTransport) : PinosTransport :=
  { t with inputs := t'.inputs, outputs := t'.outputs }

def addEvents (t : PinosTransport) (events : List TransportEvent) (room : TransportEvent → Bool) :
    PinosTransport :=
  events.foldl (fun t event => t.addEvent event (room event)) t

theorem withSlots_addEvents (t t' : PinosTransport) (events : List TransportEvent)
    (room : TransportEvent → Bool) : t.withSlots (t'.addEvents events room) = t.withSlots t' := by
  induction events generalizing t' with
  | nil => rfl
  | cons event events ih =>
    refine (ih (t'.addEvent event (room event))).trans ?_
    rw [addEvent]
    split
    · rfl
    · rfl

end PinosTransport

/-- `SpaProxy`: the io of its ports by their ids, where one is set. -/
structure SpaProxy where
  inPorts : List (Option SpaPortIO)
  outPorts : List (Option SpaPortIO)

namespace SpaProxy

/-- `spa_proxy_node_process_input`; the client is told of all its slots at once. -/
def processInput (this : SpaProxy) (t : PinosTransport) (room : Bool) :
    SpaProxy × PinosTransport :=
  ({ this with inPorts := this.inPorts.map (Option.map fun io => { io with status := .ok }) },
    { t with
      inputs := t.inputs.mapIdx fun i slot => (this.inPorts[i]?.join).getD slot
    }.addEvent .haveOutput room)

/-- The events for the buffers that are in the io of the output ports. -/
def reuseEvents (this : SpaProxy) : List TransportEvent :=
  (this.outPorts.mapIdx fun i port =>
    (port.bind SpaPortIO.buffer?).map (.reuseBuffer (.ofNat i))).filterMap id

/-- A port that needs a buffer. -/
def needsBuffer (this : SpaProxy) : Bool :=
  this.outPorts.any (Option.any fun io => io.status == .needBuffer)

/-- The ports with what is in their slots. -/
def takeOutputs (this : SpaProxy) (t : PinosTransport) : SpaProxy :=
  { this with
    outPorts := this.outPorts.mapIdx fun i port => port.map fun io => t.outputs[i]?.getD io }

/-- `spa_proxy_node_process_output`: the io of a port, without its buffer, is exchanged with
the slot. -/
def processOutput (this : SpaProxy) (t : PinosTransport) (room : TransportEvent → Bool) :
    SpaProxy × PinosTransport :=
  (this.takeOutputs t,
    { t with
      outputs := t.outputs.mapIdx fun i slot =>
        ((this.outPorts[i]?.join).map SpaPortIO.clear).getD slot
    }.addEvents (this.reuseEvents ++ if this.needsBuffer then [TransportEvent.needInput] else []) room)

end SpaProxy
end Pinos
