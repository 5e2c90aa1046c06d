import Pinos.Client.Introspect

/-
`client/interfaces.h`: the calls that travel between a client and the server.

The methods of an interface are called by a client and the events by the server.
-/

namespace Pinos
namespace Native

inductive Interface
  | core
  | registry
  | module
  | node
  | client
  | clientNode
  | link
  deriving DecidableEq

/-- A call with its arguments, named by the macro that makes it.  The text of an error
is what its format and the arguments behind it stand for. -/
inductive PinosMessage
  -- methods
  | coreDoClientUpdate (props : Option SpaDict)
  | coreDoSync (seq : UInt32)
  | coreDoGetRegistry (newId : UInt32)
  | coreDoCreateNode (factoryName name : Option CString) (props : Option SpaDict) (newId : UInt32)
  | coreDoCreateClientNode (name : Option CString) (props : Option SpaDict) (newId : UInt32)
  | coreDoUpdateTypes (firstId : UInt32) (types : Counted (Option CString))
  | registryDoBind (id newId : UInt32)
  | clientNodeDoUpdate (changeMask maxInputPorts maxOutputPorts : UInt32)
      (props : Option SpaPODObject)
  | clientNodeDoPortUpdate (direction portId changeMask : UInt32)
      (possibleFormats : Counted (Option SpaPODObject)) (format props : Option SpaPODObject)
      (info : Option SpaPortInfo)
  | clientNodeDoEvent (event : Option SpaPODObject)
  | clientNodeDoDestroy
  -- events
  | coreNotifyInfo (info : PinosCoreInfo)
  | coreNotifyDone (seq : UInt32)
  | coreNotifyError (id res : UInt32) (error : CString)
  | coreNotifyRemoveId (id : UInt32)
  | coreNotifyUpdateTypes (firstId : UInt32) (types : Counted (Option CString))
  | registryNotifyGlobal (id : UInt32) (type : Option CString)
  | registryNotifyGlobalRemove (id : UInt32)
  | moduleNotifyInfo (info : PinosModuleInfo)
  | nodeNotifyInfo (info : PinosNodeInfo)
  | clientNotifyInfo (info : PinosClientInfo)
  | clientNodeNotifyDone (readfd writefd : Int)
  | clientNodeNotifyEvent (event : Option SpaPODObject)
  | clientNodeNotifyAddPort (seq direction portId : UInt32)
  | clientNodeNotifyRemovePort (seq direction portId : UInt32)
  | clientNodeNotifySetFormat (seq direction portId flags : UInt32) (format : Option SpaPODObject)
  | clientNodeNotifySetProperty (seq id : UInt32) (value : List UInt8)
  | clientNodeNotifyAddMem (direction portId memId type : UInt32) (memfd : Int)
      (flags offset size : UInt32)
  | clientNodeNotifyUseBuffers (seq direction portId : UInt32)
      (buffers : Counted PinosClientNodeBuffer)
  | clientNodeNotifyNodeCommand (seq : UInt32) (command : Option SpaPODObject)
  | clientNodeNotifyPortCommand (portId : UInt32) (command : Option SpaPODObject)
  | clientNodeNotifyTransport (memfd : Int) (offset size : UInt32)
  | linkNotifyInfo (info : PinosLinkInfo)

namespace PinosMessage

def interface : PinosMessage → Interface
  | coreDoClientUpdate .. | coreDoSync .. | coreDoGetRegistry .. | coreDoCreateNode ..
  | coreDoCreateClientNode .. | coreDoUpdateTypes .. => .core
  | coreNotifyInfo .. | coreNotifyDone .. | coreNotifyError .. | coreNotifyRemoveId ..
  | coreNotifyUpdateTypes .. => .core
  | registryDoBind .. | registryNotifyGlobal .. | registryNotifyGlobalRemove .. => .registry
  | moduleNotifyInfo .. => .module
  | nodeNotifyInfo .. => .node
  | clientNotifyInfo .. => .client
  | clientNodeDoUpdate .. | clientNodeDoPortUpdate .. | clientNodeDoEvent ..
  | clientNodeDoDestroy => .clientNode
  | clientNodeNotifyDone .. | clientNodeNotifyEvent .. | clientNodeNotifyAddPort ..
  | clientNodeNotifyRemovePort .. | clientNodeNotifySetFormat .. | clientNodeNotifySetProperty ..
  | clientNodeNotifyAddMem .. | clientNodeNotifyUseBuffers .. | clientNodeNotifyNodeCommand ..
  | clientNodeNotifyPortCommand .. | clientNodeNotifyTransport .. => .clientNode
  | linkNotifyInfo .. => .link

/-- The server receives methods, a client events. -/
def isMethod : PinosMessage → Bool
  | coreDoClientUpdate .. | coreDoSync .. | coreDoGetRegistry .. | coreDoCreateNode ..
  | coreDoCreateClientNode .. | coreDoUpdateTypes .. | registryDoBind .. | clientNodeDoUpdate ..
  | clientNodeDoPortUpdate .. | clientNodeDoEvent .. | clientNodeDoDestroy => true
  | _ => false

/-- `PINOS_CORE_METHOD_CLIENT_UPDATE` and so on. -/
def opcode : PinosMessage → UInt8
  | coreDoClientUpdate .. => 0
  | coreDoSync .. => 1
  | coreDoGetRegistry .. => 2
  | coreDoCreateNode .. => 3
  | coreDoCreateClientNode .. => 4
  | coreDoUpdateTypes .. => 5
  | registryDoBind .. => 0
  | clientNodeDoUpdate .. => 0
  | clientNodeDoPortUpdate .. => 1
  | clientNodeDoEvent .. => 2
  | clientNodeDoDestroy => 3
  | coreNotifyInfo .. => 0
  | coreNotifyDone .. => 1
  | coreNotifyError .. => 2
  | coreNotifyRemoveId .. => 3
  | coreNotifyUpdateTypes .. => 4
  | registryNotifyGlobal .. => 0
  | registryNotifyGlobalRemove .. => 1
  | moduleNotifyInfo .. => 0
  | nodeNotifyInfo .. => 0
  | clientNotifyInfo .. => 0
  | clientNodeNotifyDone .. => 0
  | clientNodeNotifyEvent .. => 1
  | clientNodeNotifyAddPort .. => 2
  | clientNodeNotifyRemovePort .. => 3
  | clientNodeNotifySetFormat .. => 4
  | clientNodeNotifySetProperty .. => 5
  | clientNodeNotifyAddMem .. => 6
  | clientNodeNotifyUseBuffers .. => 7
  | clientNodeNotifyNodeCommand .. => 8
  | clientNodeNotifyPortCommand .. => 9
  | clientNodeNotifyTransport .. => 10
  | linkNotifyInfo .. => 0

end PinosMessage
end Native
end Pinos
