import Pinos.Client.Arguments
import Pinos.Client.Connection
import Pinos.Client.Demarshal
import Pinos.Client.Interfaces

/-
`server/protocol-native.c`: events are written and methods are read.

The marshal functions of events with file descriptors are given the connection, to
which the descriptors are added while the arguments are evaluated.
-/

namespace Pinos
namespace Native
namespace Server

open Get

/-! ## Events -/

def coreMarshalInfo (info : PinosCoreInfo) : List PodCall :=
  podStruct ([.int info.id, .long info.changeMask, .string info.userName, .string info.hostName,
    .string info.version, .string info.name, .int info.cookie] ++ putDict info.props)

def coreMarshalDone (seq : UInt32) : List PodCall := podStruct [.int seq]

/-- `vsnprintf` keeps as much of the text as `buffer` has room for. -/
def coreMarshalError (id res : UInt32) (error : CString) : List PodCall :=
  podStruct [.int id, .int res, .string (some (error.take 127))]

def coreMarshalRemoveId (id : UInt32) : List PodCall := podStruct [.int id]

def coreMarshalUpdateTypes (firstId : UInt32) (types : Counted (Option CString)) : List PodCall :=
  podStruct ([.int firstId] ++ putArray putString types)

def registryMarshalGlobal (id : UInt32) (type : Option CString) : List PodCall :=
  podStruct [.int id, .string type]

def registryMarshalGlobalRemove (id : UInt32) : List PodCall := podStruct [.int id]

def moduleMarshalInfo (info : PinosModuleInfo) : List PodCall :=
  podStruct ([.int info.id, .long info.changeMask, .string info.name, .string info.filename,
    .string info.args] ++ putDict info.props)

def nodeMarshalInfo (info : PinosNodeInfo) : List PodCall :=
  podStruct ([.int info.id, .long info.changeMask, .string info.name, .int info.maxInputs,
      .int info.nInputs] ++ putArray putObject info.inputFormats ++
    [.int info.maxOutputs, .int info.nOutputs] ++ putArray putObject info.outputFormats ++
    [.int info.state, .string info.error] ++ putDict info.props)

def clientMarshalInfo (info : PinosClientInfo) : List PodCall :=
  podStruct ([.int info.id, .long info.changeMask] ++ putDict info.props)

/-- The index of a descriptor as an `int`; the return value `-1` has no index. -/
def fdIndex (index : Option Nat) : UInt32 := (index.map UInt32.ofNat).getD 0xffffffff

def clientNodeMarshalDone (connection : ConnectionBuffer) (readfd writefd : Int) :
    ConnectionBuffer × List PodCall :=
  let (connection, ridx) := connection.addFd readfd
  let (connection, widx) := connection.addFd writefd
  (connection, podStruct [.int (fdIndex ridx), .int (fdIndex widx)])

def clientNodeMarshalEvent (event : Option SpaPODObject) : List PodCall :=
  podStruct (putObject event)

def clientNodeMarshalAddPort (seq direction portId : UInt32) : List PodCall :=
  podStruct [.int seq, .int direction, .int portId]

def clientNodeMarshalRemovePort (seq direction portId : UInt32) : List PodCall :=
  podStruct [.int seq, .int direction, .int portId]

def clientNodeMarshalSetFormat (seq direction portId flags : UInt32)
    (format : Option SpaPODObject) : List PodCall :=
  podStruct ([.int seq, .int direction, .int portId, .int flags] ++ putObject format)

def clientNodeMarshalSetProperty (seq id : UInt32) (value : List UInt8) : List PodCall :=
  podStruct [.int seq, .int id, .bytes value]

def clientNodeMarshalAddMem (connection : ConnectionBuffer)
    (direction portId memId type : UInt32) (memfd : Int) (flags offset size : UInt32) :
    ConnectionBuffer × List PodCall :=
  let (connection, memfdIdx) := connection.addFd memfd
  (connection, podStruct [.int direction, .int portId, .int memId, .id type,
    .int (fdIndex memfdIdx), .int flags, .int offset, .int size])

def clientNodeMarshalUseBuffers (seq direction portId : UInt32)
    (buffers : Counted PinosClientNodeBuffer) : List PodCall :=
  podStruct ([.int seq, .int direction, .int portId] ++ putArray putBuffer buffers)

def clientNodeMarshalNodeCommand (seq : UInt32) (command : Option SpaPODObject) : List PodCall :=
  podStruct ([.int seq] ++ putObject command)

def clientNodeMarshalPortCommand (portId : UInt32) (command : Option SpaPODObject) : List PodCall :=
  podStruct ([.int portId] ++ putObject command)

def clientNodeMarshalTransport (connection : ConnectionBuffer) (memfd : Int)
    (offset size : UInt32) : ConnectionBuffer × List PodCall :=
  let (connection, memfdIdx) := connection.addFd memfd
  (connection, podStruct [.int (fdIndex memfdIdx), .int offset, .int size])

def linkMarshalInfo (info : PinosLinkInfo) : List PodCall :=
  podStruct [.int info.id, .long info.changeMask, .int info.outputNodeId, .int info.outputPortId,
    .int info.inputNodeId, .int info.inputPortId]

/-! ## Methods -/

def coreDemarshalClientUpdate : Demarshal PinosMessage where
  remap := false
  get := do
    let props ← getDict
    pure (.coreDoClientUpdate (some props))

def coreDemarshalSync : Demarshal PinosMessage where
  remap := false
  get := do
    let seq ← getInt
    pure (.coreDoSync seq)

def coreDemarshalGetRegistry : Demarshal PinosMessage where
  remap := false
  get := do
    let newId ← getInt
    pure (.coreDoGetRegistry newId)

def coreDemarshalCreateNode : Demarshal PinosMessage where
  remap := false
  get := do
    let factoryName ← getString
    let name ← getString
    let props ← getDict
    let newId ← getInt
    pure (.coreDoCreateNode factoryName name (some props) newId)

def coreDemarshalCreateClientNode : Demarshal PinosMessage where
  remap := false
  get := do
    let name ← getString
    let props ← getDict
    let newId ← getInt
    pure (.coreDoCreateClientNode name (some props) newId)

def coreDemarshalUpdateTypes : Demarshal PinosMessage where
  remap := false
  get := do
    let firstId ← getInt
    let types ← getStrings
    pure (.coreDoUpdateTypes firstId types)

def registryDemarshalBind : Demarshal PinosMessage where
  remap := false
  get := do
    let id ← getInt
    let newId ← getInt
    pure (.registryDoBind id newId)

def clientNodeDemarshalUpdate : Demarshal PinosMessage where
  remap := true
  get := do
    let changeMask ← getInt
    let maxInputPorts ← getInt
    let maxOutputPorts ← getInt
    let props ← getObjectOrNull
    pure (.clientNodeDoUpdate changeMask maxInputPorts maxOutputPorts props)

/-- The last value of `port_update`: the struct with the info, or the pod for NULL. -/
def getPortInfo : Get (Option SpaPortInfo) := do
  let ipod ← getStructOrNull
  if ipod then do
    let flags ← getInt
    let rate ← getInt
    let maxbuffering ← getLong
    let latency ← getLong
    let params ← getObjects
    let extra ← getDict
    pure (some { flags, rate, params, maxbuffering, latency, extra := some extra })
  else pure none

def clientNodeDemarshalPortUpdate : Demarshal PinosMessage where
  remap := true
  get := do
    let direction ← getInt
    let portId ← getInt
    let changeMask ← getInt
    let possibleFormats ← getObjects
    let format ← getObjectOrNull
    let props ← getObjectOrNull
    let info ← getPortInfo
    pure (.clientNodeDoPortUpdate direction portId changeMask possibleFormats format props info)

def clientNodeDemarshalEvent : Demarshal PinosMessage where
  remap := true
  get := do
    let event ← getObject
    pure (.clientNodeDoEvent event)

def clientNodeDemarshalDestroy : Demarshal PinosMessage where
  remap := false
  get := pure .clientNodeDoDestroy

/-- `pinos_protocol_native_server_core_demarshal` and so on. -/
def methods : Interface → List (Demarshal PinosMessage)
  | .core =>
    [coreDemarshalClientUpdate, coreDemarshalSync, coreDemarshalGetRegistry,
      coreDemarshalCreateNode, coreDemarshalCreateClientNode, coreDemarshalUpdateTypes]
  | .registry => [registryDemarshalBind]
  | .clientNode =>
    [clientNodeDemarshalUpdate, clientNodeDemarshalPortUpdate, clientNodeDemarshalEvent,
      clientNodeDemarshalDestroy]
  | .module | .node | .client | .link => []

end Server
end Native
end Pinos
