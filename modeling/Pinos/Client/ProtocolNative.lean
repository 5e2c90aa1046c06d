import Pinos.Client.Arguments
import Pinos.Client.Connection
import Pinos.Client.Demarshal
import Pinos.Client.Interfaces

/-
`client/protocol-native.c`: methods are written and events are read.

A marshal function is given by the values it adds with `spa_pod_builder_add`, and a
demarshal function by the call it makes of the values it gets.  The types that a
marshal function announces first with `core_update_map` are not part of its message.
-/

namespace Pinos
namespace Native

open Get

namespace Client

/-! ## Methods -/

def coreMarshalClientUpdate (props : Option SpaDict) : List PodCall := podStruct (putDictInt props)

def coreMarshalSync (seq : UInt32) : List PodCall := podStruct [.int seq]

def coreMarshalGetRegistry (newId : UInt32) : List PodCall := podStruct [.int newId]

def coreMarshalCreateNode (factoryName name : Option CString) (props : Option SpaDict)
    (newId : UInt32) : List PodCall :=
  podStruct ([.string factoryName, .string name] ++ putDict props ++ [.int newId])

def coreMarshalCreateClientNode (name : Option CString) (props : Option SpaDict)
    (newId : UInt32) : List PodCall :=
  podStruct ([.string name] ++ putDict props ++ [.int newId])

def coreMarshalUpdateTypes (firstId : UInt32) (types : Counted (Option CString)) : List PodCall :=
  podStruct ([.int firstId] ++ putArray putString types)

def registryMarshalBind (id newId : UInt32) : List PodCall := podStruct [.int id, .int newId]

def clientNodeMarshalUpdate (changeMask maxInputPorts maxOutputPorts : UInt32)
    (props : Option SpaPODObject) : List PodCall :=
  podStruct ([.int changeMask, .int maxInputPorts, .int maxOutputPorts] ++ putObject props)

/-- The info of a port is a struct of its own, or the pod for NULL. -/
def putPortInfo : Option SpaPortInfo → List PodCall
  | none => [.pod none]
  | some info =>
    podStruct ([.int info.flags, .int info.rate, .long info.maxbuffering, .long info.latency] ++
      putArray putObject info.params ++ putDictInt info.extra)

def clientNodeMarshalPortUpdate (direction portId changeMask : UInt32)
    (possibleFormats : Counted (Option SpaPODObject)) (format props : Option SpaPODObject)
    (info : Option SpaPortInfo) : List PodCall :=
  podStruct ([.int direction, .int portId, .int changeMask] ++ putArray putObject possibleFormats ++
    putObject format ++ putObject props ++ putPortInfo info)

def clientNodeMarshalEvent (event : Option SpaPODObject) : List PodCall :=
  podStruct (putObject event)

/-- The 0 that is given for the values ends the argument list before the struct is
popped. -/
def clientNodeMarshalDestroy : List PodCall := [.pushStruct]

/-! ## Events -/

def coreDemarshalInfo : Demarshal PinosMessage where
  remap := false
  get := do
    let id ← getInt
    let changeMask ← getLong
    let userName ← getString
    let hostName ← getString
    let version ← getString
    let name ← getString
    let cookie ← getInt
    let props ← getDict
    pure (.coreNotifyInfo
      { id, changeMask, userName, hostName, version, name, cookie, props := some props })

def coreDemarshalDone : Demarshal PinosMessage where
  remap := false
  get := do
    let seq ← getInt
    pure (.coreNotifyDone seq)

def coreDemarshalError : Demarshal PinosMessage where
  remap := false
  get := do
    let id ← getInt
    let res ← getInt
    string fun error => pure (.coreNotifyError id res error)

def coreDemarshalRemoveId : Demarshal PinosMessage where
  remap := false
  get := do
    let id ← getInt
    pure (.coreNotifyRemoveId id)

def coreDemarshalUpdateTypes : Demarshal PinosMessage where
  remap := false
  get := do
    let firstId ← getInt
    let types ← getStrings
    pure (.coreNotifyUpdateTypes firstId types)

def moduleDemarshalInfo : Demarshal PinosMessage where
  remap := false
  get := do
    let id ← getInt
    let changeMask ← getLong
    let name ← getString
    let filename ← getString
    let args ← getString
    let props ← getDict
    pure (.moduleNotifyInfo { id, changeMask, name, filename, args, props := some props })

def nodeDemarshalInfo : Demarshal PinosMessage where
  remap := true
  get := do
    let id ← getInt
    let changeMask ← getLong
    let name ← getString
    let maxInputs ← getInt
    let nInputs ← getInt
    let inputFormats ← getObjects
    let maxOutputs ← getInt
    let nOutputs ← getInt
    let outputFormats ← getObjects
    let state ← getInt
    let error ← getString
    let props ← getDict
    pure (.nodeNotifyInfo
      { id, changeMask, name, maxInputs, nInputs, inputFormats, maxOutputs, nOutputs,
        outputFormats, state, error, props := some props })

def clientDemarshalInfo : Demarshal PinosMessage where
  remap := false
  get := do
    let id ← getInt
    let changeMask ← getLong
    let props ← getDict
    pure (.clientNotifyInfo { id, changeMask, props := some props })

def linkDemarshalInfo : Demarshal PinosMessage where
  remap := false
  get := do
    let id ← getInt
    let changeMask ← getLong
    let outputNodeId ← getInt
    let outputPortId ← getInt
    let inputNodeId ← getInt
    let inputPortId ← getInt
    pure (.linkNotifyInfo { id, changeMask, outputNodeId, outputPortId, inputNodeId, inputPortId })

def registryDemarshalGlobal : Demarshal PinosMessage where
  remap := false
  get := do
    let id ← getInt
    let type ← getString
    pure (.registryNotifyGlobal id type)

def registryDemarshalGlobalRemove : Demarshal PinosMessage where
  remap := false
  get := do
    let id ← getInt
    pure (.registryNotifyGlobalRemove id)

def clientNodeDemarshalDone (connection : ConnectionBuffer) : Demarshal PinosMessage where
  remap := false
  get := do
    let ridx ← getInt
    let widx ← getInt
    let readfd := connection.getFd ridx.toNat
    let writefd := connection.getFd widx.toNat
    if readfd = -1 ∨ writefd = -1 then fail else pure (.clientNodeNotifyDone readfd writefd)

def clientNodeDemarshalEvent : Demarshal PinosMessage where
  remap := true
  get := do
    let event ← getObject
    pure (.clientNodeNotifyEvent event)

def clientNodeDemarshalAddPort : Demarshal PinosMessage where
  remap := false
  get := do
    let seq ← getInt
    let direction ← getInt
    let portId ← getInt
    pure (.clientNodeNotifyAddPort seq direction portId)

def clientNodeDemarshalRemovePort : Demarshal PinosMessage where
  remap := false
  get := do
    let seq ← getInt
    let direction ← getInt
    let portId ← getInt
    pure (.clientNodeNotifyRemovePort seq direction portId)

def clientNodeDemarshalSetFormat : Demarshal PinosMessage where
  remap := true
  get := do
    let seq ← getInt
    let direction ← getInt
    let portId ← getInt
    let flags ← getInt
    let format ← getObjectOrNull
    pure (.clientNodeNotifySetFormat seq direction portId flags format)

def clientNodeDemarshalSetProperty : Demarshal PinosMessage where
  remap := false
  get := do
    let seq ← getInt
    let id ← getInt
    let value ← getBytes
    pure (.clientNodeNotifySetProperty seq id value)

def clientNodeDemarshalAddMem (connection : ConnectionBuffer) : Demarshal PinosMessage where
  remap := true
  get := do
    let direction ← getInt
    let portId ← getInt
    let memId ← getInt
    let type ← getId
    let memfdIdx ← getInt
    let flags ← getInt
    let offset ← getInt
    let size ← getInt
    let memfd := connection.getFd memfdIdx.toNat
    pure (.clientNodeNotifyAddMem direction portId memId type memfd flags offset size)

def clientNodeDemarshalUseBuffers : Demarshal PinosMessage where
  remap := true
  get := do
    let seq ← getInt
    let direction ← getInt
    let portId ← getInt
    let buffers ← getArray getBuffer
    pure (.clientNodeNotifyUseBuffers seq direction portId buffers)

def clientNodeDemarshalNodeCommand : Demarshal PinosMessage where
  remap := true
  get := do
    let seq ← getInt
    let command ← getObject
    pure (.clientNodeNotifyNodeCommand seq command)

def clientNodeDemarshalPortCommand : Demarshal PinosMessage where
  remap := true
  get := do
    let portId ← getInt
    let command ← getObject
    pure (.clientNodeNotifyPortCommand portId command)

def clientNodeDemarshalTransport (connection : ConnectionBuffer) : Demarshal PinosMessage where
  remap := false
  get := do
    let memfdIdx ← getInt
    let offset ← getInt
    let size ← getInt
    let memfd := connection.getFd memfdIdx.toNat
    pure (.clientNodeNotifyTransport memfd offset size)

/-- `pinos_protocol_native_client_core_demarshal` and so on. -/
def events (connection : ConnectionBuffer) : Interface → List (Demarshal PinosMessage)
  | .core =>
    [coreDemarshalInfo, coreDemarshalDone, coreDemarshalError, coreDemarshalRemoveId,
      coreDemarshalUpdateTypes]
  | .registry => [registryDemarshalGlobal, registryDemarshalGlobalRemove]
  | .module => [moduleDemarshalInfo]
  | .node => [nodeDemarshalInfo]
  | .client => [clientDemarshalInfo]
  | .clientNode =>
    [clientNodeDemarshalDone connection, clientNodeDemarshalEvent, clientNodeDemarshalAddPort,
      clientNodeDemarshalRemovePort, clientNodeDemarshalSetFormat, clientNodeDemarshalSetProperty,
      clientNodeDemarshalAddMem connection, clientNodeDemarshalUseBuffers,
      clientNodeDemarshalNodeCommand, clientNodeDemarshalPortCommand,
      clientNodeDemarshalTransport connection]
  | .link => [linkDemarshalInfo]

end Client
end Native
end Pinos
