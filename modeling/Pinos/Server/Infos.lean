import Pinos.Client.Calls
import Pinos.Client.InfoUpdate
import Pinos.Client.Properties
import Pinos.Lib.Mirror
import Pinos.Server.NodeStates

/-
The infos of the core, of clients and of nodes: what the server sends to those that are bound to
them, and what their proxies make of it.

An info goes through its marshal and its demarshal function.  A string or a dict that is `NULL`
arrives empty, and of the change mask the lower half arrives.
-/

namespace Pinos
namespace Native

open Mirror

/-- `1 << bit`, for what has changed. -/
def changeMaskOf (bit : UInt64) : UInt64 := 1 <<< bit

/-- The dict of properties, of which `n_items` counts no more than 32 bits hold. -/
def propertiesDict (properties : PinosProperties) : SpaDict where
  items := (properties.dict.take (2 ^ 32 - 1)).map fun item => ⟨some item.key, item.value⟩
  small := by
    rw [List.length_map, List.length_take]
    omega

/-- What `pinos_core_update_properties` and `pinos_client_update_properties` do with a dict. -/
def updateProperties (properties : Option PinosProperties) (dict : List (CString × CString)) :
    PinosProperties :=
  match properties with
  | none => .newDict dict
  | some properties => dict.foldl (fun props item => props.set item.1 (some item.2)) properties

/-- An event with an info: a message is read, and the function that updates infos is given the
one of the proxy and the one of the message. -/
def eventInfo {Info : Type} (d : Demarshal PinosMessage) (info? : PinosMessage → Option Info)
    (update : Option Info → Option Info → Option (Option Info)) (info : Option Info)
    (values : List PodCall) : Option (Option Info) := do
  let (msg, _) ← d.get.read values.tail
  update info (some (← info? msg))

/-! ## The core -/

/-- `core->info`, with `core->properties` in place of their dict. -/
structure CoreInfo where
  id : UInt32
  userName : Option CString
  hostName : Option CString
  version : Option CString
  name : Option CString
  cookie : UInt32
  properties : Option PinosProperties

namespace CoreInfo

def info (core : CoreInfo) (changeMask : UInt64) : PinosCoreInfo where
  id := core.id
  changeMask
  userName := core.userName
  hostName := core.hostName
  version := core.version
  name := core.name
  cookie := core.cookie
  props := core.properties.map propertiesDict

/-- `pinos_core_update_properties`. -/
def updateProperties (core : CoreInfo) (dict : List (CString × CString)) : CoreInfo :=
  { core with properties := some (Native.updateProperties core.properties dict) }

/-- `core_event_info`. -/
def eventInfo : Option PinosCoreInfo → List PodCall → Option (Option PinosCoreInfo) :=
  Native.eventInfo Client.coreDemarshalInfo
    (fun | .coreNotifyInfo info => some info | _ => none) pinosCoreInfoUpdate

/-- `core_bind_func` sends the whole info, and `pinos_core_update_properties` the properties. -/
def protocol : Protocol CoreInfo (List (CString × CString)) (List PodCall)
    (Option PinosCoreInfo) where
  start := none
  change := updateProperties
  whole core := Server.coreMarshalInfo (core.info changeMaskAll)
  part core dict :=
    some (Server.coreMarshalInfo ((core.updateProperties dict).info (changeMaskOf 5)))
  receive := eventInfo

end CoreInfo

/-- What arrives of an info. -/
def PinosCoreInfo.sent (info : PinosCoreInfo) : PinosCoreInfo where
  id := info.id
  changeMask := cutLong info.changeMask
  userName := filled info.userName
  hostName := filled info.hostName
  version := filled info.version
  name := filled info.name
  cookie := info.cookie
  props := some (sentDict info.props)

theorem read_coreMarshalInfo (info : PinosCoreInfo) :
    Client.coreDemarshalInfo.get.read (Server.coreMarshalInfo info).tail =
      some (.coreNotifyInfo info.sent, [.pop]) := by
  simp [Client.coreDemarshalInfo, Server.coreMarshalInfo, podStruct, PinosCoreInfo.sent]

theorem copies_sentDict (props : Option SpaDict) : CopiesDict (some (sentDict props)) := by
  intro dict hdict item hitem
  cases hdict
  obtain ⟨item, -, rfl⟩ := List.mem_map.mp hitem
  rfl

/-- A mask of all bits arrives with those of all fields. -/
theorem changed_all {bit : UInt64} (h : bit ∈ [0, 1, 2, 3, 4, 5, 6]) :
    changed (cutLong changeMaskAll) bit = true := by
  simp only [List.mem_cons, List.not_mem_nil, or_false] at h
  rcases h with rfl | rfl | rfl | rfl | rfl | rfl | rfl <;> rfl

/-- A mask of one bit arrives with that bit. -/
theorem changed_one {bit : UInt64} (h : bit ∈ [0, 1, 2, 3, 4, 5, 6]) {bit' : UInt64}
    (h' : bit' ∈ [0, 5]) : changed (cutLong (changeMaskOf bit')) bit = true ↔ bit = bit' := by
  simp only [List.mem_cons, List.not_mem_nil, or_false] at h h'
  rcases h' with rfl | rfl <;>
    rcases h with rfl | rfl | rfl | rfl | rfl | rfl | rfl <;> decide

theorem changeMaskAll_or (mask : UInt64) : changeMaskAll ||| mask = changeMaskAll :=
  UInt64.neg_one_or

theorem PinosCoreInfo.assign_sent (mask : UInt64) (i info : PinosCoreInfo) :
    assign mask i info.sent = some {
      id := info.id
      changeMask := mask
      userName := if changed (cutLong info.changeMask) 0 then filled info.userName else i.userName
      hostName := if changed (cutLong info.changeMask) 1 then filled info.hostName else i.hostName
      version := if changed (cutLong info.changeMask) 2 then filled info.version else i.version
      name := if changed (cutLong info.changeMask) 3 then filled info.name else i.name
      cookie := if changed (cutLong info.changeMask) 4 then info.cookie else i.cookie
      props :=
        if changed (cutLong info.changeMask) 5 then some (sentDict info.props) else i.props } := by
  have hcopies : CopiesDict info.sent.props := copies_sentDict info.props
  rw [assign, takeOver_some fun _ => spaDictCopy_whole hcopies]
  rfl

namespace CoreInfo

def Shows (core : CoreInfo) (info : Option PinosCoreInfo) : Prop :=
  info = some { (core.info 0).sent with changeMask := changeMaskAll }

theorem eventInfo_marshal (info : Option PinosCoreInfo) (update : PinosCoreInfo) :
    eventInfo info (Server.coreMarshalInfo update) =
      pinosCoreInfoUpdate info (some update.sent) := by
  simp only [eventInfo, Native.eventInfo, read_coreMarshalInfo, Option.bind_eq_bind,
    Option.bind_some]

theorem faithful : Faithful protocol Shows where
  whole core := by
    refine ⟨_, ?_, rfl⟩
    simp only [protocol, eventInfo_marshal, pinosCoreInfoUpdate, infoUpdate,
      PinosCoreInfo.assign_sent]
    simp [info, PinosCoreInfo.sent, changed_all]
  part := by
    rintro core _ rfl dict
    refine ⟨_, ?_, rfl⟩
    simp only [protocol, eventInfo_marshal, pinosCoreInfoUpdate, infoUpdate,
      PinosCoreInfo.assign_sent, changeMaskAll_or]
    simp [info, updateProperties, PinosCoreInfo.sent, changed_one]

end CoreInfo

/-! ## Clients -/

/-- `client->info`, with `client->properties` in place of their dict. -/
structure ClientInfo where
  id : UInt32
  properties : Option PinosProperties

namespace ClientInfo

def info (client : ClientInfo) (changeMask : UInt64) : PinosClientInfo where
  id := client.id
  changeMask
  props := client.properties.map propertiesDict

/-- `pinos_client_update_properties`. -/
def updateProperties (client : ClientInfo) (dict : List (CString × CString)) : ClientInfo :=
  { client with properties := some (Native.updateProperties client.properties dict) }

/-- `client_event_info`. -/
def eventInfo : Option PinosClientInfo → List PodCall → Option (Option PinosClientInfo) :=
  Native.eventInfo Client.clientDemarshalInfo
    (fun | .clientNotifyInfo info => some info | _ => none) pinosClientInfoUpdate

/-- `client_bind_func` sends the whole info, and `pinos_client_update_properties` the
properties. -/
def protocol : Protocol ClientInfo (List (CString × CString)) (List PodCall)
    (Option PinosClientInfo) where
  start := none
  change := updateProperties
  whole client := Server.clientMarshalInfo (client.info changeMaskAll)
  part client dict :=
    some (Server.clientMarshalInfo ((client.updateProperties dict).info (changeMaskOf 0)))
  receive := eventInfo

end ClientInfo

/-- What arrives of an info. -/
def PinosClientInfo.sent (info : PinosClientInfo) : PinosClientInfo where
  id := info.id
  changeMask := cutLong info.changeMask
  props := some (sentDict info.props)

theorem read_clientMarshalInfo (info : PinosClientInfo) :
    Client.clientDemarshalInfo.get.read (Server.clientMarshalInfo info).tail =
      some (.clientNotifyInfo info.sent, [.pop]) := by
  simp [Client.clientDemarshalInfo, Server.clientMarshalInfo, podStruct, PinosClientInfo.sent]

theorem PinosClientInfo.assign_sent (mask : UInt64) (i info : PinosClientInfo) :
    assign mask i info.sent = some {
      id := info.id
      changeMask := mask
      props :=
        if changed (cutLong info.changeMask) 0 then some (sentDict info.props) else i.props } := by
  have hcopies : CopiesDict info.sent.props := copies_sentDict info.props
  rw [assign, takeOver_some fun _ => spaDictCopy_whole hcopies]
  rfl

namespace ClientInfo

def Shows (client : ClientInfo) (info : Option PinosClientInfo) : Prop :=
  info = some { (client.info 0).sent with changeMask := changeMaskAll }

theorem eventInfo_marshal (info : Option PinosClientInfo) (update : PinosClientInfo) :
    eventInfo info (Server.clientMarshalInfo update) =
      pinosClientInfoUpdate info (some update.sent) := by
  simp only [eventInfo, Native.eventInfo, read_clientMarshalInfo, Option.bind_eq_bind,
    Option.bind_some]

theorem faithful : Faithful protocol Shows where
  whole client := by
    refine ⟨_, ?_, rfl⟩
    simp only [protocol, eventInfo_marshal, pinosClientInfoUpdate, infoUpdate,
      PinosClientInfo.assign_sent]
    simp [info, PinosClientInfo.sent, changed_all]
  part := by
    rintro client _ rfl dict
    refine ⟨_, ?_, rfl⟩
    simp only [protocol, eventInfo_marshal, pinosClientInfoUpdate, infoUpdate,
      PinosClientInfo.assign_sent, changeMaskAll_or]
    simp [info, updateProperties, PinosClientInfo.sent, changed_one]

end ClientInfo

/-! ## Nodes -/

/-- The ports of a node, and the formats that its first ports enumerate. -/
structure NodePortInfo where
  maxInputs : UInt32
  nInputs : UInt32
  inputFormats : Counted SpaPODObject
  maxOutputs : UInt32
  nOutputs : UInt32
  outputFormats : Counted SpaPODObject

structure NodeInfo where
  id : UInt32
  name : Option CString
  ports : NodePortInfo
  state : PinosNodeState
  error : Option CString
  props : Option SpaDict

inductive NodeChange where
  | updateState (state : PinosNodeState) (error : Option CString)
  /-- Nobody is told. -/
  | ports (ports : NodePortInfo)

namespace NodeInfo

def stateValue (node : NodeInfo) : UInt32 := .ofInt node.state.value

/-- The info that `node_bind_func` fills. -/
def info (node : NodeInfo) : PinosNodeInfo where
  id := node.id
  changeMask := changeMaskAll
  name := node.name
  maxInputs := node.ports.maxInputs
  nInputs := node.ports.nInputs
  inputFormats := node.ports.inputFormats.map some
  maxOutputs := node.ports.maxOutputs
  nOutputs := node.ports.nOutputs
  outputFormats := node.ports.outputFormats.map some
  state := node.stateValue
  error := node.error
  props := node.props

/-- The info that `pinos_node_update_state` fills. -/
def stateInfo (node : NodeInfo) : PinosNodeInfo :=
  { PinosNodeInfo.calloc with
    id := node.id
    changeMask := changeMaskOf 5
    state := node.stateValue
    error := node.error }

def change (node : NodeInfo) : NodeChange → NodeInfo
  | .updateState state error =>
    if node.state = state then node else { node with state := state, error := error }
  | .ports ports => { node with ports := ports }

/-- `node_event_info`. -/
def eventInfo : Option PinosNodeInfo → List PodCall → Option (Option PinosNodeInfo) :=
  Native.eventInfo Client.nodeDemarshalInfo
    (fun | .nodeNotifyInfo info => some info | _ => none) pinosNodeInfoUpdate

/-- `node_bind_func` sends the whole info, and `pinos_node_update_state` the state when it is
another one. -/
def protocol : Protocol NodeInfo NodeChange (List PodCall) (Option PinosNodeInfo) where
  start := none
  change := change
  whole node := Server.nodeMarshalInfo node.info
  part node
    | .updateState state error =>
      if node.state = state then none
      else some (Server.nodeMarshalInfo (node.change (.updateState state error)).stateInfo)
    | .ports _ => none
  receive := eventInfo

end NodeInfo

/-- What arrives of an info; the formats are left as they are. -/
def PinosNodeInfo.sent (info : PinosNodeInfo) : PinosNodeInfo :=
  { info with
    changeMask := cutLong info.changeMask
    name := filled info.name
    error := filled info.error
    props := some (sentDict info.props) }

/-- There are no `NULL` formats. -/
def PinosNodeInfo.HasFormats (info : PinosNodeInfo) : Prop :=
  none ∉ info.inputFormats.items ∧ none ∉ info.outputFormats.items

theorem read_nodeMarshalInfo {info : PinosNodeInfo} (h : info.HasFormats) :
    Client.nodeDemarshalInfo.get.read (Server.nodeMarshalInfo info).tail =
      some (.nodeNotifyInfo info.sent, [.pop]) := by
  obtain ⟨hin, hout⟩ := h
  simp [Client.nodeDemarshalInfo, Server.nodeMarshalInfo, podStruct, PinosNodeInfo.sent, hin, hout]

theorem copies_formats {formats : Counted (Option SpaPODObject)} (h : none ∉ formats.items) :
    CopiesFormats formats := by
  intro format hformat
  by_contra hnone
  rw [Option.not_isSome_iff_eq_none.mp hnone] at hformat
  exact h hformat

theorem PinosNodeInfo.assign_sent (mask : UInt64) (i : PinosNodeInfo) {info : PinosNodeInfo}
    (h : info.HasFormats) : ∃ info', assign mask i info.sent = some info' ∧
      info'.changeMask = mask ∧ info'.id = info.id ∧
      info'.name = (if changed (cutLong info.changeMask) 0 then filled info.name else i.name) ∧
      info'.state = (if changed (cutLong info.changeMask) 5 then info.state else i.state) ∧
      info'.error = (if changed (cutLong info.changeMask) 5 then filled info.error else i.error) ∧
      info'.props =
        if changed (cutLong info.changeMask) 6 then some (sentDict info.props) else i.props := by
  have hcopies : CopiesDict info.sent.props := copies_sentDict info.props
  have hin : CopiesFormats info.sent.inputFormats := copies_formats h.1
  have hout : CopiesFormats info.sent.outputFormats := copies_formats h.2
  rw [assign, takeOver_some fun _ => copyFormats_whole hin,
    takeOver_some fun _ => copyFormats_whole hout, takeOver_some fun _ => spaDictCopy_whole hcopies]
  exact ⟨_, rfl, rfl, rfl, rfl, rfl, rfl, rfl⟩

namespace NodeInfo

/-- The state and its error, and all that never changes.  What is known of ports and formats is
from when the node was bound. -/
def Shows (node : NodeInfo) (info : Option PinosNodeInfo) : Prop :=
  ∃ i, info = some i ∧ i.changeMask = changeMaskAll ∧ i.id = node.id ∧ i.name = filled node.name ∧
    i.state = node.stateValue ∧ i.error = filled node.error ∧
    i.props = some (sentDict node.props)

theorem hasFormats_info (node : NodeInfo) : node.info.HasFormats := by
  constructor <;> simp [info, Counted.map]

theorem hasFormats_stateInfo (node : NodeInfo) : node.stateInfo.HasFormats :=
  ⟨List.not_mem_nil, List.not_mem_nil⟩

theorem eventInfo_marshal (info : Option PinosNodeInfo) {update : PinosNodeInfo}
    (h : update.HasFormats) :
    eventInfo info (Server.nodeMarshalInfo update) =
      pinosNodeInfoUpdate info (some update.sent) := by
  simp only [eventInfo, Native.eventInfo, read_nodeMarshalInfo h, Option.bind_eq_bind,
    Option.bind_some]

theorem receive_stateInfo {node : NodeInfo} {i : PinosNodeInfo}
    (hmask : i.changeMask = changeMaskAll) (hname : i.name = filled node.name)
    (hprops : i.props = some (sentDict node.props)) :
    ∃ info, protocol.receive (some i) (Server.nodeMarshalInfo node.stateInfo) = some info ∧
      node.Shows info := by
  obtain ⟨info, hassign, hmask', hid, hname', hstate, herror, hprops'⟩ :=
    PinosNodeInfo.assign_sent changeMaskAll i node.hasFormats_stateInfo
  refine ⟨some info, ?_, info, rfl, hmask', hid, ?_⟩
  · simp only [protocol, eventInfo_marshal _ node.hasFormats_stateInfo, pinosNodeInfoUpdate,
      infoUpdate, hmask, changeMaskAll_or, hassign, Option.map_some]
  · simp [stateInfo, changed_one, hname, hprops] at hname' hstate herror hprops'
    exact ⟨hname', hstate, herror, hprops'⟩

theorem faithful : Faithful protocol Shows where
  whole node := by
    obtain ⟨info, hassign, hmask, hid, hname, hstate, herror, hprops⟩ :=
      PinosNodeInfo.assign_sent changeMaskAll .calloc node.hasFormats_info
    refine ⟨some info, ?_, info, rfl, hmask, hid, ?_⟩
    · simp only [protocol, eventInfo_marshal _ node.hasFormats_info, pinosNodeInfoUpdate,
        infoUpdate, hassign, Option.map_some]
    · simp [NodeInfo.info, changed_all] at hname hstate herror hprops
      exact ⟨hname, hstate, herror, hprops⟩
  part := by
    rintro node _ ⟨i, rfl, hmask, hid, hname, hstate, herror, hprops⟩ d
    cases d with
    | ports ports => exact ⟨i, rfl, hmask, hid, hname, hstate, herror, hprops⟩
    | updateState state error =>
      by_cases hsame : node.state = state
      · simp only [protocol, change, if_pos hsame]
        exact ⟨i, rfl, hmask, hid, hname, hstate, herror, hprops⟩
      · simp only [protocol, change, if_neg hsame]
        exact receive_stateInfo hmask hname hprops

end NodeInfo

/-! ## Runs -/

end Native
end Pinos
