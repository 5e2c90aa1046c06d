import Pinos.Spa.PodGet

/-
The values that the calls of `client/interfaces.h` have as arguments, from
`client/introspect.h` and the headers of `spa`.

An enumeration is given by its number, a string or a pod by what is pointed to, and
of a record the fields are here that a marshal function writes.
-/

namespace Pinos

/-- As much of a string as there is room for. -/
def CString.take (str : CString) (n : Nat) : CString :=
  ⟨str.chars.take n, fun h => str.noNul (List.mem_of_mem_take h)⟩

namespace Native

structure SpaDictItem where
  key : Option CString
  value : Option CString
  deriving DecidableEq

/-- `n_items` and `items`. -/
abbrev SpaDict := Counted SpaDictItem

structure PinosCoreInfo where
  id : UInt32
  changeMask : UInt64
  userName : Option CString
  hostName : Option CString
  version : Option CString
  name : Option CString
  cookie : UInt32
  props : Option SpaDict

structure PinosModuleInfo where
  id : UInt32
  changeMask : UInt64
  name : Option CString
  filename : Option CString
  args : Option CString
  props : Option SpaDict

structure PinosClientInfo where
  id : UInt32
  changeMask : UInt64
  props : Option SpaDict

structure PinosNodeInfo where
  id : UInt32
  changeMask : UInt64
  name : Option CString
  maxInputs : UInt32
  nInputs : UInt32
  inputFormats : Counted (Option SpaPODObject)
  maxOutputs : UInt32
  nOutputs : UInt32
  outputFormats : Counted (Option SpaPODObject)
  state : UInt32
  error : Option CString
  props : Option SpaDict

structure PinosLinkInfo where
  id : UInt32
  changeMask : UInt64
  outputNodeId : UInt32
  outputPortId : UInt32
  inputNodeId : UInt32
  inputPortId : UInt32

structure SpaPortInfo where
  flags : UInt32
  rate : UInt32
  params : Counted (Option SpaPODObject)
  maxbuffering : UInt64
  latency : UInt64
  extra : Option SpaDict

structure SpaMeta where
  type : UInt32
  size : UInt32

/-- `data` is a pointer, or a number in its place. -/
structure SpaData where
  type : UInt32
  flags : UInt32
  mapoffset : UInt32
  maxsize : UInt32
  data : UInt64

structure SpaBuffer where
  id : UInt32
  metas : Counted SpaMeta
  datas : Counted SpaData

structure PinosClientNodeBuffer where
  memId : UInt32
  offset : UInt32
  size : UInt32
  buffer : SpaBuffer

end Native
end Pinos
