import Pinos.Client.Interfaces
import Pinos.Server.Graph

/-
`server/client-node.c`: the ports of a proxy, as the messages of a client and the calls of the
server change and ask for them.

The two arrays of ports, and what goes with them, are found by a direction.
-/

namespace Pinos
namespace ClientNode

open Native (SpaPortInfo)

/-- `MAX_INPUTS` and `MAX_OUTPUTS`. -/
def maxIds : Nat := 64

/-- `io` is the port of the server whose io the proxy was given. -/
structure SpaProxyPort (Format : Type) where
  valid : Bool
  info : SpaPortInfo
  format : Option Format
  formats : Counted Format
  io : Option Nat
  nBuffers : UInt32

structure SpaProxy (Format : Type) where
  maxPorts : PinosDirection → UInt32
  nPorts : PinosDirection → UInt32
  ports : PinosDirection → Fin maxIds → SpaProxyPort Format
  formatBuffer : PodBuffer

/-- What `calloc` leaves of a `SpaPortInfo`. -/
def emptyInfo : SpaPortInfo where
  flags := 0
  rate := 0
  params := .nil
  maxbuffering := 0
  latency := 0
  extra := none

/-- `CHECK_PORT_ID`. -/
def checkPortId (direction portId : UInt32) : Option (PinosDirection × Fin maxIds) :=
  if h : portId.toNat < maxIds then
    if direction = 0 then some (.input, ⟨portId.toNat, h⟩)
    else if direction = 1 then some (.output, ⟨portId.toNat, h⟩)
    else none
  else none

/-- `PINOS_MESSAGE_NODE_UPDATE_MAX_INPUTS` and `PINOS_MESSAGE_NODE_UPDATE_MAX_OUTPUTS`. -/
def maxPortsFlag : PinosDirection → UInt32
  | .input => 1
  | .output => 2

/-- `PINOS_MESSAGE_PORT_UPDATE_POSSIBLE_FORMATS`. -/
def possibleFormatsFlag : UInt32 := 1

/-- `PINOS_MESSAGE_PORT_UPDATE_FORMAT`. -/
def formatFlag : UInt32 := 2

/-- `PINOS_MESSAGE_PORT_UPDATE_PROPS`. -/
def propsFlag : UInt32 := 4

/-- `PINOS_MESSAGE_PORT_UPDATE_INFO`. -/
def infoFlag : UInt32 := 8

/-- A bit of a change mask is set. -/
def Covers (changeMask flag : UInt32) : Prop := changeMask &&& flag ≠ 0

instance (changeMask flag : UInt32) : Decidable (Covers changeMask flag) :=
  inferInstanceAs (Decidable (_ ≠ _))

/-- The arguments of `port_update` behind the port, with the properties left out.  The formats
are never NULL. -/
structure PortUpdate (Format : Type) where
  changeMask : UInt32
  possibleFormats : Counted Format
  format : Option Format
  info : Option SpaPortInfo

section Proxy

variable {Format : Type}

namespace SpaProxyPort

/-- What `calloc` leaves of a port. -/
def empty : SpaProxyPort Format where
  valid := false
  info := emptyInfo
  format := none
  formats := .nil
  io := none
  nBuffers := 0

variable (port : SpaProxyPort Format) (m : PortUpdate Format)

def updateFormats : SpaProxyPort Format :=
  if Covers m.changeMask possibleFormatsFlag then { port with formats := m.possibleFormats }
  else port

def updateFormat : SpaProxyPort Format :=
  if Covers m.changeMask formatFlag then { port with format := m.format } else port

/-- The extra information is not kept. -/
def updateInfo : SpaProxyPort Format :=
  match m.info with
  | none => port
  | some info =>
    if Covers m.changeMask infoFlag then { port with info := { info with extra := none } } else port

/-- What `do_update_port` does with a port that becomes valid. -/
def init : SpaProxyPort Format :=
  if port.valid then port else { port with format := none, valid := true }

/-- What `do_update_port` does with a port. -/
def update : SpaProxyPort Format :=
  (((port.updateFormats m).updateFormat m).updateInfo m).init

/-- A format that comes with the message that makes the port valid is lost. -/
theorem update_eq :
    port.update m =
      { port with
        valid := true
        formats := if Covers m.changeMask possibleFormatsFlag then m.possibleFormats else port.formats
        format :=
          if port.valid then if Covers m.changeMask formatFlag then m.format else port.format
          else none
        info :=
          if Covers m.changeMask infoFlag then
            (m.info.map fun info => { info with extra := none }).getD port.info
          else port.info } := by
  obtain ⟨valid, info, format, formats, io, nBuffers⟩ := port
  unfold update updateInfo updateFormat updateFormats init
  by_cases hformats : Covers m.changeMask possibleFormatsFlag <;>
    by_cases hformat : Covers m.changeMask formatFlag <;>
    by_cases hinfo : Covers m.changeMask infoFlag <;>
    cases m.info <;> cases valid <;> simp [hformats, hformat, hinfo]

end SpaProxyPort

namespace SpaProxy

/-- What `calloc` leaves of a proxy. -/
def empty (formatBuffer : PodBuffer) : SpaProxy Format where
  maxPorts _ := 0
  nPorts _ := 0
  ports _ _ := .empty
  formatBuffer := formatBuffer

variable (this : SpaProxy Format) (d : PinosDirection) (i : Fin maxIds)

def setPort (port : SpaProxyPort Format) : SpaProxy Format :=
  { this with
    ports := Function.update this.ports d (Function.update (this.ports d) i port) }

def setNPorts (n : UInt32) : SpaProxy Format :=
  { this with nPorts := Function.update this.nPorts d n }

section Access

variable {this d i} {port : SpaProxyPort Format} {n : UInt32} {d' : PinosDirection}
  {j : Fin maxIds}

@[simp] theorem ports_setPort : (this.setPort d i port).ports d i = port := by
  show Function.update this.ports d _ d i = port
  rw [Function.update_self, Function.update_self]

theorem ports_setPort_of_ne (h : d' ≠ d ∨ j ≠ i) :
    (this.setPort d i port).ports d' j = this.ports d' j := by
  show Function.update this.ports d _ d' j = this.ports d' j
  by_cases hd : d' = d
  · rw [hd, Function.update_self, Function.update_of_ne (h.resolve_left (not_not.mpr hd))]
  · rw [Function.update_of_ne hd]

theorem ports_setPort_congr {that : SpaProxy Format} (h : this.ports = that.ports) :
    (this.setPort d i port).ports = (that.setPort d i port).ports := by
  unfold setPort
  rw [h]

theorem setPort_setPort {port' : SpaProxyPort Format} :
    (this.setPort d i port).setPort d i port' = this.setPort d i port' := by
  unfold setPort
  dsimp only
  rw [Function.update_self, Function.update_idem, Function.update_idem]

@[simp] theorem nPorts_setPort : (this.setPort d i port).nPorts = this.nPorts := rfl

@[simp] theorem ports_setNPorts : (this.setNPorts d n).ports = this.ports := rfl

@[simp] theorem nPorts_setNPorts : (this.setNPorts d n).nPorts d = n := Function.update_self ..

end Access

/-! ## Ports that are updated -/

/-- `do_update_port`: a port that was not valid is counted. -/
def doUpdatePort (m : PortUpdate Format) : SpaProxy Format :=
  let port := this.ports d i
  let this := this.setPort d i (port.update m)
  if port.valid then this else this.setNPorts d (this.nPorts d + 1)

/-- What `clear_port` has `do_update_port` do. -/
def clearing : PortUpdate Format where
  changeMask := possibleFormatsFlag ||| formatFlag ||| propsFlag ||| infoFlag
  possibleFormats := .nil
  format := none
  info := none

/-- `clear_buffers`, without the memory that is freed. -/
def clearBuffers : SpaProxy Format :=
  this.setPort d i { this.ports d i with nBuffers := 0 }

def clearPort : SpaProxy Format :=
  (this.doUpdatePort d i clearing).clearBuffers d i

def doUninitPort : SpaProxy Format :=
  let this := (this.setNPorts d (this.nPorts d - 1)).clearPort d i
  this.setPort d i { this.ports d i with valid := false }

/-! ## The messages of the client -/

/-- `client_node_update`, with the properties left out. -/
def clientNodeUpdate (changeMask maxInputPorts maxOutputPorts : UInt32) : SpaProxy Format :=
  { this with
    maxPorts := fun d =>
      if Covers changeMask (maxPortsFlag d) then
        match d with
        | .input => maxInputPorts
        | .output => maxOutputPorts
      else this.maxPorts d }

/-- `client_node_port_update`. -/
def clientNodePortUpdate (direction portId : UInt32) (m : PortUpdate Format) : SpaProxy Format :=
  match checkPortId direction portId with
  | none => this
  | some (d, i) => if m.changeMask = 0 then this.doUninitPort d i else this.doUpdatePort d i m

/-! ## The calls of the server -/

/-- `CHECK_PORT`. -/
def checkPort (direction portId : UInt32) : Option (PinosDirection × Fin maxIds) :=
  (checkPortId direction portId).filter fun (d, i) => (this.ports d i).valid

/-- `CHECK_FREE_PORT`. -/
def checkFreePort (direction portId : UInt32) : Option (PinosDirection × Fin maxIds) :=
  (checkPortId direction portId).filter fun (d, i) => !(this.ports d i).valid

/-- `spa_proxy_node_add_port`. -/
def addPort (direction portId : UInt32) : SpaProxy Format × SpaResult :=
  match this.checkFreePort direction portId with
  | none => (this, .invalidPort)
  | some (d, i) => (this.clearPort d i, .ok)

/-- `spa_proxy_node_remove_port`. -/
def removePort (direction portId : UInt32) : SpaProxy Format × SpaResult :=
  match this.checkPort direction portId with
  | none => (this, .invalidPort)
  | some (d, i) => (this.doUninitPort d i, .ok)

/-- `spa_proxy_node_port_set_io`. -/
def portSetIo (direction portId : UInt32) (io : Nat) : SpaProxy Format × SpaResult :=
  match this.checkPort direction portId with
  | none => (this, .invalidPort)
  | some (d, i) => (this.setPort d i { this.ports d i with io := some io }, .ok)

/-- A loop of `spa_proxy_node_get_port_ids`, from some ids on: the ids it writes when `c` are
written and there is room for `n`. -/
def writePortIds (n : UInt32) : List (Fin maxIds) → UInt32 → List (Fin maxIds)
  | [], _ => []
  | i :: is, c =>
    if c < n then
      if (this.ports d i).valid then i :: writePortIds n is (c + 1) else writePortIds n is c
    else []

/-- `spa_proxy_node_get_port_ids`, for an array that is not NULL. -/
def getPortIds (n : UInt32) : List (Fin maxIds) :=
  this.writePortIds d n (List.finRange maxIds) 0

/-- `spa_proxy_node_port_get_format`. -/
def portGetFormat (direction portId : UInt32) : SpaResult × Option Format :=
  match this.checkPort direction portId with
  | none => (.invalidPort, none)
  | some (d, i) =>
    match (this.ports d i).format with
    | none => (.noFormat, none)
    | some format => (.ok, some format)

/-- `spa_proxy_node_port_get_info`. -/
def portGetInfo (direction portId : UInt32) : SpaResult × Option SpaPortInfo :=
  match this.checkPort direction portId with
  | none => (.invalidPort, none)
  | some (d, i) => (.ok, some (this.ports d i).info)

/-! ## Formats that are enumerated -/

/-- `sizeof (this->format_buffer)`. -/
def formatBufferSize : Nat := 1024

/-- What is in `format_buffer`. -/
def bufferBytes : List UInt8 := (PodStore.view this.formatBuffer).read 0 formatBufferSize

/-- What `spa_format_filter` does with a format and a builder. -/
abbrev FormatFilter (Format : Type) :=
  Format → SpaPODBuilder PodBuffer → SpaPODBuilder PodBuffer × SpaResult

/-- `spa_format_filter` without a filter, for a format with some bytes. -/
def copyFormat (bytes : Format → List UInt8) : FormatFilter Format :=
  fun format b => ((b.rawPadded (bytes format)).1, .ok)

/-- `spa_proxy_node_port_enum_formats` from `next` on, with the formats that are left and how
many have matched. -/
def nextFormat (filter : FormatFilter Format) (index : UInt32) :
    List Format → UInt32 → PodBuffer → PodBuffer × SpaResult
  | [], _, buffer => (buffer, .enumEnd)
  | fmt :: formats, matched, buffer =>
    let (b, res) := filter fmt (.init buffer formatBufferSize)
    if res ≠ .ok then nextFormat filter index formats matched b.data
    else if matched ≠ index then nextFormat filter index formats (matched + 1) b.data
    else (b.data, .ok)

/-- `spa_proxy_node_port_enum_formats`; the format is at the start of the buffer. -/
def portEnumFormats {Filter : Type} (formatFilter : Option Filter → FormatFilter Format)
    (direction portId : UInt32) (filter : Option Filter) (index : UInt32) :
    SpaProxy Format × SpaResult :=
  match this.checkPort direction portId with
  | none => (this, .invalidPort)
  | some (d, i) =>
    let start := if filter.isSome then 0 else index
    let (buffer, res) := nextFormat (formatFilter filter) index
      ((this.ports d i).formats.items.drop start.toNat) start this.formatBuffer
    ({ this with formatBuffer := buffer }, res)

end SpaProxy
end Proxy
end ClientNode
end Pinos
