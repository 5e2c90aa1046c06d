import Pinos.Lib.ListCells
import Pinos.Plugins.AudioMixer

/-
`spa/plugins/volume/volume.c`.

The list of the empty buffers of a port goes through cells, so that a buffer that is linked while it
is linked already does to the list what it does in C.  `fault` is raised where the array of buffers
is left.  The samples that `do_volume` computes with floating point numbers are not modelled: no
list, flag or id depends on them.
-/

namespace Pinos

namespace SpaResult

def noBuffers : SpaResult := 0xFFFFFFE5

end SpaResult

/-- A buffer, by where it is and its first data. -/
structure SpaBufferAt where
  addr : Nat
  id : UInt32
  type : UInt32
  hasData : Bool
  deriving DecidableEq

structure SpaVolumeBuffer where
  outbuf : SpaBufferAt
  outstanding : Bool

/-- The cells of a port: the head of the list, and the links in its buffers. -/
inductive VolumeLink where
  | empty
  | buffer (i : Nat)
  deriving DecidableEq

structure SpaVolumePort where
  haveFormat : Bool
  buffers : Nat → SpaVolumeBuffer
  nBuffers : Nat
  io : Option SpaPortIO
  links : ListCells VolumeLink
  fault : Bool

/-- What `port_use_buffers` checks. -/
def SpaBufferAt.Usable (types : MixerTypes) (b : SpaBufferAt) : Prop :=
  (b.type = types.memPtr ∨ b.type = types.memFd ∨ b.type = types.dmaBuf) ∧ b.hasData

instance (types : MixerTypes) (b : SpaBufferAt) : Decidable (b.Usable types) :=
  inferInstanceAs (Decidable (_ ∧ _))

namespace SpaVolumePort

/-- `MAX_BUFFERS`. -/
def maxBuffers : Nat := 16

/-- A port in memory that was cleared, with its list. -/
def zero : SpaVolumePort where
  haveFormat := false
  buffers := fun _ => ⟨⟨0, 0, 0, false⟩, false⟩
  nBuffers := 0
  io := none
  links := ListCells.init ⟨id, id⟩ .empty
  fault := false

def setBuffer (port : SpaVolumePort) (i : Nat) (b : SpaVolumeBuffer) : SpaVolumePort :=
  { port with
    buffers := Function.update port.buffers i b
    fault := port.fault || decide (maxBuffers ≤ i) }

/-- `spa_list_insert (port->empty.prev, &b->link)`. -/
def insertEmpty (port : SpaVolumePort) (i : Nat) : SpaVolumePort :=
  { port with links := port.links.insert (port.links.prev .empty) (.buffer i) }

def clearBuffers (port : SpaVolumePort) : SpaVolumePort :=
  if 0 < port.nBuffers then { port with nBuffers := 0, links := port.links.init .empty } else port

def setFormat (types : MixerTypes) (format : Option SpaMixerFormat) (port : SpaVolumePort) :
    SpaVolumePort × SpaResult :=
  match format with
  | none => ({ port with haveFormat := false }.clearBuffers, .ok)
  | some f =>
    if f.mediaType ≠ types.audio ∨ f.mediaSubtype ≠ types.raw ∨ ¬ f.rawParse then
      (port, .invalidMediaType)
    else ({ port with haveFormat := true }, .ok)

/-- The loop of `port_use_buffers`. -/
def useBuffersFrom (types : MixerTypes) :
    Nat → List SpaBufferAt → SpaVolumePort → SpaVolumePort × SpaResult
  | _, [], port => (port, .ok)
  | i, b :: bs, port =>
    let port := port.setBuffer i ⟨b, true⟩
    if ¬ b.Usable types then (port, .error)
    else useBuffersFrom types (i + 1) bs (port.insertEmpty i)

def useBuffers (types : MixerTypes) (bs : List SpaBufferAt) (port : SpaVolumePort) :
    SpaVolumePort × SpaResult :=
  if port.haveFormat then
    let (port, res) := useBuffersFrom types 0 bs port.clearBuffers
    (if res = .ok then { port with nBuffers := bs.length } else port, res)
  else (port, .noFormat)

def reuseBuffer (id : UInt32) (port : SpaVolumePort) : SpaVolumePort × SpaResult :=
  let i := id.toNat
  if port.nBuffers = 0 then (port, .noBuffers)
  else if port.nBuffers ≤ i then (port, .invalidBufferId)
  else
    let b := port.buffers i
    if b.outstanding then
      ({ port with buffers := Function.update port.buffers i { b with outstanding := false }
        }.insertEmpty i, .ok)
    else (port, .ok)

def findFreeBuffer (port : SpaVolumePort) : SpaVolumePort × Option SpaBufferAt :=
  match port.links.next .empty with
  | .empty => (port, none)
  | .buffer i =>
    let b := port.buffers i
    ({ port with
        links := port.links.remove (.buffer i)
        buffers := Function.update port.buffers i { b with outstanding := true } },
      some b.outbuf)

end SpaVolumePort

structure SpaVolume where
  inPort : SpaVolumePort
  outPort : SpaVolumePort
  /-- The ids that `reuse_buffer` of the callbacks was called with. -/
  released : List UInt32

namespace SpaVolume

/-- `volume_init`, in memory that was cleared. -/
def init : SpaVolume where
  inPort := .zero
  outPort := .zero
  released := []

/-- `CHECK_PORT`. -/
def CheckPort (p : Nat) : Prop := p = 0

instance (p : Nat) : Decidable (CheckPort p) := inferInstanceAs (Decidable (p = 0))

/-- The port that a call is about. -/
def port (this : SpaVolume) : PinosDirection → SpaVolumePort
  | .input => this.inPort
  | .output => this.outPort

def setPort (this : SpaVolume) (port : SpaVolumePort) : PinosDirection → SpaVolume
  | .input => { this with inPort := port }
  | .output => { this with outPort := port }

def portSetFormat (types : MixerTypes) (this : SpaVolume) (direction : PinosDirection) (p : Nat)
    (format : Option SpaMixerFormat) : SpaVolume × SpaResult :=
  if CheckPort p then
    let (port, res) := (this.port direction).setFormat types format
    (this.setPort port direction, res)
  else (this, .invalidPort)

def portUseBuffers (types : MixerTypes) (this : SpaVolume) (direction : PinosDirection) (p : Nat)
    (buffers : List SpaBufferAt) : SpaVolume × SpaResult :=
  if CheckPort p then
    let (port, res) := (this.port direction).useBuffers types buffers
    (this.setPort port direction, res)
  else (this, .invalidPort)

def portSetIo (this : SpaVolume) (direction : PinosDirection) (p : Nat) (io : Option SpaPortIO) :
    SpaVolume × SpaResult :=
  if CheckPort p then (this.setPort { this.port direction with io } direction, .ok)
  else (this, .invalidPort)

def portReuseBuffer (this : SpaVolume) (p : Nat) (id : UInt32) : SpaVolume × SpaResult :=
  if CheckPort p then
    let (port, res) := this.outPort.reuseBuffer id
    ({ this with outPort := port }, res)
  else (this, .invalidPort)

/-- The buffer that `process_input` writes to. -/
def chooseBuffer (output : SpaPortIO) (port : SpaVolumePort) : SpaVolumePort × Option SpaBufferAt :=
  if port.nBuffers ≤ output.bufferId.toNat then port.findFreeBuffer
  else (port, some (port.buffers output.bufferId.toNat).outbuf)

def processInput (this : SpaVolume) : SpaVolume × SpaResult :=
  match this.inPort.io, this.outPort.io with
  | none, _ => (this, .error)
  | some _, none => (this, .error)
  | some input, some output =>
    if ¬ this.inPort.haveFormat then
      ({ this with inPort := { this.inPort with io := some { input with status := .noFormat } } },
        .error)
    else if this.inPort.nBuffers ≤ input.bufferId.toNat then
      ({ this with
          inPort := { this.inPort with io := some { input with status := .invalidBufferId } } },
        .error)
    else
      match chooseBuffer output this.outPort with
      | (port, none) => ({ this with outPort := port }, .outOfBuffers)
      | (port, some dbuf) =>
        let sbuf := (this.inPort.buffers input.bufferId.toNat).outbuf
        ({ inPort := { this.inPort with io := some { status := .ok, bufferId := spaIdInvalid } }
           outPort := { port with io := some { status := .ok, bufferId := dbuf.id } }
           released :=
             if sbuf.addr ≠ dbuf.addr then this.released ++ [sbuf.id] else this.released },
          .haveBuffer)

def processOutput (this : SpaVolume) : SpaVolume × SpaResult := (this, .needBuffer)

/-- The calls of the node, and what the other side of a port writes into its io. -/
inductive Event where
  | portSetFormat (direction : PinosDirection) (p : Nat) (format : Option SpaMixerFormat)
  | portUseBuffers (direction : PinosDirection) (p : Nat) (buffers : List SpaBufferAt)
  | portSetIo (direction : PinosDirection) (p : Nat) (io : Option SpaPortIO)
  | portReuseBuffer (p : Nat) (id : UInt32)
  | processInput
  | processOutput
  | writeIo (direction : PinosDirection) (io : SpaPortIO)

def writeIo (this : SpaVolume) (direction : PinosDirection) (io : SpaPortIO) : SpaVolume :=
  this.setPort { this.port direction with io := (this.port direction).io.map fun _ => io } direction

def step (types : MixerTypes) (this : SpaVolume) : Event → SpaVolume
  | .portSetFormat direction p format => (this.portSetFormat types direction p format).1
  | .portUseBuffers direction p buffers => (this.portUseBuffers types direction p buffers).1
  | .portSetIo direction p io => (this.portSetIo direction p io).1
  | .portReuseBuffer p id => (this.portReuseBuffer p id).1
  | .processInput => this.processInput.1
  | .processOutput => this.processOutput.1
  | .writeIo direction io => this.writeIo direction io

end SpaVolume
end Pinos
