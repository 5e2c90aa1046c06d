import Mathlib.Logic.Function.Basic
import Pinos.Lib.Samples
import Pinos.Plugins.AlsaUtils
import Pinos.Server.Graph

/-
`spa/plugins/audiomixer/audiomixer.c`.

A buffer of a port is named by its place in the array of the port, and a queue is the list of the
places that are linked into it.  `fault` is raised where the C code leaves an array or damages a
list: a place past the array, a queue whose head was never initialized, a buffer that is linked
into the queue a second time.  Sizes are natural numbers, cut to what a `size_t` holds.
-/

namespace Pinos

open ByteMem

namespace SpaResult

def invalidBufferId : SpaResult := 0xFFFFFFE4

def outOfBuffers : SpaResult := 0xFFFFFFDD

end SpaResult

/-- `SpaPortIO` with the range that is asked for. -/
structure SpaMixerIO extends SpaPortIO where
  range : SpaRange
  deriving DecidableEq

/-- A buffer, by its first data and the chunk in it. -/
structure SpaAudioBuffer where
  id : UInt32
  type : UInt32
  data : Option Mem
  maxsize : UInt32
  chunkOffset : UInt32
  chunkSize : UInt32

structure MixerBuffer where
  outbuf : SpaAudioBuffer
  outstanding : Bool

/-- A format, with what `spa_format_audio_raw_parse` makes of it. -/
structure SpaMixerFormat where
  mediaType : UInt32
  mediaSubtype : UInt32
  rawParse : Bool

structure MixerTypes where
  audio : UInt32
  raw : UInt32
  memPtr : UInt32
  memFd : UInt32
  dmaBuf : UInt32

/-- `MAX_BUFFERS`. -/
def maxBuffers : Nat := 64

/-- `MAX_PORTS`. -/
def maxPorts : Nat := 128

/-- `SIZE_MAX`. -/
def sizeMax : Nat := 2 ^ 64 - 1

/-- `SPA_CLAMP`. -/
def spaClamp (v a b : Int) : Int := if v > b then b else if v < a then a else v

/-- The sum of two samples that `add_port_data` stores. -/
def addSample (x y : Int) : Int := spaClamp (x + y) (-32768) 32767

structure SpaAudioMixerPort where
  io : Option SpaMixerIO
  haveFormat : Bool
  buffers : Nat → MixerBuffer
  nBuffers : Nat
  /-- The head of the queue was initialized. -/
  linked : Bool
  queue : List Nat
  queuedOffset : Nat
  queuedBytes : Nat
  fault : Bool

namespace SpaAudioBuffer

def memory (b : SpaAudioBuffer) : Mem := b.data.getD fun _ => 0

/-- What `port_use_buffers` checks. -/
def Usable (types : MixerTypes) (b : SpaAudioBuffer) : Prop :=
  (b.type = types.memPtr ∨ b.type = types.memFd ∨ b.type = types.dmaBuf) ∧ b.data.isSome

instance (types : MixerTypes) (b : SpaAudioBuffer) : Decidable (b.Usable types) :=
  inferInstanceAs (Decidable (_ ∧ _))

end SpaAudioBuffer

namespace SpaAudioMixerPort

/-- A port in memory that was cleared. -/
def zero : SpaAudioMixerPort where
  io := none
  haveFormat := false
  buffers := fun _ => ⟨⟨0, 0, none, 0, 0, 0⟩, false⟩
  nBuffers := 0
  linked := false
  queue := []
  queuedOffset := 0
  queuedBytes := 0
  fault := false

def initQueue (port : SpaAudioMixerPort) : SpaAudioMixerPort :=
  { port with queue := [], linked := true }

/-- `spa_list_insert (port->queue.prev, &b->link)`. -/
def insert (port : SpaAudioMixerPort) (i : Nat) : SpaAudioMixerPort :=
  { port with
    queue := port.queue ++ [i]
    fault := port.fault || !port.linked || port.queue.contains i }

def setBuffer (port : SpaAudioMixerPort) (i : Nat) (b : MixerBuffer) : SpaAudioMixerPort :=
  { port with
    buffers := Function.update port.buffers i b
    fault := port.fault || decide (maxBuffers ≤ i) }

/-- The port takes part when it has its io and buffers. -/
def active (port : SpaAudioMixerPort) : Bool := port.io.isSome && port.nBuffers != 0

/-! ### Buffers -/

def clearBuffers (port : SpaAudioMixerPort) : SpaAudioMixerPort :=
  if 0 < port.nBuffers then { port.initQueue with nBuffers := 0 } else port

/-- The loop of `port_use_buffers`. -/
def useBuffersFrom (types : MixerTypes) (direction : PinosDirection) :
    Nat → List SpaAudioBuffer → SpaAudioMixerPort → SpaAudioMixerPort × SpaResult
  | _, [], port => (port, .ok)
  | i, b :: bs, port =>
    let port := port.setBuffer i ⟨b, direction = .input⟩
    if ¬ b.Usable types then (port, .error)
    else
      useBuffersFrom types direction (i + 1) bs
        (if direction = .input then port else port.insert i)

def useBuffers (types : MixerTypes) (direction : PinosDirection) (bs : List SpaAudioBuffer)
    (port : SpaAudioMixerPort) : SpaAudioMixerPort × SpaResult :=
  if port.haveFormat then
    let (port, res) := useBuffersFrom types direction 0 bs port.clearBuffers
    (if res = .ok then { port with nBuffers := bs.length } else port, res)
  else (port, .noFormat)

def setFormat (types : MixerTypes) (format : Option SpaMixerFormat) (port : SpaAudioMixerPort) :
    SpaAudioMixerPort × SpaResult :=
  match format with
  | none => ({ port with haveFormat := false }.clearBuffers, .ok)
  | some f =>
    if f.mediaType ≠ types.audio ∨ f.mediaSubtype ≠ types.raw ∨ ¬ f.rawParse then
      (port, .invalidMediaType)
    else ({ port with haveFormat := true }, .ok)

/-- `recycle_buffer`, of the output port. -/
def recycleBuffer (id : UInt32) (port : SpaAudioMixerPort) : SpaAudioMixerPort :=
  let i := id.toNat
  let b := port.buffers i
  if b.outstanding then (port.insert i).setBuffer i { b with outstanding := false }
  else { port with fault := port.fault || decide (maxBuffers ≤ i) }

/-! ### Mixing -/

/-- `op[i] = SPA_CLAMP (op[i] + ip[i], INT16_MIN, INT16_MAX)` for the first samples. -/
def addSamples (ip : Mem) (a : Nat) : Nat → Mem → Mem
  | 0, out => out
  | i + 1, out =>
    let out := addSamples ip a i out
    out.storeSample (2 * i) (addSample (out.sample (2 * i)) (ip.sample (a + 2 * i)))

/-- The bytes of the first buffer that were not taken yet. -/
def insize (port : SpaAudioMixerPort) (i : Nat) : Nat :=
  ((port.buffers i).outbuf.chunkSize.toNat + 2 ^ 64 - port.queuedOffset) % 2 ^ 64

/-- `add_port_data` for buffer `i`, the first of the queue, on the bytes that go out. -/
def addData (out : Mem) (outsize : Nat) (port : SpaAudioMixerPort) (i layer : Nat) : Mem :=
  let b := (port.buffers i).outbuf
  let a := port.queuedOffset + b.chunkOffset.toNat
  let outsize := min outsize (port.insize i)
  if layer = 0 then out.write 0 (b.memory.read a outsize)
  else addSamples b.memory a (outsize / 2) out

/-- `add_port_data` for buffer `i`, the first of the queue, on its port. -/
def takeData (outsize : Nat) (port : SpaAudioMixerPort) (i : Nat) : SpaAudioMixerPort :=
  let b := port.buffers i
  let insize := port.insize i
  let outsize := min outsize insize
  let port :=
    { port with
      queuedOffset := (port.queuedOffset + outsize) % 2 ^ 64
      queuedBytes := (port.queuedBytes + 2 ^ 64 - outsize) % 2 ^ 64 }
  if outsize = insize then
    { port with
      io := port.io.map fun io => { io with bufferId := b.outbuf.id }
      queue := port.queue.tail
      buffers := Function.update port.buffers i { b with outstanding := true }
      queuedOffset := 0 }
  else port

/-- What `mix_output` does with a port: its bytes, the layer, and the port. -/
def mix (nBytes : Nat) (out : Mem) (layer : Nat) (port : SpaAudioMixerPort) :
    Mem × Nat × SpaAudioMixerPort :=
  if port.active then
    match port.queue with
    | [] =>
      (out, layer,
        { port with queuedBytes := 0, queuedOffset := 0, fault := port.fault || !port.linked })
    | i :: _ => (port.addData out nBytes i layer, layer + 1, port.takeData nBytes i)
  else (out, layer, port)

/-! ### Input -/

/-- `process_input` looks at the buffer of the io of this port. -/
def Looks (port : SpaAudioMixerPort) (io : SpaMixerIO) : Prop :=
  port.queuedBytes = 0 ∧ io.status = .haveBuffer ∧ io.bufferId ≠ spaIdInvalid

instance (port : SpaAudioMixerPort) (io : SpaMixerIO) : Decidable (port.Looks io) :=
  inferInstanceAs (Decidable (_ ∧ _))

/-- Buffer `i`, which the io names, is queued. -/
def queueBuffer (port : SpaAudioMixerPort) (io : SpaMixerIO) (i : Nat) : SpaAudioMixerPort :=
  let b := port.buffers i
  { (port.setBuffer i { b with outstanding := false }).insert i with
    io := some { io with bufferId := spaIdInvalid, status := .ok }
    queuedBytes := (port.queuedBytes + b.outbuf.chunkSize.toNat) % 2 ^ 64 }

/-- Buffer `i`, which the io names, is in use.  The loop goes on to the next port then; no bytes
are queued on this one. -/
def refuseBuffer (port : SpaAudioMixerPort) (io : SpaMixerIO) (i : Nat) : SpaAudioMixerPort :=
  { port with
    io := some { io with status := .invalidBufferId }
    fault := port.fault || decide (maxBuffers ≤ i) }

/-- A turn of the loop of `process_input`. -/
def queueInput (port : SpaAudioMixerPort) : SpaAudioMixerPort :=
  match port.io with
  | none => port
  | some io =>
    if port.nBuffers = 0 then port
    else if port.Looks io then
      let i := io.bufferId.toNat
      if (port.buffers i).outstanding then port.queueBuffer io i else port.refuseBuffer io i
    else port

/-- The requested range goes to the input. -/
def askInput (range : SpaRange) (port : SpaAudioMixerPort) : SpaAudioMixerPort :=
  if port.nBuffers = 0 then port
  else
    { port with
      io := port.io.map fun io =>
        if port.queuedBytes = 0 then { io with range, status := .needBuffer }
        else { io with status := .ok } }

end SpaAudioMixerPort

structure SpaAudioMixer where
  inPorts : Nat → SpaAudioMixerPort
  outPort : SpaAudioMixerPort

namespace SpaAudioMixer

/-- `spa_audiomixer_init`, in memory that was cleared. -/
def init : SpaAudioMixer where
  inPorts := fun _ => .zero
  outPort := SpaAudioMixerPort.zero.initQueue

def modifyIn (this : SpaAudioMixer) (p : Nat) (f : SpaAudioMixerPort → SpaAudioMixerPort) :
    SpaAudioMixer :=
  { this with inPorts := Function.update this.inPorts p (f (this.inPorts p)) }

/-- `CHECK_PORT_NUM`. -/
def CheckPortNum : PinosDirection → Nat → Prop
  | .input, p => p < maxPorts
  | .output, p => p = 0

/-- `CHECK_FREE_IN_PORT`. -/
def CheckFreeInPort (this : SpaAudioMixer) : PinosDirection → Nat → Prop
  | .input, p => p < maxPorts ∧ (this.inPorts p).io = none
  | .output, _ => False

/-- `CHECK_IN_PORT`. -/
def CheckInPort (this : SpaAudioMixer) : PinosDirection → Nat → Prop
  | .input, p => p < maxPorts ∧ (this.inPorts p).io.isSome
  | .output, _ => False

/-- `CHECK_PORT`. -/
def CheckPort (this : SpaAudioMixer) : PinosDirection → Nat → Prop
  | .input, p => this.CheckInPort .input p
  | .output, p => p = 0

instance : ∀ direction p, Decidable (CheckPortNum direction p)
  | .input, _ => inferInstanceAs (Decidable (_ < _))
  | .output, _ => inferInstanceAs (Decidable (_ = _))

instance (this : SpaAudioMixer) : ∀ direction p, Decidable (this.CheckFreeInPort direction p)
  | .input, p => inferInstanceAs (Decidable (p < maxPorts ∧ (this.inPorts p).io = none))
  | .output, _ => inferInstanceAs (Decidable False)

instance (this : SpaAudioMixer) : ∀ direction p, Decidable (this.CheckInPort direction p)
  | .input, p => inferInstanceAs (Decidable (p < maxPorts ∧ (this.inPorts p).io.isSome))
  | .output, _ => inferInstanceAs (Decidable False)

instance (this : SpaAudioMixer) : ∀ direction p, Decidable (this.CheckPort direction p)
  | .input, p => inferInstanceAs (Decidable (this.CheckInPort .input p))
  | .output, p => inferInstanceAs (Decidable (p = 0))

/-- The port that a call is about. -/
def port (this : SpaAudioMixer) : PinosDirection → Nat → SpaAudioMixerPort
  | .input, p => this.inPorts p
  | .output, _ => this.outPort

def setPort (this : SpaAudioMixer) (port : SpaAudioMixerPort) :
    PinosDirection → Nat → SpaAudioMixer
  | .input, p => { this with inPorts := Function.update this.inPorts p port }
  | .output, _ => { this with outPort := port }

/-! ## Ports -/

def addPort (this : SpaAudioMixer) (direction : PinosDirection) (p : Nat) :
    SpaAudioMixer × SpaResult :=
  if this.CheckFreeInPort direction p then (this.modifyIn p .initQueue, .ok)
  else (this, .invalidPort)

def removePort (this : SpaAudioMixer) (direction : PinosDirection) (p : Nat) :
    SpaAudioMixer × SpaResult :=
  if this.CheckInPort direction p then
    (this.modifyIn p fun port => { port with io := none }, .ok)
  else (this, .invalidPort)

def portSetFormat (types : MixerTypes) (this : SpaAudioMixer) (direction : PinosDirection)
    (p : Nat) (format : Option SpaMixerFormat) : SpaAudioMixer × SpaResult :=
  if this.CheckPort direction p then
    let (port, res) := (this.port direction p).setFormat types format
    (this.setPort port direction p, res)
  else (this, .invalidPort)

def portUseBuffers (types : MixerTypes) (this : SpaAudioMixer) (direction : PinosDirection)
    (p : Nat) (buffers : List SpaAudioBuffer) : SpaAudioMixer × SpaResult :=
  if this.CheckPort direction p then
    let (port, res) := (this.port direction p).useBuffers types direction buffers
    (this.setPort port direction p, res)
  else (this, .invalidPort)

def portSetIo (this : SpaAudioMixer) (direction : PinosDirection) (p : Nat)
    (io : Option SpaMixerIO) : SpaAudioMixer × SpaResult :=
  if CheckPortNum direction p then
    (this.setPort { this.port direction p with io } direction p, .ok)
  else (this, .invalidPort)

def recycleBuffer (this : SpaAudioMixer) (id : UInt32) : SpaAudioMixer :=
  { this with outPort := this.outPort.recycleBuffer id }

def portReuseBuffer (this : SpaAudioMixer) (p : Nat) (id : UInt32) : SpaAudioMixer × SpaResult :=
  if this.CheckPort .output p then (this.recycleBuffer id, .notImplemented)
  else (this, .invalidPort)

/-! ## Processing -/

/-- The loop of `mix_output`, from a layer and what was mixed. -/
def mixPorts (nBytes : Nat) : List Nat → Nat → SpaAudioMixer → Mem → SpaAudioMixer × Mem
  | [], _, this, out => (this, out)
  | i :: is, layer, this, out =>
    let (out, layer, port) := (this.inPorts i).mix nBytes out layer
    mixPorts nBytes is layer { this with inPorts := Function.update this.inPorts i port } out

/-- `mix_output` into buffer `o`, the first of the queue. -/
def mixInto (this : SpaAudioMixer) (output : SpaMixerIO) (nBytes o : Nat) : SpaAudioMixer :=
  let b := (this.outPort.buffers o).outbuf
  let nBytes := min nBytes b.maxsize.toNat
  let (this, out) := mixPorts nBytes (List.range maxPorts) 0 this b.memory
  { this with
    outPort :=
      { this.outPort with
        queue := this.outPort.queue.tail
        buffers := Function.update this.outPort.buffers o
          { outbuf :=
              { b with
                data := b.data.map fun _ => out
                chunkOffset := 0
                chunkSize := .ofNat nBytes }
            outstanding := true }
        io := some { output with bufferId := b.id, status := .haveBuffer } } }

def mixOutput (this : SpaAudioMixer) (output : SpaMixerIO) (nBytes : Nat) :
    SpaAudioMixer × SpaResult :=
  match this.outPort.queue with
  | [] => (this, .outOfBuffers)
  | o :: _ => (this.mixInto output nBytes o, .haveBuffer)

def setStatus (this : SpaAudioMixer) (status : SpaResult) : SpaAudioMixer :=
  { this with
    outPort := { this.outPort with io := this.outPort.io.map fun io => { io with status } } }

/-- The loop of `process_input`, with the least number of bytes that are queued on a port that
has any. -/
def queueInputs : List Nat → SpaAudioMixer → Nat → SpaAudioMixer × Nat
  | [], this, minQueued => (this, minQueued)
  | i :: is, this, minQueued =>
    let port := (this.inPorts i).queueInput
    let this := { this with inPorts := Function.update this.inPorts i port }
    if port.active ∧ 0 < port.queuedBytes ∧ port.queuedBytes < minQueued then
      queueInputs is this port.queuedBytes
    else queueInputs is this minQueued

def processInput (this : SpaAudioMixer) : SpaAudioMixer × SpaResult :=
  match this.outPort.io with
  | none => (this, .error)
  | some output =>
    if output.status = .haveBuffer then (this, .haveBuffer)
    else
      let (this, minQueued) := queueInputs (List.range maxPorts) this sizeMax
      if minQueued ≠ sizeMax ∧ 0 < minQueued then
        let (this, status) := this.mixOutput output minQueued
        (this.setStatus status, status)
      else (this.setStatus .needBuffer, .needBuffer)

/-- The least number of bytes that are queued on a port. -/
def minQueued (this : SpaAudioMixer) : List Nat → Nat → Nat
  | [], least => least
  | i :: is, least =>
    let port := this.inPorts i
    if port.active ∧ port.queuedBytes < least then this.minQueued is port.queuedBytes
    else this.minQueued is least

/-- `process_output`, when the output buffer was recycled. -/
def produceOutput (this : SpaAudioMixer) (output : SpaMixerIO) : SpaAudioMixer × SpaResult :=
  let minQueued := this.minQueued (List.range maxPorts) sizeMax
  if minQueued ≠ sizeMax ∧ 0 < minQueued then
    let (this, status) := this.mixOutput output minQueued
    (this.setStatus status, status)
  else
    ({ this with
        inPorts := fun i =>
          if i < maxPorts then (this.inPorts i).askInput output.range else this.inPorts i },
      output.status)

def processOutput (this : SpaAudioMixer) : SpaAudioMixer × SpaResult :=
  match this.outPort.io with
  | none => (this, .error)
  | some output =>
    if output.status = .haveBuffer then (this, .haveBuffer)
    else if output.bufferId = spaIdInvalid then this.produceOutput output
    else
      let output' : SpaMixerIO := { output with bufferId := spaIdInvalid }
      let this := this.recycleBuffer output.bufferId
      produceOutput { this with outPort := { this.outPort with io := some output' } } output'

/-! ## Runs -/

/-- The calls of the node, and what the other side of a port does: it writes the io, and it
writes into a buffer that it holds. -/
inductive Event where
  | addPort (direction : PinosDirection) (p : Nat)
  | removePort (direction : PinosDirection) (p : Nat)
  | portSetFormat (direction : PinosDirection) (p : Nat) (format : Option SpaMixerFormat)
  | portUseBuffers (direction : PinosDirection) (p : Nat) (buffers : List SpaAudioBuffer)
  | portSetIo (direction : PinosDirection) (p : Nat) (io : Option SpaMixerIO)
  | portReuseBuffer (p : Nat) (id : UInt32)
  | processInput
  | processOutput
  | writeIo (direction : PinosDirection) (p : Nat) (io : SpaMixerIO)
  | fill (p i : Nat) (data : Mem) (chunkOffset chunkSize : UInt32)

def writeIo (this : SpaAudioMixer) (direction : PinosDirection) (p : Nat) (io : SpaMixerIO) :
    SpaAudioMixer :=
  this.setPort
    { this.port direction p with io := (this.port direction p).io.map fun _ => io } direction p

def fill (this : SpaAudioMixer) (p i : Nat) (data : Mem) (chunkOffset chunkSize : UInt32) :
    SpaAudioMixer :=
  this.modifyIn p fun port =>
    let b := port.buffers i
    if b.outstanding then
      { port with
        buffers := Function.update port.buffers i
          { b with
            outbuf :=
              { b.outbuf with data := b.outbuf.data.map fun _ => data, chunkOffset, chunkSize } } }
    else port

def step (types : MixerTypes) (this : SpaAudioMixer) : Event → SpaAudioMixer
  | .addPort direction p => (this.addPort direction p).1
  | .removePort direction p => (this.removePort direction p).1
  | .portSetFormat direction p format => (this.portSetFormat types direction p format).1
  | .portUseBuffers direction p buffers => (this.portUseBuffers types direction p buffers).1
  | .portSetIo direction p io => (this.portSetIo direction p io).1
  | .portReuseBuffer p id => (this.portReuseBuffer p id).1
  | .processInput => this.processInput.1
  | .processOutput => this.processOutput.1
  | .writeIo direction p io => this.writeIo direction p io
  | .fill p i data chunkOffset chunkSize => this.fill p i data chunkOffset chunkSize

end SpaAudioMixer
end Pinos
