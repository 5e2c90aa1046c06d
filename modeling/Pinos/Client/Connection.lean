import Pinos.Spa.Pod

/-
`client/connection.c`: packets and file descriptors over a stream socket.

A packet is 8 bytes of header, the destination, the opcode in the top byte of the
second word and the length of the payload in the rest of it, and the payload.
The socket is not part of the model: `recvmsg` and `sendmsg` are where an
operation stops, and it goes on with the result it is given.  Allocation does
not fail, and a block keeps its contents when it is enlarged.
-/

namespace Pinos

open ByteMem

def maxBufferSize : Nat := 4096

def maxFds : Nat := 28

structure Packet where
  destId : UInt32
  opcode : UInt8
  payload : List UInt8
  deriving DecidableEq, Repr

/-- The second word of a header. -/
def Packet.word (opcode : UInt8) (size : Nat) : Nat := opcode.toNat * 2 ^ 24 + size % 2 ^ 24

def Packet.bytes (p : Packet) : List UInt8 :=
  toLE 4 p.destId.toNat ++ toLE 4 (Packet.word p.opcode p.payload.length) ++ p.payload

/-- `fds` has the first `n_fds` entries of the array.  `data`, the start of the last
packet returned, is given as an offset into the buffer. -/
structure ConnectionBuffer where
  bufferData : Mem
  bufferSize : Nat
  bufferMaxsize : Nat
  fds : List Int
  offset : Nat
  data : Nat
  size : Nat
  update : Bool

namespace ConnectionBuffer

/-- The buffers of a new connection: `mem` is what the allocation contains. -/
def new (mem : Mem) (update : Bool) : ConnectionBuffer :=
  { bufferData := mem, bufferSize := 0, bufferMaxsize := maxBufferSize, fds := [],
    offset := 0, data := 0, size := 0, update := update }

def ensureSize (buf : ConnectionBuffer) (size : Nat) : ConnectionBuffer :=
  if buf.bufferMaxsize < buf.bufferSize + size then
    { buf with bufferMaxsize := roundUpN (buf.bufferSize + size) maxBufferSize }
  else buf

def clear (buf : ConnectionBuffer) : ConnectionBuffer :=
  { buf with fds := [], offset := 0, size := 0, bufferSize := 0 }

/-! ## Receiving -/

/-- `pinos_connection_get_fd` on the in buffer. -/
def getFd (buf : ConnectionBuffer) (index : Nat) : Int := buf.fds.getD index (-1)

/-- How an operation on the in buffer goes on: it returns, with a packet or without,
or it calls `recvmsg`. -/
inductive Progress
  | returns (packet : Option Packet)
  | waits
  deriving DecidableEq

/-- `pinos_connection_get_next` once the buffer is up to date, until it returns or
needs more bytes. -/
def readPacket (buf : ConnectionBuffer) : ConnectionBuffer × Progress :=
  if buf.bufferSize ≤ buf.offset then ({ buf.clear with update := true }, .returns none)
  else
    let size := buf.bufferSize - buf.offset
    if size < 8 then ({ buf.ensureSize 8 with update := true }, .waits)
    else
      let destId := buf.bufferData.u32 buf.offset
      let word := buf.bufferData.u32 (buf.offset + 4)
      let len := word % 2 ^ 24
      if size - 8 < len then ({ buf.ensureSize len with update := true }, .waits)
      else
        ({ buf with size := len, data := buf.offset + 8, offset := buf.offset + 8 },
          .returns (some
            { destId := .ofNat destId
              opcode := .ofNat (word / 2 ^ 24)
              payload := buf.bufferData.read (buf.offset + 8) len }))

/-- `pinos_connection_get_next` from its start. -/
def getNext (buf : ConnectionBuffer) : ConnectionBuffer × Progress :=
  let buf := { buf with offset := buf.offset + buf.size }
  if buf.update then (buf, .waits) else buf.readPacket

/-- What `recvmsg` gives: bytes and the control messages with them, or an error. -/
inductive RecvResult
  | received (bytes : List UInt8) (fds : List (List Int))
  | interrupted
  | failed

/-- The room `recvmsg` is offered. -/
def recvRoom (buf : ConnectionBuffer) : Nat := buf.bufferMaxsize - buf.bufferSize

/-- `pinos_connection_get_next` from the return of `recvmsg` in `refill_buffer`.
Each control message overwrites what the one before left. -/
def refill (buf : ConnectionBuffer) : RecvResult → ConnectionBuffer × Progress
  | .interrupted => (buf, .waits)
  | .failed => (buf, .returns none)
  | .received bytes fds =>
    readPacket
      { buf with
        bufferData := buf.bufferData.write buf.bufferSize bytes
        bufferSize := buf.bufferSize + bytes.length
        fds := fds.getLastD buf.fds
        update := false }

/-! ## Sending -/

/-- `pinos_connection_add_fd`; no index is the return value `-1`. -/
def addFd (buf : ConnectionBuffer) (fd : Int) : ConnectionBuffer × Option Nat :=
  match buf.fds.idxOf? fd with
  | some i => (buf, some i)
  | none =>
    if maxFds ≤ buf.fds.length then (buf, none)
    else ({ buf with fds := buf.fds ++ [fd] }, some buf.fds.length)

/-- `pinos_connection_begin_write`; the result is the offset into the buffer of the
memory for the payload. -/
def beginWrite (buf : ConnectionBuffer) (size : Nat) : ConnectionBuffer × Nat :=
  let buf := buf.ensureSize (toU32 (8 + size))
  (buf, buf.bufferSize + 8)

def endWrite (buf : ConnectionBuffer) (destId : UInt32) (opcode : UInt8) (size : Nat) :
    ConnectionBuffer :=
  let buf := buf.ensureSize (toU32 (8 + size))
  { buf with
    bufferData := buf.bufferData.write buf.bufferSize
      (toLE 4 destId.toNat ++ toLE 4 (Packet.word opcode size))
    bufferSize := buf.bufferSize + toU32 (8 + size) }

/-- What `pinos_connection_flush` gives to `sendmsg`, when there is anything. -/
def flushed (buf : ConnectionBuffer) : List UInt8 × List Int :=
  (buf.bufferData.read 0 buf.bufferSize, buf.fds.map fun fd => (fd.natAbs : Int))

/-- What `sendmsg` gives: how many bytes it took, or an error. -/
inductive SendResult
  | sent (len : Nat)
  | interrupted
  | failed

/-- `pinos_connection_flush` from the return of `sendmsg`, and whether it returned. -/
def flush (buf : ConnectionBuffer) : SendResult → ConnectionBuffer × Option Bool
  | .interrupted => (buf, none)
  | .failed => (buf, some false)
  | .sent len => ({ buf with bufferSize := buf.bufferSize - len, fds := [] }, some true)

end ConnectionBuffer
end Pinos
