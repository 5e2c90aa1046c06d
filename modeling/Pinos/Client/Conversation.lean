import Pinos.Client.TranslatedCalls

/-
The calls of one side and what the other makes of them.

`connection_data` of `modules/module-protocol-native.c` and `on_context_data` of
`client/context.c` take one packet after the other and call the demarshal function of the object
that it is for.  The server leaves a client that sends what it does not understand, a client
goes on.
-/

namespace Pinos
namespace Native

open ByteMem

/-! ## What goes with a call -/

namespace PinosMessage

/-- The descriptors of a call, in the order they are added in. -/
def fds : PinosMessage → List Int
  | clientNodeNotifyDone readfd writefd => [readfd, writefd]
  | clientNodeNotifyAddMem _ _ _ _ memfd _ _ _ => [memfd]
  | clientNodeNotifyTransport memfd _ _ => [memfd]
  | _ => []

theorem marshal_fds (msg : PinosMessage) (out : ConnectionBuffer) :
    (msg.marshal out).1 = (out.addFds msg.fds).1 := by
  cases msg <;> rfl

end PinosMessage

/-- A call that was made, and the out buffer it was written to. -/
structure Posted where
  destId : UInt32
  msg : PinosMessage
  out : ConnectionBuffer

namespace Posted

/-- The out buffer with the call. -/
def sent (p : Posted) : ConnectionBuffer := (p.msg.send p.out p.destId).out

/-- The packet of a call is what stands behind the others, less its header. -/
def message (p : Posted) : Message where
  packet :=
    { destId := p.destId
      opcode := p.msg.opcode
      payload := p.sent.bufferData.read (p.out.bufferSize + 8)
        (p.sent.bufferSize - p.out.bufferSize - 8) }
  refs := (p.out.addFds p.msg.fds).2

end Posted

/-! ## A receiver of calls -/

/-- What is done with a packet: its object makes the call, there is no such object, or the
demarshal function is missing or fails. -/
inductive Answer where
  | called (msg : PinosMessage)
  | unknown
  | invalid

def Answer.isInvalid : Answer → Bool
  | .invalid => true
  | _ => false

/-- A packet that was handled, with the object and the types that it met. -/
structure Handled where
  destId : UInt32
  object : Option Interface
  types : PinosMap
  answer : Answer

/-- `objects` are the interfaces of the objects of the receiver.  `message` says that it has taken
a packet that is not handled yet, `gone` that it does not read any more. -/
structure Conversation where
  toServer : Bool
  link : Link
  posted : List Posted
  objects : UInt32 → Option Interface
  types : PinosMap
  message : Bool
  handled : List Handled
  gone : Bool

inductive ConversationEvent where
  /-- The sender makes a call. -/
  | post (destId : UInt32) (msg : PinosMessage)
  | flush
  | accept (n : Nat)
  | sendFailed
  /-- The receiver goes on in its loop. -/
  | call
  | chunk (n : Nat)
  | again
  /-- The packet that was taken is handled, if `fuel` steps are enough to translate it. -/
  | handle (fuel : Nat)
  /-- Objects of the receiver come and go, and types are registered. -/
  | objects (objects : UInt32 → Option Interface)
  | types (types : PinosMap)
  | leave

namespace Conversation

def start (toServer : Bool) (mem mem' : Mem) (objects : UInt32 → Option Interface)
    (types : PinosMap) : Conversation :=
  { toServer, link := .start mem mem', posted := [], objects, types, message := false,
    handled := [], gone := false }

def post (s : Conversation) (destId : UInt32) (msg : PinosMessage) : Conversation :=
  if s.link.flushing then s
  else
    let p : Posted := ⟨destId, msg, s.link.out⟩
    { s with
      posted := s.posted ++ [p]
      link :=
        { s.link with
          out := p.sent
          buffered := s.link.buffered ++ [p.message]
          sent := s.link.sent ++ [p.message] } }

def carry (s : Conversation) (e : LinkEvent) : Conversation := { s with link := s.link.step e }

def receive (s : Conversation) (e : LinkEvent) : Conversation :=
  if s.message ∨ s.gone then s
  else
    let link := s.link.step e
    { s with link, message := decide (s.link.returned.length < link.returned.length) }

def demarshals (s : Conversation) (object : Interface) : List (Demarshal PinosMessage) :=
  if s.toServer then Server.methods object else Client.events s.link.inp object

/-- The body of the loop over the packets.  There is no result when the types are not translated
in the given number of steps. -/
def answer (s : Conversation) (fuel : Nat) (packet : Packet) : Option Answer :=
  match s.objects packet.destId with
  | none => some .unknown
  | some object =>
    match (s.demarshals object)[packet.opcode.toNat]? with
    | none => some .invalid
    | some d =>
      match d.run s.types fuel s.link.inp.bufferData s.link.inp.data s.link.inp.size with
      | none => none
      | some none => some .invalid
      | some (some msg) => some (.called msg)

/-- The server destroys a client whose message is invalid. -/
def handle (s : Conversation) (fuel : Nat) : Conversation :=
  match s.message, s.link.returned.getLast? with
  | true, some packet =>
    match s.answer fuel packet with
    | none => s
    | some answer =>
      { s with
        message := false
        handled := s.handled ++ [⟨packet.destId, s.objects packet.destId, s.types, answer⟩]
        gone := s.gone || (s.toServer && answer.isInvalid) }
  | _, _ => s

def step (s : Conversation) : ConversationEvent → Conversation
  | .post destId msg => s.post destId msg
  | .flush => s.carry .flush
  | .accept n => s.carry (.accept n)
  | .sendFailed => s.carry .sendFailed
  | .call => s.receive .call
  | .chunk n => s.receive (.chunk n)
  | .again => s.receive .again
  | .handle fuel => s.handle fuel
  | .objects objects => { s with objects }
  | .types types => { s with types }
  | .leave => { s with gone := true }

/-- What a call needs to pass through a connection. -/
structure Passes (msg : PinosMessage) (out : ConnectionBuffer) : Prop where
  small : msg.Small out
  reserved : msg.Reserved out
  fits : msg.size out < 2 ^ 24
  intact : msg.Intact out

/-- The object that a call meets is the one it was made for, and its ids are known. -/
def Expected (s : Conversation) : Prop :=
  ∀ p ∈ s.posted[s.handled.length]?, ∀ object ∈ s.objects p.destId,
    object = p.msg.interface ∧ ∃ objs, p.msg.TranslatedBy s.types objs p.out

/-- What is asked of the events: calls pass, and the socket is orderly. -/
def Orderly (s : Conversation) : ConversationEvent → Prop
  | .post _ msg => msg.isMethod = s.toServer ∧ Passes msg s.link.out
  | .accept n => s.link.Orderly (.accept n)
  | .call => s.link.Orderly .call
  | .chunk n => s.link.Orderly (.chunk n)
  | .again => s.link.Orderly .again
  | .handle _ => s.Expected
  | .flush | .sendFailed | .objects _ | .types _ | .leave => True

/-- A packet is handled as the call it was made of: an object that is there makes this call, with
the ids replaced by their images. -/
structure HandledAs (p : Posted) (h : Handled) : Prop where
  destId : h.destId = p.destId
  unknown : h.object = none → h.answer = .unknown
  called : ∀ object, h.object = some object → ∃ objs, p.msg.TranslatedBy h.types objs p.out ∧
    h.answer = .called (p.msg.translated h.types objs).filled

/-- What is asked of a conversation: calls are handled once and in order, each that was taken can
be handled, and when the receiver waits and nothing is on its way, all were. -/
structure Faithful (s : Conversation) : Prop where
  handled : List.Forall₂ HandledAs (s.posted.take s.handled.length) s.handled
  progress : s.message = true → s.Expected → ∃ fuel, (s.step (.handle fuel)).message = false
  complete : s.link.waiting = true → s.link.buffered = [] → s.link.queue = [] →
    s.link.opened = [] → s.handled.length = s.posted.length

end Conversation
end Native
end Pinos
