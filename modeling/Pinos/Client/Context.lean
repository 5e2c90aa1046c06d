import Pinos.Client.Interfaces
import Pinos.Client.MapChain
import Pinos.Client.TypeSync

/-
`client/context.c` and `client/proxy.c`: a context that is connected, disconnected and connected
again.

A proxy is where its memory is and the id it has got.  Allocation does not fail.
-/

namespace Pinos

/-- `n_events` of the interface that `pinos_protocol_native_client_setup` gives a proxy. -/
def Native.Interface.nEvents : Native.Interface → Nat
  | .core => 5
  | .registry => 2
  | .module => 1
  | .node => 1
  | .client => 1
  | .clientNode => 11
  | .link => 1

structure PinosProxy where
  address : UInt64
  id : UInt32
  deriving DecidableEq

structure Context where
  peer : Peer
  /-- The proxies by their ids, and which of them have the ids. -/
  objects : MapUse
  iface : UInt64 → Native.Interface
  coreProxy : Option PinosProxy
  registryProxy : Option PinosProxy
  connected : Bool
  disconnecting : Bool
  /-- What was sent on this connection, with the ids of the proxies that sent it. -/
  sent : List (UInt32 × SyncMessage)
  /-- The first type that was told on this connection, or is to be told. -/
  firstType : Nat
  /-- The events that the functions of proxies have got. -/
  handled : List (UInt64 × UInt8)

namespace Context

/-! ## Proxies -/

/-- `pinos_proxy_new`. -/
def proxyNew (s : Context) (id : UInt32) (address : UInt64) (type : Native.Interface) :
    Context × Option PinosProxy :=
  let iface := Function.update s.iface address type
  if id = spaIdInvalid then
    ({ s with objects := s.objects.step (.insertNew address), iface },
      some ⟨address, (s.objects.map.insertNew address).2⟩)
  else if (s.objects.map.insertAt id address).2 then
    ({ s with objects := s.objects.step (.insertAt id address), iface }, some ⟨address, id⟩)
  else (s, none)

/-- `pinos_proxy_destroy`. -/
def proxyDestroy (s : Context) (proxy : PinosProxy) : Context :=
  { s with objects := s.objects.step (.remove proxy.id) }

/-! ## Calls -/

/-- `core_update_map`: the core proxy tells the types. -/
def updateMap (s : Context) : Context :=
  let (peer, messages) := s.peer.updateMap
  { s with
    peer
    sent := s.sent ++ messages.map fun message =>
      ((s.coreProxy.map PinosProxy.id).getD 0, message) }

/-- A method of a proxy is called; without a connection it returns. -/
def send (s : Context) (id : UInt32) (contents : List Pod) : Context :=
  if s.connected then
    let s := s.updateMap
    { s with sent := s.sent ++ [(id, .call contents)] }
  else s

def intPod (val : UInt32) : Pod :=
  .leaf
    { type := .int
      body := ByteMem.toLE 4 val.toNat
      isLeaf := rfl
      sized := fun n hn => by
        cases hn
        exact ByteMem.length_toLE 4 val.toNat }

def stringPod (str : CString) : Pod :=
  .leaf
    { type := .string
      body := str.bytes
      isLeaf := rfl
      sized := nofun }

/-- What `core_marshal_client_update` writes of the properties of the client. -/
def clientUpdate (props : List (CString × CString)) : List Pod :=
  intPod (.ofNat props.length) :: props.flatMap fun item => [stringPod item.1, stringPod item.2]

/-! ## Connections -/

/-- `pinos_context_connect_fd` from the registry on. -/
def connectRegistry (s : Context) (core : PinosProxy) : Option UInt64 → Context
  | none => s
  | some address =>
    match s.proxyNew spaIdInvalid address .registry with
    | (s, none) => s
    | (s, some registry) =>
      { s with registryProxy := some registry }.send core.id [intPod registry.id]

/-- `pinos_context_connect_fd`, with memory for the proxies. -/
def connectFd (s : Context) (props : List (CString × CString)) (core : UInt64)
    (registry : Option UInt64) : Context :=
  let s := { s with connected := true, sent := [], firstType := s.peer.nTypes.toNat }
  match s.proxyNew 0 core .core with
  | (s, none) => { s with connected := false }
  | (s, some core) =>
    let s := { s with coreProxy := some core }.send core.id (clientUpdate props)
    (s.connectRegistry core registry).send core.id [intPod 0]

/-- `pinos_context_disconnect`. -/
def disconnect (s : Context) : Context :=
  let s := { s with disconnecting := true }
  let s := s.registryProxy.elim s s.proxyDestroy
  let s := { s with registryProxy := none }
  let s := s.coreProxy.elim s s.proxyDestroy
  { s with coreProxy := none, connected := false }

/-- The turn of the loop in `on_context_data` for a message. -/
def onContextData (s : Context) (id : UInt32) (opcode : UInt8) : Context :=
  if s.disconnecting then s
  else
    let proxy := s.objects.map.lookup id.toNat
    if proxy = 0 then s
    else if (s.iface proxy).nEvents ≤ opcode.toNat then s
    else { s with handled := s.handled ++ [(proxy, opcode)] }

/-- What happens to a context.  What the functions of a proxy do with an event comes next. -/
inductive Op where
  | connect (props : List (CString × CString)) (core : UInt64) (registry : Option UInt64)
  | disconnect
  | register (type : CString)
  | newProxy (address : UInt64) (type : Native.Interface)
  | destroyProxy (proxy : PinosProxy)
  | send (proxy : PinosProxy) (contents : List Pod)
  | message (id : UInt32) (opcode : UInt8)

def step (s : Context) : Op → Context
  | .connect props core registry => s.connectFd props core registry
  | .disconnect => s.disconnect
  | .register type => { s with peer := { s.peer with map := (s.peer.map.getId (some type)).1 } }
  | .newProxy address type => (s.proxyNew spaIdInvalid address type).1
  | .destroyProxy proxy => s.proxyDestroy proxy
  | .send proxy contents => s.send proxy.id contents
  | .message id opcode => if s.connected then s.onContextData id opcode else s

/-- What `pinos_context_new` fills in. -/
def new : Context where
  peer := .start
  objects := .start
  iface _ := .core
  coreProxy := none
  registryProxy := none
  connected := false
  disconnecting := false
  sent := []
  firstType := 0
  handled := []

/-! ## What is asked of a context -/

/-- Types that have been told. -/
def Announced (sent : List (UInt32 × SyncMessage)) (id : UInt32) : Prop :=
  ∃ p firstId types, (p, .updateTypes firstId types) ∈ sent ∧
    firstId.toNat ≤ id.toNat ∧ id.toNat < firstId.toNat + types.length

/-- Every call has types that were told before it. -/
def AnnouncesFrom : List (UInt32 × SyncMessage) → List (UInt32 × SyncMessage) → Prop
  | _, [] => True
  | before, (p, .updateTypes firstId types) :: rest =>
    AnnouncesFrom (before ++ [(p, .updateTypes firstId types)]) rest
  | before, (p, .call contents) :: rest =>
    (∀ w ∈ TypeSync.ids contents, Announced before w.id) ∧
      AnnouncesFrom (before ++ [(p, .call contents)]) rest

/-- The core proxy of a connection has the id 0 and the registry proxy another one, and types
are told before they are used. -/
structure Works (s : Context) : Prop where
  core : s.connected = true → ∃ core, s.coreProxy = some core ∧ core.id = 0
  registry : ∀ registry, s.registryProxy = some registry → registry.id ≠ 0
  announces : AnnouncesFrom [] s.sent

/-- A message for a proxy comes to its function. -/
def Delivers (s : Context) : Op → Prop
  | .message id opcode => s.connected = true → ∀ proxy, s.objects.stored id = some proxy →
    opcode.toNat < (s.iface proxy).nEvents →
      (s.onContextData id opcode).handled = s.handled ++ [(proxy, opcode)]
  | _ => True

def Right (s : Context) (op : Op) : Prop := (s.step op).Works ∧ s.Delivers op

/-- Memory for proxies is new, proxies are made while there is a connection, and those of the
context are destroyed by it; the types in a call have ids. -/
def Admits (s : Context) : Op → Prop
  | .connect _ core registry => MapUse.IsPointer core ∧ ∀ address ∈ registry, MapUse.IsPointer address
  | .newProxy address _ => s.connected = true ∧ MapUse.IsPointer address
  | .destroyProxy proxy => s.objects.stored proxy.id = some proxy.address ∧
    s.coreProxy ≠ some proxy ∧ s.registryProxy ≠ some proxy
  | .send _ contents => ∀ w ∈ TypeSync.ids contents, w.id.toNat < s.peer.map.getSize
  | _ => True

/-- The tables have room for what is added. -/
def HasRoom (s : Context) : Op → Prop
  | .connect .. | .newProxy .. => s.objects.map.size < 2 ^ 31
  | .register type => s.peer.map.HasRoom [type]
  | _ => True

/-- The id of the core proxy is not the next one to be given away, types in calls have not been
told on a connection before, and nothing comes in for proxies after a disconnect. -/
def Safe (s : Context) : Op → Prop
  | .connect _ _ registry => registry ≠ none → s.objects.map.freeList ≠ 1
  | .send _ contents => s.connected = true → ∀ w ∈ TypeSync.ids contents, s.firstType ≤ w.id.toNat
  | .message id opcode => s.connected = true → s.disconnecting = true →
    ∀ proxy, s.objects.stored id = some proxy → (s.iface proxy).nEvents ≤ opcode.toNat
  | _ => True

end Context
end Pinos
