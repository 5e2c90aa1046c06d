import Mathlib.Logic.Function.Basic
import Pinos.Lib.Run
import Pinos.Spa.Defs

/-
`server/resource.c` with everything that resources are bound to.

A resource is in the table of its client and in a list of its object, and either may be
destroyed first.  Modules are never destroyed, and a resource for one is in no list.
-/

namespace Pinos

/-- `resource->object`; a registry has a list of its own in the core. -/
inductive Bound where
  | core
  | registry
  | module (m : Nat)
  | client (c : Nat)
  | node (n : Nat)
  | link (l : Nat)
  /-- The `PinosClientNode` that node `n` is in. -/
  | clientNode (n : Nat)
  deriving DecidableEq

namespace Bound

def HasList : Bound → Prop
  | .module _ => False
  | _ => True

/-- What may have a global. -/
def HasGlobal : Bound → Prop
  | .registry | .clientNode _ => False
  | _ => True

end Bound

structure PinosResource where
  client : Nat
  id : UInt32
  object : Bound

/-- What is freed. -/
inductive Allocated where
  | resource (r : Nat)
  | object (b : Bound)
  deriving DecidableEq

/-- Resources, clients, nodes, links and modules are numbered as they are made.  The list of
a client node is its `resource`, and a global is what it is for. -/
structure Bindings where
  resources : Nat → PinosResource
  nResources : Nat
  /-- `client->objects`; nothing is ever removed from the map. -/
  objects : Nat → List (Option Nat)
  coreResource : Nat → Option Nat
  resourceList : Bound → List Nat
  globals : List Bound
  clients : List Nat
  nClients : Nat
  nNodes : Nat
  nLinks : Nat
  nModules : Nat
  asyncInit : Nat → Bool
  /-- The node has the listener of a client node at its `free_signal`. -/
  nodeFree : Nat → Bool
  /-- Destroyed nodes and links whose removal the loops were asked for. -/
  leaving : List Bound
  freed : List Allocated
  /-- Something was used or freed that was freed before, or NULL. -/
  wild : Bool

inductive ClientRequest where
  | getRegistry (newId : UInt32)
  | createClientNode (allowed : Bool) (newId : UInt32)
  /-- The id of a global; `seen` is the answer of `view_global`. -/
  | bind (object : Bound) (seen : Bool) (newId : UInt32)
  | destroy

inductive BindingEvent where
  | connect
  | disconnect (c : Nat)
  /-- A message to the object with id `on`. -/
  | request (c : Nat) (on : UInt32) (req : ClientRequest)
  | newNode
  | newLink
  | newModule
  | initComplete (n : Nat)
  | nodeDestroy (n : Nat)
  | linkDestroy (l : Nat)
  /-- New information goes to all that are bound to an object. -/
  | changed (b : Bound)
  /-- The loops are done with a node or link that was destroyed. -/
  | removed (b : Bound)

/-- `pinos_map_insert_at`, for ids up to the size. -/
def putAt (items : List (Option Nat)) (i : Nat) (item : Option Nat) : List (Option Nat) :=
  if i = items.length then items ++ [item] else items.set i item

namespace Bindings

def start : Bindings where
  resources _ := ⟨0, 0, .core⟩
  nResources := 0
  objects _ := []
  coreResource _ := none
  resourceList _ := []
  globals := [.core]
  clients := []
  nClients := 0
  nNodes := 0
  nLinks := 0
  nModules := 0
  asyncInit _ := false
  nodeFree _ := false
  leaving := []
  freed := []
  wild := false

/-! ## Memory -/

def touch (s : Bindings) (uses : List Allocated) : Bindings :=
  { s with wild := s.wild || uses.any (· ∈ s.freed) }

def crash (s : Bindings) : Bindings := { s with wild := true }

def free (s : Bindings) (x : Allocated) : Bindings :=
  { s.touch [x] with freed := s.freed ++ [x] }

def setList (s : Bindings) (b : Bound) (rs : List Nat) : Bindings :=
  { s with resourceList := Function.update s.resourceList b rs }

def setObjects (s : Bindings) (c : Nat) (items : List (Option Nat)) : Bindings :=
  { s with objects := Function.update s.objects c items }

def setCore (s : Bindings) (c : Nat) (r : Option Nat) : Bindings :=
  { s with coreResource := Function.update s.coreResource c r }

/-! ## Messages to clients -/

/-- A list of resources with what its elements are linked to. -/
def listUses (s : Bindings) (b : Bound) : List Allocated :=
  .object b :: (s.resourceList b).map .resource

/-- A message to each resource in a list, which goes out over the connection of its client. -/
def notifyAll (s : Bindings) (b : Bound) : Bindings :=
  s.touch (s.listUses b ++
    (s.resourceList b).map fun r => .object (.client (s.resources r).client))

/-- `pinos_core_notify_error` and `pinos_core_notify_remove_id` with `client->core_resource`. -/
def notifyCore (s : Bindings) (c : Nat) : Bindings :=
  let s := s.touch [.object (.client c)]
  match s.coreResource c with
  | none => s.crash
  | some r => s.touch [.resource r]

/-! ## Resources and globals -/

/-- `pinos_resource_new`. -/
def resourceNew (s : Bindings) (c : Nat) (id : UInt32) (object : Bound) : Bindings × Option Nat :=
  let s := s.touch [.object (.client c)]
  let r := s.nResources
  let new : Bindings := { s with
    resources := Function.update s.resources r ⟨c, id, object⟩
    nResources := r + 1 }
  if id = spaIdInvalid then (new.setObjects c (s.objects c ++ [some r]), some r)
  else if (s.objects c).length < id.toNat then (s, none)
  else (new.setObjects c (putAt (s.objects c) id.toNat (some r)), some r)

/-- `pinos_map_insert_at` with NULL. -/
def clearEntry (s : Bindings) (c : Nat) (id : UInt32) : Bindings :=
  if (s.objects c).length < id.toNat then s
  else s.setObjects c (putAt (s.objects c) id.toNat none)

def enlist (s : Bindings) (b : Bound) (r : Nat) : Bindings :=
  (s.touch (s.listUses b)).setList b (s.resourceList b ++ [r])

def unlist (s : Bindings) (b : Bound) (r : Nat) : Bindings :=
  if r ∈ s.resourceList b then (s.touch (s.listUses b)).setList b ((s.resourceList b).erase r)
  else s.crash

/-- The functions that take a resource out of a list. -/
def unbind (s : Bindings) (r : Nat) : Bindings :=
  match (s.resources r).object with
  | .module _ => s
  | .core => (s.setCore (s.resources r).client none).unlist .core r
  | b => s.unlist b r

/-- `resource->destroy`, given what destroys a client node. -/
def callDestroy (clientNode : Bindings → Nat → Bindings) (s : Bindings) (r : Nat) : Bindings :=
  match (s.resources r).object with
  | .clientNode n => clientNode s n
  | _ => s.unbind r

/-- `pinos_resource_destroy`. -/
def destroyWith (clientNode : Bindings → Nat → Bindings) (s : Bindings) (r : Nat) : Bindings :=
  let c := (s.resources r).client
  let s := (s.touch [.resource r, .object (.client c)]).clearEntry c (s.resources r).id
  let s := s.callDestroy clientNode r
  let s := if s.coreResource c = none then s else s.notifyCore c
  s.free (.resource r)

/-- No client node is among the resources that a node or a link has. -/
def leafDestroy : Bindings → Nat → Bindings := destroyWith fun s _ => s.crash

def addGlobal (s : Bindings) (b : Bound) : Bindings :=
  ({ s with globals := s.globals ++ [b] } : Bindings).notifyAll .registry

def globalDestroy (s : Bindings) (b : Bound) : Bindings :=
  if b ∈ s.globals then { s.notifyAll .registry with globals := s.globals.erase b } else s.crash

/-! ## Nodes, links and clients -/

/-- What `pinos_node_destroy` and `pinos_link_destroy` do before the loops are asked. -/
def objectDestroy (s : Bindings) (b : Bound) (global : Bool) : Bindings :=
  let s := s.touch [.object b]
  let s := if global then s.globalDestroy b else s
  let s := (s.resourceList b).foldl leafDestroy s
  { s with leaving := s.leaving ++ [b] }

def nodeDestroy (s : Bindings) (n : Nat) : Bindings := s.objectDestroy (.node n) (!s.asyncInit n)

def linkDestroy (s : Bindings) (l : Nat) : Bindings := s.objectDestroy (.link l) true

def clientNodeResourceDestroy (s : Bindings) (n : Nat) : Bindings :=
  ((s.touch [.object (.clientNode n)]).setList (.clientNode n) []).nodeDestroy n

/-- `pinos_resource_destroy`. -/
def resourceDestroy : Bindings → Nat → Bindings := destroyWith clientNodeResourceDestroy

/-- `destroy_resource` for the item at `i` of `client->objects`. -/
def destroyEntry (c : Nat) (s : Bindings) (i : Nat) : Bindings :=
  match (s.objects c)[i]?.join with
  | none => s
  | some r => s.resourceDestroy r

/-- `pinos_client_destroy`. -/
def clientDestroy (s : Bindings) (c : Nat) : Bindings :=
  let s := s.touch [.object (.client c)]
  let s := { s with clients := s.clients.erase c }
  let s := s.globalDestroy (.client c)
  let s := (s.resourceList (.client c)).foldl resourceDestroy s
  let s := (List.range (s.objects c).length).foldl (destroyEntry c) s
  s.free (.object (.client c))

/-- `init_complete`; a client node is told when the ids of its ports are updated. -/
def initComplete (s : Bindings) (n : Nat) : Bindings :=
  let s := (s.touch [.object (.node n)]).notifyAll (.clientNode n)
  let s := ({ s with asyncInit := Function.update s.asyncInit n false } : Bindings).addGlobal
    (.node n)
  s.notifyAll (.node n)

/-- `pinos_node_new`. -/
def nodeNew (s : Bindings) (async : Bool) : Bindings :=
  let n := s.nNodes
  let s := { s with nNodes := n + 1, asyncInit := Function.update s.asyncInit n async }
  if async then s else s.initComplete n

def linkNew (s : Bindings) : Bindings :=
  ({ s with nLinks := s.nLinks + 1 } : Bindings).addGlobal (.link s.nLinks)

def moduleNew (s : Bindings) : Bindings :=
  ({ s with nModules := s.nModules + 1 } : Bindings).addGlobal (.module s.nModules)

/-! ## Binding -/

/-- The function `bind` of a global: those of the core, of modules, and of all others. -/
def bindFunc (s : Bindings) (c : Nat) (id : UInt32) (b : Bound) : Bindings :=
  match s.resourceNew c id b, b with
  | (s, none), .core => s
  | (s, none), _ => s.notifyCore c
  | (s, some r), .core => (s.enlist .core r).setCore c (some r)
  | (s, some _), .module m => s.touch [.object (.module m)]
  | (s, some r), b => s.enlist b r

def registryBind (s : Bindings) (c : Nat) (b : Bound) (seen : Bool) (newId : UInt32) : Bindings :=
  if b ∈ s.globals ∧ seen = true then s.bindFunc c newId b
  else (s.clearEntry c newId).notifyCore c

def getRegistry (s : Bindings) (c : Nat) (newId : UInt32) : Bindings :=
  match s.resourceNew c newId .registry with
  | (s, none) => s.notifyCore c
  | (s, some r) => s.enlist .registry r

/-- `pinos_client_node_new`; without an id for its resource the client node is freed while
the loops still have its node. -/
def clientNodeNew (s : Bindings) (c : Nat) (id : UInt32) : Bindings × Bool :=
  let n := s.nNodes
  let s := s.nodeNew true
  match s.resourceNew c id (.clientNode n) with
  | (s, none) => ((s.nodeDestroy n).free (.object (.clientNode n)), false)
  | (s, some r) =>
    ({ s.enlist (.clientNode n) r with nodeFree := Function.update s.nodeFree n true }, true)

/-- `async_create_client_node_complete`; making the descriptors does not fail. -/
def createClientNode (s : Bindings) (c : Nat) (allowed : Bool) (newId : UInt32) : Bindings :=
  if allowed then
    match s.clientNodeNew c newId with
    | (s, false) => s.notifyCore c
    | (s, true) => s
  else s.notifyCore c

/-- `client_node_destroy`, which destroys `node->resource`. -/
def clientNodeDestroy (s : Bindings) (n : Nat) : Bindings :=
  match s.resourceList (.clientNode n) with
  | [] => s.crash
  | r :: _ => s.resourceDestroy r

/-- `connection_data` looks up the object of a message, whose kind says what the method is. -/
def request (s : Bindings) (c : Nat) (on : UInt32) (req : ClientRequest) : Bindings :=
  match (s.objects c)[on.toNat]?.join with
  | none => s
  | some r =>
    let s := s.touch [.resource r, .object (s.resources r).object]
    match (s.resources r).object, req with
    | .core, .getRegistry newId => s.getRegistry c newId
    | .core, .createClientNode allowed newId => s.createClientNode c allowed newId
    | .registry, .bind b seen newId => s.registryBind c b seen newId
    | .clientNode n, .destroy => s.clientNodeDestroy n
    | _, _ => s

/-- `client_new` of the protocol: a client, which is bound to the core under id 0. -/
def connect (s : Bindings) : Bindings :=
  let c := s.nClients
  let s := { s with
    nClients := c + 1
    clients := s.clients ++ [c]
    objects := Function.update s.objects c []
    coreResource := Function.update s.coreResource c none }
  (s.addGlobal (.client c)).bindFunc c 0 .core

/-! ## The loops -/

/-- `do_node_remove` pauses the node, which tells its state; a link is freed alike. -/
def remove (s : Bindings) (b : Bound) : Bindings :=
  let s := ({ s with leaving := s.leaving.erase b } : Bindings).notifyAll b
  match b with
  | .node n =>
    if s.nodeFree n then (s.free (.object (.clientNode n))).free (.object b)
    else s.free (.object b)
  | _ => s.free (.object b)

def step (s : Bindings) : BindingEvent → Bindings
  | .connect => s.connect
  | .disconnect c => s.clientDestroy c
  | .request c on req => s.request c on req
  | .newNode => s.nodeNew false
  | .newLink => s.linkNew
  | .newModule => s.moduleNew
  | .initComplete n => s.initComplete n
  | .nodeDestroy n => s.nodeDestroy n
  | .linkDestroy l => s.linkDestroy l
  | .changed b => s.notifyAll b
  | .removed b => s.remove b

/-! ## What is asked, and what holds -/

def Live (s : Bindings) (r : Nat) : Prop := r < s.nResources ∧ .resource r ∉ s.freed

/-- Made and not destroyed. -/
def There (s : Bindings) : Bound → Prop
  | .core | .registry => True
  | .module m => m < s.nModules
  | .client c => c ∈ s.clients
  | .node n => n < s.nNodes ∧ .node n ∉ s.leaving ∧ .object (.node n) ∉ s.freed
  | .link l => l < s.nLinks ∧ .link l ∉ s.leaving ∧ .object (.link l) ∉ s.freed
  | .clientNode n =>
    s.nodeFree n = true ∧ n < s.nNodes ∧ .node n ∉ s.leaving ∧ .object (.node n) ∉ s.freed

instance (s : Bindings) : (b : Bound) → Decidable (s.There b)
  | .core | .registry => inferInstanceAs (Decidable True)
  | .module m => inferInstanceAs (Decidable (m < s.nModules))
  | .client c => inferInstanceAs (Decidable (c ∈ s.clients))
  | .node _ | .link _ | .clientNode _ => inferInstanceAs (Decidable (_ ∧ _))

def entry (s : Bindings) (c i : Nat) : Option Nat := (s.objects c)[i]?.join

/-- The next id of a client, or one that has become free. -/
def Unused (s : Bindings) (c : Nat) (id : UInt32) : Prop :=
  id ≠ spaIdInvalid ∧ id.toNat ≤ (s.objects c).length ∧ s.entry c id.toNat = none

instance (s : Bindings) (c : Nat) (id : UInt32) : Decidable (s.Unused c id) :=
  inferInstanceAs (Decidable (_ ∧ _))

/-- A client that is there makes its requests under ids that are unused; nodes of clients
are destroyed by them, and no node completes its initialization after it was destroyed. -/
def Orderly (s : Bindings) : BindingEvent → Prop
  | .disconnect c => c ∈ s.clients
  | .request c _ (.getRegistry newId) => c ∈ s.clients ∧ s.Unused c newId
  | .request c _ (.createClientNode _ newId) => c ∈ s.clients ∧ s.Unused c newId
  | .request c _ (.bind _ _ newId) => c ∈ s.clients ∧ s.Unused c newId
  | .request c _ .destroy => c ∈ s.clients
  | .initComplete n => s.There (.node n) ∧ s.asyncInit n = true
  | .nodeDestroy n => s.There (.node n) ∧ s.nodeFree n = false
  | .linkDestroy l => s.There (.link l)
  | .changed b => .object b ∉ s.freed
  | .removed b => b ∈ s.leaving
  | .connect | .newNode | .newLink | .newModule => True

instance (s : Bindings) : (e : BindingEvent) → Decidable (s.Orderly e)
  | .disconnect c => inferInstanceAs (Decidable (c ∈ s.clients))
  | .request _ _ (.getRegistry _) | .request _ _ (.createClientNode _ _)
  | .request _ _ (.bind _ _ _) | .initComplete _ | .nodeDestroy _ =>
    inferInstanceAs (Decidable (_ ∧ _))
  | .request c _ .destroy => inferInstanceAs (Decidable (c ∈ s.clients))
  | .linkDestroy l => inferInstanceAs (Decidable (s.There (.link l)))
  | .changed b => inferInstanceAs (Decidable (.object b ∉ s.freed))
  | .removed b => inferInstanceAs (Decidable (b ∈ s.leaving))
  | .connect | .newNode | .newLink | .newModule => inferInstanceAs (Decidable True)

/-- Nothing freed is used, and a resource is there as long as its client and its object are:
then it is in the table of the one under its id, and in the list of the other. -/
structure Sound (s : Bindings) : Prop where
  tame : s.wild = false
  once : s.freed.Nodup
  there : ∀ b, s.There b → .object b ∉ s.freed
  live_iff : ∀ r < s.nResources, .resource r ∉ s.freed ↔
    (s.resources r).client ∈ s.clients ∧ s.There (s.resources r).object
  entry_iff : ∀ c i r, s.entry c i = some r ↔
    s.Live r ∧ (s.resources r).client = c ∧ (s.resources r).id.toNat = i
  nodup : ∀ b, (s.resourceList b).Nodup
  mem_iff : ∀ b r, r ∈ s.resourceList b ↔ s.Live r ∧ (s.resources r).object = b ∧ b.HasList

end Bindings
end Pinos
