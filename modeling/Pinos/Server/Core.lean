import Mathlib.Logic.Function.Basic
import Pinos.Server.Resource

/-
`server/core.c`: globals, the registries that are told about them, and the
requests of clients that make objects.
-/

namespace Pinos

/-- A global; `serial` tells it from others whose id or memory it has taken over. -/
structure PinosGlobal where
  serial : Nat
  ptr : UInt64
  id : UInt32
  type : UInt32
  bind : Bool
  deriving DecidableEq

/-- What a registry is told; the type goes out as its name. -/
inductive RegistryEvent where
  | global (id type : UInt32)
  | globalRemove (id : UInt32)
  deriving DecidableEq

/-- A registry resource of a client, and what it has been told. -/
structure Registry where
  client : Nat
  id : UInt32
  told : List RegistryEvent
  deriving DecidableEq

structure PinosAccess where
  viewGlobal : Nat → PinosGlobal → SpaResult

/-- The core with its clients; `bound` has the calls of bind functions, as the serial
number of the global, the client and the new id. -/
structure PinosCore where
  access : Option PinosAccess
  objects : PinosMap
  nextSerial : Nat
  globalList : List PinosGlobal
  registryList : List Registry
  clients : Nat → PinosClient
  bound : List (Nat × Nat × UInt32)

namespace PinosCore

/-- `ACCESS_VIEW_GLOBAL`. -/
def accessViewGlobal (core : PinosCore) (client : Nat) (g : PinosGlobal) : Bool :=
  match core.access with
  | none => true
  | some access => access.viewGlobal client g == .ok

def setClient (core : PinosCore) (client : Nat) (c : PinosClient) : PinosCore :=
  { core with clients := Function.update core.clients client c }

/-- `core_get_registry` on the core resource `resource`. -/
def getRegistry (core : PinosCore) (client : Nat) (resource newId : UInt32) (ptr : Option UInt64) :
    PinosCore :=
  match (core.clients client).getRegistry resource newId ptr with
  | (c, none) => core.setClient client c
  | (c, some id) =>
    let told := (core.globalList.filter (core.accessViewGlobal client)).map fun g =>
      .global g.id g.type
    { core.setClient client c with registryList := core.registryList ++ [{ client, id, told }] }

def registryBind (core : PinosCore) (client : Nat) (id newId : UInt32) (ptr : Option UInt64) :
    PinosCore :=
  match core.globalList.find? (·.id = id) with
  | none => core.setClient client ((core.clients client).bindNoId newId)
  | some g =>
    if core.accessViewGlobal client g then
      { core.setClient client ((core.clients client).globalBind g.bind newId ptr).1 with
        bound := if g.bind then core.bound ++ [(g.serial, client, newId)] else core.bound }
    else core.setClient client ((core.clients client).bindNoId newId)

/-- `pinos_core_add_global` up to the signal that the global is added. -/
def insertGlobal (core : PinosCore) (ptr : UInt64) (type : UInt32) (bind : Bool) :
    PinosCore × PinosGlobal :=
  let g : PinosGlobal :=
    { serial := core.nextSerial, ptr, id := (core.objects.insertNew ptr).2, type, bind }
  ({ core with
      objects := (core.objects.insertNew ptr).1
      nextSerial := core.nextSerial + 1
      globalList := core.globalList ++ [g] }, g)

/-- Tell all registries whose client may see a global. -/
def tell (core : PinosCore) (g : PinosGlobal) (event : RegistryEvent) : PinosCore :=
  { core with
    registryList := core.registryList.map fun r =>
      if core.accessViewGlobal r.client g then { r with told := r.told ++ [event] } else r }

/-- The rest of `pinos_core_add_global`. -/
def announceGlobal (core : PinosCore) (g : PinosGlobal) : PinosCore :=
  core.tell g (.global g.id g.type)

/-- `pinos_global_destroy`, between the two signals. -/
def destroyGlobal (core : PinosCore) (g : PinosGlobal) : PinosCore :=
  let core := core.tell g (.globalRemove g.id)
  { core with
    objects := core.objects.remove g.id
    globalList := core.globalList.filter (·.serial ≠ g.serial) }

end PinosCore
end Pinos
