import Pinos.Client.Map
import Pinos.Spa.Defs

/-
`server/resource.c`: the objects that a client has on the server.

Messages to a client's core resource are kept in the order they are sent.
-/

namespace Pinos

inductive CoreEvent where
  | error (id : UInt32) (res : SpaResult) (message : String)
  | removeId (id : UInt32)
  deriving DecidableEq

/-- A client as the server has it, whose core resource has id `core`. -/
structure PinosClient where
  objects : PinosMap
  core : UInt32
  sent : List CoreEvent

namespace PinosClient

def notifyError (c : PinosClient) (id : UInt32) (res : SpaResult) (message : String) :
    PinosClient :=
  { c with sent := c.sent ++ [.error id res message] }

def notifyRemoveId (c : PinosClient) (id : UInt32) : PinosClient :=
  { c with sent := c.sent ++ [.removeId id] }

/-- Make a resource at the address that `calloc` gives; none if there is no memory or the
id cannot be used. -/
def resourceNew (c : PinosClient) (id : UInt32) : Option UInt64 → PinosClient × Option UInt32
  | none => (c, none)
  | some ptr =>
    if id = spaIdInvalid then
      ({ c with objects := (c.objects.insertNew ptr).1 }, some (c.objects.insertNew ptr).2)
    else if (c.objects.insertAt id ptr).2 then
      ({ c with objects := (c.objects.insertAt id ptr).1 }, some id)
    else (c, none)

def resourceDestroy (c : PinosClient) (id : UInt32) : PinosClient :=
  notifyRemoveId { c with objects := (c.objects.insertAt id 0).1 } id

/-! ## Requests with a new id, on the core resource `resource` -/

/-- `core_get_registry`, as far as the client goes. -/
def getRegistry (c : PinosClient) (resource newId : UInt32) (ptr : Option UInt64) :
    PinosClient × Option UInt32 :=
  match c.resourceNew newId ptr with
  | (c, some id) => (c, some id)
  | (c, none) => (c.notifyError resource .noMemory "no memory", none)

def createNode (c : PinosClient) (resource : UInt32) : PinosClient :=
  c.notifyError resource .notImplemented "not implemented"

/-- `async_create_client_node_complete`: what access says, whether there is a node, and
what `pinos_client_node_get_fds` returns. -/
def createClientNodeComplete (c : PinosClient) (resource newId : UInt32) (res : SpaResult)
    (node : Bool) (ptr : Option UInt64) (fds : SpaResult) : PinosClient × Option UInt32 :=
  if res ≠ .ok then
    (c.notifyError resource .noPermission "operation not allowed", none)
  else if node then
    match c.resourceNew newId ptr with
    | (c, some id) =>
      if fds.toInt32 < 0 then (c.notifyError resource .error "can't get data fds", some id)
      else (c, some id)
    | (c, none) => (c.notifyError resource .noMemory "no memory", none)
  else (c.notifyError resource .noMemory "no memory", none)

/-- What the bind functions of clients, nodes, links and modules do. -/
def bindFunc (c : PinosClient) (id : UInt32) (ptr : Option UInt64) : PinosClient × Option UInt32 :=
  match c.resourceNew id ptr with
  | (c, some id) => (c, some id)
  | (c, none) => (c.notifyError c.core .noMemory "no memory", none)

/-- `pinos_global_bind`; `bind` tells whether the global has a bind function. -/
def globalBind (c : PinosClient) (bind : Bool) (id : UInt32) (ptr : Option UInt64) :
    PinosClient × Option UInt32 :=
  if bind then c.bindFunc id ptr
  else
    (c.notifyError c.core .notImplemented s!"can't bind object id {id.toInt32.toInt}", none)

/-- The end of `registry_bind` for an id without a global. -/
def bindNoId (c : PinosClient) (newId : UInt32) : PinosClient :=
  notifyRemoveId { c with objects := (c.objects.insertAt newId 0).1 } newId

end PinosClient
end Pinos
