import Mathlib.Data.List.Perm.Basic
import Pinos.Client.MapChain
import Pinos.Lib.Run
import Pinos.Server.Resource

/-
The ids of objects on both sides of a connection.

A client takes an id for a proxy and sends it along, and the server stores its
resource under it.  The server's table takes an id up to its size, so it stays
usable as long as every id that the client takes new at the end of its own table
is marked on the server, also by requests that fail.
-/

namespace Pinos

/-- A message of a client that carries a new id. -/
inductive IdRequest where
  | getRegistry
  | createNode
  | createClientNode
  | bind
  deriving DecidableEq

/-- What decides how the server handles a request: the memory for a resource; what access
says about a client node and whether that is its last word, whether there is a node and
its file descriptors; and whether there is a global to bind, with a bind function. -/
structure Handling where
  ptr : Option UInt64
  access : SpaResult
  later : Bool
  node : Bool
  fds : SpaResult
  global : Option Bool
  deriving DecidableEq

/-- A request on its way, with the number of the proxy it is for. -/
structure Sent where
  proxy : Nat
  id : UInt32
  request : IdRequest
  deriving DecidableEq

inductive IdOp where
  | request (request : IdRequest) (ptr : UInt64)
  | serve (h : Handling)
  | complete (n : Nat) (h : Handling)
  | destroy (id : UInt32)
  | receive
  deriving DecidableEq

/-- The table of a client, the proxy behind each of its ids and how many there were; the
requests on the way; the client on the server, the proxy that each resource was made
for with its address, the requests that access has not decided, and how many messages
have come back. -/
structure IdUse where
  context : PinosMap
  proxies : UInt32 → Option Nat
  next : Nat
  queue : List Sent
  client : PinosClient
  resources : UInt32 → Option (Nat × UInt64)
  undecided : List Sent
  received : Nat

namespace IdUse

/-- A new connection: the core has the id 0 on both sides. -/
def start (proxy resource : UInt64) : IdUse where
  context := (PinosMap.empty.insertAt 0 proxy).1
  proxies := Function.update (fun _ => none) 0 (some 0)
  next := 1
  queue := []
  client := { objects := (PinosMap.empty.insertAt 0 resource).1, core := 0, sent := [] }
  resources := Function.update (fun _ => none) 0 (some (0, resource))
  undecided := []
  received := 0

/-- What handling a request does to the client, and the id of a resource it made. -/
def handle (c : PinosClient) (r : Sent) (h : Handling) : PinosClient × Option UInt32 :=
  match r.request with
  | .getRegistry => c.getRegistry 0 r.id h.ptr
  | .createNode => (c.createNode 0, none)
  | .createClientNode => c.createClientNodeComplete 0 r.id h.access h.node h.ptr h.fds
  | .bind =>
    match h.global with
    | none => (c.bindNoId r.id, none)
    | some bind => c.globalBind bind r.id h.ptr

/-- A proxy is made, and takes an id. -/
def stepRequest (s : IdUse) (request : IdRequest) (ptr : UInt64) : IdUse :=
  let id := (s.context.insertNew ptr).2
  { s with
    context := (s.context.insertNew ptr).1
    proxies := Function.update s.proxies id (some s.next)
    next := s.next + 1
    queue := s.queue ++ [⟨s.next, id, request⟩] }

/-- The server has handled `r`. -/
def handled (s : IdUse) (r : Sent) (h : Handling) : IdUse :=
  { s with
    client := (handle s.client r h).1
    resources :=
      match (handle s.client r h).2, h.ptr with
      | some id, some ptr => Function.update s.resources id (some (r.proxy, ptr))
      | _, _ => s.resources }

/-- `core_event_remove_id`. -/
def stepRemoveId (s : IdUse) (id : UInt32) : IdUse :=
  if s.context.lookup id.toNat = 0 then s
  else
    { s with
      context := s.context.remove id
      proxies := Function.update s.proxies id none }

def step (s : IdUse) : IdOp → IdUse
  | .request request ptr => s.stepRequest request ptr
  | .serve h =>
    match s.queue with
    | [] => s
    | r :: queue =>
      if r.request = .createClientNode ∧ h.later then
        { s with queue := queue, undecided := s.undecided ++ [r] }
      else { s with queue := queue }.handled r h
  | .complete n h =>
    match s.undecided[n]? with
    | none => s
    | some r => { s with undecided := s.undecided.eraseIdx n }.handled r h
  | .destroy id =>
    { s with client := s.client.resourceDestroy id, resources := Function.update s.resources id none }
  | .receive =>
    match s.client.sent[s.received]? with
    | none => s
    | some (.error _ _ _) => { s with received := s.received + 1 }
    | some (.removeId id) => { s.stepRemoveId id with received := s.received + 1 }

/-- Addresses are pointers; the server destroys resources that there are, and the core
resource lives as long as the connection. -/
def Admits (s : IdUse) : IdOp → Prop
  | .request _ ptr => MapUse.IsPointer ptr
  | .serve h => ∀ ptr, h.ptr = some ptr → MapUse.IsPointer ptr
  | .complete _ h => ∀ ptr, h.ptr = some ptr → MapUse.IsPointer ptr
  | .destroy id => id ≠ 0 ∧ s.resources id ≠ none
  | .receive => True

/-- The id of the request that is served next, on its way or not yet sent. -/
def nextId (s : IdUse) : UInt32 :=
  match s.queue with
  | r :: _ => r.id
  | [] => (s.context.insertNew 0).2

/-- The server's table takes the next id. -/
def Accepts (s : IdUse) : Prop := (s.client.objects.insertAt s.nextId 0).2 = true

/-- A resource found under an id is the one made for the client's proxy of that id. -/
def Stands (s : IdUse) : Prop :=
  ∀ id, s.client.objects.lookup id.toNat ≠ 0 →
    ∃ k, s.resources id = some (k, s.client.objects.lookup id.toNat) ∧ s.proxies id = some k

def Right (s : IdUse) (op : IdOp) : Prop := (s.step op).Accepts ∧ (s.step op).Stands

/-- Handling the request makes a resource, or finds no global to bind. -/
def Marks (r : Sent) (h : Handling) : Prop :=
  match r.request with
  | .getRegistry => h.ptr ≠ none
  | .createNode => False
  | .createClientNode => h.later = false ∧ h.access = .ok ∧ h.node = true ∧ h.ptr ≠ none
  | .bind => h.global = none ∨ h.global = some true ∧ h.ptr ≠ none

/-- A new id at the end of the server's table is marked, and the client has ids left. -/
def Safe (s : IdUse) : IdOp → Prop
  | .request _ _ => s.context.freeList ≠ 0 ∨ s.context.size < 2 ^ 31
  | .serve h => ∀ r ∈ s.queue.head?, r.id.toNat < s.client.objects.size ∨ Marks r h
  | _ => True

/-! ## The server's side of a request -/

/-- The ids that a list of messages says are removed. -/
def removeIds (events : List CoreEvent) : List UInt32 :=
  events.filterMap fun e =>
    match e with
    | .removeId id => some id
    | .error _ _ _ => none

theorem insertAt_spec {map : PinosMap} {id : UInt32} (h : id.toNat ≤ map.size) (data : UInt64) :
    (map.insertAt id data).2 = true ∧ (map.insertAt id data).1.freeList = map.freeList ∧
      (map.insertAt id data).1.size = (if id.toNat = map.size then map.size + 1 else map.size) ∧
        ∀ j, (map.insertAt id data).1.items.getD j 0
          = if j = id.toNat then data else map.items.getD j 0 := by
  rw [PinosMap.insertAt, if_neg (Nat.not_lt.mpr h)]
  by_cases hlast : id.toNat = map.size
  · rw [if_pos hlast, if_pos hlast, hlast]
    exact ⟨rfl, rfl, List.length_append, PinosMap.getD_append map.items data⟩
  · rw [if_neg hlast, if_neg hlast]
    have hlt : id.toNat < map.items.length := Nat.lt_of_le_of_ne h hlast
    exact ⟨rfl, rfl, List.length_set, fun j => PinosMap.getD_set map.items hlt data⟩

theorem resourceNew_some {c : PinosClient} {id : UInt32} (h : id.toNat ≤ c.objects.size)
    (hid : id ≠ spaIdInvalid) (ptr : UInt64) :
    c.resourceNew id (some ptr)
      = ({ c with objects := (c.objects.insertAt id ptr).1 }, some id) := by
  rw [PinosClient.resourceNew, if_neg hid, if_pos (insertAt_spec h ptr).1]

/-- A request makes its resource, has its id marked and given back, or only fails. -/
theorem handle_spec {c : PinosClient} {r : Sent} (hle : r.id.toNat ≤ c.objects.size)
    (hid : r.id ≠ spaIdInvalid) (h : Handling) :
    (∃ ptr l, h.ptr = some ptr ∧ removeIds l = [] ∧ handle c r h =
        ({ c with objects := (c.objects.insertAt r.id ptr).1, sent := c.sent ++ l }, some r.id)) ∨
      handle c r h =
        ({ c with
            objects := (c.objects.insertAt r.id 0).1
            sent := c.sent ++ [.removeId r.id] }, none) ∨
      ∃ l, ¬ Marks r h ∧ removeIds l = [] ∧
        handle c r h = ({ c with sent := c.sent ++ l }, none) := by
  have hnew := resourceNew_some hle hid
  rw [handle, Marks]
  cases r.request with
  | getRegistry =>
    cases hptr : h.ptr with
    | none => exact .inr (.inr ⟨_, fun hne => hne rfl, rfl, rfl⟩)
    | some ptr =>
      refine .inl ⟨ptr, [], rfl, rfl, ?_⟩
      simp only [PinosClient.getRegistry, hnew, List.append_nil]
  | createNode => exact .inr (.inr ⟨_, fun hf => hf, rfl, rfl⟩)
  | createClientNode =>
    dsimp only
    rw [PinosClient.createClientNodeComplete]
    by_cases hres : h.access = .ok
    · rw [if_neg (not_not_intro hres)]
      cases hnode : h.node with
      | false => exact .inr (.inr ⟨_, fun hm => (nomatch hm.2.2.1), rfl, rfl⟩)
      | true =>
        cases hptr : h.ptr with
        | none => exact .inr (.inr ⟨_, fun hm => hm.2.2.2 rfl, rfl, rfl⟩)
        | some ptr =>
          left
          simp only [if_true, hnew]
          split
          · exact ⟨ptr, _, rfl, rfl, rfl⟩
          · exact ⟨ptr, [], rfl, rfl, by rw [List.append_nil]⟩
    · rw [if_pos hres]
      exact .inr (.inr ⟨_, fun hm => hres hm.2.1, rfl, rfl⟩)
  | bind =>
    cases hglobal : h.global with
    | none => exact .inr (.inl rfl)
    | some bind =>
      cases bind with
      | false =>
        refine .inr (.inr ⟨_, ?_, ?_, rfl⟩)
        · simp
        · rfl
      | true =>
        cases hptr : h.ptr with
        | none =>
          refine .inr (.inr ⟨_, ?_, ?_, rfl⟩)
          · simp
          · rfl
        | some ptr =>
          refine .inl ⟨ptr, [], rfl, rfl, ?_⟩
          simp only [PinosClient.globalBind, PinosClient.bindFunc, hnew, if_true, List.append_nil]

/-! ## Both sides -/

/-- The ids that the server has given back and the client has not heard of. -/
def removing (s : IdUse) : List UInt32 := removeIds (s.client.sent.drop s.received)

def waiting (s : IdUse) : List Sent := s.queue ++ s.undecided

structure Inv (s : IdUse) : Prop where
  context : ∃ free stored, s.context.Stores free stored ∧
    (∀ id, stored id = none ↔ s.proxies id = none) ∧
      ∀ id data, stored id = some data → MapUse.IsPointer data
  unlinked : s.client.objects.freeList = 0
  slots : ∀ id : UInt32, s.client.objects.items.getD id.toNat 0
    = ((s.resources id).map Prod.snd).getD 0
  made : ∀ id k data, s.resources id = some (k, data) → MapUse.IsPointer data ∧
    id.toNat < s.client.objects.size ∧ s.proxies id = some k
  asked : ∀ r ∈ s.waiting, s.proxies r.id = some r.proxy ∧ s.resources r.id = none
  undecided : ∀ r ∈ s.undecided, r.id.toNat < s.client.objects.size
  given : ∀ id ∈ s.removing, s.proxies id ≠ none ∧ s.resources id = none ∧
    id.toNat < s.client.objects.size
  distinct : (s.waiting.map Sent.id ++ s.removing).Nodup
  fresh : (s.queue.map fun r => r.id.toNat).filter (s.client.objects.size ≤ ·)
    = List.range' s.client.objects.size (s.context.size - s.client.objects.size)
  behind : s.client.objects.size ≤ s.context.size
  heard : s.received ≤ s.client.sent.length

theorem inv_start {proxy resource : UInt64} (hproxy : MapUse.IsPointer proxy)
    (hresource : MapUse.IsPointer resource) : (start proxy resource).Inv := by
  obtain ⟨-, -, -, hstores⟩ := PinosMap.stores_empty.insertNew_append rfl (by decide) proxy
  have hzero : (PinosMap.empty.insertNew proxy).2 = 0 := rfl
  have hproxies : ∀ i, (start proxy resource).proxies i = if i = 0 then some 0 else none :=
    fun i => by simp only [start, Function.update_apply]
  have hresources : ∀ i, (start proxy resource).resources i
      = if i = 0 then some (0, resource) else none := fun i => by
    simp only [start, Function.update_apply]
  refine ⟨⟨[], _, hstores, fun i => ?_, fun i data => ?_⟩, rfl, fun i => ?_, fun i k data => ?_,
    fun r hr => (nomatch hr), fun r hr => (nomatch hr), fun i hi => (nomatch hi), List.nodup_nil,
    rfl, Nat.le_refl _, Nat.le_refl _⟩
  · rw [hzero, hproxies, Function.update_apply]
    split <;> simp
  · rw [hzero, Function.update_apply]
    split
    · exact fun heq => Option.some.inj heq ▸ hproxy
    · exact fun heq => nomatch heq
  · rw [hresources]
    show [resource].getD i.toNat 0 = _
    split
    · rename_i hi
      rw [hi]
      rfl
    · rename_i hi
      have hne : i.toNat ≠ 0 := fun h => hi (UInt32.toNat_inj.mp h)
      rw [List.getD_eq_getElem?_getD, List.getElem?_eq_none]
      · rfl
      · show 1 ≤ i.toNat
        omega
  · rw [hresources, hproxies]
    split
    · rename_i hi
      intro heq
      cases heq
      rw [hi]
      exact ⟨hresource, Nat.zero_lt_one, rfl⟩
    · exact fun heq => nomatch heq

namespace Inv

variable {s : IdUse} (h : s.Inv)
include h

theorem live_lt {id : UInt32} (hlive : s.proxies id ≠ none) :
    id.toNat < s.context.size ∧ s.context.size ≤ 2 ^ 31 := by
  obtain ⟨free, stored, hstores, hproxies, -⟩ := h.context
  exact ⟨(hstores.live_lt (mt (hproxies id).mp hlive)).2, hstores.bound⟩

theorem waiting_lt {r : Sent} (hr : r ∈ s.waiting) :
    r.id.toNat < s.context.size ∧ r.id ≠ spaIdInvalid := by
  obtain ⟨hproxy, -⟩ := h.asked r hr
  obtain ⟨hlt, hbound⟩ := h.live_lt (hproxy ▸ Option.some_ne_none r.proxy)
  refine ⟨hlt, fun heq => ?_⟩
  rw [heq] at hlt
  have hmax : spaIdInvalid.toNat = 2 ^ 32 - 1 := rfl
  omega

/-- The server's table has room for the request that is served next. -/
theorem head_le {r : Sent} {queue : List Sent} (hqueue : s.queue = r :: queue) :
    r.id.toNat ≤ s.client.objects.size ∧
      ∀ size, size = (if r.id.toNat = s.client.objects.size then s.client.objects.size + 1
          else s.client.objects.size) →
        (queue.map fun r => r.id.toNat).filter (size ≤ ·)
          = List.range' size (s.context.size - size) := by
  have hfresh := h.fresh
  rw [hqueue, List.map_cons] at hfresh
  by_cases hge : s.client.objects.size ≤ r.id.toNat
  · rw [List.filter_cons_of_pos (by simpa using hge)] at hfresh
    obtain ⟨n, hn⟩ : ∃ n, s.context.size - s.client.objects.size = n + 1 := by
      rcases hsize : s.context.size - s.client.objects.size with _ | n
      · rw [hsize] at hfresh
        simp at hfresh
      · exact ⟨n, rfl⟩
    rw [hn, List.range'_succ, List.cons.injEq] at hfresh
    obtain ⟨hid, hrest⟩ := hfresh
    refine ⟨Nat.le_of_eq hid, fun size hsize => ?_⟩
    rw [if_pos hid] at hsize
    rw [hsize, show s.context.size - (s.client.objects.size + 1) = n by omega, ← hrest]
    apply List.filter_congr
    intro i hi
    obtain ⟨r', hr', rfl⟩ := List.mem_map.mp hi
    have hdistinct := (List.nodup_append.mp h.distinct).1
    rw [waiting, hqueue, List.cons_append, List.map_cons, List.nodup_cons] at hdistinct
    have hne : r'.id.toNat ≠ r.id.toNat := fun heq => hdistinct.1 (List.mem_map.mpr
      ⟨r', List.mem_append_left _ hr', UInt32.toNat_inj.mp heq⟩)
    rw [decide_eq_decide]
    omega
  · rw [List.filter_cons_of_neg (by simpa using hge)] at hfresh
    refine ⟨by omega, fun size hsize => ?_⟩
    rw [if_neg (by omega)] at hsize
    rw [hsize]
    exact hfresh

omit h in
theorem removing_append (s : IdUse) (hheard : s.received ≤ s.client.sent.length)
    (l : List CoreEvent) :
    removeIds ((s.client.sent ++ l).drop s.received) = s.removing ++ removeIds l := by
  rw [List.drop_append_of_le_length hheard, removeIds, List.filterMap_append]
  rfl

/-- An id of the queue is marked on the server, with a resource or to be given back. -/
theorem marked {r : Sent} {queue undecided : List Sent}
    (hwaiting : s.waiting.Perm (r :: (queue ++ undecided)))
    (hundecided : ∀ r' ∈ undecided, r' ∈ s.undecided)
    (hle : r.id.toNat ≤ s.client.objects.size)
    (hfresh : ∀ size, size = (if r.id.toNat = s.client.objects.size then s.client.objects.size + 1
          else s.client.objects.size) →
        (queue.map fun r => r.id.toNat).filter (size ≤ ·)
          = List.range' size (s.context.size - size))
    (entry : Option (Nat × UInt64)) {data : UInt64} {l : List CoreEvent}
    (hdata : (entry.map Prod.snd).getD 0 = data)
    (hentry : ∀ k d, entry = some (k, d) → MapUse.IsPointer d ∧ k = r.proxy)
    (hl : removeIds l = [] ∨ entry = none ∧ removeIds l = [r.id]) :
    Inv
      { s with
        queue := queue
        undecided := undecided
        client :=
          { s.client with
            objects := (s.client.objects.insertAt r.id data).1
            sent := s.client.sent ++ l }
        resources := Function.update s.resources r.id entry } := by
  obtain ⟨-, hlink, hsize, hslots⟩ := insertAt_spec hle data
  have hmem : ∀ r', r' ∈ s.waiting ↔ r' = r ∨ r' ∈ queue ++ undecided := fun r' => by
    rw [hwaiting.mem_iff, List.mem_cons]
  have hr : r ∈ s.waiting := (hmem r).mpr (.inl rfl)
  obtain ⟨hproxy, hnone⟩ := h.asked r hr
  have hrlt := (h.waiting_lt hr).1
  have hperm : (s.waiting.map Sent.id ++ s.removing).Perm
      (r.id :: ((queue ++ undecided).map Sent.id ++ s.removing)) :=
    (hwaiting.map Sent.id).append_right s.removing
  obtain ⟨hnot, hdistinct⟩ := List.nodup_cons.mp (hperm.nodup_iff.mp h.distinct)
  rw [List.mem_append, not_or] at hnot
  have hmono : s.client.objects.size ≤ (s.client.objects.insertAt r.id data).1.size := by
    rw [hsize]
    split <;> omega
  have hlt : r.id.toNat < (s.client.objects.insertAt r.id data).1.size := by
    rw [hsize]
    split <;> omega
  have hremoving := removing_append s h.heard l
  refine ⟨h.context, hlink.trans h.unlinked, fun id => ?_, fun id k d hid => ?_, fun r' hr' => ?_,
    fun r' hr' => Nat.lt_of_lt_of_le (h.undecided r' (hundecided r' hr')) hmono, fun id hid => ?_,
    ?_, hfresh _ hsize, ?_, ?_⟩
  · show (s.client.objects.insertAt r.id data).1.items.getD id.toNat 0
      = ((Function.update s.resources r.id entry id).map Prod.snd).getD 0
    rw [hslots]
    by_cases hid : id = r.id
    · rw [hid, if_pos rfl, Function.update_self, hdata]
    · rw [if_neg (mt UInt32.toNat_inj.mp hid), Function.update_of_ne hid]
      exact h.slots id
  · by_cases heq : id = r.id
    · have hid : Function.update s.resources r.id entry id = some (k, d) := hid
      rw [heq, Function.update_self] at hid
      obtain ⟨hpointer, hk⟩ := hentry k d hid
      rw [heq, hk]
      exact ⟨hpointer, hlt, hproxy⟩
    · have hid : Function.update s.resources r.id entry id = some (k, d) := hid
      rw [Function.update_of_ne heq] at hid
      obtain ⟨hpointer, hold, hproxies⟩ := h.made id k d hid
      exact ⟨hpointer, Nat.lt_of_lt_of_le hold hmono, hproxies⟩
  · obtain ⟨hproxies, hresource⟩ := h.asked r' ((hmem r').mpr (.inr hr'))
    have hne : r'.id ≠ r.id := fun heq => hnot.1 (heq ▸ List.mem_map_of_mem hr')
    refine ⟨hproxies, ?_⟩
    show Function.update s.resources r.id entry r'.id = none
    rw [Function.update_of_ne hne]
    exact hresource
  · have hid : id ∈ removeIds ((s.client.sent ++ l).drop s.received) := hid
    rw [hremoving, List.mem_append] at hid
    show s.proxies id ≠ none ∧ Function.update s.resources r.id entry id = none ∧ _
    by_cases heq : id = r.id
    · have hnew : removeIds l ≠ [] := by
        intro hnil
        rw [hnil] at hid
        exact hnot.2 (heq ▸ hid.resolve_right List.not_mem_nil)
      rw [heq, Function.update_self, hproxy]
      exact ⟨Option.some_ne_none _, (hl.resolve_left hnew).1, hlt⟩
    · have hold : id ∈ s.removing := by
        refine hid.resolve_right fun hnew => ?_
        rcases hl with hnil | ⟨-, hone⟩
        · rw [hnil] at hnew
          exact List.not_mem_nil hnew
        · rw [hone] at hnew
          exact heq (List.mem_singleton.mp hnew)
      obtain ⟨hproxies, hresource, hidlt⟩ := h.given id hold
      rw [Function.update_of_ne heq]
      exact ⟨hproxies, hresource, Nat.lt_of_lt_of_le hidlt hmono⟩
  · show ((queue ++ undecided).map Sent.id
      ++ removeIds ((s.client.sent ++ l).drop s.received)).Nodup
    rw [hremoving]
    rcases hl with hnil | ⟨-, hone⟩
    · rw [hnil, List.append_nil]
      exact hdistinct
    · rw [hone, ← List.append_assoc]
      refine (List.perm_append_singleton r.id _).nodup_iff.mpr (List.nodup_cons.mpr ⟨?_, hdistinct⟩)
      rw [List.mem_append, not_or]
      exact hnot
  · show (s.client.objects.insertAt r.id data).1.size ≤ s.context.size
    have hbehind := h.behind
    rw [hsize]
    split <;> omega
  · show s.received ≤ (s.client.sent ++ l).length
    rw [List.length_append]
    exact Nat.le_add_right_of_le h.heard

/-- A request that only fails, with an id that the server's table has. -/
theorem failed {r : Sent} {queue undecided : List Sent}
    (hwaiting : s.waiting.Perm (r :: (queue ++ undecided)))
    (hundecided : ∀ r' ∈ undecided, r'.id.toNat < s.client.objects.size)
    (hfresh : (queue.map fun r => r.id.toNat).filter (s.client.objects.size ≤ ·)
      = List.range' s.client.objects.size (s.context.size - s.client.objects.size))
    {l : List CoreEvent} (hl : removeIds l = []) :
    Inv
      { s with
        queue := queue
        undecided := undecided
        client := { s.client with sent := s.client.sent ++ l } } := by
  have hremoving := removing_append s h.heard l
  rw [hl, List.append_nil] at hremoving
  have hperm : (s.waiting.map Sent.id ++ s.removing).Perm
      (r.id :: ((queue ++ undecided).map Sent.id ++ s.removing)) :=
    (hwaiting.map Sent.id).append_right s.removing
  refine ⟨h.context, h.unlinked, h.slots, h.made, fun r' hr' => h.asked r' ?_, hundecided,
    fun id hid => h.given id ?_, ?_, hfresh, h.behind, ?_⟩
  · exact hwaiting.mem_iff.mpr (List.mem_cons_of_mem _ hr')
  · rwa [← hremoving]
  · show ((queue ++ undecided).map Sent.id
      ++ removeIds ((s.client.sent ++ l).drop s.received)).Nodup
    rw [hremoving]
    exact (List.nodup_cons.mp (hperm.nodup_iff.mp h.distinct)).2
  · show s.received ≤ (s.client.sent ++ l).length
    rw [List.length_append]
    exact Nat.le_add_right_of_le h.heard

/-- The server handles a request, from the queue or after access has decided. -/
theorem handled {r : Sent} {queue undecided : List Sent}
    (hwaiting : s.waiting.Perm (r :: (queue ++ undecided)))
    (hundecided : ∀ r' ∈ undecided, r' ∈ s.undecided)
    (hle : r.id.toNat ≤ s.client.objects.size)
    (hfresh : ∀ size, size = (if r.id.toNat = s.client.objects.size then s.client.objects.size + 1
          else s.client.objects.size) →
        (queue.map fun r => r.id.toNat).filter (size ≤ ·)
          = List.range' size (s.context.size - size))
    {hd : Handling} (hptr : ∀ ptr, hd.ptr = some ptr → MapUse.IsPointer ptr)
    (hsafe : r.id.toNat < s.client.objects.size ∨ Marks r hd) :
    Inv (IdUse.handled { s with queue := queue, undecided := undecided } r hd) := by
  have hr : r ∈ s.waiting := hwaiting.mem_iff.mpr (List.mem_cons_self ..)
  have hnone := (h.asked r hr).2
  have hsame : Function.update s.resources r.id none = s.resources := by
    rw [← hnone]
    exact Function.update_eq_self ..
  rw [IdUse.handled]
  obtain ⟨ptr, l, hsome, hl, hhandle⟩ | hhandle | ⟨l, hnot, hl, hhandle⟩ :=
    handle_spec hle (h.waiting_lt hr).2 hd
  · simp only [hhandle, hsome]
    exact h.marked hwaiting hundecided hle hfresh (some (r.proxy, ptr)) rfl
      (fun k d heq => by cases heq; exact ⟨hptr ptr hsome, rfl⟩) (.inl hl)
  · simp only [hhandle]
    have hmarked := h.marked hwaiting hundecided hle hfresh none
      (l := [.removeId r.id]) rfl (fun k d heq => nomatch heq) (.inr ⟨rfl, rfl⟩)
    rw [hsame] at hmarked
    exact hmarked
  · simp only [hhandle]
    have hlt := hsafe.resolve_right hnot
    exact h.failed hwaiting (fun r' hr' => h.undecided r' (hundecided r' hr'))
      (hfresh _ (if_neg (by omega)).symm) hl

theorem serve {hd : Handling} (hptr : ∀ ptr, hd.ptr = some ptr → MapUse.IsPointer ptr)
    (hsafe : s.Safe (.serve hd)) : (s.step (.serve hd)).Inv := by
  rw [step]
  split
  · exact h
  · rename_i r queue hqueue
    obtain ⟨hle, hfresh⟩ := h.head_le hqueue
    have hhead : r.id.toNat < s.client.objects.size ∨ Marks r hd :=
      hsafe r (by rw [hqueue]; rfl)
    have hwaiting : s.waiting.Perm (r :: (queue ++ s.undecided)) := by
      rw [waiting, hqueue]
      exact List.Perm.refl _
    split
    · rename_i hlater
      have hlt : r.id.toNat < s.client.objects.size := by
        refine hhead.resolve_right fun hmarks => ?_
        rw [Marks, hlater.1] at hmarks
        exact absurd hmarks.1 (by rw [hlater.2]; decide)
      have hperm : s.waiting.Perm (queue ++ (s.undecided ++ [r])) := by
        rw [← List.append_assoc]
        exact hwaiting.trans (List.perm_append_singleton r _).symm
      refine ⟨h.context, h.unlinked, h.slots, h.made, fun r' hr' => h.asked r' ?_,
        fun r' hr' => ?_, h.given, ?_, hfresh _ (if_neg (by omega)).symm, h.behind, h.heard⟩
      · exact hperm.mem_iff.mpr hr'
      · rcases List.mem_append.mp hr' with hold | hone
        · exact h.undecided r' hold
        · rw [List.mem_singleton.mp hone]
          exact hlt
      · exact ((hperm.map Sent.id).append_right s.removing).nodup_iff.mp h.distinct
    · exact h.handled hwaiting (fun r' hr' => hr') hle hfresh hptr hhead

theorem complete {n : Nat} {hd : Handling}
    (hptr : ∀ ptr, hd.ptr = some ptr → MapUse.IsPointer ptr) :
    (s.step (.complete n hd)).Inv := by
  rw [step]
  split
  · exact h
  · rename_i r hget
    have hlt := h.undecided r (List.mem_of_getElem? hget)
    have hperm : s.undecided.Perm (r :: s.undecided.eraseIdx n) := by
      obtain ⟨hn, hr⟩ := List.getElem?_eq_some_iff.mp hget
      rw [← hr]
      exact (List.getElem_cons_eraseIdx_perm hn).symm
    have hwaiting : s.waiting.Perm (r :: (s.queue ++ s.undecided.eraseIdx n)) :=
      (hperm.append_left s.queue).trans List.perm_middle
    refine h.handled hwaiting (fun r' hr' => List.mem_of_mem_eraseIdx hr') (Nat.le_of_lt hlt)
      (fun size hsize => ?_) hptr (.inl hlt)
    rw [if_neg (by omega)] at hsize
    rw [hsize]
    exact h.fresh

/-- An id below the client's size and not below the server's is on its way. -/
theorem queued_of_ge {id : UInt32} (hge : s.client.objects.size ≤ id.toNat)
    (hlt : id.toNat < s.context.size) : ∃ r ∈ s.queue, r.id = id := by
  have hmem : id.toNat ∈ List.range' s.client.objects.size
      (s.context.size - s.client.objects.size) := by
    rw [List.mem_range'_1]
    omega
  rw [← h.fresh] at hmem
  obtain ⟨r, hr, heq⟩ := List.mem_map.mp (List.mem_filter.mp hmem).1
  exact ⟨r, hr, UInt32.toNat_inj.mp heq⟩

theorem request {ptr : UInt64} (hptr : MapUse.IsPointer ptr)
    (hroom : s.context.freeList ≠ 0 ∨ s.context.size < 2 ^ 31) (request : IdRequest) :
    (s.step (.request request ptr)).Inv := by
  obtain ⟨free, stored, hstores, hproxies, hpointers⟩ := h.context
  obtain ⟨hdead, ⟨free', hstores'⟩, hsize⟩ := hstores.insertNew hroom ptr
  obtain ⟨id, hid⟩ : ∃ id, id = (s.context.insertNew ptr).2 := ⟨_, rfl⟩
  rw [← hid] at hdead hstores' hsize
  obtain ⟨new, hnew⟩ : ∃ new : Sent, new = ⟨s.next, id, request⟩ := ⟨_, rfl⟩
  have hnewId : new.id = id := by rw [hnew]
  have hnewProxy : new.proxy = s.next := by rw [hnew]
  have hnone : s.proxies id = none := (hproxies id).mp hdead
  have hresource : s.resources id = none := by
    cases hentry : s.resources id with
    | none => rfl
    | some entry =>
      have hlive := (h.made id entry.1 entry.2 hentry).2.2
      rw [hnone] at hlive
      cases hlive
  have hother : ∀ {i}, s.proxies i ≠ none → i ≠ id := fun hi heq => hi (heq ▸ hnone)
  have hasked : ∀ r ∈ s.waiting, r.id ≠ id := fun r hr =>
    hother ((h.asked r hr).1 ▸ Option.some_ne_none r.proxy)
  have hgiven : id ∉ s.removing := fun hmem => hother (h.given id hmem).1 rfl
  have hstep : s.step (.request request ptr) =
      { s with
        context := (s.context.insertNew ptr).1
        proxies := Function.update s.proxies id (some s.next)
        next := s.next + 1
        queue := s.queue ++ [new] } := by
    rw [hnew, hid]
    rfl
  rw [hstep]
  refine ⟨⟨free', _, hstores', fun i => ?_, fun i data => ?_⟩, h.unlinked, h.slots,
    fun i k data hi => ?_, fun r hr => ?_, h.undecided, fun i hi => ?_, ?_, ?_, ?_, h.heard⟩
  · show _ ↔ Function.update s.proxies id (some s.next) i = none
    by_cases hi : i = id
    · rw [hi, Function.update_self, Function.update_self]
      simp
    · rw [Function.update_of_ne hi, Function.update_of_ne hi]
      exact hproxies i
  · by_cases hi : i = id
    · rw [hi, Function.update_self]
      exact fun heq => Option.some.inj heq ▸ hptr
    · rw [Function.update_of_ne hi]
      exact hpointers i data
  · obtain ⟨hpointer, hlt, hlive⟩ := h.made i k data hi
    refine ⟨hpointer, hlt, ?_⟩
    show Function.update s.proxies id (some s.next) i = some k
    rw [Function.update_of_ne (hother (hlive ▸ Option.some_ne_none k))]
    exact hlive
  · show Function.update s.proxies id (some s.next) r.id = some r.proxy ∧ s.resources r.id = none
    have hr : r ∈ (s.queue ++ [new]) ++ s.undecided := hr
    by_cases hold : r ∈ s.waiting
    · rw [Function.update_of_ne (hasked r hold)]
      exact h.asked r hold
    · rw [List.append_assoc, List.mem_append, List.mem_append, List.mem_singleton] at hr
      have hold : ¬ (r ∈ s.queue ∨ r ∈ s.undecided) := mt List.mem_append.mpr hold
      have hr : r = new := by
        rcases hr with hq | rfl | hu
        · exact absurd (.inl hq) hold
        · rfl
        · exact absurd (.inr hu) hold
      rw [hr, hnewId, hnewProxy]
      exact ⟨Function.update_self .., hresource⟩
  · obtain ⟨hlive, hentry, hlt⟩ := h.given i hi
    refine ⟨?_, hentry, hlt⟩
    show Function.update s.proxies id (some s.next) i ≠ none
    rw [Function.update_of_ne (hother hlive)]
    exact hlive
  · have hperm : ((s.queue ++ [new]) ++ s.undecided).Perm
        (new :: s.waiting) := by
      rw [List.append_assoc]
      exact List.perm_middle
    refine ((hperm.map Sent.id).append_right s.removing).nodup_iff.mpr
      (List.nodup_cons.mpr ⟨?_, h.distinct⟩)
    show new.id ∉ s.waiting.map Sent.id ++ s.removing
    rw [hnewId, List.mem_append, not_or]
    refine ⟨fun hmem => ?_, hgiven⟩
    obtain ⟨r, hr, heq⟩ := List.mem_map.mp hmem
    exact hasked r hr heq
  · show ((s.queue ++ [new]).map fun r => r.id.toNat).filter
        (s.client.objects.size ≤ ·)
      = List.range' s.client.objects.size ((s.context.insertNew ptr).1.size - s.client.objects.size)
    have hbehind := h.behind
    rw [List.map_append, List.filter_append, h.fresh]
    rcases hsize with ⟨hlast, hgrown⟩ | ⟨hlt, hsame⟩
    · rw [hgrown, show s.context.size + 1 - s.client.objects.size
        = s.context.size - s.client.objects.size + 1 by omega, List.range'_concat]
      simp [hnewId, hlast, hbehind]
    · have hknown : id.toNat < s.client.objects.size := by
        by_contra hge
        obtain ⟨r, hr, heq⟩ := h.queued_of_ge (Nat.le_of_not_lt hge) hlt
        exact hasked r (List.mem_append_left _ hr) heq
      rw [hsame]
      simp [hnewId, hknown]
  · show s.client.objects.size ≤ (s.context.insertNew ptr).1.size
    have hbehind := h.behind
    omega

theorem destroy {id : UInt32} (hentry : s.resources id ≠ none) : (s.step (.destroy id)).Inv := by
  obtain ⟨entry, hsome⟩ := Option.ne_none_iff_exists'.mp hentry
  obtain ⟨-, hlt, hlive⟩ := h.made id entry.1 entry.2 hsome
  obtain ⟨-, hlink, hsize, hslots⟩ := insertAt_spec (Nat.le_of_lt hlt) 0
  rw [if_neg (Nat.ne_of_lt hlt)] at hsize
  have hother : ∀ {i}, s.resources i = none → i ≠ id := fun hi heq => hentry (heq ▸ hi)
  have hremoving := removing_append s h.heard [.removeId id]
  have hstep : s.step (.destroy id) =
      { s with
        client :=
          { s.client with
            objects := (s.client.objects.insertAt id 0).1
            sent := s.client.sent ++ [.removeId id] }
        resources := Function.update s.resources id none } := rfl
  rw [hstep]
  refine ⟨h.context, hlink.trans h.unlinked, fun i => ?_, fun i k data hi => ?_, fun r hr => ?_,
    fun r hr => ?_, fun i hi => ?_, ?_, ?_, ?_, ?_⟩
  · show (s.client.objects.insertAt id 0).1.items.getD i.toNat 0
      = ((Function.update s.resources id none i).map Prod.snd).getD 0
    rw [hslots]
    by_cases hi : i = id
    · rw [hi, if_pos rfl, Function.update_self]
      rfl
    · rw [if_neg (mt UInt32.toNat_inj.mp hi), Function.update_of_ne hi]
      exact h.slots i
  · have hi : Function.update s.resources id none i = some (k, data) := hi
    by_cases hii : i = id
    · rw [hii, Function.update_self] at hi
      cases hi
    · rw [Function.update_of_ne hii] at hi
      obtain ⟨hpointer, hilt, hproxy⟩ := h.made i k data hi
      exact ⟨hpointer, by rw [← hsize] at hilt; exact hilt, hproxy⟩
  · obtain ⟨hproxy, hnone⟩ := h.asked r hr
    refine ⟨hproxy, ?_⟩
    show Function.update s.resources id none r.id = none
    rw [Function.update_of_ne (hother hnone)]
    exact hnone
  · show r.id.toNat < (s.client.objects.insertAt id 0).1.size
    rw [hsize]
    exact h.undecided r hr
  · have hi : i ∈ removeIds ((s.client.sent ++ [CoreEvent.removeId id]).drop s.received) := hi
    rw [hremoving, List.mem_append] at hi
    show s.proxies i ≠ none ∧ Function.update s.resources id none i = none ∧
      i.toNat < (s.client.objects.insertAt id 0).1.size
    rw [hsize]
    rcases hi with hold | hnew
    · obtain ⟨hproxy, hnone, hilt⟩ := h.given i hold
      rw [Function.update_of_ne (hother hnone)]
      exact ⟨hproxy, hnone, hilt⟩
    · have hii : i = id := List.mem_singleton.mp hnew
      rw [hii, Function.update_self, hlive]
      exact ⟨Option.some_ne_none _, rfl, hlt⟩
  · show (s.waiting.map Sent.id
      ++ removeIds ((s.client.sent ++ [CoreEvent.removeId id]).drop s.received)).Nodup
    rw [hremoving, ← List.append_assoc]
    refine (List.perm_append_singleton id _).nodup_iff.mpr (List.nodup_cons.mpr ⟨?_, h.distinct⟩)
    rw [List.mem_append, not_or]
    refine ⟨fun hmem => ?_, fun hmem => hentry (h.given id hmem).2.1⟩
    obtain ⟨r, hr, heq⟩ := List.mem_map.mp hmem
    exact hother (h.asked r hr).2 heq
  · show (s.queue.map fun r => r.id.toNat).filter ((s.client.objects.insertAt id 0).1.size ≤ ·)
      = List.range' (s.client.objects.insertAt id 0).1.size
        (s.context.size - (s.client.objects.insertAt id 0).1.size)
    rw [hsize]
    exact h.fresh
  · show (s.client.objects.insertAt id 0).1.size ≤ s.context.size
    rw [hsize]
    exact h.behind
  · show s.received ≤ (s.client.sent ++ [CoreEvent.removeId id]).length
    rw [List.length_append]
    exact Nat.le_add_right_of_le h.heard

theorem receive : (s.step .receive).Inv := by
  rw [step]
  cases hget : s.client.sent[s.received]? with
  | none => exact h
  | some event =>
  obtain ⟨hlt, hevent⟩ := List.getElem?_eq_some_iff.mp hget
  have hdrop : s.client.sent.drop s.received = event :: s.client.sent.drop (s.received + 1) := by
    rw [← hevent]
    exact List.drop_eq_getElem_cons hlt
  have hgiven := h.given
  have hdistinct := h.distinct
  cases event with
  | error id res message =>
    have hremoving : s.removing = removeIds (s.client.sent.drop (s.received + 1)) := by
      rw [removing, hdrop]
      rfl
    rw [hremoving] at hgiven hdistinct
    exact ⟨h.context, h.unlinked, h.slots, h.made, h.asked, h.undecided, hgiven, hdistinct,
      h.fresh, h.behind, hlt⟩
  | removeId id =>
    have hremoving : s.removing = id :: removeIds (s.client.sent.drop (s.received + 1)) := by
      rw [removing, hdrop]
      rfl
    rw [hremoving] at hgiven hdistinct
    obtain ⟨hlive, hnone, hidlt⟩ := hgiven id (List.mem_cons_self ..)
    obtain ⟨hnot, hdistinct⟩ := List.nodup_cons.mp (List.perm_middle.nodup_iff.mp hdistinct)
    rw [List.mem_append, not_or] at hnot
    obtain ⟨free, stored, hstores, hproxies, hpointers⟩ := h.context
    obtain ⟨data, hdata⟩ := Option.ne_none_iff_exists'.mp (mt (hproxies id).mp hlive)
    have hpointer := hpointers id data hdata
    have hlookup : s.context.lookup id.toNat ≠ 0 := by
      rw [hstores.lookup hdata hpointer.2]
      exact hpointer.1
    obtain ⟨hsize, hstores'⟩ := hstores.remove (mt (hproxies id).mp hlive)
    have hstep : s.stepRemoveId id =
        { s with
          context := s.context.remove id
          proxies := Function.update s.proxies id none } := if_neg hlookup
    show Inv { s.stepRemoveId id with received := s.received + 1 }
    rw [hstep]
    refine ⟨⟨_, _, hstores', fun i => ?_, fun i d => ?_⟩, h.unlinked, h.slots,
      fun i k d hi => ?_, fun r hr => ?_, h.undecided, fun i hi => ?_, hdistinct, ?_, ?_, hlt⟩
    · show _ ↔ Function.update s.proxies id none i = none
      by_cases hi : i = id
      · rw [hi, Function.update_self, Function.update_self]
        simp
      · rw [Function.update_of_ne hi, Function.update_of_ne hi]
        exact hproxies i
    · by_cases hi : i = id
      · rw [hi, Function.update_self]
        exact fun heq => nomatch heq
      · rw [Function.update_of_ne hi]
        exact hpointers i d
    · obtain ⟨hptr, hilt, hproxy⟩ := h.made i k d hi
      have hne : i ≠ id := by
        rintro rfl
        have hi : s.resources i = some (k, d) := hi
        rw [hnone] at hi
        cases hi
      refine ⟨hptr, hilt, ?_⟩
      show Function.update s.proxies id none i = some k
      rw [Function.update_of_ne hne]
      exact hproxy
    · obtain ⟨hproxy, hresource⟩ := h.asked r hr
      refine ⟨?_, hresource⟩
      have hne : r.id ≠ id := fun heq => hnot.1 (heq ▸ List.mem_map_of_mem hr)
      show Function.update s.proxies id none r.id = some r.proxy
      rw [Function.update_of_ne hne]
      exact hproxy
    · obtain ⟨hproxy, hresource, hilt⟩ := hgiven i (List.mem_cons_of_mem _ hi)
      refine ⟨?_, hresource, hilt⟩
      have hne : i ≠ id := by
        rintro rfl
        exact hnot.2 hi
      show Function.update s.proxies id none i ≠ none
      rw [Function.update_of_ne hne]
      exact hproxy
    · show _ = List.range' _ ((s.context.remove id).size - _)
      rw [hsize]
      exact h.fresh
    · show _ ≤ (s.context.remove id).size
      rw [hsize]
      exact h.behind

theorem accepts : s.Accepts := by
  have hle : s.nextId.toNat ≤ s.client.objects.size := by
    rw [nextId]
    split
    · rename_i r queue hqueue
      exact (h.head_le hqueue).1
    · rename_i hqueue
      have hsame : s.context.size = s.client.objects.size := by
        have hfresh := h.fresh
        have hbehind := h.behind
        rw [hqueue, List.map_nil, List.filter_nil] at hfresh
        have hlen := congrArg List.length hfresh
        rw [List.length_range', List.length_nil] at hlen
        omega
      rw [← hsame]
      obtain ⟨free, stored, hstores, -⟩ := h.context
      have hbound := hstores.bound
      cases hfree : free with
      | nil =>
        rw [PinosMap.insertNew, if_neg (not_not_intro (hstores.freeList_eq_zero_iff.mpr hfree))]
        have hlast : (UInt32.ofNat s.context.size).toNat = s.context.size := by
          rw [UInt32.toNat_ofNat', Nat.mod_eq_of_lt (by omega)]
        exact Nat.le_of_eq hlast
      | cons i is =>
        obtain ⟨hid, -, hlt, -⟩ := hstores.insertNew_reuse hfree 0
        rw [hid]
        exact Nat.le_of_lt hlt
  exact (insertAt_spec hle 0).1

theorem stands : s.Stands := by
  intro id hne
  have hlt : id.toNat < s.client.objects.size := by
    by_contra hge
    exact hne (PinosMap.lookup_of_le (Nat.le_of_not_lt hge))
  have hslot := h.slots id
  rw [PinosMap.lookup_of_lt hlt, hslot] at hne ⊢
  cases hentry : s.resources id with
  | none => rw [hentry] at hne; exact absurd rfl hne
  | some entry =>
    obtain ⟨hpointer, -, hproxy⟩ := h.made id entry.1 entry.2 hentry
    refine ⟨entry.1, ?_, hproxy⟩
    rw [Option.map_some, Option.getD_some, PinosMap.itemIsFree_eq_false hpointer.2]
    rfl

theorem step {op : IdOp} (hadmits : s.Admits op) (hsafe : s.Safe op) : (s.step op).Inv := by
  cases op with
  | request request ptr => exact h.request hadmits hsafe request
  | serve hd => exact h.serve hadmits hsafe
  | complete n hd => exact h.complete hadmits
  | destroy id => exact h.destroy hadmits.2
  | receive => exact h.receive

end Inv

/-! ## Runs -/

/-- In every run whose failing requests do not leave a gap at the end of the server's
table, the table takes the next id and resources stand for the client's proxies. -/
theorem run_accepts {proxy resource : UInt64} (hproxy : MapUse.IsPointer proxy)
    (hresource : MapUse.IsPointer resource) {ops : List IdOp}
    (hadmits : Run.Along step Admits (start proxy resource) ops)
    (hsafe : Run.Along step Safe (start proxy resource) ops) :
    Run.Along step Right (start proxy resource) ops :=
  Run.along_of Inv
    (fun _ _ h hop => ⟨⟨(h.step hop.1 hop.2).accepts, (h.step hop.1 hop.2).stands⟩,
      h.step hop.1 hop.2⟩)
    (inv_start hproxy hresource) (Run.along_and.mpr ⟨hadmits, hsafe⟩)

def exampleHandling : Handling :=
  { ptr := some 8, access := .ok, later := false, node := true, fds := .ok, global := none }

theorem exampleHandling_pointer : ∀ ptr, exampleHandling.ptr = some ptr → MapUse.IsPointer ptr := by
  rintro ptr ⟨⟩
  exact ⟨by decide, by decide⟩

/-- A registry, and a bind to a global that is gone, whose id comes back and is used for
a `create_node`. -/
theorem run_accepts_reuse :
    Run.Along step Right (start 2 4)
      [.request .getRegistry 6, .request .bind 10, .serve exampleHandling, .serve exampleHandling,
        .receive, .request .createNode 12, .serve exampleHandling] :=
  run_accepts (by decide) (by decide)
    ⟨(by decide : MapUse.IsPointer 6), (by decide : MapUse.IsPointer 10), exampleHandling_pointer,
      exampleHandling_pointer, trivial, (by decide : MapUse.IsPointer 12), exampleHandling_pointer,
      trivial⟩
    ⟨.inr (by decide), .inr (by decide), by
      rintro r ⟨⟩
      exact .inr (Option.some_ne_none 8), by
      rintro r ⟨⟩
      exact .inr (.inl rfl), trivial, .inl (by decide), by
      rintro r ⟨⟩
      exact .inl (by decide), trivial⟩

/-- After a `create_node`, which always fails, the server refuses the next id. -/
theorem not_run_accepts :
    ¬ ∀ (proxy resource : UInt64) (ops : List IdOp), MapUse.IsPointer proxy →
      MapUse.IsPointer resource → Run.Along step Admits (start proxy resource) ops →
        Run.Along step Right (start proxy resource) ops := by
  intro h
  have hright := h 2 4 [.request .createNode 6, .serve exampleHandling] (by decide) (by decide)
    ⟨(by decide : MapUse.IsPointer 6), exampleHandling_pointer, trivial⟩
  have haccepts : ((((start 2 4).step (.request .createNode 6)).step
      (.serve exampleHandling))).Accepts := hright.2.1.1
  exact absurd haccepts (by rw [Accepts]; decide)

end IdUse
end Pinos
