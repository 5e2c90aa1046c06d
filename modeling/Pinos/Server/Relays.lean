import Pinos.Server.LinkCounts

/-
The relays that take links and nodes away, in any order.

`pinos_link_destroy` asks the loop of each side, which asks the main loop, and each of these
holds a reference; `pinos_node_destroy` does so for a node.  `Safe` is what holds between any
two steps, whatever is on its way.
-/

namespace Pinos

/-- A call, something that happens to a link, or a turn of a loop. -/
inductive RelayOp where
  | portLink (output input : Nat)
  | linkDestroy (l : Nat)
  | linkBind (l : Nat)
  | linkUnbind (l : Nat)
  | nodeDestroy (n : Nat)
  /-- The work queue of a link is processed: formats, buffers and states change. -/
  | states (l : Nat) (g : Graph)
  | mainLoop
  | dataLoop (d : Nat)

namespace Graph

/-- What `check_states` may look at: the ports of both nodes of a link, with their links. -/
def stateUses (g : Graph) (l : Nat) : List Object :=
  .link l :: [PinosDirection.input, .output].flatMap fun dir =>
    match (g.links l).side dir with
    | none => []
    | some p =>
      [PinosDirection.input, .output].flatMap fun dir' =>
        ((g.nodeOf p).ports dir').flatMap g.listUses

end Graph

namespace Daemon

/-- The items in the work queue of a link go when it is freed. -/
def linkStates (s : Daemon) (l : Nat) (g : Graph) : Daemon :=
  if .link l ∈ s.freed then s else { s.touch (s.graph.stateUses l) with graph := g }

def relayStep (s : Daemon) : RelayOp → Daemon
  | .portLink output input => s.portLink output input
  | .linkDestroy l => s.linkDestroy l
  | .linkBind l => s.linkBind l
  | .linkUnbind l => s.linkUnbind l
  | .nodeDestroy n => s.nodeDestroy n
  | .states l g => s.linkStates l g
  | .mainLoop => s.runMain
  | .dataLoop d => s.runData d

/-- A link that was not destroyed: it listens to its ports. -/
def Whole (s : Daemon) (l : Nat) : Prop := ∃ p, l ∈ s.listeners (.port p)

/-- A node was destroyed and is not freed. -/
def GoingWith (s : Daemon) (main : List Invocation) (n : Nat) : Prop :=
  .nodeRemove n ∈ s.dataLoops (s.graph.wiring.dataLoop n) ∨ .nodeRemoveDone n ∈ main

def Going (s : Daemon) (n : Nat) : Prop := s.GoingWith s.mainLoop n

/-- What is asked of calls: ports, links and nodes are there; no link is made or destroyed at
a node that is going; and no node goes while one goes that it is linked with. -/
def Orderly (s : Daemon) : RelayOp → Prop
  | .portLink output input =>
    s.Listed .output output ∧ s.Listed .input input ∧
      (s.Makes output input →
        ¬ s.Going (s.graph.wiring.node output) ∧ ¬ s.Going (s.graph.wiring.node input))
  | .linkDestroy l =>
    s.Whole l ∧ ∀ dir p, s.graph.wiring.side l dir = some p → ¬ s.Going (s.graph.wiring.node p)
  | .linkBind l => s.Whole l
  | .linkUnbind l => s.Whole l ∧ 0 < s.resources l
  | .nodeDestroy n =>
    .node n ∉ s.freed ∧ ¬ s.Going n ∧
      ∀ l dir p q, s.Whole l → s.graph.wiring.side l dir = some p →
        s.graph.wiring.node p = n → s.graph.wiring.side l dir.other = some q →
        ¬ s.Going (s.graph.wiring.node q)
  | .states _ g => g.wiring = s.graph.wiring
  | .mainLoop => True
  | .dataLoop _ => True

/-- Nothing that was freed is used or freed again, nothing that is there has a pointer to it, and
a link that was destroyed, and no other, is freed when the loops have done what they were asked
for. -/
structure TakenDown (s : Daemon) : Prop where
  wild : s.wild = false
  once : s.freed.Nodup
  sides : ∀ l dir p, s.graph.wiring.side l dir = some p ∨ s.graph.wiring.rtSide l dir = some p →
    .link l ∉ s.freed ∧ .port p ∉ s.freed ∧ .node (s.graph.wiring.node p) ∉ s.freed
  lists : ∀ p l, .port p ∉ s.freed →
    l ∈ s.graph.wiring.links p ∨ l ∈ s.graph.wiring.rtLinks p → .link l ∉ s.freed
  destroyed : ∀ l, .link l ∈ s.freed → ¬ s.Whole l
  done : s.Settled → ∀ l < s.nLinks, s.Whole l ∨ .link l ∈ s.freed

end Daemon

/-! ## What holds between any two steps -/

namespace Wiring

/-- Ports that are in use are there; of those of the node that is `dying` it is not said what
links they have. -/
structure Placed (w : Wiring) (freed : List Object) (dying : Option Nat) : Prop where
  nodup : ∀ n dir, (w.ports n dir).Nodup
  ports : ∀ {n dir p}, p ∈ w.ports n dir →
    w.node p = n ∧ w.direction p = dir ∧ .port p ∉ freed ∧ .node n ∉ freed
  side : ∀ {l dir p}, w.side l dir = some p → p ∈ w.ports (w.node p) dir
  rtSide : ∀ {l dir p}, w.rtSide l dir = some p → p ∈ w.ports (w.node p) dir
  linksNodup : ∀ p, (w.links p).Nodup
  listed : ∀ {p l}, l ∈ w.links p → .port p ∈ freed ∨ p ∈ w.ports (w.node p) (w.direction p)
  links : ∀ {p l}, l ∈ w.links p →
    .port p ∈ freed ∨ dying = some (w.node p) ∨ w.side l (w.direction p) = some p
  rtNodup : ∀ p, (w.rtLinks p).Nodup
  memRt : ∀ {p l}, l ∈ w.rtLinks p ↔ w.rtSide l (w.direction p) = some p

/-- What may wait behind something in the queue of a loop. -/
def Before (w : Wiring) : Invocation → Invocation → Prop
  | .nodeRemove n, .addLink _ p => w.node p ≠ n
  | .nodeRemove n, .clearBuffers p => w.node p ≠ n
  | .nodeRemove n, .nodeRemove n' => n ≠ n'
  | .linkRemove l, .addLink l' _ => l ≠ l'
  | .addLink l p, .addLink l' p' => l = l' → p ≠ p'
  | .nodeRemoveDone n, .clearBuffersDone p => w.node p ≠ n
  | .nodeRemoveDone n, .nodeRemoveDone n' => n ≠ n'
  | _, _ => True

end Wiring

namespace Daemon

variable (s : Daemon) (main : List Invocation)

/-- The links that were not destroyed have both ports, and listen to these and their nodes. -/
structure Heard : Prop where
  whole : ∀ {p l}, l ∈ s.listeners (.port p) →
    l < s.nLinks ∧ s.graph.wiring.side l (s.graph.wiring.direction p) = some p ∧
      ∃ q, s.graph.wiring.side l (s.graph.wiring.direction p).other = some q ∧
        l ∈ s.listeners (.port q) ∧ s.graph.wiring.node q ≠ s.graph.wiring.node p ∧
        (s.GoingWith main (s.graph.wiring.node p) → ¬ s.GoingWith main (s.graph.wiring.node q))
  nodup : ∀ o, (s.listeners o).Nodup
  node : ∀ {n l}, l ∈ s.listeners (.node n) →
    ∃ p, s.graph.wiring.node p = n ∧ l ∈ s.listeners (.port p)
  link : ∀ l, s.listeners (.link l) = []

/-- Each invocation for a link that was destroyed holds a reference to it: those in the data
loops are in `loops`. -/
structure Referred (loops : Nat → List Nat) : Prop where
  count : ∀ d l, (s.dataLoops d).count (.linkRemove l) = (loops l).count d
  whole : ∀ {l}, s.Whole l → .link l ∉ s.freed ∧ s.refcount l = 1 + s.resources l ∧
    loops l = [] ∧ .linkRemoveDone l ∉ main
  leaving : ∀ {l}, ¬ s.Whole l → l < s.nLinks → .link l ∉ s.freed →
    s.refcount l = (loops l).length + main.count (.linkRemoveDone l) ∧ 0 < s.refcount l
  freed : ∀ {l}, .link l ∈ s.freed → l < s.nLinks ∧ loops l = [] ∧ .linkRemoveDone l ∉ main
  fresh : ∀ {l}, s.nLinks ≤ l → loops l = [] ∧ .linkRemoveDone l ∉ main
  side : ∀ {l dir p}, s.graph.wiring.side l dir = some p → s.Whole l ∨
    .linkRemove l ∈ s.dataLoops (s.graph.wiring.dataLoop (s.graph.wiring.node p)) ∨
      .linkRemoveDone l ∈ main
  rtSide : ∀ {l dir p}, s.graph.wiring.rtSide l dir = some p → s.Whole l ∨ loops l ≠ []

/-- What waits in the queues is done before the ports that it is for go. -/
structure Queued : Prop where
  add : ∀ {d l p}, .addLink l p ∈ s.dataLoops d →
    s.graph.wiring.dataLoop (s.graph.wiring.node p) = d ∧
      p ∈ s.graph.wiring.ports (s.graph.wiring.node p) (s.graph.wiring.direction p) ∧
      .nodeRemoveDone (s.graph.wiring.node p) ∉ main ∧
      s.graph.wiring.rtSide l (s.graph.wiring.direction p) = none ∧
      (s.Whole l ∧ s.graph.wiring.side l (s.graph.wiring.direction p) = some p ∨
        .linkRemove l ∈ s.dataLoops d)
  addOnce : ∀ {d d' l p p'}, .addLink l p ∈ s.dataLoops d → .addLink l p' ∈ s.dataLoops d' →
    s.graph.wiring.direction p = s.graph.wiring.direction p' → p = p'
  clear : ∀ {d p}, .clearBuffers p ∈ s.dataLoops d →
    s.graph.wiring.dataLoop (s.graph.wiring.node p) = d ∧
      p ∈ s.graph.wiring.ports (s.graph.wiring.node p) (s.graph.wiring.direction p) ∧
      .nodeRemoveDone (s.graph.wiring.node p) ∉ main
  clearDone : ∀ {p}, .clearBuffersDone p ∈ main →
    p ∈ s.graph.wiring.ports (s.graph.wiring.node p) (s.graph.wiring.direction p)
  remove : ∀ {d n}, .nodeRemove n ∈ s.dataLoops d →
    s.graph.wiring.dataLoop n = d ∧ .node n ∉ s.freed ∧ .nodeRemoveDone n ∉ main
  removeDone : ∀ {n}, .nodeRemoveDone n ∈ main → .node n ∉ s.freed
  rtSide : ∀ {l dir p}, s.graph.wiring.rtSide l dir = some p →
    .nodeRemoveDone (s.graph.wiring.node p) ∉ main
  kinds : ∀ {d inv}, inv ∈ s.dataLoops d →
    (∃ l p, inv = .addLink l p) ∨ (∃ l, inv = .linkRemove l) ∨ (∃ p, inv = .clearBuffers p) ∨
      ∃ n, inv = .nodeRemove n
  kindsMain : ∀ {inv}, inv ∈ main →
    (∃ l, inv = .linkRemoveDone l) ∨ (∃ p, inv = .clearBuffersDone p) ∨
      ∃ n, inv = .nodeRemoveDone n
  order : ∀ d, (s.dataLoops d).Pairwise s.graph.wiring.Before
  orderMain : main.Pairwise s.graph.wiring.Before
  /-- A link that was destroyed leaves the ports of a node before the node goes. -/
  cut : ∀ {d n front rest l dir p}, s.dataLoops d = front ++ .nodeRemove n :: rest →
    s.graph.wiring.side l dir = some p → s.graph.wiring.node p = n →
    s.Whole l ∨ .linkRemove l ∈ front ∨ .linkRemoveDone l ∈ main
  cutMain : ∀ {n front rest l dir p}, main = front ++ .nodeRemoveDone n :: rest →
    s.graph.wiring.side l dir = some p → s.graph.wiring.node p = n →
    s.Whole l ∨ .linkRemoveDone l ∈ front

/-- `main` is what waits in the main loop, with what it is doing. -/
structure SafeWith (loops : Nat → List Nat) (dying : Option Nat) : Prop where
  placed : s.graph.wiring.Placed s.freed dying
  heard : s.Heard main
  referred : s.Referred main loops
  queued : s.Queued main
  once : s.freed.Nodup
  wild : s.wild = false

def Safe (loops : Nat → List Nat) : Prop := s.SafeWith s.mainLoop loops none

end Daemon
end Pinos
