import Mathlib.Algebra.BigOperators.Group.List.Basic
import Pinos.Server.Teardown

/-
How the ports of a graph are wired by its links, whatever their formats, buffers and states.
-/

namespace Pinos

/-- Which ports the links have, in the main thread and in the realtime thread, which links
the ports, and what the nodes count. -/
@[ext] structure Wiring where
  side : Nat → PinosDirection → Option Nat
  rtSide : Nat → PinosDirection → Option Nat
  links : Nat → List Nat
  rtLinks : Nat → List Nat
  ports : Nat → PinosDirection → List Nat
  usedLinks : Nat → PinosDirection → UInt32
  node : Nat → Nat
  direction : Nat → PinosDirection
  dataLoop : Nat → Nat

namespace Wiring

variable (w : Wiring)

/-- The sides of a link are others. -/
def withLink (l : Nat) (side rtSide : PinosDirection → Option Nat) : Wiring :=
  { w with
    side := Function.update w.side l side
    rtSide := Function.update w.rtSide l rtSide }

/-- The lists of a port are others. -/
def withPort (p : Nat) (links rtLinks : List Nat) : Wiring :=
  { w with
    links := Function.update w.links p links
    rtLinks := Function.update w.rtLinks p rtLinks }

def withNode (n : Nat) (ports : PinosDirection → List Nat) (usedLinks : PinosDirection → UInt32) :
    Wiring :=
  { w with
    ports := Function.update w.ports n ports
    usedLinks := Function.update w.usedLinks n usedLinks }

def setSide (l : Nat) (dir : PinosDirection) (p : Option Nat) : Wiring :=
  { w with side := Function.update w.side l (Function.update (w.side l) dir p) }

def setRtSide (l : Nat) (dir : PinosDirection) (p : Option Nat) : Wiring :=
  { w with rtSide := Function.update w.rtSide l (Function.update (w.rtSide l) dir p) }

def setLinks (p : Nat) (links : List Nat) : Wiring :=
  { w with links := Function.update w.links p links }

def setRtLinks (p : Nat) (links : List Nat) : Wiring :=
  { w with rtLinks := Function.update w.rtLinks p links }

def setPorts (n : Nat) (dir : PinosDirection) (ports : List Nat) : Wiring :=
  { w with ports := Function.update w.ports n (Function.update (w.ports n) dir ports) }

def setUsedLinks (n : Nat) (dir : PinosDirection) (count : UInt32) : Wiring :=
  { w with usedLinks := Function.update w.usedLinks n (Function.update (w.usedLinks n) dir count) }

/-- A link is put in the list of a port. -/
def attach (dir : PinosDirection) (l p : Nat) : Wiring :=
  (w.setLinks p (w.links p ++ [l])).setUsedLinks (w.node p) dir (w.usedLinks (w.node p) dir + 1)

/-- A link is taken from the list of a port; a node is told. -/
def detach (dir : PinosDirection) (l p n : Nat) : Wiring :=
  (w.setLinks p ((w.links p).erase l)).setUsedLinks n dir (w.usedLinks n dir - 1)

def addRt (l p : Nat) : Wiring :=
  (w.setRtLinks p (w.rtLinks p ++ [l])).setRtSide l (w.direction p) (some p)

def removeRt (dir : PinosDirection) (l p : Nat) : Wiring :=
  (w.setRtLinks p ((w.rtLinks p).erase l)).setRtSide l dir none

/-- A link between two ports, without its place in their lists. -/
def newLink (l output input : Nat) : Wiring :=
  w.withLink l
    (fun
      | .input => some input
      | .output => some output)
    fun _ => none

theorem withLink_side {l : Nat} {side : PinosDirection → Option Nat} :
    w.withLink l side (w.rtSide l) = { w with side := Function.update w.side l side } := by
  rw [withLink, Function.update_eq_self]

theorem withLink_rtSide {l : Nat} {rtSide : PinosDirection → Option Nat} :
    w.withLink l (w.side l) rtSide = { w with rtSide := Function.update w.rtSide l rtSide } := by
  rw [withLink, Function.update_eq_self]

theorem withPort_links {p : Nat} {links : List Nat} :
    w.withPort p links (w.rtLinks p) = w.setLinks p links := by
  rw [withPort, Function.update_eq_self]
  rfl

theorem withPort_rtLinks {p : Nat} {links : List Nat} :
    w.withPort p (w.links p) links = w.setRtLinks p links := by
  rw [withPort, Function.update_eq_self]
  rfl

theorem withNode_ports {n : Nat} {ports : PinosDirection → List Nat} :
    w.withNode n ports (w.usedLinks n) = { w with ports := Function.update w.ports n ports } := by
  rw [withNode, Function.update_eq_self]

theorem withNode_usedLinks {n : Nat} {usedLinks : PinosDirection → UInt32} :
    w.withNode n (w.ports n) usedLinks =
      { w with usedLinks := Function.update w.usedLinks n usedLinks } := by
  rw [withNode, Function.update_eq_self]

theorem withLink_self {l : Nat} : w.withLink l (w.side l) (w.rtSide l) = w := by
  rw [withLink_side, Function.update_eq_self]

theorem withPort_self {p : Nat} : w.withPort p (w.links p) (w.rtLinks p) = w := by
  rw [withPort_links, setLinks, Function.update_eq_self]

theorem withNode_self {n : Nat} : w.withNode n (w.ports n) (w.usedLinks n) = w := by
  rw [withNode_ports, Function.update_eq_self]

section Access

variable {w} {l p q n : Nat} {dir : PinosDirection}

theorem usedLinks_setUsedLinks {count : UInt32} :
    (w.setUsedLinks n dir count).usedLinks n dir = count := by
  show Function.update w.usedLinks n _ n dir = count
  rw [Function.update_self, Function.update_self]

theorem usedLinks_setUsedLinks_of_ne {count : UInt32} {n' : Nat} {dir' : PinosDirection}
    (hne : n' ≠ n ∨ dir' ≠ dir) :
    (w.setUsedLinks n dir count).usedLinks n' dir' = w.usedLinks n' dir' := by
  show Function.update w.usedLinks n _ n' dir' = w.usedLinks n' dir'
  by_cases hn : n' = n
  · rw [hn, Function.update_self, Function.update_of_ne (hne.resolve_left (not_not.mpr hn))]
  · rw [Function.update_of_ne hn]

theorem side_setSide {side : Option Nat} : (w.setSide l dir side).side l dir = side := by
  show Function.update w.side l _ l dir = side
  rw [Function.update_self, Function.update_self]

theorem side_setSide_of_ne {side : Option Nat} {l' : Nat} {dir' : PinosDirection}
    (hne : l' ≠ l ∨ dir' ≠ dir) : (w.setSide l dir side).side l' dir' = w.side l' dir' := by
  show Function.update w.side l _ l' dir' = w.side l' dir'
  by_cases hl : l' = l
  · rw [hl, Function.update_self, Function.update_of_ne (hne.resolve_left (not_not.mpr hl))]
  · rw [Function.update_of_ne hl]

theorem links_setLinks {links : List Nat} : (w.setLinks p links).links p = links :=
  Function.update_self ..

theorem links_setLinks_of_ne {links : List Nat} (hne : q ≠ p) :
    (w.setLinks p links).links q = w.links q :=
  Function.update_of_ne hne ..

/-- A link is taken from the list of a port. -/
theorem links_detach (dir : PinosDirection) (l p n q : Nat) :
    (w.detach dir l p n).links q = if q = p then (w.links p).erase l else w.links q := by
  by_cases hq : q = p
  · rw [hq, if_pos rfl]
    exact links_setLinks
  · rw [if_neg hq]
    exact links_setLinks_of_ne hq

theorem rtSide_setRtSide {side : Option Nat} : (w.setRtSide l dir side).rtSide l dir = side := by
  show Function.update w.rtSide l _ l dir = side
  rw [Function.update_self, Function.update_self]

theorem rtSide_setRtSide_of_ne {side : Option Nat} {l' : Nat} {dir' : PinosDirection}
    (hne : l' ≠ l ∨ dir' ≠ dir) : (w.setRtSide l dir side).rtSide l' dir' = w.rtSide l' dir' := by
  show Function.update w.rtSide l _ l' dir' = w.rtSide l' dir'
  by_cases hl : l' = l
  · rw [hl, Function.update_self, Function.update_of_ne (hne.resolve_left (not_not.mpr hl))]
  · rw [Function.update_of_ne hl]

theorem rtLinks_setRtLinks {links : List Nat} : (w.setRtLinks p links).rtLinks p = links :=
  Function.update_self ..

theorem rtLinks_setRtLinks_of_ne {links : List Nat} (hne : q ≠ p) :
    (w.setRtLinks p links).rtLinks q = w.rtLinks q :=
  Function.update_of_ne hne ..

end Access

end Wiring

namespace PinosLink

variable {link : PinosLink} {p : Option Nat} {dir : PinosDirection}

theorem side_setSide : (link.setSide p dir).side = Function.update link.side dir p := by
  funext d
  cases dir <;> cases d <;> rfl

theorem rtSide_setSide : (link.setSide p dir).rtSide = link.rtSide := by
  funext d
  cases dir <;> cases d <;> rfl

theorem side_setRtSide : (link.setRtSide p dir).side = link.side := by
  funext d
  cases dir <;> cases d <;> rfl

theorem rtSide_setRtSide : (link.setRtSide p dir).rtSide = Function.update link.rtSide dir p := by
  funext d
  cases dir <;> cases d <;> rfl

end PinosLink

namespace PinosNode

variable {node : PinosNode} {dir : PinosDirection} {count : UInt32} {ports : List Nat}

theorem usedLinks_setUsedLinks :
    (node.setUsedLinks count dir).usedLinks = Function.update node.usedLinks dir count := by
  funext d
  cases dir <;> cases d <;> rfl

theorem ports_setUsedLinks : (node.setUsedLinks count dir).ports = node.ports := by
  funext d
  cases dir <;> cases d <;> rfl

theorem dataLoop_setUsedLinks : (node.setUsedLinks count dir).dataLoop = node.dataLoop := by
  cases dir <;> rfl

theorem ports_setPorts : (node.setPorts ports dir).ports = Function.update node.ports dir ports := by
  funext d
  cases dir <;> cases d <;> rfl

theorem usedLinks_setPorts : (node.setPorts ports dir).usedLinks = node.usedLinks := by
  funext d
  cases dir <;> cases d <;> rfl

theorem dataLoop_setPorts : (node.setPorts ports dir).dataLoop = node.dataLoop := by
  cases dir <;> rfl

end PinosNode

namespace Graph

def wiring (g : Graph) : Wiring where
  side l := (g.links l).side
  rtSide l := (g.links l).rtSide
  links p := (g.ports p).links
  rtLinks p := (g.ports p).rtLinks
  ports n := (g.nodes n).ports
  usedLinks n := (g.nodes n).usedLinks
  node p := (g.ports p).node
  direction p := (g.ports p).direction
  dataLoop n := (g.nodes n).dataLoop

variable {g : Graph} {l p n q : Nat} {dir : PinosDirection}

/-! ## One object is changed -/

section Modify

theorem update_comp {α β : Type} (f : Nat → α) (i : Nat) (a : α) (h : α → β) :
    (fun j => h (Function.update f i a j)) = Function.update (fun j => h (f j)) i (h a) := by
  funext j
  by_cases hj : j = i
  · rw [hj, Function.update_self, Function.update_self]
  · rw [Function.update_of_ne hj, Function.update_of_ne hj]

theorem wiring_modifyLink {f : PinosLink → PinosLink} :
    (g.modifyLink l f).wiring =
      g.wiring.withLink l (f (g.links l)).side (f (g.links l)).rtSide := by
  simp only [wiring, modifyLink, Wiring.withLink, update_comp]

theorem wiring_modifyPort {f : PinosPort → PinosPort}
    (hnode : (f (g.ports p)).node = (g.ports p).node)
    (hdir : (f (g.ports p)).direction = (g.ports p).direction) :
    (g.modifyPort p f).wiring =
      g.wiring.withPort p (f (g.ports p)).links (f (g.ports p)).rtLinks := by
  simp only [wiring, modifyPort, Wiring.withPort, update_comp, hnode, hdir]
  rw [Function.update_eq_self p fun p => (g.ports p).node,
    Function.update_eq_self p fun p => (g.ports p).direction]

theorem wiring_modifyNode {f : PinosNode → PinosNode}
    (hloop : (f (g.nodes n)).dataLoop = (g.nodes n).dataLoop) :
    (g.modifyNode n f).wiring =
      g.wiring.withNode n (f (g.nodes n)).ports (f (g.nodes n)).usedLinks := by
  simp only [wiring, modifyNode, Wiring.withNode, update_comp, hloop]
  rw [Function.update_eq_self n fun n => (g.nodes n).dataLoop]

/-- What does not touch the sides of a link leaves the wiring. -/
theorem wiring_modifyLink_same {f : PinosLink → PinosLink}
    (hside : (f (g.links l)).side = (g.links l).side)
    (hrt : (f (g.links l)).rtSide = (g.links l).rtSide) : (g.modifyLink l f).wiring = g.wiring := by
  rw [wiring_modifyLink, hside, hrt]
  exact Wiring.withLink_self g.wiring

theorem wiring_modifyPort_same {f : PinosPort → PinosPort}
    (hnode : (f (g.ports p)).node = (g.ports p).node)
    (hdir : (f (g.ports p)).direction = (g.ports p).direction)
    (hlinks : (f (g.ports p)).links = (g.ports p).links)
    (hrt : (f (g.ports p)).rtLinks = (g.ports p).rtLinks) :
    (g.modifyPort p f).wiring = g.wiring := by
  rw [wiring_modifyPort hnode hdir, hlinks, hrt]
  exact Wiring.withPort_self g.wiring

theorem wiring_modifyNode_same {f : PinosNode → PinosNode}
    (hloop : (f (g.nodes n)).dataLoop = (g.nodes n).dataLoop)
    (hports : (f (g.nodes n)).ports = (g.nodes n).ports)
    (hused : (f (g.nodes n)).usedLinks = (g.nodes n).usedLinks) :
    (g.modifyNode n f).wiring = g.wiring := by
  rw [wiring_modifyNode hloop, hports, hused]
  exact Wiring.withNode_self g.wiring

end Modify

/-! ## What wiring does not see -/

theorem wiring_portPauseRt : (g.portPauseRt p).wiring = g.wiring := by
  unfold portPauseRt
  split
  · rfl
  · exact wiring_modifyPort_same rfl rfl rfl rfl

theorem wiring_clearPort : (g.clearPort p).wiring = g.wiring :=
  wiring_modifyPort_same rfl rfl rfl rfl

theorem wiring_updateNodeState {state : PinosNodeState} :
    (g.updateNodeState n state).wiring = g.wiring :=
  wiring_modifyNode_same rfl rfl rfl

theorem wiring_clearPortBuffers : (g.clearPortBuffers l p).wiring = g.wiring := by
  unfold clearPortBuffers
  split
  · exact wiring_clearPort
  · rfl

theorem wiring_updateLinkState {state : PinosLinkState} :
    (g.updateLinkState l state).wiring = g.wiring := by
  apply wiring_modifyLink_same
  · split <;> rfl
  · split <;> rfl

/-! ## The wires one by one -/

theorem wiring_setSide {side : Option Nat} :
    (g.modifyLink l fun link => link.setSide side dir).wiring = g.wiring.setSide l dir side := by
  rw [wiring_modifyLink, PinosLink.side_setSide, PinosLink.rtSide_setSide]
  exact Wiring.withLink_side g.wiring

theorem wiring_setRtSide {side : Option Nat} :
    (g.modifyLink l fun link => link.setRtSide side dir).wiring = g.wiring.setRtSide l dir side := by
  rw [wiring_modifyLink, PinosLink.side_setRtSide, PinosLink.rtSide_setRtSide]
  exact Wiring.withLink_rtSide g.wiring

theorem wiring_setLinks {f : List Nat → List Nat} :
    (g.modifyPort p fun port => { port with links := f port.links }).wiring =
      g.wiring.setLinks p (f (g.wiring.links p)) :=
  (wiring_modifyPort rfl rfl).trans (Wiring.withPort_links g.wiring)

theorem wiring_setRtLinks {f : List Nat → List Nat} :
    (g.modifyPort p fun port => { port with rtLinks := f port.rtLinks }).wiring =
      g.wiring.setRtLinks p (f (g.wiring.rtLinks p)) :=
  (wiring_modifyPort rfl rfl).trans (Wiring.withPort_rtLinks g.wiring)

theorem wiring_setUsedLinks {f : UInt32 → UInt32} :
    (g.modifyNode n fun node => node.setUsedLinks (f (node.usedLinks dir)) dir).wiring =
      g.wiring.setUsedLinks n dir (f (g.wiring.usedLinks n dir)) := by
  rw [wiring_modifyNode PinosNode.dataLoop_setUsedLinks, PinosNode.ports_setUsedLinks,
    PinosNode.usedLinks_setUsedLinks]
  exact Wiring.withNode_usedLinks g.wiring

theorem wiring_setPorts {f : List Nat → List Nat} :
    (g.modifyNode n fun node => node.setPorts (f (node.ports dir)) dir).wiring =
      g.wiring.setPorts n dir (f (g.wiring.ports n dir)) := by
  rw [wiring_modifyNode PinosNode.dataLoop_setPorts, PinosNode.ports_setPorts,
    PinosNode.usedLinks_setPorts]
  exact Wiring.withNode_ports g.wiring

/-! ## What is done to the graph -/

theorem wiring_addRt : (g.addRt l p).wiring = g.wiring.addRt l p := by
  unfold addRt
  rw [wiring_setRtSide, @wiring_setRtLinks _ _ fun links => links ++ [l]]
  rfl

theorem removeRt_none (h : g.wiring.rtSide l dir = none) : g.removeRt dir l = g := by
  unfold removeRt
  rw [show (g.links l).rtSide dir = none from h]

theorem wiring_removeRt (h : g.wiring.rtSide l dir = some p) :
    (g.removeRt dir l).wiring = g.wiring.removeRt dir l p := by
  unfold removeRt
  rw [show (g.links l).rtSide dir = some p from h]
  dsimp only
  rw [wiring_setRtSide, @wiring_setRtLinks _ _ fun links => links.erase l, wiring_portPauseRt]
  rfl

theorem wiring_attach : (g.attach dir l p).wiring = g.wiring.attach dir l p := by
  unfold attach
  rw [@wiring_setUsedLinks _ _ _ fun count => count + 1,
    @wiring_setLinks _ _ fun links => links ++ [l]]
  rfl

theorem wiring_detach : (g.detach dir l p n).wiring = g.wiring.detach dir l p n := by
  unfold detach
  rw [@wiring_setUsedLinks _ _ _ fun count => count - 1,
    @wiring_setLinks _ _ fun links => links.erase l]
  rfl

theorem removeSide_none (h : g.wiring.side l dir = none) : g.removeSide dir l = g := by
  unfold removeSide
  rw [show (g.links l).side dir = none from h]

theorem wiring_removeSide (h : g.wiring.side l dir = some p) :
    (g.removeSide dir l).wiring =
      (g.wiring.detach dir l p (g.wiring.node p)).setSide l dir none := by
  unfold removeSide
  rw [show (g.links l).side dir = some p from h]
  dsimp only
  rw [wiring_setSide, apply_ite wiring, wiring_updateNodeState, ite_self, wiring_clearPortBuffers,
    wiring_detach]
  rfl

/-- What `do_remove_link_done` does when the link has a port on the side. -/
theorem wiring_removeLinkDone (h : g.wiring.side l (g.wiring.direction p) = some q) :
    (g.removeLinkDone l p).wiring =
      (g.wiring.detach (g.wiring.direction p) l q (g.wiring.node p)).setSide l
        (g.wiring.direction p) none := by
  unfold removeLinkDone
  dsimp only
  rw [show (g.links l).side (g.ports p).direction = some q from h]
  dsimp only
  rw [apply_ite wiring, wiring_updateNodeState, ite_self, apply_ite wiring, wiring_clearPort,
    ite_self, wiring_setSide, wiring_detach]
  rfl

theorem wiring_addLink {output input : Nat} :
    (g.addLink l output input).wiring =
      ((g.wiring.newLink l output input).attach .output l output).attach .input l input := by
  have hlink : ∀ g : Graph, (g.modifyLink l fun _ => newLink output input).wiring =
      g.wiring.newLink l output input := by
    intro g
    rw [wiring_modifyLink, Wiring.newLink]
    congr 1
    funext dir
    cases dir <;> rfl
  unfold addLink
  rw [wiring_attach, wiring_attach, hlink, wiring_modifyNode_same rfl rfl rfl]

/-! ## What `check_states` does -/

theorem wiring_withFreed {freed : List Nat} : { g with freed := freed }.wiring = g.wiring := rfl

theorem wiring_withBlocks {blocks : List BufferBlock} :
    { g with blocks := blocks }.wiring = g.wiring := rfl

theorem wiring_addWork {item : LinkWork} : (g.addWork l item).wiring = g.wiring :=
  wiring_modifyLink_same (by rfl) (by rfl)

theorem wiring_nodeActivate : (g.nodeActivate n).wiring = g.wiring := by
  unfold nodeActivate
  generalize g.nodeLinks n = links
  induction links generalizing g with
  | nil => rfl
  | cons l links ih => exact (ih (g := g.linkActivate l)).trans wiring_addWork

section Plugins

variable {Format : Type} {spa : SpaNodes Format} {fixate : Format → Format} {ringbuffer : UInt32}

theorem wiring_suspendPort : (g.suspendPort p).wiring = g.wiring := by
  refine wiring_withFreed.trans ?_
  apply wiring_modifyPort_same <;> rfl

theorem wiring_suspendNode : (g.suspendNode spa n).1.wiring = g.wiring := by
  unfold suspendNode
  generalize (g.nodes n).inputPorts ++ (g.nodes n).outputPorts = ports
  generalize SpaResult.ok = res
  induction ports generalizing g res with
  | nil => rfl
  | cons p ports ih => exact (ih (g := g.suspendPort p) _).trans wiring_suspendPort

theorem wiring_finish {done : Graph × SpaResult} {state : PinosNodeState} :
    (setNodeState.finish n state done).1.wiring = done.1.wiring := by
  unfold setNodeState.finish
  split
  · rfl
  · dsimp only
    apply wiring_modifyNode_same <;> rfl

theorem wiring_setNodeState {state : PinosNodeState} :
    (g.setNodeState spa n state).1.wiring = g.wiring := by
  cases state with
  | creating => rfl
  | suspended => exact wiring_finish.trans wiring_suspendNode
  | idle => exact wiring_finish
  | running => exact wiring_finish.trans wiring_nodeActivate
  | error => exact wiring_finish

theorem wiring_suspendIdle {state : PinosPortState} :
    (g.suspendIdle spa p state).wiring = g.wiring := by
  unfold suspendIdle
  split
  · exact wiring_setNodeState
  · rfl

theorem wiring_setInputFormat {state : PinosPortState} {format : Format} {res : SpaResult} :
    (g.setInputFormat spa l p state format res).1.wiring = g.wiring := by
  unfold setInputFormat
  split
  · dsimp only
    split
    · exact wiring_updateLinkState
    · exact wiring_addWork
  · rfl

theorem wiring_setFormats {input output : Nat} {inState outState : PinosPortState}
    {format : Format} :
    (g.setFormats spa l input output inState outState format).1.wiring = g.wiring := by
  unfold setFormats
  split
  · dsimp only
    split
    · exact wiring_updateLinkState
    · exact wiring_setInputFormat.trans wiring_addWork
  · exact wiring_setInputFormat

theorem wiring_doNegotiate {fuel input output : Nat} {inState outState : PinosPortState}
    {done : Graph × SpaResult}
    (h : g.doNegotiate spa fixate fuel l input output inState outState = some done) :
    done.1.wiring = g.wiring := by
  unfold doNegotiate at h
  split at h
  · cases h
    rfl
  · obtain ⟨format, -, rfl⟩ := Option.map_eq_some_iff.mp h
    cases format with
    | none => exact wiring_updateLinkState.trans wiring_updateLinkState
    | some format =>
      exact wiring_setFormats.trans
        (wiring_suspendIdle.trans (wiring_suspendIdle.trans wiring_updateLinkState))

theorem wiring_portAllocBuffers : (g.portAllocBuffers spa l p).1.wiring = g.wiring := by
  unfold portAllocBuffers
  dsimp only
  split
  · dsimp only
    apply wiring_modifyLink_same <;> rfl
  · dsimp only
    trans
    · apply wiring_modifyLink_same <;> rfl
    trans
    · apply wiring_modifyPort_same <;> rfl
    refine wiring_addWork.trans ?_
    apply wiring_modifyLink_same <;> rfl

theorem wiring_portUseBuffers : (g.portUseBuffers spa l p).1.wiring = g.wiring := by
  unfold portUseBuffers
  dsimp only
  split
  · rfl
  · dsimp only
    trans
    · apply wiring_modifyPort_same <;> rfl
    · exact wiring_addWork

theorem wiring_newBuffers {block : BufferBlock} : (g.newBuffers l block).wiring = g.wiring := by
  refine wiring_withBlocks.trans ?_
  apply wiring_modifyLink_same <;> rfl

theorem wiring_prepareBuffers {input output : Nat} {block : BufferBlock}
    {inFlags outFlags : UInt32} {res : SpaResult} :
    (g.prepareBuffers spa l input output block inFlags outFlags res).1.wiring = g.wiring := by
  unfold prepareBuffers
  split
  · rfl
  split
  · dsimp only [reuseBuffers]
    apply wiring_modifyLink_same <;> rfl
  split
  · dsimp only [reuseBuffers]
    apply wiring_modifyLink_same <;> rfl
  dsimp only
  split
  · exact wiring_portAllocBuffers.trans wiring_newBuffers
  split
  · exact wiring_portAllocBuffers.trans wiring_newBuffers
  · exact wiring_newBuffers

theorem wiring_allocationError {input output : Nat} :
    (g.allocationError l input output).wiring = g.wiring := by
  refine wiring_updateLinkState.trans ?_
  trans
  · apply wiring_modifyPort_same <;> rfl
  · apply wiring_modifyPort_same <;> rfl

theorem wiring_useBuffers {input output : Nat} {inFlags outFlags : UInt32} {res : SpaResult} :
    (g.useBuffers spa l input output inFlags outFlags res).1.wiring = g.wiring := by
  have hfail : ∀ {g' : Graph} {res : SpaResult} {failed : Bool}, g'.wiring = g.wiring →
      (if failed then (g'.allocationError l input output, res) else (g', res)).1.wiring =
        g.wiring := by
    intro g' res failed h
    split
    · exact wiring_allocationError.trans h
    · exact h
  unfold useBuffers
  by_cases hinput : hasFlag inFlags canUseBuffers
  · rw [if_pos hinput]
    exact hfail wiring_portUseBuffers
  rw [if_neg hinput]
  by_cases houtput : hasFlag outFlags canUseBuffers
  · rw [if_pos houtput]
    exact hfail wiring_portUseBuffers
  · rw [if_neg houtput]
    exact hfail rfl

theorem wiring_setLive {input output : Nat} {flags : UInt32} :
    (g.setLive input output flags).wiring = g.wiring := by
  unfold setLive
  split
  · trans
    · apply wiring_modifyNode_same <;> rfl
    · apply wiring_modifyNode_same <;> rfl
  · rfl

theorem wiring_doAllocation {input output : Nat} {inState outState : PinosPortState} :
    (g.doAllocation spa ringbuffer l input output inState outState).1.wiring = g.wiring := by
  unfold doAllocation
  split
  · rfl
  dsimp only
  split
  · exact wiring_allocationError.trans wiring_updateLinkState
  split
  · exact wiring_allocationError.trans wiring_updateLinkState
  have hlive : ∀ {flags : UInt32},
      ((g.updateLinkState l .allocating).setLive input output flags).wiring = g.wiring :=
    wiring_setLive.trans wiring_updateLinkState
  split
  · exact hlive
  · exact wiring_allocationError.trans hlive
  · split
    · exact wiring_allocationError.trans (wiring_prepareBuffers.trans hlive)
    · exact wiring_useBuffers.trans (wiring_prepareBuffers.trans hlive)

theorem wiring_startPort : (g.startPort spa l p).1.wiring = g.wiring := by
  unfold startPort
  exact wiring_addWork.trans wiring_setNodeState

theorem wiring_doStart {input output : Nat} {inState outState : PinosPortState} :
    (g.doStart spa l input output inState outState).1.wiring = g.wiring := by
  unfold doStart
  split
  · rfl
  split
  · exact wiring_updateLinkState
  have hinput : (if inState = .paused then (g.updateLinkState l .paused).startPort spa l input
      else (g.updateLinkState l .paused, SpaResult.ok)).1.wiring = g.wiring := by
    split
    · exact wiring_startPort.trans wiring_updateLinkState
    · exact wiring_updateLinkState
  dsimp only
  split
  · exact wiring_startPort.trans hinput
  · exact hinput

theorem wiring_exit {res : SpaResult} : (checkStates.exit l g res).1.wiring = g.wiring := by
  unfold checkStates.exit
  split
  · rfl
  · exact wiring_addWork

/-- A link that negotiates, allocates and starts leaves the wires. -/
theorem wiring_checkStates {fuel : Nat} {done : Graph × SpaResult}
    (h : g.checkStates spa fixate ringbuffer fuel l = some done) : done.1.wiring = g.wiring := by
  unfold checkStates at h
  split at h
  · cases h
    rfl
  split at h
  · dsimp only at h
    split at h
    · cases h
      rfl
    split at h
    · cases h
      rfl
    obtain ⟨negotiated, hnegotiated, rfl⟩ := Option.map_eq_some_iff.mp h
    have hwiring := wiring_doNegotiate hnegotiated
    split
    · exact wiring_exit.trans hwiring
    split
    · exact wiring_exit.trans (wiring_doAllocation.trans hwiring)
    · exact wiring_exit.trans (wiring_doStart.trans (wiring_doAllocation.trans hwiring))
  · cases h
    rfl

end Plugins

end Graph
end Pinos
