import Pinos.Server.LinkCounts

/-
`pinos_port_link` of `server/port.c` with what it returns: the link, the text that `error` is
set to, and the clocks of the nodes.
-/

namespace Pinos

/-! ## Links and the lists of ports -/

/-- Links are in the lists of their ports, and an input port has one link at most. -/
structure Wiring.Joined (w : Wiring) : Prop where
  mem : ∀ {l dir p}, w.side l dir = some p → l ∈ w.links p
  direction : ∀ {l dir p}, w.side l dir = some p → w.direction p = dir
  single : ∀ {p}, w.direction p = .input → (w.links p).length ≤ 1

section Wiring

variable {w w' : Wiring} {l p q n : Nat} {dir : PinosDirection}

theorem Wiring.Joined.congr (h : w.Joined) (hside : w'.side = w.side) (hlinks : w'.links = w.links)
    (hdirection : w'.direction = w.direction) : w'.Joined := by
  constructor
  · intro l dir p
    rw [hside, hlinks]
    exact h.mem
  · intro l dir p
    rw [hside, hdirection]
    exact h.direction
  · intro p
    rw [hdirection, hlinks]
    exact h.single

theorem Wiring.Joined.setSide (h : w.Joined) : (w.setSide l dir none).Joined := by
  have hside : ∀ {l' dir' p}, (w.setSide l dir none).side l' dir' = some p →
      w.side l' dir' = some p := by
    intro l' dir' p hp
    by_cases hsame : l' = l ∧ dir' = dir
    · obtain ⟨rfl, rfl⟩ := hsame
      rw [Wiring.side_setSide] at hp
      cases hp
    · rwa [Wiring.side_setSide_of_ne (not_and_or.mp hsame)] at hp
  exact ⟨fun hp => h.mem (hside hp), fun hp => h.direction (hside hp), h.single⟩

/-- A link leaves the list of a port, and has it no more. -/
theorem Wiring.Joined.leave (h : w.Joined) (hp : w.side l dir = some p) :
    ((w.detach dir l p n).setSide l dir none).Joined := by
  have hlinks : ∀ q, ((w.detach dir l p n).setSide l dir none).links q =
      if q = p then (w.links p).erase l else w.links q :=
    fun q => links_detach dir l p n q
  refine ⟨fun {l' dir' q} hq => ?_, fun hq => h.setSide.direction hq, fun {q} hq => ?_⟩
  · have hset : (w.setSide l dir none).Joined := h.setSide
    have hold : l' ∈ w.links q := hset.mem hq
    rw [hlinks]
    split
    · next hqp =>
      subst hqp
      -- no other side of the link has the port
      refine (List.mem_erase_of_ne fun hl => ?_).mpr hold
      subst hl
      by_cases hdir : dir' = dir
      · subst hdir
        exact nomatch Wiring.side_setSide.symm.trans hq
      · exact hdir ((h.setSide.direction hq).symm.trans (h.direction hp))
    · exact hold
  · rw [hlinks]
    split
    · next hqp => exact Nat.le_trans List.length_erase_le (h.single (hqp ▸ hq))
    · exact h.single hq

/-- A link is made to an input port without one. -/
theorem Wiring.Joined.link {output input : Nat} (h : w.Joined)
    (houtput : w.direction output = .output) (hinput : w.direction input = .input)
    (hfree : w.links input = []) :
    (((w.newLink l output input).attach .output l output).attach .input l input).Joined := by
  have hne : input ≠ output := by
    rintro rfl
    exact nomatch hinput.symm.trans houtput
  have hout : (((w.newLink l output input).attach .output l output).attach .input l input).links
      output = w.links output ++ [l] := by
    show Function.update (Function.update w.links output _) input _ output = _
    rw [Function.update_of_ne hne.symm, Function.update_self]
    rfl
  have hin : (((w.newLink l output input).attach .output l output).attach .input l input).links
      input = [l] := by
    show Function.update (Function.update w.links output _) input
      (Function.update w.links output (w.links output ++ [l]) input ++ [l]) input = _
    rw [Function.update_self, Function.update_of_ne hne, hfree, List.nil_append]
  have hother : ∀ q, q ≠ output → q ≠ input →
      (((w.newLink l output input).attach .output l output).attach .input l input).links q =
        w.links q := by
    intro q hqout hqin
    show Function.update (Function.update w.links output _) input _ q = _
    rw [Function.update_of_ne hqin, Function.update_of_ne hqout]
  have hside : ∀ {l' dir p}, (w.newLink l output input).side l' dir = some p →
      (l' = l ∧ (dir = .input ∧ p = input ∨ dir = .output ∧ p = output)) ∨
        w.side l' dir = some p := by
    intro l' dir p hp
    change Function.update w.side l _ l' dir = some p at hp
    by_cases hl : l' = l
    · rw [hl, Function.update_self] at hp
      cases dir <;> cases hp
      · exact .inl ⟨hl, .inl ⟨rfl, rfl⟩⟩
      · exact .inl ⟨hl, .inr ⟨rfl, rfl⟩⟩
    · rw [Function.update_of_ne hl] at hp
      exact .inr hp
  refine ⟨fun {l' dir q} hq => ?_, fun {l' dir q} hq => ?_, fun {q} hq => ?_⟩
  · rcases hside hq with ⟨rfl, ⟨-, rfl⟩ | ⟨-, rfl⟩⟩ | hq
    · rw [hin]
      exact List.mem_cons_self
    · rw [hout]
      exact List.mem_append_right _ List.mem_cons_self
    · have hmem := h.mem hq
      by_cases hqout : q = output
      · rw [hqout, hout]
        exact List.mem_append_left _ (hqout ▸ hmem)
      · by_cases hqin : q = input
        · rw [hqin, hfree] at hmem
          cases hmem
        · rw [hother q hqout hqin]
          exact hmem
  · rcases hside hq with ⟨-, ⟨rfl, rfl⟩ | ⟨rfl, rfl⟩⟩ | hq
    · exact hinput
    · exact houtput
    · exact h.direction hq
  · by_cases hqin : q = input
    · rw [hqin, hin]
      exact Nat.le_refl 1
    · have hqout : q ≠ output := by
        rintro rfl
        exact nomatch houtput.symm.trans hq
      rw [hother q hqout hqin]
      exact h.single hq

end Wiring

namespace Graph

variable {g : Graph} {l p : Nat} {dir : PinosDirection}

theorem joined_addRt (h : g.wiring.Joined) : (g.addRt l p).wiring.Joined := by
  rw [wiring_addRt]
  exact h.congr rfl rfl rfl

theorem joined_removeRt (h : g.wiring.Joined) : (g.removeRt dir l).wiring.Joined := by
  cases hside : g.wiring.rtSide l dir with
  | none =>
    rw [removeRt_none hside]
    exact h
  | some p =>
    rw [wiring_removeRt hside]
    exact h.congr rfl rfl rfl

theorem joined_removeSide (h : g.wiring.Joined) : (g.removeSide dir l).wiring.Joined := by
  cases hside : g.wiring.side l dir with
  | none =>
    rw [removeSide_none hside]
    exact h
  | some p =>
    rw [wiring_removeSide hside]
    exact h.leave hside

theorem joined_removeLinkDone (h : g.wiring.Joined) : (g.removeLinkDone l p).wiring.Joined := by
  cases hside : g.wiring.side l (g.wiring.direction p) with
  | none =>
    unfold removeLinkDone
    dsimp only
    rw [show (g.links l).side (g.ports p).direction = none from hside]
    dsimp only
    rw [apply_ite wiring, wiring_updateNodeState, ite_self, apply_ite wiring, wiring_clearPort,
      ite_self]
    exact h
  | some q =>
    rw [wiring_removeLinkDone hside]
    exact h.leave hside

theorem joined_addLink {output input : Nat} (h : g.wiring.Joined)
    (houtput : (g.ports output).direction = .output) (hinput : (g.ports input).direction = .input)
    (hfree : (g.ports input).links = []) : (g.addLink l output input).wiring.Joined := by
  rw [wiring_addLink]
  exact h.link houtput hinput hfree

end Graph

namespace Daemon

variable {s : Daemon} {l p n : Nat} {dir : PinosDirection}

/-! ## No operation but `pinos_port_link` makes a link -/

/-- Links and the lists of ports fit. -/
def Joined (s : Daemon) : Prop := s.graph.wiring.Joined

theorem Joined.modify (h : s.Joined) {f : Graph → Graph} (hf : (f s.graph).wiring = s.graph.wiring) :
    (s.modify f).Joined := by
  show (f s.graph).wiring.Joined
  rw [hf]
  exact h

theorem Joined.unref (h : s.Joined) : (s.unref l).Joined := by
  unfold Daemon.unref
  dsimp only
  split <;> exact h

theorem Joined.linkUnbind (h : s.Joined) : (s.linkUnbind l).Joined :=
  Joined.unref (l := l) (s := { s.touch [.link l] with resources := _ }) h

theorem Joined.unbindAll (h : s.Joined) (k : Nat) : (s.unbindAll l k).Joined := by
  induction k generalizing s with
  | zero => exact h
  | succ k ih => exact ih h.linkUnbind

theorem Joined.requestRemove (h : s.Joined) : (s.requestRemove dir l).Joined := by
  unfold Daemon.requestRemove
  split <;> exact h

theorem Joined.linkDestroy (h : s.Joined) : (s.linkDestroy l).Joined := by
  have htouch : (s.touch [.link l]).Joined := h
  exact (htouch.unbindAll _).requestRemove.requestRemove.unref

theorem Joined.doLinkRemove (h : s.Joined) : (s.doLinkRemove l).Joined :=
  Graph.joined_removeRt (Graph.joined_removeRt h)

theorem Joined.doLinkRemoveDone (h : s.Joined) : (s.doLinkRemoveDone l).Joined :=
  Joined.unref (Graph.joined_removeSide (Graph.joined_removeSide h))

theorem Joined.doRemoveLink (h : s.Joined) : (s.doRemoveLink l p).Joined := by
  unfold Daemon.doRemoveLink
  dsimp only
  split
  · exact h
  · exact Graph.joined_removeRt h

theorem Joined.doClearBuffersDone (h : s.Joined) : (s.doClearBuffersDone p).Joined := by
  refine Joined.modify (s := s.touch _) h ?_
  split
  · rfl
  · exact Graph.wiring_clearPort

theorem Joined.portClearBuffers (h : s.Joined) (port : Option Nat) :
    (s.portClearBuffers port).Joined := by
  cases port <;> exact h

theorem Joined.portUnlinked (h : s.Joined) : (s.portUnlinked dir l p).Joined := by
  have hside : ((s.stopListening l p).modify fun g => g.modifyLink l fun link =>
      link.setSide none dir).Joined := by
    show (s.graph.modifyLink l fun link => link.setSide none dir).wiring.Joined
    rw [Graph.wiring_setSide]
    exact h.setSide
  unfold Daemon.portUnlinked
  dsimp only
  refine Joined.linkDestroy (Joined.modify ?_ Graph.wiring_updateLinkState)
  split
  · refine Joined.portClearBuffers (Joined.modify hside ?_) _
    apply Graph.wiring_modifyLink_same <;> rfl
  · exact hside

theorem Joined.onPortDestroy (h : s.Joined) : (s.onPortDestroy l p).Joined := by
  have htouch : (s.touch [.link l]).Joined := h
  unfold Daemon.onPortDestroy
  dsimp only
  split
  · exact htouch.portUnlinked
  · split
    · exact htouch.portUnlinked
    · exact htouch

theorem Joined.foldl {f : Daemon → Nat → Daemon} (hf : ∀ {s : Daemon} {i}, s.Joined → (f s i).Joined)
    (h : s.Joined) (is : List Nat) : (is.foldl f s).Joined := by
  induction is generalizing s with
  | nil => exact h
  | cons i is ih => exact ih (hf h)

theorem Joined.portDestroy (h : s.Joined) : (s.portDestroy p).Joined := by
  have htouch : (s.touch [.port p]).Joined := h
  have hfold := htouch.foldl (f := fun s l => s.onPortDestroy l p) (fun h => h.onPortDestroy)
    (s.listeners (.port p))
  unfold Daemon.portDestroy
  dsimp only
  show (Graph.modifyNode _ _ fun node => node.setPorts ((node.ports _).erase p) _).wiring.Joined
  rw [@Graph.wiring_setPorts _ _ _ fun ports => ports.erase p]
  exact Wiring.Joined.congr hfold rfl rfl rfl

theorem Joined.removeRtLink (h : s.Joined) : (removeRtLink dir s l).Joined := by
  unfold Daemon.removeRtLink
  dsimp only
  split
  · exact h
  · exact Graph.joined_removeRt h

theorem Joined.removeRtLinks (h : s.Joined) : (removeRtLinks dir s p).Joined :=
  Joined.foldl (s := s.touch [.port p]) (fun h => h.removeRtLink) h _

theorem Joined.doNodeRemove (h : s.Joined) : (s.doNodeRemove n).Joined := by
  have htouch : (s.touch [.node n]).Joined := h
  have hinput := htouch.foldl (f := Daemon.removeRtLinks .input) (fun h => h.removeRtLinks)
    (s.graph.nodes n).inputPorts
  exact hinput.foldl (f := Daemon.removeRtLinks .output) (fun h => h.removeRtLinks) _

theorem Joined.doNodeRemoveDone (h : s.Joined) : (s.doNodeRemoveDone n).Joined := by
  have htouch : (s.touch [.node n]).Joined := h
  have hinput := htouch.foldl (f := Daemon.portDestroy) (fun h => h.portDestroy)
    (s.graph.nodes n).inputPorts
  exact hinput.foldl (f := Daemon.portDestroy) (fun h => h.portDestroy) _

theorem Joined.perform (h : s.Joined) (inv : Invocation) : (s.perform inv).Joined := by
  cases inv with
  | addLink l p => exact Graph.joined_addRt h
  | removeLink l p => exact h.doRemoveLink
  | removeLinkDone l p => exact Graph.joined_removeLinkDone h
  | clearBuffers p =>
    exact Joined.modify (s := s.touch [.port p, .node (s.graph.ports p).node])
      (f := fun g => g.portPauseRt p) h Graph.wiring_portPauseRt
  | clearBuffersDone p => exact h.doClearBuffersDone
  | linkRemove l => exact h.doLinkRemove
  | linkRemoveDone l => exact h.doLinkRemoveDone
  | nodeRemove n => exact h.doNodeRemove
  | nodeRemoveDone n => exact h.doNodeRemoveDone

theorem Joined.runMain (h : s.Joined) : s.runMain.Joined := by
  unfold Daemon.runMain
  split
  · exact h
  · next inv rest _ => exact Joined.perform (s := { s with mainLoop := rest }) h inv

theorem Joined.runData (h : s.Joined) (d : Nat) : (s.runData d).Joined := by
  unfold Daemon.runData
  split
  · exact h
  · next inv rest _ =>
    exact Joined.perform (s := { s with dataLoops := Function.update s.dataLoops d rest }) h inv

end Daemon

/-! ## What `pinos_port_link` returns -/

/-- The clocks of the nodes go with the daemon. -/
structure Clocked where
  daemon : Daemon
  clock : Nat → Option Nat

/-- A call of `pinos_port_link`, or something else that is done; a link that negotiates, allocates
buffers or starts may change the clocks and what is no wiring. -/
inductive PortLinkEvent where
  /-- There is memory for a link. -/
  | portLink (memory : Bool) (output input : Nat)
  | portUnlink (p l : Nat)
  | linkBind (l : Nat)
  | linkUnbind (l : Nat)
  | linkDestroy (l : Nat)
  | portDestroy (p : Nat)
  | nodeDestroy (n : Nat)
  | checkStates (g : Graph) (clock : Nat → Option Nat)
  | mainLoop
  | dataLoop (d : Nat)

namespace Clocked

/-- `pinos_port_link`, with the link it returns and what `*error` is set to. -/
def portLink (s : Clocked) (memory : Bool) (output input : Nat) :
    Clocked × Option Nat × Option String :=
  let d := s.daemon.touch (s.daemon.graph.listUses output ++ s.daemon.graph.listUses input)
  let outputNode := (d.graph.ports output).node
  let inputNode := (d.graph.ports input).node
  if outputNode = inputNode then
    ({ s with daemon := d }, none, some "can't link a node to itself")
  else if (d.graph.ports input).links ≠ [] then
    ({ s with daemon := d }, none, some "input port was already linked")
  else
    match d.findLink output input with
    | some l => ({ s with daemon := d }, some l, none)
    | none =>
      let clock :=
        if (s.clock outputNode).isSome then Function.update s.clock inputNode (s.clock outputNode)
        else s.clock
      if memory then ({ daemon := d.makeLink output input, clock := clock }, some d.nLinks, none)
      else
        ({ daemon := d.modify fun g => g.modifyNode inputNode fun node =>
              { node with live := (g.nodes outputNode).live }
           clock := clock }, none, none)

def step (s : Clocked) : PortLinkEvent → Clocked
  | .portLink memory output input => (s.portLink memory output input).1
  | .portUnlink p l => { s with daemon := s.daemon.portUnlink p l }
  | .linkBind l => { s with daemon := s.daemon.linkBind l }
  | .linkUnbind l => { s with daemon := s.daemon.linkUnbind l }
  | .linkDestroy l => { s with daemon := s.daemon.linkDestroy l }
  | .portDestroy p => { s with daemon := s.daemon.portDestroy p }
  | .nodeDestroy n => { s with daemon := s.daemon.nodeDestroy n }
  | .checkStates g clock => { daemon := s.daemon.modify fun _ => g, clock := clock }
  | .mainLoop => { s with daemon := s.daemon.runMain }
  | .dataLoop d => { s with daemon := s.daemon.runData d }

/-- An output port is linked to an input port, and a link that changes its state leaves the
wiring. -/
def Admits (s : Clocked) : PortLinkEvent → Prop
  | .portLink _ output input =>
    (s.daemon.graph.ports output).direction = .output ∧
      (s.daemon.graph.ports input).direction = .input
  | .checkStates g _ => g.wiring = s.daemon.graph.wiring
  | _ => True

/-- Two ports have a link. -/
def Linked (s : Clocked) (output input l : Nat) : Prop :=
  l ∈ (s.daemon.graph.ports output).links ∧ (s.daemon.graph.links l).input = some input

/-- Nothing is done to the graph, the clocks or the queues of the loops. -/
structure Unchanged (s next : Clocked) : Prop where
  graph : next.daemon.graph = s.daemon.graph
  nLinks : next.daemon.nLinks = s.daemon.nLinks
  mainLoop : next.daemon.mainLoop = s.daemon.mainLoop
  dataLoops : next.daemon.dataLoops = s.daemon.dataLoops
  clock : next.clock = s.clock

/-- The lists of a port are left, and the counters, the clock and the live field of its node. -/
structure KeepsPort (s next : Clocked) (p : Nat) : Prop where
  links : (next.daemon.graph.ports p).links = (s.daemon.graph.ports p).links
  usedLinks : (next.daemon.graph.nodeOf p).usedLinks = (s.daemon.graph.nodeOf p).usedLinks
  live : (next.daemon.graph.nodeOf p).live = (s.daemon.graph.nodeOf p).live
  clock : next.clock (s.daemon.graph.ports p).node = s.clock (s.daemon.graph.ports p).node

/-- What `pinos_port_link` has to do for two ports. -/
structure Right (s : Clocked) (result : Clocked × Option Nat × Option String)
    (output input : Nat) : Prop where
  existing : (s.daemon.graph.ports output).node ≠ (s.daemon.graph.ports input).node →
    (∃ l, s.Linked output input l) →
      (∃ l, result.2.1 = some l ∧ s.Linked output input l) ∧ s.Unchanged result.1
  busy : (s.daemon.graph.ports output).node ≠ (s.daemon.graph.ports input).node →
    (∃ l ∈ (s.daemon.graph.ports input).links, (s.daemon.graph.links l).output ≠ some output) →
      result.2.1 = none ∧ result.2.2 ≠ none
  failed : result.2.1 = none →
    s.KeepsPort result.1 output ∧ s.KeepsPort result.1 input ∧ result.2.2 ≠ none

def LinksRight (s : Clocked) : PortLinkEvent → Prop
  | .portLink memory output input => s.Right (s.portLink memory output input) output input
  | _ => True

/-- Ports of different nodes are not linked twice, and there is memory for a link that is made. -/
def Fits (s : Clocked) : PortLinkEvent → Prop
  | .portLink memory output input =>
    (s.daemon.graph.ports output).node ≠ (s.daemon.graph.ports input).node →
      (¬ ∃ l, s.Linked output input l) ∧
        ((s.daemon.graph.ports input).links = [] → memory = true)
  | _ => True

variable {s : Clocked} {output input l : Nat} {memory : Bool}

/-- With memory it is what is known of `pinos_port_link` already. -/
theorem daemon_portLink :
    (s.portLink true output input).1.daemon = s.daemon.portLink output input := by
  unfold portLink Daemon.portLink
  dsimp only
  split
  · rfl
  split
  · rfl
  cases (s.daemon.touch _).findLink output input with
  | none => rfl
  | some l => rfl

theorem findLink_eq_none (h : ¬ ∃ l, s.Linked output input l) :
    s.daemon.findLink output input = none := by
  unfold Daemon.findLink
  rw [List.find?_eq_none]
  intro l hl
  rw [decide_eq_true_eq]
  exact fun hinput => h ⟨l, hl, hinput⟩

/-! ## The three outcomes -/

theorem portLink_same (memory : Bool)
    (h : (s.daemon.graph.ports output).node = (s.daemon.graph.ports input).node) :
    ∃ next, s.portLink memory output input = (next, none, some "can't link a node to itself") ∧
      s.Unchanged next :=
  ⟨_, if_pos h, rfl, rfl, rfl, rfl, rfl⟩

theorem portLink_busy (memory : Bool)
    (h : (s.daemon.graph.ports output).node ≠ (s.daemon.graph.ports input).node)
    (hbusy : (s.daemon.graph.ports input).links ≠ []) :
    ∃ next, s.portLink memory output input = (next, none, some "input port was already linked") ∧
      s.Unchanged next :=
  ⟨_, (if_neg h).trans (if_pos hbusy), rfl, rfl, rfl, rfl, rfl⟩

theorem portLink_free (memory : Bool)
    (h : (s.daemon.graph.ports output).node ≠ (s.daemon.graph.ports input).node)
    (hfree : (s.daemon.graph.ports input).links = [])
    (hnone : s.daemon.findLink output input = none) :
    (s.portLink memory output input).2 =
      (if memory then some s.daemon.nLinks else none, none) := by
  unfold portLink
  dsimp only
  split
  · next hsame => exact absurd hsame h
  split
  · next hbusy => exact absurd hfree hbusy
  have hfind : (s.daemon.touch (s.daemon.graph.listUses output ++
      s.daemon.graph.listUses input)).findLink output input = none := hnone
  rw [hfind]
  cases memory <;> rfl

theorem Unchanged.keepsPort {next : Clocked} (h : s.Unchanged next) (p : Nat) :
    s.KeepsPort next p := by
  refine ⟨?_, ?_, ?_, ?_⟩
  · rw [h.graph]
  · rw [h.graph]
  · rw [h.graph]
  · rw [h.clock]

/-- Two ports that are linked are linked once, with the input port in no other link. -/
theorem Linked.mem (h : s.daemon.Joined) (hl : s.Linked output input l) :
    l ∈ (s.daemon.graph.ports input).links := by
  have hside : s.daemon.graph.wiring.side l .input = some input := hl.2
  exact Wiring.Joined.mem h hside

theorem right_iff (h : s.daemon.Joined) :
    s.Right (s.portLink memory output input) output input ↔ s.Fits (.portLink memory output input) := by
  by_cases hsame : (s.daemon.graph.ports output).node = (s.daemon.graph.ports input).node
  · obtain ⟨next, hcall, hnext⟩ := portLink_same memory hsame
    rw [hcall]
    refine iff_of_true ⟨fun hne => absurd hsame hne, fun hne => absurd hsame hne, fun _ => ?_⟩
      fun hne => absurd hsame hne
    exact ⟨hnext.keepsPort output, hnext.keepsPort input, Option.some_ne_none _⟩
  · by_cases hfree : (s.daemon.graph.ports input).links = []
    · -- the pair has no link, and it depends on the memory
      have hnot : ¬ ∃ l, s.Linked output input l := by
        rintro ⟨l, hl⟩
        exact nomatch hfree ▸ hl.mem h
      have hcall := portLink_free memory hsame hfree (findLink_eq_none hnot)
      constructor
      · intro hright _
        refine ⟨hnot, fun _ => ?_⟩
        cases memory with
        | true => rfl
        | false =>
          have herror := (hright.failed (by rw [hcall]; rfl)).2.2
          rw [hcall] at herror
          exact absurd rfl herror
      · intro hfits
        have hmemory := (hfits hsame).2 hfree
        subst hmemory
        refine ⟨fun _ hl => absurd hl hnot, fun _ hbusy => ?_, fun hnone => ?_⟩
        · obtain ⟨l, hl, -⟩ := hbusy
          exact nomatch hfree ▸ hl
        · rw [hcall] at hnone
          cases hnone
    · obtain ⟨next, hcall, hnext⟩ := portLink_busy memory hsame hfree
      rw [hcall]
      constructor
      · intro hright _
        refine ⟨fun hl => ?_, fun hempty => absurd hempty hfree⟩
        obtain ⟨⟨l, hreturned, -⟩, -⟩ := hright.existing hsame hl
        cases hreturned
      · intro hfits
        refine ⟨fun _ hl => absurd hl (hfits hsame).1, fun _ _ => ⟨rfl, Option.some_ne_none _⟩,
          fun _ => ?_⟩
        exact ⟨hnext.keepsPort output, hnext.keepsPort input, Option.some_ne_none _⟩

/-! ## Runs -/

theorem joined_portLink (h : s.daemon.Joined)
    (houtput : (s.daemon.graph.ports output).direction = .output)
    (hinput : (s.daemon.graph.ports input).direction = .input) :
    (s.portLink memory output input).1.daemon.Joined := by
  unfold portLink
  dsimp only
  split
  · exact h
  · split
    · exact h
    · next hfree =>
      split
      · exact h
      · split
        · exact Graph.joined_addLink h houtput hinput (not_not.mp hfree)
        · exact Daemon.Joined.modify (s := s.daemon.touch _) h
            (Graph.wiring_modifyNode_same rfl rfl rfl)

theorem joined_step (s : Clocked) (e : PortLinkEvent) (h : s.daemon.Joined) (hadmits : s.Admits e) :
    (s.step e).daemon.Joined := by
  cases e with
  | portLink memory output input => exact joined_portLink h hadmits.1 hadmits.2
  | portUnlink p l => exact h
  | linkBind l => exact h
  | linkUnbind l => exact Daemon.Joined.linkUnbind h
  | linkDestroy l => exact Daemon.Joined.linkDestroy h
  | portDestroy p => exact Daemon.Joined.portDestroy h
  | nodeDestroy n => exact h
  | checkStates g clock => exact Daemon.Joined.modify h hadmits
  | mainLoop => exact Daemon.Joined.runMain h
  | dataLoop d => exact Daemon.Joined.runData h d

theorem joined_start {d : Daemon} (h : d.Start) : d.Joined where
  mem {l dir p} hp := absurd ((h.side l dir).symm.trans hp) (Option.some_ne_none p).symm
  direction {l dir p} hp := absurd ((h.side l dir).symm.trans hp) (Option.some_ne_none p).symm
  single {p} _ := by
    rw [h.links p]
    exact Nat.zero_le 1

/-- An input port has one link at most, and two ports are linked as they should be, unless they
are linked already or there is no memory. -/
theorem run_links_right (s : Clocked) (events : List PortLinkEvent) (h : s.daemon.Start)
    (hadmits : Run.Along step Admits s events) :
    (∀ p, ((Run.run step s events).daemon.graph.ports p).direction = .input →
      ((Run.run step s events).daemon.graph.ports p).links.length ≤ 1) ∧
    (Run.Along step LinksRight s events ↔ Run.Along step Fits s events) := by
  have hstart := joined_start h
  constructor
  · intro p hp
    exact (Run.run_invariant (fun s : Clocked => s.daemon.Joined) joined_step hstart hadmits).single hp
  · refine Run.along_iff (fun s : Clocked => s.daemon.Joined) (fun s e hs _ => ?_)
      (fun s e hs hadmits _ => joined_step s e hs hadmits) hstart hadmits
    cases e with
    | portLink memory output input => exact right_iff hs
    | _ => exact Iff.rfl

/-- Two nodes, one of which has a clock. -/
def clockedPair : Clocked := ⟨Daemon.pair, fun n => if n = 0 then some 7 else none⟩

/-- Two ports are linked, and their link is destroyed. -/
def linkOnce : List PortLinkEvent := [.portLink true 0 1, .dataLoop 0, .dataLoop 0, .linkDestroy 0]

theorem run_links_right_pair : Run.Along step LinksRight clockedPair linkOnce := by
  have hadmits : Run.Along step Admits clockedPair linkOnce :=
    ⟨⟨rfl, rfl⟩, trivial, trivial, trivial, trivial⟩
  refine (run_links_right clockedPair linkOnce Daemon.start_pair hadmits).2.mpr
    ⟨fun _ => ⟨?_, fun _ => rfl⟩, trivial, trivial, trivial, trivial⟩
  rintro ⟨l, hl, -⟩
  cases hl

/-- Two ports are linked twice. -/
theorem not_run_links_right :
    ¬ ∀ (s : Clocked) (events : List PortLinkEvent), s.daemon.Start →
      Run.Along step Admits s events → Run.Along step LinksRight s events := by
  intro h
  have hright := h clockedPair [.portLink true 0 1, .portLink true 0 1] Daemon.start_pair
    ⟨⟨rfl, rfl⟩, ⟨rfl, rfl⟩, trivial⟩
  obtain ⟨⟨l, hreturned, -⟩, -⟩ := hright.2.1.existing (by decide) ⟨0, by decide, by decide⟩
  cases hreturned

end Clocked
end Pinos
