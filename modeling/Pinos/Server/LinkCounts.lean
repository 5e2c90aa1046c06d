import Pinos.Lib.Run
import Pinos.Server.Counted

/-
The counters of the links of a node: what `pinos_port_link`, `pinos_port_unlink`,
`pinos_link_destroy` and `pinos_port_destroy` leave them at, when the loops have done what
they were asked for.
-/

namespace Pinos

/-- A call on the links of ports, or a turn of a loop. -/
inductive LinkOp where
  | portLink (output input : Nat)
  | portUnlink (p l : Nat)
  | linkDestroy (l : Nat)
  | portDestroy (p : Nat)
  | mainLoop
  | dataLoop (d : Nat)

namespace Daemon

def linkStep (s : Daemon) : LinkOp → Daemon
  | .portLink output input => s.portLink output input
  | .portUnlink p l => s.portUnlink p l
  | .linkDestroy l => s.linkDestroy l
  | .portDestroy p => s.portDestroy p
  | .mainLoop => s.runMain
  | .dataLoop d => s.runData d

/-- The loops have nothing to do. -/
structure Settled (s : Daemon) : Prop where
  main : s.mainLoop = []
  data : ∀ d, s.dataLoops d = []

/-- A port is in the list of its node. -/
def Listed (s : Daemon) (dir : PinosDirection) (p : Nat) : Prop :=
  p ∈ s.graph.wiring.ports (s.graph.wiring.node p) dir

def Live (s : Daemon) (l : Nat) : Prop := l < s.nLinks ∧ .link l ∉ s.freed

/-- Calls are made for links and ports that are there, when all earlier calls are done with. -/
def Admits (s : Daemon) : LinkOp → Prop
  | .portLink output input => s.Settled ∧ s.Listed .output output ∧ s.Listed .input input
  | .portUnlink p l => s.Settled ∧ (∃ dir, s.Listed dir p) ∧ s.Live l
  | .linkDestroy l => s.Settled ∧ s.Live l
  | .portDestroy p => s.Settled ∧ ∃ dir, s.Listed dir p
  | .mainLoop => True
  | .dataLoop _ => True

/-- No link that has been freed listens to a port or its node. -/
def Clean (s : Daemon) (p : Nat) : Prop :=
  ∀ l ∈ s.listeners (.port p) ++ s.listeners (.node (s.graph.wiring.node p)), .link l ∉ s.freed

/-- `pinos_port_link` makes a link. -/
def Makes (s : Daemon) (output input : Nat) : Prop :=
  (s.graph.ports output).node ≠ (s.graph.ports input).node ∧ (s.graph.ports input).links = [] ∧
    s.findLink output input = none

/-- A counter can go up. -/
def HasRoom (s : Daemon) (dir : PinosDirection) (p : Nat) : Prop :=
  (s.graph.wiring.usedLinks (s.graph.wiring.node p) dir).toNat + 1 < 2 ^ 32

/-- Calls after which the counters are right: links are made and destroyed between ports that
no link listens to from beyond its end, links are taken from ports of nodes that have them,
and ports are destroyed without links. -/
def Keeps (s : Daemon) : LinkOp → Prop
  | .portLink output input =>
    s.Makes output input → s.Clean output ∧ s.Clean input ∧ s.HasRoom .output output ∧
      s.HasRoom .input input
  | .portUnlink p l =>
    ∃ q, s.graph.wiring.side l (s.graph.wiring.direction p) = some q ∧
      s.graph.wiring.node q = s.graph.wiring.node p
  | .linkDestroy l => ∀ dir p, s.graph.wiring.side l dir = some p → s.Clean p
  | .portDestroy p =>
    s.graph.wiring.links p = [] ∧ ∀ l ∈ s.listeners (.port p), .link l ∉ s.freed
  | .mainLoop => True
  | .dataLoop _ => True

/-- Nodes and ports before there are links. -/
structure Start (s : Daemon) : Prop where
  nodup : ∀ n dir, (s.graph.wiring.ports n dir).Nodup
  ports : ∀ {n dir p}, p ∈ s.graph.wiring.ports n dir →
    s.graph.wiring.node p = n ∧ s.graph.wiring.direction p = dir
  links : ∀ p, s.graph.wiring.links p = []
  rtLinks : ∀ p, s.graph.wiring.rtLinks p = []
  side : ∀ l dir, s.graph.wiring.side l dir = none
  rtSide : ∀ l dir, s.graph.wiring.rtSide l dir = none
  used : ∀ n dir, s.graph.wiring.usedLinks n dir = 0
  nLinks : s.nLinks = 0
  resources : ∀ l, s.resources l = 0
  listeners : ∀ o, s.listeners o = []
  settled : s.Settled
  freed : s.freed = []
  wild : s.wild = false

/-- How many links are attached on a side of the ports of a node. -/
def attachedLinks (s : Daemon) (n : Nat) (dir : PinosDirection) : Nat :=
  (((s.graph.nodes n).ports dir).map fun p => (s.graph.ports p).links.length).sum

/-- Nothing freed was used, and the counters of all nodes are the numbers of their links. -/
def Counts (s : Daemon) : Prop :=
  s.wild = false ∧ ∀ n dir, ((s.graph.nodes n).usedLinks dir).toNat = s.attachedLinks n dir

/-! ## What holds in every state -/

section Objects

variable {s : Daemon} {objects : List Object}

theorem touch_of_live (h : ∀ o ∈ objects, o ∉ s.freed) : s.touch objects = s := by
  have hany : (objects.any fun o => decide (o ∈ s.freed)) = false := by
    rw [List.any_eq_false]
    intro o ho
    simp [h o ho]
  rw [touch, hany, Bool.or_false]

end Objects

/-- Links have ports that are there, and none when they are freed. -/
structure Sound (s : Daemon) : Prop where
  wired : s.graph.wiring.Wired
  live : ∀ {l dir p}, s.graph.wiring.side l dir = some p → s.Live l
  made : ∀ {l}, .link l ∈ s.freed → l < s.nLinks
  ports : ∀ {n dir p}, p ∈ s.graph.wiring.ports n dir → .port p ∉ s.freed
  nodes : ∀ n, .node n ∉ s.freed
  resources : ∀ l, s.resources l = 0
  wild : s.wild = false

section Sound

variable {s : Daemon} {l p q : Nat} {dir : PinosDirection}

theorem Sound.counts (h : s.Sound) : s.Counts := ⟨h.wild, h.wired.used⟩

theorem Sound.port (h : s.Sound) (hside : s.graph.wiring.side l dir = some p) :
    .port p ∉ s.freed :=
  h.ports (h.wired.listed hside)

/-- What is in the list of a port is there. -/
theorem Sound.listUses (h : s.Sound) (hp : .port p ∉ s.freed) :
    ∀ o ∈ s.graph.listUses p, o ∉ s.freed := by
  intro o ho
  rcases List.mem_cons.mp ho with rfl | ho
  · exact hp
  · rcases List.mem_cons.mp ho with rfl | ho
    · exact h.nodes _
    · obtain ⟨l, hl, rfl⟩ := List.mem_map.mp ho
      exact (h.live (h.wired.mem.mp hl)).2

theorem Sound.rtList (h : s.Sound) : ∀ o ∈ (s.graph.ports p).rtLinks.map Object.link, o ∉ s.freed := by
  intro o ho
  obtain ⟨l, hl, rfl⟩ := List.mem_map.mp ho
  exact (h.live (h.wired.rtSide (h.wired.memRt.mp hl))).2

theorem Sound.sideUses (h : s.Sound) : ∀ o ∈ s.graph.sideUses dir l, o ∉ s.freed := by
  unfold Graph.sideUses
  cases hside : (s.graph.links l).side dir with
  | none => exact fun o ho => absurd ho List.not_mem_nil
  | some p => exact h.listUses (h.port hside)

theorem Sound.rtUses (h : s.Sound) : ∀ o ∈ s.graph.rtUses dir l, o ∉ s.freed := by
  unfold Graph.rtUses
  cases hside : (s.graph.links l).rtSide dir with
  | none => exact fun o ho => absurd ho List.not_mem_nil
  | some p =>
    intro o ho
    rcases List.mem_cons.mp ho with rfl | ho
    · exact h.port (h.wired.rtSide hside)
    · rcases List.mem_cons.mp ho with rfl | ho
      · exact h.nodes _
      · exact h.rtList o ho

/-- Queues, listeners and references do not matter. -/
theorem Sound.withQueues (h : s.Sound) (main : List Invocation) (data : Nat → List Invocation)
    (listeners : Object → List Nat) (refcount : Nat → Int) :
    Sound
      { s with mainLoop := main, dataLoops := data, listeners := listeners, refcount := refcount } :=
  ⟨h.wired, h.live, h.made, h.ports, h.nodes, h.resources, h.wild⟩

/-- The wires change, and no link gets a port. -/
theorem Sound.modify (h : s.Sound) {f : Graph → Graph} (hwired : (f s.graph).wiring.Wired)
    (hside : ∀ {l dir p}, (f s.graph).wiring.side l dir = some p →
      s.graph.wiring.side l dir = some p)
    (hports : (f s.graph).wiring.ports = s.graph.wiring.ports) : (s.modify f).Sound where
  wired := hwired
  live hs := h.live (hside hs)
  made := h.made
  ports hp := h.ports (by rw [Daemon.modify, hports] at hp; exact hp)
  nodes := h.nodes
  resources := h.resources
  wild := h.wild

end Sound

/-! ## What is going on between calls -/

/-- Nothing is going on: the realtime thread has what the main thread has. -/
structure Idle (s : Daemon) : Prop extends s.Settled where
  rt : ∀ l dir, s.graph.wiring.rtSide l dir = s.graph.wiring.side l dir
  refcount : ∀ {l}, s.Live l → s.refcount l = 1

/-- A link waits to be known to the realtime thread. -/
structure Adding (s : Daemon) (l : Nat) : Prop where
  main : s.mainLoop = []
  data : ∀ {d inv}, inv ∈ s.dataLoops d → ∃ p, inv = .addLink l p ∧
    s.graph.wiring.dataLoop (s.graph.wiring.node p) = d ∧
    s.graph.wiring.side l (s.graph.wiring.direction p) = some p ∧
    s.graph.wiring.rtSide l (s.graph.wiring.direction p) = none
  nodup : ∀ d, (s.dataLoops d).Nodup
  rt : ∀ {l' dir p}, s.graph.wiring.side l' dir = some p →
    s.graph.wiring.rtSide l' dir = some p ∨
      l' = l ∧ .addLink l p ∈ s.dataLoops (s.graph.wiring.dataLoop (s.graph.wiring.node p))
  refcount : ∀ {l}, s.Live l → s.refcount l = 1

/-- A link is taken from a port: by the realtime thread, and then by the main thread. -/
structure Removing (s : Daemon) (l p : Nat) : Prop where
  port : .port p ∉ s.freed
  link : .link l ∉ s.freed
  side : ∃ q, s.graph.wiring.side l (s.graph.wiring.direction p) = some q ∧
    s.graph.wiring.node q = s.graph.wiring.node p
  rt : ∀ {l' dir}, l' ≠ l ∨ dir ≠ s.graph.wiring.direction p →
    s.graph.wiring.rtSide l' dir = s.graph.wiring.side l' dir
  refcount : ∀ {l}, s.Live l → s.refcount l = 1
  queue : (s.mainLoop = [] ∧
      s.dataLoops = Function.update (fun _ => [])
        (s.graph.wiring.dataLoop (s.graph.wiring.node p)) [.removeLink l p] ∧
      s.graph.wiring.rtSide l (s.graph.wiring.direction p) =
        s.graph.wiring.side l (s.graph.wiring.direction p)) ∨
    s.mainLoop = [.removeLinkDone l p] ∧ s.dataLoops = (fun _ => []) ∧
      s.graph.wiring.rtSide l (s.graph.wiring.direction p) = none

/-- A link is destroyed: the loops in which its nodes run, and then the main thread, take it
from its ports, and each has a reference. -/
structure Destroying (s : Daemon) (l : Nat) (loops : List Nat) (dones : Nat) : Prop where
  main : s.mainLoop = List.replicate dones (.linkRemoveDone l)
  data : ∀ d, s.dataLoops d = List.replicate (loops.count d) (.linkRemove l)
  live : s.Live l
  refcount : s.refcount l = loops.length + dones
  pending : 0 < loops.length + dones
  others : ∀ {l'}, l' ≠ l → s.Live l' → s.refcount l' = 1
  rt : ∀ {l'}, l' ≠ l → ∀ dir, s.graph.wiring.rtSide l' dir = s.graph.wiring.side l' dir
  paused : dones ≠ 0 → ∀ dir, s.graph.wiring.rtSide l dir = none

inductive Phase (s : Daemon) : Prop where
  | idle (h : s.Idle)
  | adding (l : Nat) (h : s.Adding l)
  | removing (l p : Nat) (h : s.Removing l p)
  | destroying (l : Nat) (loops : List Nat) (dones : Nat) (h : s.Destroying l loops dones)

section Phases

variable {s : Daemon} {l p q d : Nat} {dir : PinosDirection} {loops : List Nat} {dones : Nat}

/-- When the loops have nothing to do, nothing is going on. -/
theorem Phase.idle_of_settled (h : s.Sound) (hphase : s.Phase) (hsettled : s.Settled) : s.Idle := by
  cases hphase with
  | idle h => exact h
  | adding l hadding =>
    refine { hsettled with rt := ?_, refcount := hadding.refcount }
    intro l' dir
    cases hside : s.graph.wiring.side l' dir with
    | none =>
      cases hrt : s.graph.wiring.rtSide l' dir with
      | none => rfl
      | some p => exact absurd ((h.wired.rtSide hrt).symm.trans hside) (Option.some_ne_none p)
    | some p =>
      rcases hadding.rt hside with hrt | ⟨-, hmem⟩
      · exact hrt
      · rw [hsettled.data] at hmem
        cases hmem
  | removing l p hremoving =>
    rcases hremoving.queue with ⟨-, hdata, -⟩ | ⟨hmain, -⟩
    · have hloop := hsettled.data (s.graph.wiring.dataLoop (s.graph.wiring.node p))
      rw [hdata, Function.update_self] at hloop
      cases hloop
    · rw [hsettled.main] at hmain
      cases hmain
  | destroying l loops dones hdestroying =>
    have hdones : dones = 0 := by
      have hmain := hsettled.main
      rw [hdestroying.main] at hmain
      exact (List.replicate_eq_nil_iff _).mp hmain
    have hloops : loops = [] := by
      apply List.eq_nil_iff_forall_not_mem.mpr
      intro d hd
      have hdata := hsettled.data d
      rw [hdestroying.data d] at hdata
      exact absurd ((List.replicate_eq_nil_iff _).mp hdata) (Nat.ne_of_gt (List.count_pos_iff.mpr hd))
    have hpending := hdestroying.pending
    rw [hdones, hloops] at hpending
    cases hpending

/-! ## Links that are added -/

theorem Sound.doAddLink_eq (h : s.Sound)
    (hside : s.graph.wiring.side l (s.graph.wiring.direction p) = some p) :
    s.doAddLink l p = s.modify fun g => g.addRt l p := by
  unfold doAddLink
  rw [touch_of_live]
  intro o ho
  rcases List.mem_cons.mp ho with rfl | ho
  · exact h.port hside
  · rcases List.mem_cons.mp ho with rfl | ho
    · exact (h.live hside).2
    · exact h.rtList o ho

theorem Sound.doAddLink (h : s.Sound)
    (hside : s.graph.wiring.side l (s.graph.wiring.direction p) = some p)
    (hrt : s.graph.wiring.rtSide l (s.graph.wiring.direction p) = none) :
    (s.doAddLink l p).Sound := by
  rw [h.doAddLink_eq hside]
  have hw : (s.graph.addRt l p).wiring = s.graph.wiring.addRt l p := Graph.wiring_addRt
  apply h.modify
  · rw [hw]
    exact h.wired.addRt hside hrt
  · rw [hw]
    exact id
  · rw [hw]
    rfl

/-- One invocation less is in the queue of a loop. -/
theorem mem_of_mem_update {queue : Nat → List Invocation} {inv inv' : Invocation}
    {rest : List Invocation} {d' : Nat} (hqueue : queue d = inv :: rest)
    (hmem : inv' ∈ Function.update queue d rest d') : inv' ∈ queue d' := by
  by_cases hd : d' = d
  · rw [hd, Function.update_self] at hmem
    rw [hd, hqueue]
    exact List.mem_cons_of_mem inv hmem
  · rwa [Function.update_of_ne hd] at hmem

theorem mem_update_of_mem {queue : Nat → List Invocation} {inv inv' : Invocation}
    {rest : List Invocation} {d' : Nat} (hqueue : queue d = inv :: rest) (hmem : inv' ∈ queue d')
    (hne : inv' ≠ inv) : inv' ∈ Function.update queue d rest d' := by
  by_cases hd : d' = d
  · rw [hd, hqueue] at hmem
    rw [hd, Function.update_self]
    exact (List.mem_cons.mp hmem).resolve_left hne
  · rwa [Function.update_of_ne hd]

/-- A loop adds the link to the realtime list of a port. -/
theorem Adding.runData (h : s.Sound) (hadding : s.Adding l) (d : Nat) :
    (s.runData d).Sound ∧ (s.runData d).Phase := by
  unfold Daemon.runData
  cases hqueue : s.dataLoops d with
  | nil => exact ⟨h, .adding l hadding⟩
  | cons inv rest =>
    obtain ⟨p, rfl, hloop, hside, hrt⟩ := hadding.data (hqueue ▸ List.mem_cons_self)
    have hnodup := hqueue ▸ hadding.nodup d
    have h1 := h.withQueues s.mainLoop (Function.update s.dataLoops d rest) s.listeners s.refcount
    refine ⟨h1.doAddLink hside hrt, .adding l ?_⟩
    show Adding (Daemon.doAddLink _ l p) l
    rw [h1.doAddLink_eq hside]
    have hw : (s.graph.addRt l p).wiring = s.graph.wiring.addRt l p := Graph.wiring_addRt
    have hother : ∀ {p'}, s.graph.wiring.side l (s.graph.wiring.direction p') = some p' →
        s.graph.wiring.direction p' = s.graph.wiring.direction p → p' = p := by
      intro p' hside' hdir
      rw [hdir, hside] at hside'
      exact (Option.some.inj hside').symm
    refine ⟨hadding.main, ?_, ?_, ?_, hadding.refcount⟩
    · intro d' inv' hmem
      obtain ⟨p', rfl, hloop', hside', hrt'⟩ := hadding.data (mem_of_mem_update hqueue hmem)
      have hp : p' ≠ p := by
        rintro rfl
        have hmem' : Invocation.addLink l p' ∈ Function.update s.dataLoops d rest d' := hmem
        rw [← hloop', hloop, Function.update_self] at hmem'
        exact (List.nodup_cons.mp hnodup).1 hmem'
      refine ⟨p', rfl, ?_, ?_, ?_⟩
      · rw [modify, hw]
        exact hloop'
      · rw [modify, hw]
        exact hside'
      · rw [modify, hw]
        exact (Wiring.rtSide_setRtSide_of_ne (.inr fun hdir => hp (hother hside' hdir))).trans hrt'
    · intro d'
      show (Function.update s.dataLoops d rest d').Nodup
      by_cases hd : d' = d
      · rw [hd, Function.update_self]
        exact (List.nodup_cons.mp hnodup).2
      · rw [Function.update_of_ne hd]
        exact hadding.nodup d'
    · intro l' dir p' hside'
      rw [modify, hw] at hside' ⊢
      by_cases hne : l' ≠ l ∨ dir ≠ s.graph.wiring.direction p
      · rcases hadding.rt hside' with hrt' | ⟨rfl, hmem⟩
        · exact .inl ((Wiring.rtSide_setRtSide_of_ne hne).trans hrt')
        · refine .inr ⟨rfl, mem_update_of_mem hqueue hmem ?_⟩
          intro heq
          cases heq
          have hdir := h.wired.direction hside'
          exact hne.elim (fun hl => hl rfl) fun hd => hd hdir.symm
      · obtain ⟨hl, hdir⟩ := not_or.mp hne
        rw [not_not.mp hl, not_not.mp hdir] at hside' ⊢
        left
        rw [show s.graph.wiring.side l _ = some p' from hside'] at hside
        cases hside
        exact Wiring.rtSide_setRtSide

/-- A link listens where no freed link does. -/
theorem listen_eq (hclean : s.Clean p) :
    s.listen l p =
      { s with
        listeners := fun o =>
          if o = .port p ∨ o = .node (s.graph.ports p).node then s.listeners o ++ [l]
          else s.listeners o } := by
  unfold listen
  dsimp only
  rw [touch_of_live]
  intro o ho
  obtain ⟨l', hl', rfl⟩ := List.mem_map.mp ho
  exact hclean l' hl'

theorem mem_invokeData {inv inv' : Invocation} {d' : Nat} :
    inv' ∈ (s.invokeData d inv).dataLoops d' ↔
      inv' ∈ s.dataLoops d' ∨ d' = d ∧ inv' = inv := by
  show inv' ∈ Function.update s.dataLoops d _ d' ↔ _
  by_cases hd : d' = d
  · rw [hd, Function.update_self, List.mem_append, List.mem_singleton, and_iff_right rfl]
  · rw [Function.update_of_ne hd]
    exact (or_iff_left fun hboth => hd hboth.1).symm

theorem nodup_invokeData {inv : Invocation} (hnodup : ∀ d, (s.dataLoops d).Nodup)
    (hnot : inv ∉ s.dataLoops d) (d' : Nat) : ((s.invokeData d inv).dataLoops d').Nodup := by
  show (Function.update s.dataLoops d _ d').Nodup
  by_cases hd : d' = d
  · rw [hd, Function.update_self, List.nodup_append]
    refine ⟨hnodup d, by simp, fun inv' hinv' inv'' hinv'' heq => ?_⟩
    rw [heq, List.mem_singleton.mp hinv''] at hinv'
    exact hnot hinv'
  · rw [Function.update_of_ne hd]
    exact hnodup d'

/-- What `pinos_port_link` leaves to the loops for a new link. -/
theorem makeLink_eq {output input : Nat} (hout : s.Clean output) (hin : s.Clean input)
    (hne : (s.graph.ports output).node ≠ (s.graph.ports input).node) :
    ∃ listeners, s.makeLink output input =
      (({ s with
        graph := s.graph.addLink s.nLinks output input
        nLinks := s.nLinks + 1
        refcount := Function.update s.refcount s.nLinks 1
        resources := Function.update s.resources s.nLinks 0
        listeners := listeners } : Daemon).invokeData
          ((s.graph.addLink s.nLinks output input).loopOf output)
            (.addLink s.nLinks output)).invokeData
          ((s.graph.addLink s.nLinks output input).loopOf input) (.addLink s.nLinks input) := by
  have hclean : (s.listen s.nLinks input).Clean output := by
    rw [listen_eq hin]
    have hport : ¬ (Object.port output = .port input ∨
        Object.port output = .node (s.graph.ports input).node) := by
      rintro (heq | heq)
      · cases heq
        exact hne rfl
      · cases heq
    have hnode : ¬ (Object.node (s.graph.wiring.node output) = .port input ∨
        Object.node (s.graph.wiring.node output) = .node (s.graph.ports input).node) := by
      rintro (heq | heq)
      · cases heq
      · exact hne (Object.node.inj heq)
    unfold Clean
    dsimp only
    rw [if_neg hport, if_neg hnode]
    exact hout
  unfold makeLink
  dsimp only
  rw [listen_eq hclean, listen_eq hin]
  exact ⟨_, rfl⟩

/-- A new link waits for the loops of both nodes. -/
theorem Idle.makeLink (h : s.Sound) (hidle : s.Idle) {output input : Nat}
    (houtput : s.Listed .output output) (hinput : s.Listed .input input)
    (hne : (s.graph.ports output).node ≠ (s.graph.ports input).node) (hout : s.Clean output)
    (hin : s.Clean input) (hroomOut : s.HasRoom .output output) (hroomIn : s.HasRoom .input input) :
    (s.makeLink output input).Sound ∧ (s.makeLink output input).Phase := by
  obtain ⟨listeners, heq⟩ := @makeLink_eq s output input hout hin hne
  have hnone : ∀ dir, s.graph.wiring.side s.nLinks dir = none := by
    intro dir
    cases hside : s.graph.wiring.side s.nLinks dir with
    | none => rfl
    | some p => exact absurd (h.live hside).1 (Nat.lt_irrefl _)
  have hrtNone : ∀ dir, s.graph.wiring.rtSide s.nLinks dir = none := by
    intro dir
    rw [hidle.rt, hnone]
  have hdirOut : s.graph.wiring.direction output = .output := (h.wired.ports houtput).2
  have hdirIn : s.graph.wiring.direction input = .input := (h.wired.ports hinput).2
  have hw : (s.graph.addLink s.nLinks output input).wiring =
      s.graph.wiring.link s.nLinks output input :=
    Graph.wiring_addLink.trans (Wiring.newLink_attach hrtNone)
  have hmade : .link s.nLinks ∉ s.freed := fun hfreed => Nat.lt_irrefl _ (h.made hfreed)
  rw [heq]
  constructor
  · exact {
      wired := by
        show (s.graph.addLink s.nLinks output input).wiring.Wired
        rw [hw]
        exact h.wired.link houtput hinput hnone hroomOut hroomIn
      live := by
        intro l dir p hl
        change (s.graph.addLink s.nLinks output input).wiring.side l dir = some p at hl
        rw [hw] at hl
        rcases Wiring.side_link_cases hl with ⟨rfl, -⟩ | ⟨-, hold⟩
        · exact ⟨Nat.lt_succ_self _, hmade⟩
        · exact ⟨Nat.lt_succ_of_lt (h.live hold).1, (h.live hold).2⟩
      made := fun hfreed => Nat.lt_succ_of_lt (h.made hfreed)
      ports := by
        intro n dir p hp
        change p ∈ (s.graph.addLink s.nLinks output input).wiring.ports n dir at hp
        rw [hw] at hp
        exact @Sound.ports s h n dir p hp
      nodes := h.nodes
      resources := by
        intro l
        show Function.update s.resources s.nLinks 0 l = 0
        by_cases hl : l = s.nLinks
        · rw [hl, Function.update_self]
        · rw [Function.update_of_ne hl, h.resources]
      wild := h.wild }
  · refine .adding s.nLinks ⟨hidle.main, ?_, ?_, ?_, ?_⟩
    · intro d inv hmem
      have hlink : ∃ p, inv = .addLink s.nLinks p ∧
          (s.graph.addLink s.nLinks output input).loopOf p = d ∧ (p = output ∨ p = input) := by
        rw [mem_invokeData, mem_invokeData, hidle.data] at hmem
        rcases hmem with (hmem | ⟨hd, hinv⟩) | ⟨hd, hinv⟩
        · cases hmem
        · exact ⟨output, hinv, hd.symm, .inl rfl⟩
        · exact ⟨input, hinv, hd.symm, .inr rfl⟩
      obtain ⟨p, hinv, hd, hp⟩ := hlink
      refine ⟨p, hinv, hd, ?_⟩
      show (s.graph.addLink s.nLinks output input).wiring.side s.nLinks
          ((s.graph.addLink s.nLinks output input).wiring.direction p) = some p ∧
        (s.graph.addLink s.nLinks output input).wiring.rtSide s.nLinks _ = none
      rw [hw]
      refine ⟨?_, hrtNone _⟩
      show (s.graph.wiring.link s.nLinks output input).side s.nLinks (s.graph.wiring.direction p) =
        some p
      rcases hp with rfl | rfl
      · rw [hdirOut]
        exact Wiring.side_link_output
      · rw [hdirIn]
        exact Wiring.side_link_input
    · have hempty : ∀ d, (s.dataLoops d).Nodup := by
        intro d
        rw [hidle.data]
        exact List.nodup_nil
      apply nodup_invokeData
      · exact nodup_invokeData hempty (by
          show _ ∉ s.dataLoops _
          rw [hidle.data]
          exact List.not_mem_nil)
      · rw [mem_invokeData, hidle.data]
        rintro (hmem | ⟨-, hinv⟩)
        · cases hmem
        · cases hinv
          exact hne rfl
    · intro l' dir p hl
      change (s.graph.addLink s.nLinks output input).wiring.side l' dir = some p at hl
      rw [hw] at hl
      rcases Wiring.side_link_cases hl with ⟨rfl, hp⟩ | ⟨-, hold⟩
      · refine .inr ⟨rfl, ?_⟩
        rw [mem_invokeData, mem_invokeData]
        rcases hp with rfl | rfl
        · exact .inl (.inr ⟨rfl, rfl⟩)
        · exact .inr ⟨rfl, rfl⟩
      · left
        show (s.graph.addLink s.nLinks output input).wiring.rtSide l' dir = some p
        rw [hw]
        exact (hidle.rt l' dir).trans hold
    · intro l' hlive
      show Function.update s.refcount s.nLinks 1 l' = 1
      by_cases hl : l' = s.nLinks
      · rw [hl, Function.update_self]
      · rw [Function.update_of_ne hl]
        have hlt : l' < s.nLinks + 1 := hlive.1
        exact hidle.refcount ⟨by omega, hlive.2⟩

theorem Idle.portLink (h : s.Sound) (hidle : s.Idle) {output input : Nat}
    (houtput : s.Listed .output output) (hinput : s.Listed .input input)
    (hkeeps : s.Keeps (.portLink output input)) :
    (s.portLink output input).Sound ∧ (s.portLink output input).Phase := by
  have htouch : s.touch (s.graph.listUses output ++ s.graph.listUses input) = s := by
    apply touch_of_live
    intro o ho
    rcases List.mem_append.mp ho with ho | ho
    · exact h.listUses (h.ports houtput) o ho
    · exact h.listUses (h.ports hinput) o ho
  unfold Daemon.portLink
  dsimp only
  rw [htouch]
  split
  · exact ⟨h, .idle hidle⟩
  · next hne =>
    split
    · exact ⟨h, .idle hidle⟩
    · next hlinks =>
      split
      · exact ⟨h, .idle hidle⟩
      · next hfind =>
        obtain ⟨hout, hin, hroomOut, hroomIn⟩ := hkeeps ⟨hne, not_not.mp hlinks, not_not.mp hfind⟩
        exact hidle.makeLink h houtput hinput hne hout hin hroomOut hroomIn

/-! ## Links that are taken from a port -/

theorem Idle.portUnlink (h : s.Sound) (hidle : s.Idle) (hp : s.Listed dir p) (hlive : s.Live l)
    (hside : ∃ q, s.graph.wiring.side l (s.graph.wiring.direction p) = some q ∧
      s.graph.wiring.node q = s.graph.wiring.node p) :
    (s.portUnlink p l).Sound ∧ (s.portUnlink p l).Phase := by
  have htouch : s.touch [.port p, .node (s.graph.ports p).node] = s := by
    apply touch_of_live
    intro o ho
    rcases List.mem_cons.mp ho with rfl | ho
    · exact h.ports hp
    · rw [List.mem_singleton.mp ho]
      exact h.nodes _
  unfold Daemon.portUnlink
  rw [htouch]
  refine ⟨h.withQueues _ _ _ _, .removing l p ⟨h.ports hp, hlive.2, hside, ?_, hidle.refcount, ?_⟩⟩
  · exact fun _ => hidle.rt _ _
  · refine .inl ⟨hidle.main, ?_, hidle.rt _ _⟩
    show Function.update s.dataLoops (s.graph.loopOf p) (s.dataLoops (s.graph.loopOf p) ++ _) = _
    rw [hidle.data, show s.dataLoops = fun _ => [] from funext hidle.data]
    rfl

/-- The removal of a link looks at the port, its node, the link, and what is given besides. -/
theorem Sound.touch_removal (h : s.Sound) (hp : .port p ∉ s.freed) (hl : .link l ∉ s.freed)
    {uses : List Object} (huses : ∀ o ∈ uses, o ∉ s.freed) :
    s.touch ([.port p, .node (s.graph.ports p).node, .link l] ++ uses) = s := by
  apply touch_of_live
  intro o ho
  rcases List.mem_append.mp ho with ho | ho
  · rcases List.mem_cons.mp ho with rfl | ho
    · exact hp
    · rcases List.mem_cons.mp ho with rfl | ho
      · exact h.nodes _
      · rw [List.mem_singleton.mp ho]
        exact hl
  · exact huses o ho

theorem Sound.doRemoveLink_eq (h : s.Sound) (hp : .port p ∉ s.freed) (hl : .link l ∉ s.freed)
    (hrt : s.graph.wiring.rtSide l (s.graph.wiring.direction p) ≠ none) :
    s.doRemoveLink l p =
      (s.modify fun g => g.removeRt (s.graph.wiring.direction p) l).invokeMain
        (.removeLinkDone l p) := by
  unfold doRemoveLink
  dsimp only
  rw [h.touch_removal hp hl fun o ho => h.rtUses o ho]
  exact if_neg hrt

theorem Sound.removeRt (h : s.Sound) : (s.modify fun g => g.removeRt dir l).Sound := by
  cases hrt : s.graph.wiring.rtSide l dir with
  | none =>
    unfold Daemon.modify
    dsimp only
    rw [Graph.removeRt_none hrt]
    exact h
  | some q =>
    apply h.modify
    · rw [Graph.wiring_removeRt hrt]
      exact h.wired.removeRt hrt
    · rw [Graph.wiring_removeRt hrt]
      exact id
    · rw [Graph.wiring_removeRt hrt]
      rfl

theorem Removing.runData (h : s.Sound) (hremoving : s.Removing l p) (d : Nat) :
    (s.runData d).Sound ∧ (s.runData d).Phase := by
  have hsame : s.dataLoops d = [] → (s.runData d).Sound ∧ (s.runData d).Phase := by
    intro hqueue
    unfold Daemon.runData
    rw [hqueue]
    exact ⟨h, .removing l p hremoving⟩
  rcases hremoving.queue with ⟨hmain, hdata, hrt⟩ | ⟨-, hdata, -⟩
  · by_cases hd : d = s.graph.wiring.dataLoop (s.graph.wiring.node p)
    · obtain ⟨q, hside, hnode⟩ := hremoving.side
      have hqueue : s.dataLoops d = [.removeLink l p] := by
        rw [hdata, hd, Function.update_self]
      unfold Daemon.runData
      rw [hqueue]
      show (Daemon.doRemoveLink _ l p).Sound ∧ (Daemon.doRemoveLink _ l p).Phase
      have h1 := h.withQueues s.mainLoop (Function.update s.dataLoops d []) s.listeners s.refcount
      have hsome : s.graph.wiring.rtSide l (s.graph.wiring.direction p) = some q := hrt.trans hside
      rw [h1.doRemoveLink_eq hremoving.port hremoving.link (by
        show s.graph.wiring.rtSide l (s.graph.wiring.direction p) ≠ none
        rw [hsome]
        exact Option.some_ne_none q)]
      have hw : (s.graph.removeRt (s.graph.wiring.direction p) l).wiring =
          s.graph.wiring.removeRt (s.graph.wiring.direction p) l q := Graph.wiring_removeRt hsome
      refine ⟨h1.removeRt.withQueues _ _ _ _, .removing l p
        ⟨hremoving.port, hremoving.link, ?_, ?_, hremoving.refcount, .inr ⟨?_, ?_, ?_⟩⟩⟩
      · show ∃ q, (s.graph.removeRt _ l).wiring.side l
            ((s.graph.removeRt _ l).wiring.direction p) = some q ∧
          (s.graph.removeRt _ l).wiring.node q = (s.graph.removeRt _ l).wiring.node p
        rw [hw]
        exact ⟨q, hside, hnode⟩
      · intro l' dir' hne
        change l' ≠ l ∨ dir' ≠ (s.graph.removeRt _ l).wiring.direction p at hne
        show (s.graph.removeRt _ l).wiring.rtSide l' dir' = (s.graph.removeRt _ l).wiring.side l' dir'
        rw [hw] at hne ⊢
        exact (Wiring.rtSide_setRtSide_of_ne hne).trans (hremoving.rt hne)
      · show s.mainLoop ++ _ = _
        rw [hmain]
        rfl
      · show Function.update s.dataLoops d [] = _
        rw [hdata, hd, Function.update_idem]
        exact Function.update_eq_self _ _
      · show (s.graph.removeRt _ l).wiring.rtSide l ((s.graph.removeRt _ l).wiring.direction p) = none
        rw [hw]
        exact Wiring.rtSide_setRtSide
    · exact hsame (by rw [hdata, Function.update_of_ne hd])
  · exact hsame (by rw [hdata])

theorem Sound.doRemoveLinkDone_eq (h : s.Sound) (hp : .port p ∉ s.freed) (hl : .link l ∉ s.freed) :
    s.doRemoveLinkDone l p = s.modify fun g => g.removeLinkDone l p := by
  unfold doRemoveLinkDone
  dsimp only
  rw [h.touch_removal hp hl fun o ho => h.sideUses o ho]

theorem Removing.runMain (h : s.Sound) (hremoving : s.Removing l p) :
    s.runMain.Sound ∧ s.runMain.Phase := by
  unfold Daemon.runMain
  rcases hremoving.queue with ⟨hmain, -⟩ | ⟨hmain, hdata, hrt⟩
  · rw [hmain]
    exact ⟨h, .removing l p hremoving⟩
  · rw [hmain]
    show (Daemon.doRemoveLinkDone _ l p).Sound ∧ (Daemon.doRemoveLinkDone _ l p).Phase
    obtain ⟨q, hside, hnode⟩ := hremoving.side
    have h1 := h.withQueues [] s.dataLoops s.listeners s.refcount
    rw [h1.doRemoveLinkDone_eq hremoving.port hremoving.link]
    have hw : (s.graph.removeLinkDone l p).wiring =
        (s.graph.wiring.detach (s.graph.wiring.direction p) l q (s.graph.wiring.node q)).setSide l
          (s.graph.wiring.direction p) none := by
      rw [hnode]
      exact Graph.wiring_removeLinkDone hside
    have hsides : ∀ {l' dir'}, l' ≠ l ∨ dir' ≠ s.graph.wiring.direction p →
        (s.graph.removeLinkDone l p).wiring.side l' dir' = s.graph.wiring.side l' dir' := by
      intro l' dir' hne
      rw [hw]
      exact Wiring.side_setSide_of_ne hne
    have hself : (s.graph.removeLinkDone l p).wiring.side l (s.graph.wiring.direction p) = none := by
      rw [hw]
      exact Wiring.side_setSide
    constructor
    · apply h1.modify
      · show (s.graph.removeLinkDone l p).wiring.Wired
        rw [hw]
        exact h.wired.detach hside hrt
      · intro l' dir' p' hp'
        change (s.graph.removeLinkDone l p).wiring.side l' dir' = some p' at hp'
        by_cases hne : l' ≠ l ∨ dir' ≠ s.graph.wiring.direction p
        · rwa [hsides hne] at hp'
        · obtain ⟨hl, hd⟩ := not_or.mp hne
          rw [not_not.mp hl, not_not.mp hd, hself] at hp'
          cases hp'
      · show (s.graph.removeLinkDone l p).wiring.ports = _
        rw [hw]
        rfl
    · refine .idle ⟨⟨rfl, fun d => congrFun hdata d⟩, ?_, hremoving.refcount⟩
      intro l' dir'
      have hrtSide : (s.graph.removeLinkDone l p).wiring.rtSide = s.graph.wiring.rtSide := by
        rw [hw]
        rfl
      show (s.graph.removeLinkDone l p).wiring.rtSide l' dir' =
        (s.graph.removeLinkDone l p).wiring.side l' dir'
      rw [hrtSide]
      by_cases hne : l' ≠ l ∨ dir' ≠ s.graph.wiring.direction p
      · rw [hsides hne]
        exact hremoving.rt hne
      · obtain ⟨hl, hd⟩ := not_or.mp hne
        rw [not_not.mp hl, not_not.mp hd, hself]
        exact hrt

/-! ## Links that are destroyed -/

/-- The loops of the side of a link. -/
def sideLoops (s : Daemon) (dir : PinosDirection) (l : Nat) : List Nat :=
  (s.graph.wiring.side l dir).toList.map fun p => s.graph.wiring.dataLoop (s.graph.wiring.node p)

theorem side_of_sideLoops_nil (h : s.sideLoops dir l = []) : s.graph.wiring.side l dir = none :=
  Option.toList_eq_nil_iff.mp (List.map_eq_nil_iff.mp h)

/-- `pinos_link_destroy` has asked some loops. -/
structure Requested (s : Daemon) (l : Nat) (loops : List Nat) : Prop where
  main : s.mainLoop = []
  data : ∀ d, s.dataLoops d = List.replicate (loops.count d) (.linkRemove l)
  live : s.Live l
  refcount : s.refcount l = loops.length + 1
  others : ∀ {l'}, l' ≠ l → s.Live l' → s.refcount l' = 1
  rt : ∀ l' dir, s.graph.wiring.rtSide l' dir = s.graph.wiring.side l' dir
  clean : ∀ {dir p}, s.graph.wiring.side l dir = some p → s.Clean p

theorem requestRemove_eq (h : s.Sound) (hside : s.graph.wiring.side l dir = some p)
    (hclean : s.Clean p) :
    s.requestRemove dir l =
      ({ s with
        listeners := fun o =>
          if o = .port p ∨ o = .node (s.graph.ports p).node then (s.listeners o).erase l
          else s.listeners o
        refcount := Function.update s.refcount l (s.refcount l + 1) } : Daemon).invokeData
          (s.graph.loopOf p) (.linkRemove l) := by
  unfold requestRemove
  rw [show (s.graph.links l).side dir = some p from hside]
  dsimp only
  unfold stopListening
  dsimp only
  rw [touch_of_live]
  intro o ho
  rcases List.mem_cons.mp ho with rfl | ho
  · exact h.port hside
  · rcases List.mem_cons.mp ho with rfl | ho
    · exact h.nodes _
    · obtain ⟨l', hl', rfl⟩ := List.mem_map.mp ho
      exact hclean l' hl'

theorem Requested.next (h : s.Sound) (hrequested : s.Requested l loops) (dir : PinosDirection) :
    (s.requestRemove dir l).Sound ∧ (s.requestRemove dir l).graph = s.graph ∧
      (s.requestRemove dir l).Requested l (s.sideLoops dir l ++ loops) := by
  cases hside : s.graph.wiring.side l dir with
  | none =>
    have heq : s.requestRemove dir l = s := by
      unfold requestRemove
      rw [show (s.graph.links l).side dir = none from hside]
    rw [heq, sideLoops, hside]
    exact ⟨h, rfl, hrequested⟩
  | some p =>
    rw [requestRemove_eq h hside (hrequested.clean hside), sideLoops, hside]
    refine ⟨h.withQueues _ _ _ _, rfl, hrequested.main, ?_, hrequested.live, ?_, ?_,
      hrequested.rt, ?_⟩
    · intro d
      show Function.update s.dataLoops (s.graph.loopOf p) _ d =
        List.replicate ((s.graph.loopOf p :: loops).count d) _
      by_cases hd : d = s.graph.loopOf p
      · rw [hd, Function.update_self, List.count_cons_self, hrequested.data, List.replicate_succ']
      · rw [Function.update_of_ne hd, List.count_cons_of_ne (Ne.symm hd), hrequested.data]
    · show Function.update s.refcount l (s.refcount l + 1) l = _
      rw [Function.update_self, hrequested.refcount]
      show _ = ((loops.length + 1 : Nat) : Int) + 1
      omega
    · intro l' hne hlive
      show Function.update s.refcount l (s.refcount l + 1) l' = 1
      rw [Function.update_of_ne hne]
      exact hrequested.others hne hlive
    · intro dir' q hq l' hl'
      apply hrequested.clean hq
      have hmem : ∀ o, l' ∈ (if o = Object.port p ∨ o = .node (s.graph.ports p).node then
          (s.listeners o).erase l else s.listeners o) → l' ∈ s.listeners o := by
        intro o ho
        split at ho
        · exact List.mem_of_mem_erase ho
        · exact ho
      rcases List.mem_append.mp hl' with hl' | hl'
      · exact List.mem_append_left _ (hmem _ hl')
      · exact List.mem_append_right _ (hmem _ hl')

/-- A link without ports is freed. -/
theorem Sound.linkFree (h : s.Sound) (hlive : s.Live l)
    (hnone : ∀ dir, s.graph.wiring.side l dir = none) : (s.linkFree l).Sound where
  wired := h.wired
  live := by
    intro l' dir p hside
    refine ⟨(h.live hside).1, ?_⟩
    show _ ∉ s.freed ++ [.link l]
    rw [List.mem_append, List.mem_singleton]
    rintro (hfreed | heq)
    · exact (h.live hside).2 hfreed
    · cases heq
      exact Option.some_ne_none p (hside.symm.trans (hnone dir))
  made := by
    intro l' hfreed
    rcases List.mem_append.mp hfreed with hfreed | heq
    · exact h.made hfreed
    · cases List.mem_singleton.mp heq
      exact hlive.1
  ports := by
    intro n dir p hp hfreed
    rcases List.mem_append.mp hfreed with hfreed | heq
    · exact h.ports hp hfreed
    · cases List.mem_singleton.mp heq
  nodes := by
    intro n hfreed
    rcases List.mem_append.mp hfreed with hfreed | heq
    · exact h.nodes n hfreed
    · cases List.mem_singleton.mp heq
  resources := h.resources
  wild := h.wild

theorem Live.of_linkFree {l' : Nat} (h : (s.linkFree l).Live l') : l' ≠ l ∧ s.Live l' := by
  have hfreed : Object.link l' ∉ s.freed ++ [.link l] := h.2
  rw [List.mem_append, List.mem_singleton] at hfreed
  obtain ⟨hold, hne⟩ := not_or.mp hfreed
  exact ⟨fun heq => hne (congrArg Object.link heq), h.1, hold⟩

/-- The last reference to a link goes. -/
theorem unref_free (hcount : s.refcount l = 1) :
    s.unref l = Daemon.linkFree { s with refcount := Function.update s.refcount l 0 } l := by
  have hzero : Function.update s.refcount l (s.refcount l - 1) l = 0 := by
    rw [Function.update_self, hcount]
    rfl
  unfold unref
  refine (if_pos hzero).trans ?_
  rw [hcount]
  rfl

theorem unref_keep (hcount : s.refcount l ≠ 1) :
    s.unref l = { s with refcount := Function.update s.refcount l (s.refcount l - 1) } := by
  have hpos : Function.update s.refcount l (s.refcount l - 1) l ≠ 0 := by
    rw [Function.update_self]
    omega
  unfold unref
  exact if_neg hpos

/-- `pinos_link_destroy`, from a link that nothing is going on with. -/
theorem Idle.linkDestroy (h : s.Sound) (hidle : s.Idle) (hlive : s.Live l)
    (hclean : ∀ {dir p}, s.graph.wiring.side l dir = some p → s.Clean p) :
    (s.linkDestroy l).Sound ∧ (s.linkDestroy l).Phase := by
  have htouch : s.touch [.link l] = s :=
    touch_of_live fun o ho => List.mem_singleton.mp ho ▸ hlive.2
  have hstart : s.Requested l [] := by
    refine ⟨hidle.main, ?_, hlive, ?_, fun _ => hidle.refcount, hidle.rt, hclean⟩
    · exact hidle.data
    · rw [hidle.refcount hlive]
      rfl
  obtain ⟨h1, hgraph1, hinput⟩ := hstart.next h .input
  obtain ⟨h2, hgraph2, hboth⟩ := hinput.next h1 .output
  unfold Daemon.linkDestroy
  dsimp only
  rw [htouch, h.resources]
  show (Daemon.unref _ l).Sound ∧ (Daemon.unref _ l).Phase
  generalize hs2 : (s.requestRemove .input l).requestRemove .output l = s2 at h2 hgraph2 hboth
  change Daemon.Sound (Daemon.unref ((s.requestRemove .input l).requestRemove .output l) l) ∧
    Daemon.Phase (Daemon.unref ((s.requestRemove .input l).requestRemove .output l) l)
  rw [hs2]
  generalize hloops : (s.requestRemove .input l).sideLoops .output l ++
    (s.sideLoops .input l ++ []) = loops at hboth
  cases loops with
  | nil =>
    obtain ⟨hout, hin⟩ := List.append_eq_nil_iff.mp hloops
    have hnone : ∀ dir, s2.graph.wiring.side l dir = none := by
      intro dir
      rw [hgraph2]
      cases dir with
      | input =>
        rw [hgraph1]
        exact side_of_sideLoops_nil (List.append_eq_nil_iff.mp hin).1
      | output => exact side_of_sideLoops_nil hout
    rw [unref_free hboth.refcount]
    have h3 := h2.withQueues s2.mainLoop s2.dataLoops s2.listeners (Function.update s2.refcount l 0)
    refine ⟨h3.linkFree hboth.live hnone, .idle ⟨⟨hboth.main, hboth.data⟩, hboth.rt, ?_⟩⟩
    intro l' hl'
    obtain ⟨hne, hold⟩ := Live.of_linkFree hl'
    exact (Function.update_of_ne hne ..).trans (hboth.others hne hold)
  | cons d loops =>
    have hcount : s2.refcount l ≠ 1 := by
      rw [hboth.refcount]
      show ((loops.length + 1 : Nat) : Int) + 1 ≠ 1
      omega
    rw [unref_keep hcount]
    refine ⟨h2.withQueues _ _ _ _, .destroying l (d :: loops) 0
      ⟨hboth.main, hboth.data, hboth.live, ?_, Nat.succ_pos _, ?_, fun _ => hboth.rt _,
        fun hne => absurd rfl hne⟩⟩
    · show Function.update s2.refcount l _ l = _
      rw [Function.update_self, hboth.refcount]
      show ((loops.length + 1 : Nat) : Int) + 1 - 1 = ((loops.length + 1 : Nat) : Int) + 0
      omega
    · intro l' hne hl'
      exact (Function.update_of_ne hne ..).trans (hboth.others hne hl')

theorem Sound.doLinkRemove_eq (h : s.Sound) (hl : .link l ∉ s.freed) :
    s.doLinkRemove l =
      ((s.modify fun g => g.removeRt .input l).modify fun g => g.removeRt .output l).invokeMain
        (.linkRemoveDone l) := by
  unfold doLinkRemove
  dsimp only
  rw [touch_of_live]
  · rfl
  · intro o ho
    rcases List.mem_cons.mp ho with rfl | ho
    · exact hl
    · rcases List.mem_append.mp ho with ho | ho
      · exact h.rtUses o ho
      · exact h.rtUses o ho

theorem rtSide_removeRt_self {g : Graph} : (g.removeRt dir l).wiring.rtSide l dir = none := by
  cases hrt : g.wiring.rtSide l dir with
  | none =>
    rw [Graph.removeRt_none hrt]
    exact hrt
  | some p =>
    rw [Graph.wiring_removeRt hrt]
    exact Wiring.rtSide_setRtSide

theorem rtSide_removeRt_of_ne {g : Graph} {l' : Nat} {dir' : PinosDirection}
    (hne : l' ≠ l ∨ dir' ≠ dir) :
    (g.removeRt dir l).wiring.rtSide l' dir' = g.wiring.rtSide l' dir' := by
  cases hrt : g.wiring.rtSide l dir with
  | none => rw [Graph.removeRt_none hrt]
  | some p =>
    rw [Graph.wiring_removeRt hrt]
    exact Wiring.rtSide_setRtSide_of_ne hne

theorem side_removeRt {g : Graph} : (g.removeRt dir l).wiring.side = g.wiring.side := by
  cases hrt : g.wiring.rtSide l dir with
  | none => rw [Graph.removeRt_none hrt]
  | some p =>
    rw [Graph.wiring_removeRt hrt]
    rfl

/-- A loop takes the link from both of its ports in the realtime thread. -/
theorem Destroying.runData (h : s.Sound) (hdestroying : s.Destroying l loops dones) (d : Nat) :
    (s.runData d).Sound ∧ (s.runData d).Phase := by
  unfold Daemon.runData
  have hdata := hdestroying.data d
  cases hcount : loops.count d with
  | zero =>
    rw [hcount] at hdata
    rw [hdata]
    exact ⟨h, .destroying l loops dones hdestroying⟩
  | succ k =>
    rw [hcount, List.replicate_succ] at hdata
    rw [hdata]
    show (Daemon.doLinkRemove _ l).Sound ∧ (Daemon.doLinkRemove _ l).Phase
    have h1 := h.withQueues s.mainLoop
      (Function.update s.dataLoops d (List.replicate k (.linkRemove l))) s.listeners s.refcount
    rw [h1.doLinkRemove_eq hdestroying.live.2]
    have hmem : d ∈ loops := List.count_pos_iff.mp (hcount ▸ Nat.succ_pos k)
    have hlength := List.length_erase_of_mem hmem
    have hpos := List.length_pos_of_mem hmem
    refine ⟨h1.removeRt.removeRt.withQueues _ _ _ _, .destroying l (loops.erase d) (dones + 1)
      ⟨?_, ?_, hdestroying.live, ?_, by omega, hdestroying.others, ?_, ?_⟩⟩
    · show s.mainLoop ++ _ = _
      rw [hdestroying.main, List.replicate_succ']
    · intro d'
      show Function.update s.dataLoops d _ d' = _
      by_cases hd : d' = d
      · rw [hd, Function.update_self, List.count_erase_self, hcount]
        rfl
      · rw [Function.update_of_ne hd, List.count_erase_of_ne hd, hdestroying.data]
    · have hrefcount := hdestroying.refcount
      show s.refcount l = _
      omega
    · intro l' hne dir'
      show ((s.graph.removeRt .input l).removeRt .output l).wiring.rtSide l' dir' =
        ((s.graph.removeRt .input l).removeRt .output l).wiring.side l' dir'
      rw [rtSide_removeRt_of_ne (.inl hne), rtSide_removeRt_of_ne (.inl hne), side_removeRt,
        side_removeRt]
      exact hdestroying.rt hne dir'
    · intro _ dir'
      show ((s.graph.removeRt .input l).removeRt .output l).wiring.rtSide l dir' = none
      cases dir' with
      | input =>
        rw [rtSide_removeRt_of_ne (.inr PinosDirection.noConfusion)]
        exact rtSide_removeRt_self
      | output => exact rtSide_removeRt_self

theorem side_removeSide_self {g : Graph} : (g.removeSide dir l).wiring.side l dir = none := by
  cases hside : g.wiring.side l dir with
  | none =>
    rw [Graph.removeSide_none hside]
    exact hside
  | some p =>
    rw [Graph.wiring_removeSide hside]
    exact Wiring.side_setSide

theorem side_removeSide_of_ne {g : Graph} {l' : Nat} {dir' : PinosDirection}
    (hne : l' ≠ l ∨ dir' ≠ dir) :
    (g.removeSide dir l).wiring.side l' dir' = g.wiring.side l' dir' := by
  cases hside : g.wiring.side l dir with
  | none => rw [Graph.removeSide_none hside]
  | some p =>
    rw [Graph.wiring_removeSide hside]
    exact Wiring.side_setSide_of_ne hne

theorem rtSide_removeSide {g : Graph} : (g.removeSide dir l).wiring.rtSide = g.wiring.rtSide := by
  cases hside : g.wiring.side l dir with
  | none => rw [Graph.removeSide_none hside]
  | some p =>
    rw [Graph.wiring_removeSide hside]
    rfl

theorem Sound.removeSide (h : s.Sound) (hrt : s.graph.wiring.rtSide l dir = none) :
    (s.modify fun g => g.removeSide dir l).Sound := by
  cases hside : s.graph.wiring.side l dir with
  | none =>
    unfold Daemon.modify
    dsimp only
    rw [Graph.removeSide_none hside]
    exact h
  | some p =>
    apply h.modify
    · rw [Graph.wiring_removeSide hside]
      exact h.wired.detach hside hrt
    · intro l' dir' q hq
      by_cases hne : l' ≠ l ∨ dir' ≠ dir
      · rwa [side_removeSide_of_ne hne] at hq
      · obtain ⟨hl, hd⟩ := not_or.mp hne
        rw [not_not.mp hl, not_not.mp hd, side_removeSide_self] at hq
        cases hq
    · rw [Graph.wiring_removeSide hside]
      rfl

theorem Sound.doLinkRemoveDone_eq (h : s.Sound) (hl : .link l ∉ s.freed) :
    s.doLinkRemoveDone l =
      ((s.modify fun g => g.removeSide .input l).modify fun g => g.removeSide .output l).unref
        l := by
  unfold doLinkRemoveDone
  dsimp only
  rw [touch_of_live]
  · rfl
  · intro o ho
    rcases List.mem_cons.mp ho with rfl | ho
    · exact hl
    · rcases List.mem_append.mp ho with ho | ho
      · exact h.sideUses o ho
      · exact h.sideUses o ho

/-- The main thread takes the link from both of its ports, and frees it in the end. -/
theorem Destroying.runMain (h : s.Sound) (hdestroying : s.Destroying l loops dones) :
    s.runMain.Sound ∧ s.runMain.Phase := by
  unfold Daemon.runMain
  have hmain := hdestroying.main
  cases dones with
  | zero =>
    rw [hmain]
    exact ⟨h, .destroying l loops 0 hdestroying⟩
  | succ k =>
    rw [List.replicate_succ] at hmain
    rw [hmain]
    show (Daemon.doLinkRemoveDone _ l).Sound ∧ (Daemon.doLinkRemoveDone _ l).Phase
    have h1 := h.withQueues (List.replicate k (.linkRemoveDone l)) s.dataLoops s.listeners s.refcount
    have hpaused := hdestroying.paused (Nat.succ_ne_zero k)
    rw [h1.doLinkRemoveDone_eq hdestroying.live.2]
    have h2 := h1.removeSide (hpaused .input)
    have h3 : (Daemon.modify _ _).Sound := @Sound.removeSide _ l .output h2 (by
      show (s.graph.removeSide .input l).wiring.rtSide l .output = none
      rw [rtSide_removeSide]
      exact hpaused .output)
    have hrtSide : ((s.graph.removeSide .input l).removeSide .output l).wiring.rtSide =
        s.graph.wiring.rtSide := by
      rw [rtSide_removeSide, rtSide_removeSide]
    have hothers : ∀ {l'}, l' ≠ l → ∀ dir,
        ((s.graph.removeSide .input l).removeSide .output l).wiring.rtSide l' dir =
          ((s.graph.removeSide .input l).removeSide .output l).wiring.side l' dir := by
      intro l' hne dir'
      rw [hrtSide, side_removeSide_of_ne (.inl hne), side_removeSide_of_ne (.inl hne)]
      exact hdestroying.rt hne dir'
    have hnone : ∀ dir,
        ((s.graph.removeSide .input l).removeSide .output l).wiring.side l dir = none := by
      intro dir'
      cases dir' with
      | input =>
        rw [side_removeSide_of_ne (.inr PinosDirection.noConfusion)]
        exact side_removeSide_self
      | output => exact side_removeSide_self
    have hrefcount : s.refcount l = loops.length + ((k + 1 : Nat) : Int) := hdestroying.refcount
    by_cases hone : s.refcount l = 1
    · rw [unref_free]
      swap
      · exact hone
      have hk : k = 0 := by omega
      have hloops : loops = [] := List.eq_nil_of_length_eq_zero (by omega)
      have h4 := h3.withQueues (List.replicate k (.linkRemoveDone l)) s.dataLoops s.listeners
        (Function.update s.refcount l 0)
      refine ⟨h4.linkFree hdestroying.live hnone, .idle ⟨⟨?_, ?_⟩, ?_, ?_⟩⟩
      · show List.replicate k _ = []
        rw [hk]
        rfl
      · intro d
        show s.dataLoops d = []
        rw [hdestroying.data, hloops]
        rfl
      · intro l' dir'
        by_cases hne : l' = l
        · rw [hne]
          exact (congrFun (congrFun hrtSide l) dir').trans ((hpaused dir').trans (hnone dir').symm)
        · exact hothers hne dir'
      · intro l' hl'
        obtain ⟨hne, hold⟩ := Live.of_linkFree hl'
        exact (Function.update_of_ne hne ..).trans (hdestroying.others hne hold)
    · rw [unref_keep]
      swap
      · exact hone
      refine ⟨h3.withQueues _ _ _ _, .destroying l loops k
        ⟨rfl, hdestroying.data, hdestroying.live, ?_, by omega, ?_, hothers, ?_⟩⟩
      · show Function.update s.refcount l (s.refcount l - 1) l = _
        rw [Function.update_self]
        omega
      · intro l' hne hl'
        exact (Function.update_of_ne hne ..).trans (hdestroying.others hne hl')
      · intro _ dir'
        exact (congrFun (congrFun hrtSide l) dir').trans (hpaused dir')

/-! ## Ports that are destroyed -/

/-- Links that do not have the port do nothing when it is destroyed. -/
theorem onPortDestroy_eq (h : s.Sound) (hnone : s.graph.wiring.links p = [])
    (hl : .link l ∉ s.freed) : s.onPortDestroy l p = s := by
  have hside : ∀ dir, s.graph.wiring.side l dir ≠ some p := by
    intro dir hside
    have hmem := h.wired.mem_of_side hside
    rw [hnone] at hmem
    cases hmem
  have hinput : (s.graph.links l).input ≠ some p := hside .input
  have houtput : (s.graph.links l).output ≠ some p := hside .output
  unfold onPortDestroy
  dsimp only
  rw [touch_of_live fun o ho => List.mem_singleton.mp ho ▸ hl, if_neg hinput, if_neg houtput]

theorem foldl_onPortDestroy_eq (h : s.Sound) (hnone : s.graph.wiring.links p = [])
    {ls : List Nat} (hls : ∀ l ∈ ls, .link l ∉ s.freed) :
    ls.foldl (fun s l => s.onPortDestroy l p) s = s := by
  induction ls with
  | nil => rfl
  | cons l ls ih =>
    rw [List.foldl_cons, onPortDestroy_eq h hnone (hls l List.mem_cons_self)]
    exact ih fun l' hl' => hls l' (List.mem_cons_of_mem l hl')

/-- What `pinos_port_destroy` does to a port without links. -/
theorem portDestroy_eq (h : s.Sound) (hp : s.Listed dir p) (hnone : s.graph.wiring.links p = [])
    (hlisten : ∀ l ∈ s.listeners (.port p), .link l ∉ s.freed) :
    ∃ g : Graph, s.portDestroy p = { s with graph := g, freed := s.freed ++ [.port p] } ∧
      g.wiring = s.graph.wiring.setPorts (s.graph.wiring.node p) dir
        ((s.graph.wiring.ports (s.graph.wiring.node p) dir).erase p) := by
  have hport : s.touch [.port p] = s :=
    touch_of_live fun o ho => List.mem_singleton.mp ho ▸ h.ports hp
  have hnode : s.touch [.node (s.graph.ports p).node] = s :=
    touch_of_live fun o ho => List.mem_singleton.mp ho ▸ h.nodes _
  have hdir : (s.graph.ports p).direction = dir := (h.wired.ports hp).2
  unfold Daemon.portDestroy
  dsimp only
  rw [hport, foldl_onPortDestroy_eq h hnone hlisten, hnode, hdir]
  refine ⟨_, rfl, ?_⟩
  exact @Graph.wiring_setPorts _ _ _ fun ports => ports.erase p

/-- `pinos_port_destroy`, from a port without links. -/
theorem Idle.portDestroy (h : s.Sound) (hidle : s.Idle) (hp : s.Listed dir p)
    (hnone : s.graph.wiring.links p = []) (hlisten : ∀ l ∈ s.listeners (.port p), .link l ∉ s.freed) :
    (s.portDestroy p).Sound ∧ (s.portDestroy p).Phase := by
  obtain ⟨g, heq, hw⟩ := portDestroy_eq h hp hnone hlisten
  have hfreed : ∀ {o}, o ∈ s.freed ++ [.port p] → o ∈ s.freed ∨ o = .port p := by
    intro o ho
    rwa [List.mem_append, List.mem_singleton] at ho
  have hside : g.wiring.side = s.graph.wiring.side := by rw [hw]; rfl
  have hrtSide : g.wiring.rtSide = s.graph.wiring.rtSide := by rw [hw]; rfl
  rw [heq]
  constructor
  · exact {
      wired := by
        show g.wiring.Wired
        rw [hw]
        exact h.wired.erasePort hnone
      live := by
        intro l' dir' q hq
        change g.wiring.side l' dir' = some q at hq
        rw [hside] at hq
        refine ⟨(h.live hq).1, fun hmem => ?_⟩
        rcases hfreed hmem with hmem | hport
        · exact (h.live hq).2 hmem
        · cases hport
      made := by
        intro l' hmem
        rcases hfreed hmem with hmem | hport
        · exact h.made hmem
        · cases hport
      ports := by
        intro n dir' q hq hmem
        change q ∈ g.wiring.ports n dir' at hq
        have hold : q ∈ s.graph.wiring.ports n dir' := by
          rw [hw] at hq
          exact Wiring.mem_ports_of_erase hq
        rcases hfreed hmem with hmem | hport
        · exact h.ports hold hmem
        · cases hport
          obtain ⟨rfl, rfl⟩ := h.wired.ports hold
          obtain ⟨-, hdir⟩ := h.wired.ports hp
          rw [hw, hdir] at hq
          exact (Wiring.notMem_ports_of_erase (h.wired.nodup _ _)) hq
      nodes := by
        intro n hmem
        rcases hfreed hmem with hmem | hport
        · exact h.nodes n hmem
        · cases hport
      resources := h.resources
      wild := h.wild }
  · refine .idle ⟨⟨hidle.main, hidle.data⟩, ?_, ?_⟩
    · intro l' dir'
      show g.wiring.rtSide l' dir' = g.wiring.side l' dir'
      rw [hside, hrtSide]
      exact hidle.rt l' dir'
    · intro l' hlive
      exact hidle.refcount ⟨hlive.1, fun hmem => hlive.2 (List.mem_append_left _ hmem)⟩

end Phases

/-! ## Every run -/

section Runs

variable {s : Daemon}

theorem Phase.runMain (h : s.Sound) (hphase : s.Phase) : s.runMain.Sound ∧ s.runMain.Phase := by
  have hsame : s.mainLoop = [] → s.runMain.Sound ∧ s.runMain.Phase := by
    intro hmain
    unfold Daemon.runMain
    rw [hmain]
    exact ⟨h, hphase⟩
  cases hphase with
  | idle hidle => exact hsame hidle.main
  | adding l hadding => exact hsame hadding.main
  | removing l p hremoving => exact hremoving.runMain h
  | destroying l loops dones hdestroying => exact hdestroying.runMain h

theorem Phase.runData (h : s.Sound) (hphase : s.Phase) (d : Nat) :
    (s.runData d).Sound ∧ (s.runData d).Phase := by
  cases hphase with
  | idle hidle =>
    unfold Daemon.runData
    rw [hidle.data d]
    exact ⟨h, .idle hidle⟩
  | adding l hadding => exact hadding.runData h d
  | removing l p hremoving => exact hremoving.runData h d
  | destroying l loops dones hdestroying => exact hdestroying.runData h d

theorem Phase.linkStep (h : s.Sound) (hphase : s.Phase) {op : LinkOp} (hadmits : s.Admits op)
    (hkeeps : s.Keeps op) : (s.linkStep op).Sound ∧ (s.linkStep op).Phase := by
  cases op with
  | portLink output input =>
    obtain ⟨hsettled, houtput, hinput⟩ := hadmits
    exact (hphase.idle_of_settled h hsettled).portLink h houtput hinput hkeeps
  | portUnlink p l =>
    obtain ⟨hsettled, ⟨dir, hp⟩, hlive⟩ := hadmits
    exact (hphase.idle_of_settled h hsettled).portUnlink h hp hlive hkeeps
  | linkDestroy l =>
    exact (hphase.idle_of_settled h hadmits.1).linkDestroy h hadmits.2 (hkeeps _ _)
  | portDestroy p =>
    obtain ⟨hsettled, dir, hp⟩ := hadmits
    exact (hphase.idle_of_settled h hsettled).portDestroy h hp hkeeps.1 hkeeps.2
  | mainLoop => exact hphase.runMain h
  | dataLoop d => exact hphase.runData h d

theorem Start.sound (h : s.Start) : s.Sound where
  wired :=
    { nodup := h.nodup
      ports := h.ports
      linksNodup := fun p => by rw [h.links]; exact List.nodup_nil
      mem := by
        intro p l
        rw [h.links, h.side]
        exact iff_of_false List.not_mem_nil nofun
      listed := by
        intro l dir p hside
        rw [h.side] at hside
        cases hside
      used := by
        intro n dir
        have hzero : (s.graph.wiring.ports n dir).map (fun p => (s.graph.wiring.links p).length) =
            (s.graph.wiring.ports n dir).map fun _ => 0 :=
          List.map_congr_left fun p _ => by rw [h.links, List.length_nil]
        rw [h.used, Wiring.attached, hzero, List.map_const', List.sum_replicate]
        exact (Nat.mul_zero _).symm
      rtNodup := fun p => by rw [h.rtLinks]; exact List.nodup_nil
      memRt := by
        intro p l
        rw [h.rtLinks, h.rtSide]
        exact iff_of_false List.not_mem_nil nofun
      rtSide := by
        intro l dir p hside
        rw [h.rtSide] at hside
        cases hside }
  live := by
    intro l dir p hside
    rw [h.side] at hside
    cases hside
  made := by
    intro l hfreed
    rw [h.freed] at hfreed
    cases hfreed
  ports := by
    intro n dir p _ hfreed
    rw [h.freed] at hfreed
    cases hfreed
  nodes := by
    intro n hfreed
    rw [h.freed] at hfreed
    cases hfreed
  resources := h.resources
  wild := h.wild

theorem Start.idle (h : s.Start) : s.Idle where
  toSettled := h.settled
  rt l dir := by rw [h.rtSide, h.side]
  refcount hlive := absurd hlive.1 (by rw [h.nLinks]; exact Nat.not_lt_zero _)

/-- Every node has counted the links of its ports, in every state of a run whose calls keep the
counters right. -/
theorem run_counts (h : s.Start) {ops : List LinkOp}
    (hops : Run.Along linkStep (fun s op => s.Admits op ∧ s.Keeps op) s ops) :
    (Run.run linkStep s ops).Counts := by
  have hinv := Run.run_invariant (fun s : Daemon => s.Sound ∧ s.Phase)
    (fun _ _ hinv hop => hinv.2.linkStep hinv.1 hop.1 hop.2) ⟨h.sound, .idle h.idle⟩ hops
  exact hinv.1.counts

/-- Two nodes in one loop, with an output port and an input port. -/
def pair : Daemon where
  graph :=
    { nodes := fun n =>
        { state := .suspended
          live := true
          dataLoop := 0
          inputPorts := if n = 1 then [1] else []
          outputPorts := if n = 0 then [0] else []
          nUsedInputLinks := 0
          nUsedOutputLinks := 0
          work := [] }
      ports := fun p =>
        { node := p
          direction := if p = 0 then .output else .input
          state := .configure
          allocated := false
          bufferMem := none
          buffers := none
          nBuffers := 0
          links := []
          rtLinks := []
          given := none }
      links := fun _ =>
        { state := .init
          stateChanged := []
          input := none
          output := none
          rtInput := none
          rtOutput := none
          bufferOwner := none
          bufferMem := none
          buffers := none
          nBuffers := 0
          work := [] }
      blocks := []
      freed := [] }
  nLinks := 0
  refcount _ := 0
  resources _ := 0
  listeners _ := []
  mainLoop := []
  dataLoops _ := []
  freed := []
  wild := false

theorem start_pair : pair.Start where
  nodup n dir := by
    cases dir <;> (show (ite _ _ _ : List Nat).Nodup; split <;> decide)
  ports := by
    intro n dir p hp
    cases dir with
    | input =>
      change p ∈ (if n = 1 then [1] else []) at hp
      split at hp
      · next hn => rw [List.mem_singleton.mp hp, hn]; decide
      · cases hp
    | output =>
      change p ∈ (if n = 0 then [0] else []) at hp
      split at hp
      · next hn => rw [List.mem_singleton.mp hp, hn]; decide
      · cases hp
  links _ := rfl
  rtLinks _ := rfl
  side _ dir := by cases dir <;> rfl
  rtSide _ dir := by cases dir <;> rfl
  used _ dir := by cases dir <;> rfl
  nLinks := rfl
  resources _ := rfl
  listeners _ := rfl
  settled := ⟨rfl, fun _ => rfl⟩
  freed := rfl
  wild := rfl

/-- The ports are linked. -/
def linking : List LinkOp := [.portLink 0 1, .dataLoop 0, .dataLoop 0]

theorem settled_linking : (Run.run linkStep pair linking).Settled := by
  refine ⟨rfl, fun d => ?_⟩
  cases d <;> rfl

theorem admits_linking : Run.Along linkStep Admits pair linking :=
  ⟨⟨⟨rfl, fun _ => rfl⟩, List.mem_cons_self, List.mem_cons_self⟩, trivial, trivial, trivial⟩

theorem keeps_linking : Run.Along linkStep Keeps pair linking :=
  have hroom : (0 : UInt32).toNat + 1 < 2 ^ 32 := by decide
  ⟨fun _ => ⟨nofun, nofun, hroom, hroom⟩, trivial, trivial, trivial⟩

theorem run_counts_pair :
    (Run.run linkStep pair
      (linking ++ [.linkDestroy 0, .dataLoop 0, .dataLoop 0, .mainLoop, .mainLoop])).Counts := by
  apply run_counts start_pair
  rw [Run.along_append, Run.along_and]
  refine ⟨⟨admits_linking, keeps_linking⟩, ⟨⟨settled_linking, by decide, by decide⟩, ?_⟩,
    ⟨trivial, trivial⟩, ⟨trivial, trivial⟩, ⟨trivial, trivial⟩, ⟨trivial, trivial⟩, trivial⟩
  intro dir p _ l _ hfreed
  cases hfreed

/-- The node of an output port that is destroyed keeps the count of its link. -/
theorem not_run_counts :
    ¬ ∀ (s : Daemon) (ops : List LinkOp), s.Start → Run.Along linkStep Admits s ops →
      (Run.run linkStep s ops).Settled → (Run.run linkStep s ops).Counts := by
  intro h
  have hadmits : Run.Along linkStep Admits pair
      (linking ++ [.portDestroy 0, .dataLoop 0, .mainLoop]) := by
    rw [Run.along_append]
    exact ⟨admits_linking, ⟨settled_linking, .output, List.mem_cons_self⟩, trivial, trivial,
      trivial⟩
  have hsettled : (Run.run linkStep pair
      (linking ++ [.portDestroy 0, .dataLoop 0, .mainLoop])).Settled := by
    refine ⟨rfl, fun d => ?_⟩
    cases d <;> rfl
  obtain ⟨-, hcounts⟩ := h pair _ start_pair hadmits hsettled
  exact absurd (hcounts 0 .output) (by decide)

end Runs

end Daemon
end Pinos
