import Pinos.Modules.SuspendOnIdle
import Pinos.Server.LinkCounts

/-
The timers of `module-suspend-on-idle.c`: a timer that is armed is that of an idle node, and of a
node without links as long as none is linked while its timer is armed.
-/

namespace Pinos
namespace Graph

variable {g g' : Graph} {dir : PinosDirection} {l n m p q : Nat}

/-! ## The links of a node -/

theorem nodeLinks_eq_nil : g.nodeLinks n = [] ↔
    ∀ dir, ∀ p ∈ g.wiring.ports n dir, g.wiring.links p = [] := by
  rw [nodeLinks, List.flatMap_eq_nil_iff]
  constructor
  · intro h dir p hp
    apply h
    cases dir with
    | input => exact List.mem_append_left _ hp
    | output => exact List.mem_append_right _ hp
  · intro h p hp
    rcases List.mem_append.mp hp with hp | hp
    · exact h .input p hp
    · exact h .output p hp

theorem nodeLinks_of_wiring (hwiring : g'.wiring = g.wiring) (h : g.nodeLinks n = []) :
    g'.nodeLinks n = [] := by
  rw [nodeLinks_eq_nil, hwiring]
  exact nodeLinks_eq_nil.mp h

/-- A node stays without links when no list gets longer. -/
theorem nodeLinks_of_subset (hports : ∀ {dir p}, p ∈ g'.wiring.ports n dir →
      p ∈ g.wiring.ports n dir)
    (hlinks : ∀ p, g'.wiring.links p ⊆ g.wiring.links p) (h : g.nodeLinks n = []) :
    g'.nodeLinks n = [] := by
  rw [nodeLinks_eq_nil] at h ⊢
  intro dir p hp
  have hnone := hlinks p
  rw [h dir p (hports hp)] at hnone
  exact List.subset_nil.mp hnone

/-- A node that counts no links has none. -/
theorem nodeLinks_of_unused {nLinks : Nat} (h : g.wiring.Tracked nLinks)
    (hunused : (g.nodes n).unused) : g.nodeLinks n = [] := by
  have hboth := of_decide_eq_true hunused
  rw [nodeLinks_eq_nil]
  intro dir p hp
  apply h.unused _ hp
  cases dir with
  | input => exact hboth.1
  | output => exact hboth.2

/-! ## Links that leave their ports -/

theorem links_detach (dir : PinosDirection) (n : Nat) :
    (g.wiring.detach dir l p n).links q ⊆ g.wiring.links q := by
  show Function.update g.wiring.links p _ q ⊆ _
  by_cases hq : q = p
  · rw [hq, Function.update_self]
    exact List.erase_subset
  · rw [Function.update_of_ne hq]
    exact List.Subset.refl _

theorem state_detach : ((g.detach dir l p n).nodes m).state = (g.nodes m).state := by
  unfold detach
  by_cases hm : m = n
  · subst hm
    rw [nodes_modifyNode]
    cases dir <;> rfl
  · rw [nodes_modifyNode_of_ne hm]
    rfl

theorem state_attach : ((g.attach dir l p).nodes m).state = (g.nodes m).state := by
  unfold attach
  by_cases hm : m = (g.ports p).node
  · rw [hm, nodes_modifyNode]
    cases dir <;> rfl
  · rw [nodes_modifyNode_of_ne hm]
    rfl

theorem state_addLink {output input : Nat} :
    ((g.addLink l output input).nodes m).state = (g.nodes m).state := by
  unfold addLink
  rw [state_attach, state_attach, nodes_modifyLink]
  by_cases hm : m = (g.ports input).node
  · rw [hm, nodes_modifyNode]
  · rw [nodes_modifyNode_of_ne hm]

theorem state_updateNodeState_of_ne {state : PinosNodeState} (hm : m ≠ n) :
    ((g.updateNodeState n state).nodes m).state = (g.nodes m).state := by
  rw [updateNodeState, nodes_modifyNode_of_ne hm]

theorem nodes_clearPortBuffers : (g.clearPortBuffers l p).nodes = g.nodes := by
  unfold clearPortBuffers
  split <;> rfl

/-- A link that leaves a port changes the state of its node when this counts no links. -/
theorem removeSide_state (h : (g.links l).side dir = some p) :
    (∀ m ≠ (g.ports p).node, ((g.removeSide dir l).nodes m).state = (g.nodes m).state) ∧
      (((g.removeSide dir l).nodes (g.ports p).node).state ≠ (g.nodes (g.ports p).node).state →
        ((g.removeSide dir l).nodes (g.ports p).node).unused) := by
  have hbefore : ∀ m, (((g.detach dir l p (g.ports p).node).clearPortBuffers l p).nodes m).state =
      (g.nodes m).state := by
    intro m
    rw [nodes_clearPortBuffers]
    exact state_detach
  unfold removeSide
  rw [h]
  dsimp only
  rw [nodes_modifyLink]
  split
  · next hunused =>
    refine ⟨fun m hm => (state_updateNodeState_of_ne hm).trans (hbefore m), fun _ => ?_⟩
    rw [updateNodeState, nodes_modifyNode]
    exact hunused.1
  · exact ⟨fun m _ => hbefore m, fun hne => absurd (hbefore _) hne⟩

theorem removeLinkDone_state :
    (∀ m ≠ (g.ports p).node, ((g.removeLinkDone l p).nodes m).state = (g.nodes m).state) ∧
      (((g.removeLinkDone l p).nodes (g.ports p).node).state ≠ (g.nodes (g.ports p).node).state →
        ((g.removeLinkDone l p).nodes (g.ports p).node).unused) := by
  have hend : ∀ g' : Graph, (∀ m, (g'.nodes m).state = (g.nodes m).state) → ∀ n,
      (∀ m ≠ n, ((if (g'.nodes n).unused then g'.updateNodeState n .idle else g').nodes m).state =
        (g.nodes m).state) ∧
      (((if (g'.nodes n).unused then g'.updateNodeState n .idle else g').nodes n).state ≠
          (g.nodes n).state →
        ((if (g'.nodes n).unused then g'.updateNodeState n .idle else g').nodes n).unused) := by
    intro g' hbefore n
    split
    · next hunused =>
      refine ⟨fun m hm => (state_updateNodeState_of_ne hm).trans (hbefore m), fun _ => ?_⟩
      rw [updateNodeState, nodes_modifyNode]
      exact hunused
    · exact ⟨fun m _ => hbefore m, fun hne => absurd (hbefore _) hne⟩
  have hclear : ∀ g' : Graph, (if (g'.ports p).allocated = false ∧
      PinosPortState.ready.value < (g'.ports p).state.value then g'.clearPort p else g').nodes =
        g'.nodes := by
    intro g'
    split <;> rfl
  unfold removeLinkDone
  apply hend
  intro m
  rw [hclear]
  split
  · rfl
  · exact state_detach

/-- What `do_remove_link_done` does to a link of the port. -/
theorem wiring_removeLinkDone_none (h : (g.links l).side (g.ports p).direction = none) :
    (g.removeLinkDone l p).wiring = g.wiring := by
  unfold removeLinkDone
  dsimp only
  rw [h]
  dsimp only
  rw [apply_ite wiring, wiring_updateNodeState, ite_self, apply_ite wiring, wiring_clearPort,
    ite_self]

/-! ## Ports that are destroyed -/

theorem wiring_unlinkSide : (g.unlinkSide dir p l).wiring = g.wiring.setSide l dir none := by
  unfold unlinkSide
  dsimp only
  rw [wiring_updateLinkState, apply_ite wiring, wiring_modifyLink_same (by rfl) (by rfl), ite_self,
    wiring_setSide]

/-- A link keeps what it has on its sides, but for a port that goes. -/
structure Leaves (g g' : Graph) (p : Nat) : Prop where
  links : g'.wiring.links = g.wiring.links
  used : g'.wiring.usedLinks = g.wiring.usedLinks
  node : g'.wiring.node = g.wiring.node
  dir : g'.wiring.direction = g.wiring.direction
  ports : g'.wiring.ports = g.wiring.ports
  side : ∀ {l dir q}, g'.wiring.side l dir = some q → g.wiring.side l dir = some q
  keep : ∀ {l dir q}, q ≠ p → g.wiring.side l dir = some q → g'.wiring.side l dir = some q
  state : ∀ n, (g'.nodes n).state = (g.nodes n).state

theorem Leaves.refl : Leaves g g p :=
  ⟨rfl, rfl, rfl, rfl, rfl, fun h => h, fun _ h => h, fun _ => rfl⟩

theorem Leaves.trans {g'' : Graph} (h : Leaves g g' p) (h' : Leaves g' g'' p) : Leaves g g'' p where
  links := h'.links.trans h.links
  used := h'.used.trans h.used
  node := h'.node.trans h.node
  dir := h'.dir.trans h.dir
  ports := h'.ports.trans h.ports
  side hs := h.side (h'.side hs)
  keep hq hs := h'.keep hq (h.keep hq hs)
  state n := (h'.state n).trans (h.state n)

theorem leaves_unlinkSide (h : (g.links l).side dir = some p) :
    Leaves g (g.unlinkSide dir p l) p := by
  have hside : ∀ {l' dir' q}, (g.wiring.setSide l dir none).side l' dir' = some q →
      l' ≠ l ∨ dir' ≠ dir := by
    intro l' dir' q hs
    by_contra hsame
    rw [not_or, not_not, not_not] at hsame
    rw [hsame.1, hsame.2, Wiring.side_setSide] at hs
    cases hs
  have hwiring : (g.unlinkSide dir p l).wiring = g.wiring.setSide l dir none := wiring_unlinkSide
  refine ⟨by rw [hwiring]; rfl, by rw [hwiring]; rfl, by rw [hwiring]; rfl, by rw [hwiring]; rfl,
    by rw [hwiring]; rfl, ?_, ?_, ?_⟩
  · intro l' dir' q hs
    rw [hwiring] at hs
    rw [← Wiring.side_setSide_of_ne (hside hs)]
    exact hs
  · intro l' dir' q hq hs
    rw [hwiring, Wiring.side_setSide_of_ne]
    · exact hs
    by_contra hsame
    rw [not_or, not_not, not_not] at hsame
    rw [hsame.1, hsame.2] at hs
    exact hq (Option.some_inj.mp (hs.symm.trans h))
  · intro n
    unfold unlinkSide
    dsimp only
    split <;> rfl

theorem leaves_onPortDestroy : Leaves g (onPortDestroy p g l) p := by
  unfold onPortDestroy
  split
  · next h => exact @leaves_unlinkSide _ .input _ _ h
  split
  · next h => exact @leaves_unlinkSide _ .output _ _ h
  · exact Leaves.refl

theorem leaves_foldl (listeners : List Nat) : Leaves g (listeners.foldl (onPortDestroy p) g) p := by
  induction listeners generalizing g with
  | nil => exact Leaves.refl
  | cons l listeners ih => exact leaves_onPortDestroy.trans ih

end Graph

namespace SuspendOnIdle

variable {s : SuspendOnIdle} {g : Graph} {n m t p l : Nat} {dir : PinosDirection}

/-! ## Timers that are armed -/

/-- A timer that is armed is the one that the info of an idle node without links points to. -/
structure Sound (s : SuspendOnIdle) : Prop where
  tracked : s.graph.wiring.Tracked s.nLinks
  lt : ∀ {t n}, s.timers t = some n → t < s.nTimers
  known : ∀ {t n}, s.timers t = some n → s.known n = true
  pointed : ∀ {t n}, s.timers t = some n → s.idleTimeout n = some t
  idle : ∀ {t n}, s.timers t = some n → (s.graph.nodes n).state = .idle
  unlinked : ∀ {t n}, s.timers t = some n → s.graph.nodeLinks n = []

/-- The graph becomes another one, in which the nodes that have timers armed are as before. -/
theorem Sound.withGraph {k : Nat} (h : s.Sound) (htracked : g.wiring.Tracked k)
    (hkeep : ∀ n, s.Unarmed n ∨ (g.nodes n).state = (s.graph.nodes n).state ∧
      (s.graph.nodeLinks n = [] → g.nodeLinks n = [])) :
    { s with graph := g, nLinks := k }.Sound where
  tracked := htracked
  lt := h.lt
  known := h.known
  pointed := h.pointed
  idle {t n} ht := by
    rcases hkeep n with hunarmed | ⟨hstate, -⟩
    · exact absurd ht (hunarmed t)
    · exact hstate.trans (h.idle ht)
  unlinked {t n} ht := by
    rcases hkeep n with hunarmed | ⟨-, hlinks⟩
    · exact absurd ht (hunarmed t)
    · exact hlinks (h.unlinked ht)

/-- Formats, buffers and the states of ports and links change. -/
theorem Sound.withStates (h : s.Sound) (hwiring : g.wiring = s.graph.wiring)
    (hstate : ∀ n, (g.nodes n).state = (s.graph.nodes n).state) : { s with graph := g }.Sound :=
  h.withGraph (hwiring ▸ h.tracked) fun n =>
    .inr ⟨hstate n, Graph.nodeLinks_of_wiring hwiring⟩

theorem graph_removeIdleTimeout : (s.removeIdleTimeout n).graph = s.graph := by
  unfold removeIdleTimeout
  split <;> rfl

theorem graph_onNodeStateRequest : (s.onNodeStateRequest n).graph = s.graph := by
  unfold onNodeStateRequest
  split
  · exact graph_removeIdleTimeout
  · rfl

/-- A timer that is armed after `remove_idle_timeout` was armed before, for another node. -/
theorem Sound.timers_removeIdleTimeout (h : s.Sound)
    (ht : (s.removeIdleTimeout n).timers t = some m) : s.timers t = some m ∧ m ≠ n := by
  unfold removeIdleTimeout at ht
  split at ht
  · next hnone =>
    refine ⟨ht, fun hm => ?_⟩
    have hpointed := h.pointed ht
    rw [hm, hnone] at hpointed
    cases hpointed
  · next u hsome =>
    have hne : t ≠ u := by
      intro he
      change Function.update s.timers u none t = some m at ht
      rw [he, Function.update_self] at ht
      cases ht
    change Function.update s.timers u none t = some m at ht
    rw [Function.update_of_ne hne] at ht
    refine ⟨ht, fun hm => hne ?_⟩
    have hpointed := h.pointed ht
    rw [hm, hsome] at hpointed
    exact (Option.some_inj.mp hpointed).symm

theorem idleTimeout_removeIdleTimeout_of_ne (hm : m ≠ n) :
    (s.removeIdleTimeout n).idleTimeout m = s.idleTimeout m := by
  unfold removeIdleTimeout
  split
  · rfl
  · exact Function.update_of_ne hm ..

theorem Sound.removeIdleTimeout (h : s.Sound) : (s.removeIdleTimeout n).Sound := by
  have hrest : (s.removeIdleTimeout n).nLinks = s.nLinks ∧
      (s.removeIdleTimeout n).nTimers = s.nTimers ∧
      (s.removeIdleTimeout n).known = s.known := by
    unfold SuspendOnIdle.removeIdleTimeout
    split <;> exact ⟨rfl, rfl, rfl⟩
  constructor
  · rw [graph_removeIdleTimeout, hrest.1]
    exact h.tracked
  · intro t m ht
    rw [hrest.2.1]
    exact h.lt (h.timers_removeIdleTimeout ht).1
  · intro t m ht
    rw [hrest.2.2]
    exact h.known (h.timers_removeIdleTimeout ht).1
  · intro t m ht
    obtain ⟨ht, hm⟩ := h.timers_removeIdleTimeout ht
    rw [idleTimeout_removeIdleTimeout_of_ne hm]
    exact h.pointed ht
  · intro t m ht
    rw [graph_removeIdleTimeout]
    exact h.idle (h.timers_removeIdleTimeout ht).1
  · intro t m ht
    rw [graph_removeIdleTimeout]
    exact h.unlinked (h.timers_removeIdleTimeout ht).1

theorem Sound.unarmed_removeIdleTimeout (h : s.Sound) : (s.removeIdleTimeout n).Unarmed n :=
  fun _ ht => (h.timers_removeIdleTimeout ht).2 rfl

theorem Sound.onNodeStateRequest (h : s.Sound) : (s.onNodeStateRequest n).Sound := by
  unfold SuspendOnIdle.onNodeStateRequest
  split
  · exact h.removeIdleTimeout
  · exact h

/-- A timer is armed for an idle node that has none. -/
theorem Sound.armTimer (h : s.Sound) (hknown : s.known n = true) (hunarmed : s.Unarmed n)
    (hidle : (s.graph.nodes n).state = .idle) (hlinks : s.graph.nodeLinks n = []) :
    (s.armTimer n).Sound := by
  have hcases : ∀ {t m}, (s.armTimer n).timers t = some m →
      t = s.nTimers ∧ m = n ∨ t < s.nTimers ∧ m ≠ n ∧ s.timers t = some m := by
    intro t m ht
    change Function.update s.timers s.nTimers (some n) t = some m at ht
    by_cases heq : t = s.nTimers
    · rw [heq, Function.update_self] at ht
      exact .inl ⟨heq, (Option.some_inj.mp ht).symm⟩
    · rw [Function.update_of_ne heq] at ht
      exact .inr ⟨h.lt ht, fun hm => hunarmed t (hm ▸ ht), ht⟩
  constructor
  · exact h.tracked
  · intro t m ht
    rcases hcases ht with ⟨rfl, -⟩ | ⟨hlt, -, -⟩
    · exact Nat.lt_succ_self _
    · exact Nat.lt_succ_of_lt hlt
  · intro t m ht
    rcases hcases ht with ⟨-, rfl⟩ | ⟨-, -, ht⟩
    · exact hknown
    · exact h.known ht
  · intro t m ht
    show Function.update s.idleTimeout n (some s.nTimers) m = some t
    rcases hcases ht with ⟨rfl, rfl⟩ | ⟨-, hm, ht⟩
    · exact Function.update_self ..
    · rw [Function.update_of_ne hm]
      exact h.pointed ht
  · intro t m ht
    rcases hcases ht with ⟨-, rfl⟩ | ⟨-, -, ht⟩
    · exact hidle
    · exact h.idle ht
  · intro t m ht
    rcases hcases ht with ⟨-, rfl⟩ | ⟨-, -, ht⟩
    · exact hlinks
    · exact h.unlinked ht

theorem removeIdleTimeout_withGraph :
    { s with graph := g }.removeIdleTimeout n = { s.removeIdleTimeout n with graph := g } := by
  unfold removeIdleTimeout
  dsimp only
  split <;> rfl

/-- A node that changes to idle has no links then. -/
theorem Sound.advance (h : s.Sound) (htracked : g.wiring.Tracked s.nLinks)
    (hstate : ∀ m ≠ n, (g.nodes m).state = (s.graph.nodes m).state)
    (hlinks : ∀ m, s.graph.nodeLinks m = [] → g.nodeLinks m = [])
    (hidle : (g.nodes n).state ≠ (s.graph.nodes n).state → (g.nodes n).state = .idle →
      g.nodeLinks n = []) : (s.advance g n).Sound := by
  have hkeep : s.Unarmed n → ∀ m, s.Unarmed m ∨ (g.nodes m).state = (s.graph.nodes m).state ∧
      (s.graph.nodeLinks m = [] → g.nodeLinks m = []) := by
    intro hunarmed m
    by_cases hm : m = n
    · exact .inl (hm ▸ hunarmed)
    · exact .inr ⟨hstate m hm, hlinks m⟩
  unfold SuspendOnIdle.advance
  dsimp only
  split
  · next hsame =>
    refine h.withGraph htracked fun m => .inr ⟨?_, hlinks m⟩
    by_cases hm : m = n
    · rw [hm]
      exact hsame
    · exact hstate m hm
  next hchanged =>
  unfold onNodeStateChanged
  split
  · next hknown =>
    split
    · rw [removeIdleTimeout_withGraph]
      have hunarmed := h.unarmed_removeIdleTimeout (n := n)
      have hremoved := h.removeIdleTimeout (n := n)
      refine hremoved.withGraph (k := (s.removeIdleTimeout n).nLinks) ?_ fun m => ?_
      · have hnLinks : (s.removeIdleTimeout n).nLinks = s.nLinks := by
          unfold SuspendOnIdle.removeIdleTimeout
          split <;> rfl
        rw [hnLinks]
        exact htracked
      · rw [graph_removeIdleTimeout]
        by_cases hm : m = n
        · exact .inl (hm ▸ hunarmed)
        · exact .inr ⟨hstate m hm, hlinks m⟩
    · next hnow =>
      have hnow : (g.nodes n).state = .idle := not_not.mp hnow
      have hunarmed : s.Unarmed n := by
        intro t ht
        rw [hnow] at hchanged
        exact hchanged (h.idle ht).symm
      exact (h.withGraph htracked (hkeep hunarmed)).armTimer hknown hunarmed hnow
        (hidle hchanged hnow)
  · next hunknown =>
    have hunarmed : s.Unarmed n := fun t ht => hunknown (h.known ht)
    exact h.withGraph htracked (hkeep hunarmed)

/-! ## Links that come and go -/

theorem Sound.removeSide (h : s.Sound) : (s.removeSide dir l).Sound := by
  unfold SuspendOnIdle.removeSide
  split
  · exact h
  next p hside =>
  have hwiring := Graph.wiring_removeSide hside
  have htracked : (s.graph.removeSide dir l).wiring.Tracked s.nLinks := by
    rw [hwiring]
    exact h.tracked.detach hside
  obtain ⟨hstate, hunused⟩ := Graph.removeSide_state hside
  refine h.advance htracked hstate (fun m hm => ?_)
    fun hne _ => Graph.nodeLinks_of_unused htracked (hunused hne)
  refine Graph.nodeLinks_of_subset (fun hp => ?_) (fun q => ?_) hm
  · rw [hwiring] at hp
    exact hp
  · rw [hwiring]
    exact Graph.links_detach dir (s.graph.ports p).node

theorem Sound.doLinkRemoveDone (h : s.Sound) : (s.doLinkRemoveDone l).Sound :=
  h.removeSide.removeSide

theorem Sound.doRemoveLinkDone (h : s.Sound)
    (hport : ∀ q, (s.graph.links l).side (s.graph.ports p).direction = some q → q = p) :
    (s.doRemoveLinkDone l p).Sound := by
  obtain ⟨hstate, hunused⟩ := Graph.removeLinkDone_state (g := s.graph) (l := l) (p := p)
  have hwiring : (s.graph.removeLinkDone l p).wiring.Tracked s.nLinks ∧
      ∀ m, s.graph.nodeLinks m = [] → (s.graph.removeLinkDone l p).nodeLinks m = [] := by
    cases hside : (s.graph.links l).side (s.graph.ports p).direction with
    | none =>
      have hwiring := Graph.wiring_removeLinkDone_none hside
      exact ⟨hwiring ▸ h.tracked, fun m => Graph.nodeLinks_of_wiring hwiring⟩
    | some q =>
      obtain rfl := hport q hside
      have hwiring := Graph.wiring_removeLinkDone hside
      constructor
      · rw [hwiring]
        exact h.tracked.detach hside
      · intro m hm
        refine Graph.nodeLinks_of_subset (fun hp => ?_) (fun p => ?_) hm
        · rw [hwiring] at hp
          exact hp
        · rw [hwiring]
          exact Graph.links_detach (s.graph.ports q).direction (s.graph.ports q).node
  exact h.advance hwiring.1 hstate hwiring.2
    fun hne _ => Graph.nodeLinks_of_unused hwiring.1 (hunused hne)

/-- The links of a port that is destroyed are in its list as before, but the port is in no list
any more. -/
theorem Sound.portDestroy (h : s.Sound) (hp : s.Listed (s.graph.ports p).direction p)
    (listeners : List Nat) :
    { s with graph := s.graph.portDestroy p listeners }.Sound := by
  have hleaves := Graph.leaves_foldl (g := s.graph) (p := p) listeners
  have hwiring : (s.graph.portDestroy p listeners).wiring =
      (listeners.foldl (Graph.onPortDestroy p) s.graph).wiring.setPorts (s.graph.ports p).node
        (s.graph.ports p).direction
        (((listeners.foldl (Graph.onPortDestroy p) s.graph).wiring.ports (s.graph.ports p).node
          (s.graph.ports p).direction).erase p) :=
    Graph.wiring_setPorts (f := fun ports => ports.erase p)
  have hports : (s.graph.portDestroy p listeners).wiring.ports =
      (s.graph.wiring.setPorts (s.graph.ports p).node (s.graph.ports p).direction
        ((s.graph.wiring.ports (s.graph.ports p).node (s.graph.ports p).direction).erase p)).ports :=
    by
    rw [hwiring, ← hleaves.ports]
    show Function.update _ _ _ = Function.update _ _ _
    rw [hleaves.ports]
  refine h.withGraph (k := s.nLinks) ?_ fun n => .inr ⟨?_, ?_⟩
  · refine h.tracked.erasePort ?_ ?_ ?_ ?_ hports (fun hs => ?_) (fun hq hs => ?_) hp
    · rw [hwiring]
      exact hleaves.links
    · rw [hwiring]
      exact hleaves.used
    · rw [hwiring]
      exact hleaves.node
    · rw [hwiring]
      exact hleaves.dir
    · rw [hwiring] at hs
      exact hleaves.side hs
    · rw [hwiring]
      exact hleaves.keep hq hs
  · refine Eq.trans ?_ (hleaves.state n)
    unfold Graph.portDestroy
    by_cases hn : n = (s.graph.ports p).node
    · rw [hn, Graph.nodes_modifyNode]
      cases (s.graph.ports p).direction <;> rfl
    · rw [Graph.nodes_modifyNode_of_ne hn]
  · refine Graph.nodeLinks_of_subset (fun {dir q} hq => ?_) (fun q => ?_)
    · rw [hports] at hq
      change q ∈ Function.update s.graph.wiring.ports _ _ n dir at hq
      by_cases hn : n = (s.graph.ports p).node
      · rw [hn, Function.update_self] at hq
        by_cases hd : dir = (s.graph.ports p).direction
        · rw [hd, Function.update_self] at hq
          rw [hn, hd]
          exact List.mem_of_mem_erase hq
        · rw [Function.update_of_ne hd] at hq
          exact hn ▸ hq
      · rw [Function.update_of_ne hn] at hq
        exact hq
    · rw [hwiring]
      show (listeners.foldl (Graph.onPortDestroy p) s.graph).wiring.links q ⊆ _
      rw [hleaves.links]
      exact List.Subset.refl _

/-- A link is made between nodes whose timers are not armed. -/
theorem Sound.portLink {output input : Nat} (h : s.Sound) (hout : s.Listed .output output)
    (hin : s.Listed .input input)
    (hkeeps : @Keeps Unit s (.portLink output input)) : (s.portLink output input).Sound := by
  unfold SuspendOnIdle.portLink
  split
  · exact h
  next hnode =>
  split
  · exact h
  next hfree =>
  split
  · exact h
  next hnew =>
  obtain ⟨hunarmedOut, hunarmedIn, hroomOut, hroomIn⟩ :=
    hkeeps hnode (not_not.mp hfree) (not_not.mp hnew)
  have hwiring := @Graph.wiring_addLink s.graph s.nLinks output input
  refine h.withGraph (k := s.nLinks + 1) ?_ fun n => ?_
  · rw [hwiring]
    exact h.tracked.newLink hout hin hroomOut hroomIn
  by_cases hout : n = (s.graph.ports output).node
  · exact .inl (hout ▸ hunarmedOut)
  by_cases hin : n = (s.graph.ports input).node
  · exact .inl (hin ▸ hunarmedIn)
  refine .inr ⟨Graph.state_addLink, fun hlinks => ?_⟩
  rw [Graph.nodeLinks_eq_nil] at hlinks ⊢
  intro dir q hq
  rw [hwiring] at hq ⊢
  have hq : q ∈ s.graph.wiring.ports n dir := hq
  have hnode : (s.graph.ports q).node = n := (h.tracked.listed hq).1
  have hqin : q ≠ input := fun he => hin (by rw [← hnode, he])
  have hqout : q ≠ output := fun he => hout (by rw [← hnode, he])
  show Function.update (Function.update s.graph.wiring.links output _) input _ q = []
  rw [Function.update_of_ne hqin, Function.update_of_ne hqout]
  exact hlinks dir q hq

/-! ## States that are asked for -/

theorem Sound.onStateComplete {i : Nat} {res : SpaResult} (h : s.Sound)
    (hkeeps : @Keeps Unit s (.stateComplete n i res)) :
    (s.onStateComplete n i res).Sound := by
  unfold SuspendOnIdle.onStateComplete
  split
  · exact h
  next item hitem =>
  dsimp only
  have hwiring : ((s.graph.modifyNode n fun node =>
      { node with work := node.work.eraseIdx i }).updateNodeState n
        (if res.isError then .error else item.2)).wiring = s.graph.wiring := by
    refine Graph.wiring_updateNodeState.trans ?_
    apply Graph.wiring_modifyNode_same <;> rfl
  refine h.advance (hwiring ▸ h.tracked) (fun m hm => ?_)
    (fun m => Graph.nodeLinks_of_wiring hwiring) fun _ hidle => ?_
  · rw [Graph.state_updateNodeState_of_ne hm, Graph.nodes_modifyNode_of_ne hm]
  · apply Graph.nodeLinks_of_wiring hwiring
    rw [Graph.updateNodeState, Graph.nodes_modifyNode] at hidle
    cases hres : res.isError with
    | true =>
      rw [hres] at hidle
      cases hidle
    | false =>
      rw [hres] at hidle
      exact hkeeps item hitem hidle hres

section Plugins

variable {Format : Type} {spa : Graph.SpaNodes Format}

theorem Sound.setNodeState {state : PinosNodeState} (h : s.Sound) :
    (s.setNodeState spa n state).Sound :=
  h.onNodeStateRequest.withStates Graph.wiring_setNodeState
    fun m => ((Graph.grows_setNodeState state).nodes m).1

theorem Sound.onIdleTimeout (h : s.Sound) : (s.onIdleTimeout spa t).Sound := by
  unfold SuspendOnIdle.onIdleTimeout
  split
  · exact h
  · apply Sound.setNodeState
    apply Sound.removeIdleTimeout
    have hkept : ∀ {u m}, Function.update s.timers t none u = some m → s.timers u = some m := by
      intro u m hu
      by_cases he : u = t
      · rw [he, Function.update_self] at hu
        cases hu
      · rw [Function.update_of_ne he] at hu
        exact hu
    exact ⟨h.tracked, fun hu => h.lt (hkept hu), fun hu => h.known (hkept hu),
      fun hu => h.pointed (hkept hu), fun hu => h.idle (hkept hu),
      fun hu => h.unlinked (hkept hu)⟩

theorem Sound.checkStates {fixate : Format → Format} {ringbuffer : UInt32} {fuel : Nat}
    (h : s.Sound) : (s.checkStates spa fixate ringbuffer fuel l).Sound := by
  unfold SuspendOnIdle.checkStates
  split
  · exact h
  next done hdone =>
  have hrequests : ∀ (nodes : List Nat) (s : SuspendOnIdle), s.Sound →
      (nodes.foldl SuspendOnIdle.onNodeStateRequest s).Sound ∧
        (nodes.foldl SuspendOnIdle.onNodeStateRequest s).graph = s.graph := by
    intro nodes
    induction nodes with
    | nil => exact fun _ h => ⟨h, rfl⟩
    | cons n nodes ih =>
      intro s h
      obtain ⟨hsound, hgraph⟩ := ih _ (h.onNodeStateRequest (n := n))
      exact ⟨hsound, hgraph.trans graph_onNodeStateRequest⟩
  obtain ⟨hsound, hgraph⟩ := hrequests (s.graph.stateRequests spa fixate ringbuffer fuel l) s h
  apply hsound.withStates
  · rw [hgraph]
    exact Graph.wiring_checkStates hdone
  · rw [hgraph]
    exact fun n => ((Graph.grows_checkStates hdone).nodes n).1

end Plugins

theorem Sound.nodeAdded (h : s.Sound) :
    { s with known := Function.update s.known n true }.Sound where
  tracked := h.tracked
  lt := h.lt
  known {t m} ht := by
    show Function.update s.known n true m = true
    by_cases hm : m = n
    · rw [hm, Function.update_self]
    · rw [Function.update_of_ne hm]
      exact h.known ht
  pointed := h.pointed
  idle := h.idle
  unlinked := h.unlinked

theorem Sound.nodeDestroy (h : s.Sound) :
    { s.removeIdleTimeout n with known := Function.update s.known n false }.Sound where
  tracked := h.removeIdleTimeout.tracked
  lt := h.removeIdleTimeout.lt
  known {t m} ht := by
    show Function.update s.known n false m = true
    obtain ⟨ht, hm⟩ := h.timers_removeIdleTimeout ht
    rw [Function.update_of_ne hm]
    exact h.known ht
  pointed := h.removeIdleTimeout.pointed
  idle := h.removeIdleTimeout.idle
  unlinked := h.removeIdleTimeout.unlinked

/-! ## Runs -/

section Runs

variable {Format : Type} {fixate : Format → Format} {ringbuffer : UInt32}

theorem Sound.step (h : s.Sound) {op : Op Format} (hadmits : s.Admits op) (hkeeps : s.Keeps op) :
    (s.step fixate ringbuffer op).Sound := by
  cases op with
  | portLink output input => exact h.portLink hadmits.1 hadmits.2 hkeeps
  | linkRemoveDone l => exact h.doLinkRemoveDone
  | removeLinkDone l p => exact h.doRemoveLinkDone hadmits
  | portDestroy p listeners => exact h.portDestroy hadmits listeners
  | nodeAdded n => exact h.nodeAdded
  | nodeDestroy n => exact h.nodeDestroy
  | checkStates spa fuel l => exact h.checkStates
  | setNodeState spa n state => exact h.setNodeState
  | stateComplete n i res => exact h.onStateComplete hkeeps
  | ports g => exact h.withStates hadmits.1 hadmits.2
  | idleTimeout spa t => exact h.onIdleTimeout

/-- Ports are in the lists of their nodes; nothing is linked, and no timer is armed. -/
structure Start (s : SuspendOnIdle) : Prop where
  nodup : ∀ n dir, (s.graph.wiring.ports n dir).Nodup
  listed : ∀ {n dir p}, p ∈ s.graph.wiring.ports n dir →
    s.graph.wiring.node p = n ∧ s.graph.wiring.direction p = dir
  links : ∀ p, s.graph.wiring.links p = []
  side : ∀ l dir, s.graph.wiring.side l dir = none
  nLinks : s.nLinks = 0
  timers : ∀ t, s.timers t = none

theorem Start.sound (h : s.Start) : s.Sound where
  tracked :=
    { nodup := h.nodup
      listed := h.listed
      links := fun {_ _ p} _ => by
        rw [h.links p]
        exact List.nodup_nil
      side := fun {_ _ p _} _ hl => by
        rw [h.links p] at hl
        cases hl
      port := fun {l dir _} hs => by
        rw [h.side l dir] at hs
        cases hs
      fresh := fun {l dir} _ => h.side l dir
      counts := fun n dir => by
        rw [h.nLinks]
        exact Nat.zero_le _ }
  lt {t _} ht := by
    rw [h.timers t] at ht
    cases ht
  known {t _} ht := by
    rw [h.timers t] at ht
    cases ht
  pointed {t _} ht := by
    rw [h.timers t] at ht
    cases ht
  idle {t _} ht := by
    rw [h.timers t] at ht
    cases ht
  unlinked {t _} ht := by
    rw [h.timers t] at ht
    cases ht

/-- The timers that are armed, any of which may expire next and have its node suspended, are of
nodes without links, and no two of them of one node. -/
structure SuspendsIdle (s : SuspendOnIdle) : Prop where
  unlinked : ∀ {t n}, s.timers t = some n → s.graph.nodeLinks n = []
  one : ∀ {t u n}, s.timers t = some n → s.timers u = some n → t = u

/-- Only nodes without links can be suspended by their timers, in every state of a run in which
no node is linked while its timer is armed. -/
theorem run_suspendsIdle {ops : List (Op Format)} (h : s.Start)
    (hops : Run.Along (step fixate ringbuffer) (fun s op => s.Admits op ∧ s.Keeps op) s ops) :
    (Run.run (step fixate ringbuffer) s ops).SuspendsIdle := by
  have hsound := Run.run_invariant Sound (fun _ _ h hop => h.step hop.1 hop.2) h.sound hops
  refine ⟨fun ht => hsound.unlinked ht, fun ht hu => ?_⟩
  exact Option.some_inj.mp ((hsound.pointed ht).symm.trans (hsound.pointed hu))

/-- Two nodes with a port each, where every plugin does as it is told. -/
def pair : SuspendOnIdle where
  graph := Daemon.pair.graph
  nLinks := 0
  known _ := false
  idleTimeout _ := none
  timers _ := none
  nTimers := 0

def obeying : Graph.SpaNodes Unit where
  sendCommand _ _ := .ok
  portGetInfo _ := (.ok, ⟨0, []⟩)
  portGetFormat _ := (.ok, some ())
  portEnumFormats _ _ _ := (.ok, some ())
  portSetFormat _ _ := .ok
  portAllocBuffers _ _ n := (.ok, n)
  portUseBuffers _ _ _ := .ok

theorem start_pair : pair.Start where
  nodup := Daemon.start_pair.nodup
  listed := Daemon.start_pair.ports
  links _ := rfl
  side _ dir := by cases dir <;> rfl
  nLinks := rfl
  timers _ := rfl

/-- The nodes run with a link between them, and become idle when it goes. -/
def idling : List (Op Unit) :=
  [.nodeAdded 0, .nodeAdded 1, .portLink 0 1, .setNodeState obeying 0 .running,
    .stateComplete 0 0 .ok, .setNodeState obeying 1 .running, .stateComplete 1 0 .ok,
    .linkRemoveDone 0]

theorem admits_idling : Run.Along (step id 0) Admits pair idling :=
  ⟨trivial, trivial, ⟨List.mem_cons_self, List.mem_cons_self⟩, trivial, trivial, trivial, trivial,
    trivial, trivial⟩

theorem run_suspendsIdle_pair :
    (Run.run (step id 0) pair (idling ++ [.idleTimeout obeying 0])).SuspendsIdle := by
  apply run_suspendsIdle start_pair
  rw [Run.along_append, Run.along_and]
  have hroom : (0 : UInt32).toNat + 1 < 2 ^ 32 := by decide
  refine ⟨⟨admits_idling, trivial, trivial, ?_, trivial, ?_, trivial, ?_, trivial, trivial⟩,
    ⟨trivial, trivial⟩, trivial⟩
  · exact fun _ _ _ => ⟨nofun, nofun, hroom, hroom⟩
  · intro item hitem hidle
    cases hitem
    cases hidle
  · intro item hitem hidle
    cases hitem
    cases hidle

/-- Nodes that are linked again before their timers expire. -/
theorem not_run_suspendsIdle :
    ¬ ∀ (s : SuspendOnIdle) (ops : List (Op Unit)), s.Start →
      Run.Along (step id 0) Admits s ops → (Run.run (step id 0) s ops).SuspendsIdle := by
  intro h
  have hadmits : Run.Along (step id 0) Admits pair (idling ++ [.portLink 0 1]) := by
    rw [Run.along_append]
    exact ⟨admits_idling, ⟨List.mem_cons_self, List.mem_cons_self⟩, trivial⟩
  have hunlinked := (h pair _ start_pair hadmits).unlinked (t := 0) (n := 1) (by decide)
  exact absurd hunlinked (by decide +kernel)

end Runs

end SuspendOnIdle
end Pinos
