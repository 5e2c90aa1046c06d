import Pinos.Server.LoopRelay
import Pinos.Server.MakeRelay

/-
Nodes that are taken away with their ports, and every run of calls and loops.
-/

namespace Pinos
namespace Daemon

variable {s : Daemon} {main : List Invocation} {loops : Nat → List Nat} {dying : Option Nat}
variable {l p q n d : Nat} {dir : PinosDirection} {rest : List Invocation}

/-! ## Nodes that are to go -/

theorem other_other (dir : PinosDirection) : dir.other.other = dir := by
  cases dir <;> rfl

/-- `pinos_node_destroy`. -/
theorem SafeWith.nodeDestroy (h : s.SafeWith main loops dying) (hlive : .node n ∉ s.freed)
    (hgoing : ¬ s.GoingWith main n)
    (hpairs : ∀ l dir p q, s.Whole l → s.graph.wiring.side l dir = some p →
      s.graph.wiring.node p = n → s.graph.wiring.side l dir.other = some q →
        ¬ s.GoingWith main (s.graph.wiring.node q)) :
    (s.nodeDestroy n).SafeWith main loops dying := by
  obtain ⟨hdata, hmain⟩ := not_or.mp hgoing
  have hnew : ∀ {m}, (s.invokeData (s.graph.wiring.dataLoop n) (.nodeRemove n)).GoingWith main m →
      s.GoingWith main m ∨ m = n := by
    rintro m (hmem | hmem)
    · rcases mem_invokeData.mp hmem with hmem | ⟨-, heq⟩
      · exact .inl (.inl hmem)
      · exact .inr (Invocation.nodeRemove.inj heq)
    · exact .inl (.inr hmem)
  unfold Daemon.nodeDestroy
  rw [touch_of_live fun o ho => List.mem_singleton.mp ho ▸ hlive]
  refine ⟨h.placed, ⟨?_, h.heard.nodup, h.heard.node, h.heard.link⟩,
    h.referred.invokeData (fun _ heq => by cases heq), ?_, h.once, h.wild⟩
  · intro p l hl
    obtain ⟨hmade, hside, q, hother, hq, hnode, hpair⟩ := h.heard.whole hl
    refine ⟨hmade, hside, q, hother, hq, hnode, fun hp hgone => ?_⟩
    rcases hnew hp with hp | hp
    · rcases hnew hgone with hgone | hgone
      · exact hpair hp hgone
      · exact hpairs l _ q p ⟨p, hl⟩ hother hgone (by rw [other_other]; exact hside) hp
    · rcases hnew hgone with hgone | hgone
      · exact hpairs l _ p q ⟨p, hl⟩ hside hp hother hgone
      · exact hnode (hgone.trans hp.symm)
  · apply h.queued.invokeData (.inr (.inr (.inr ⟨n, rfl⟩)))
    · exact nofun
    · exact nofun
    · intro m heq
      cases heq
      refine ⟨rfl, hlive, hmain, fun hside hnode => ?_⟩
      rw [← hnode]
      exact h.referred.side hside
    · intro inv hmem
      cases inv with
      | nodeRemove m =>
        intro heq
        rw [heq] at hmem
        exact hdata hmem
      | _ => trivial

/-! ## Nodes that leave the realtime thread -/

/-- A graph in which some links have left the realtime thread. -/
structure Fewer (g g' : Graph) : Prop where
  rest : g'.wiring = { g.wiring with rtSide := g'.wiring.rtSide, rtLinks := g'.wiring.rtLinks }
  rtSide : ∀ {l dir p}, g'.wiring.rtSide l dir = some p → g.wiring.rtSide l dir = some p

theorem Fewer.refl (g : Graph) : Fewer g g := ⟨rfl, id⟩

theorem Fewer.trans {g g' g'' : Graph} (h : Fewer g g') (h' : Fewer g' g'') : Fewer g g'' where
  rest := by
    rw [h'.rest]
    dsimp only
    rw [h.rest]
  rtSide hs := h.rtSide (h'.rtSide hs)

theorem Fewer.ports {g g' : Graph} (h : Fewer g g') : g'.wiring.ports = g.wiring.ports := by
  rw [h.rest]

theorem Fewer.node {g g' : Graph} (h : Fewer g g') : g'.wiring.node = g.wiring.node := by
  rw [h.rest]

theorem Fewer.removeRt {g : Graph} (dir : PinosDirection) (l : Nat) :
    Fewer g (g.removeRt dir l) where
  rest := by
    cases hrt : g.wiring.rtSide l dir with
    | none => rw [Graph.removeRt_none hrt]
    | some p =>
      rw [Graph.wiring_removeRt hrt]
      rfl
  rtSide := by
    intro l' dir' p hs
    by_cases hne : l' ≠ l ∨ dir' ≠ dir
    · rwa [rtSide_removeRt_of_ne hne] at hs
    · obtain ⟨hl, hd⟩ := not_or.mp hne
      rw [not_not.mp hl, not_not.mp hd, rtSide_removeRt_self] at hs
      cases hs

section Clearing

variable (data : Nat → List Invocation)

/-- The links of a port leave the realtime thread one by one. -/
theorem foldl_removeRtLink (h : s.SafeWith main loops dying)
    (hdir : s.graph.wiring.direction p = dir) {ls : List Nat}
    (hls : s.graph.wiring.rtLinks p = ls) :
    ∃ g, ls.foldl (removeRtLink dir) { s with dataLoops := data } =
        { s with dataLoops := data, graph := g } ∧
      SafeWith { s with graph := g } main loops dying ∧ Fewer s.graph g ∧
        g.wiring.rtLinks p = [] := by
  induction ls generalizing s with
  | nil => exact ⟨s.graph, rfl, h, .refl _, hls⟩
  | cons l ls ih =>
    have hmem : l ∈ s.graph.wiring.rtLinks p := hls ▸ List.mem_cons_self
    have hrt : s.graph.wiring.rtSide l dir = some p := hdir ▸ h.placed.memRt.mp hmem
    have htouch : ∀ o ∈ Object.link l :: s.graph.rtUses dir l, o ∉ s.freed := by
      intro o ho
      rcases List.mem_cons.mp ho with rfl | ho
      · exact (h.rtSide_live hrt).2
      · exact h.rtUses o ho
    have hstep : removeRtLink dir { s with dataLoops := data } l =
        { s.modify fun g => g.removeRt dir l with dataLoops := data } := by
      unfold removeRtLink
      dsimp only
      rw [touch_of_live]
      swap
      · exact htouch
      rw [if_neg]
      · rfl
      · show s.graph.wiring.rtSide l dir ≠ none
        rw [hrt]
        exact Option.some_ne_none p
    have hfewer : Fewer s.graph (s.graph.removeRt dir l) := .removeRt dir l
    have hlinks : (s.graph.removeRt dir l).wiring.rtLinks p = ls := by
      rw [Graph.wiring_removeRt hrt]
      show (s.graph.wiring.setRtLinks p _).rtLinks p = ls
      rw [Wiring.rtLinks_setRtLinks, hls, List.erase_cons_head]
    have hdir' : (s.graph.removeRt dir l).wiring.direction p = dir := by
      rw [hfewer.rest]
      exact hdir
    obtain ⟨g, heq, hsafe, hfewer', hnil⟩ := ih (h.removeRt dir l) hdir' hlinks
    rw [List.foldl_cons, hstep]
    exact ⟨g, heq, hsafe, hfewer.trans hfewer', hnil⟩

theorem foldl_removeRtLinks (h : s.SafeWith main loops dying) (ps : List Nat)
    (hps : ∀ p ∈ ps, s.graph.wiring.direction p = dir ∧ .port p ∉ s.freed) :
    ∃ g, ps.foldl (removeRtLinks dir) { s with dataLoops := data } =
        { s with dataLoops := data, graph := g } ∧
      SafeWith { s with graph := g } main loops dying ∧ Fewer s.graph g ∧
        ∀ p ∈ ps, ∀ l, g.wiring.rtSide l dir ≠ some p := by
  induction ps generalizing s with
  | nil => exact ⟨s.graph, rfl, h, .refl _, nofun⟩
  | cons p ps ih =>
    obtain ⟨hdir, hlive⟩ := hps p List.mem_cons_self
    have htouch : ∀ o ∈ [Object.port p], o ∉ s.freed := by
      intro o ho
      rw [List.mem_singleton.mp ho]
      exact hlive
    obtain ⟨g, heq, hsafe, hfewer, hnil⟩ := foldl_removeRtLink data h hdir rfl
    have hstep : removeRtLinks dir { s with dataLoops := data } p =
        { s with dataLoops := data, graph := g } := by
      unfold removeRtLinks
      rw [touch_of_live]
      · exact heq
      · exact htouch
    obtain ⟨g', heq', hsafe', hfewer', hnone⟩ := ih hsafe fun q hq => by
      show g.wiring.direction q = dir ∧ _
      rw [hfewer.rest]
      exact hps q (List.mem_cons_of_mem p hq)
    rw [List.foldl_cons, hstep]
    refine ⟨g', heq', hsafe', hfewer.trans hfewer', fun q hq l hs => ?_⟩
    rcases List.mem_cons.mp hq with rfl | hq
    · have hold := hfewer'.rtSide hs
      have hdir' : g.wiring.direction q = dir := by
        rw [hfewer.rest]
        exact hdir
      have hmem : l ∈ g.wiring.rtLinks q := hsafe.placed.memRt.mpr (hdir' ▸ hold)
      rw [hnil] at hmem
      cases hmem
    · exact hnone q hq l hs

end Clearing

/-- A loop hands a node whose links it has let go of back to the main loop. -/
theorem SafeWith.popNodeRemove (h : s.SafeWith main loops dying)
    (hqueue : s.dataLoops d = .nodeRemove n :: rest)
    (hrt : ∀ l dir p, s.graph.wiring.rtSide l dir = some p → s.graph.wiring.node p ≠ n) :
    SafeWith { s with dataLoops := Function.update s.dataLoops d rest }
      (main ++ [.nodeRemoveDone n]) loops dying := by
  have hhead : .nodeRemove n ∈ s.dataLoops d := hqueue ▸ List.mem_cons_self
  obtain ⟨hd, hlive, hnot⟩ := h.queued.remove hhead
  have horder := h.queued.order d
  rw [hqueue, List.pairwise_cons] at horder
  have hbehind : ∀ {inv}, inv ∈ Function.update s.dataLoops d rest d →
      s.graph.wiring.Before (.nodeRemove n) inv := by
    intro inv hmem
    rw [Function.update_self] at hmem
    exact horder.1 inv hmem
  have hdone : ∀ {m}, .nodeRemoveDone m ∉ main → m ≠ n →
      .nodeRemoveDone m ∉ main ++ [.nodeRemoveDone n] := by
    intro m hm hne hmem
    rcases List.mem_append.mp hmem with hmem | hmem
    · exact hm hmem
    · exact hne (Invocation.nodeRemoveDone.inj (List.mem_singleton.mp hmem))
  have hlink : ∀ {l}, .linkRemoveDone l ∉ main →
      .linkRemoveDone l ∉ main ++ [.nodeRemoveDone n] := by
    intro l hl hmem
    rcases List.mem_append.mp hmem with hmem | hmem
    · exact hl hmem
    · cases List.mem_singleton.mp hmem
  refine ⟨h.placed, h.heard.congr rfl rfl rfl rfl rfl fun m => ?_, ?_, ?_, h.once, h.wild⟩
  · rintro (hmem | hmem)
    · exact .inl (mem_of_mem_update hqueue hmem)
    · rcases List.mem_append.mp hmem with hmem | hmem
      · exact .inr hmem
      · cases List.mem_singleton.mp hmem
        exact .inl (hd ▸ hhead)
  · constructor
    · intro d' l
      rw [← h.referred.count]
      exact count_popData hqueue (fun heq => by cases heq) d'
    · intro l hwhole
      obtain ⟨hlive, hcount, hnone, hl⟩ := h.referred.whole hwhole
      exact ⟨hlive, hcount, hnone, hlink hl⟩
    · intro l hwhole hmade hlive
      have hcount := h.referred.leaving hwhole hmade hlive
      rwa [List.count_append, List.count_singleton, if_neg (by simp), Nat.add_zero]
    · intro l hfreed
      obtain ⟨hmade, hnone, hl⟩ := h.referred.freed hfreed
      exact ⟨hmade, hnone, hlink hl⟩
    · intro l hle
      obtain ⟨hnone, hl⟩ := h.referred.fresh hle
      exact ⟨hnone, hlink hl⟩
    · intro l dir p hside
      rcases h.referred.side hside with hwhole | hmem | hmem
      · exact .inl hwhole
      · exact .inr (.inl (mem_update_of_mem hqueue hmem fun heq => by cases heq))
      · exact .inr (.inr (List.mem_append_left _ hmem))
    · exact h.referred.rtSide
  · have hpopped := h.queued.popData hqueue fun _ heq => by cases heq
    constructor
    · intro d' l p hmem
      obtain ⟨hd', hlisted, hgone, hrtNone, hl⟩ := hpopped.add hmem
      refine ⟨hd', hlisted, hdone hgone fun heq => ?_, hrtNone, hl⟩
      have hloop : d' = d := by rw [← hd', ← hd, ← heq]
      rw [hloop] at hmem
      exact hbehind hmem heq
    · exact hpopped.addOnce
    · intro d' p hmem
      obtain ⟨hd', hlisted, hgone⟩ := hpopped.clear hmem
      refine ⟨hd', hlisted, hdone hgone fun heq => ?_⟩
      have hloop : d' = d := by rw [← hd', ← hd, ← heq]
      rw [hloop] at hmem
      exact hbehind hmem heq
    · intro p hmem
      rcases List.mem_append.mp hmem with hmem | hmem
      · exact h.queued.clearDone hmem
      · cases List.mem_singleton.mp hmem
    · intro d' m hmem
      obtain ⟨hd', hlive', hgone⟩ := hpopped.remove hmem
      refine ⟨hd', hlive', hdone hgone fun heq => ?_⟩
      have hloop : d' = d := by rw [← hd', ← hd, ← heq]
      rw [hloop] at hmem
      exact hbehind hmem heq.symm
    · intro m hmem
      rcases List.mem_append.mp hmem with hmem | hmem
      · exact h.queued.removeDone hmem
      · cases List.mem_singleton.mp hmem
        exact hlive
    · exact fun hs => hdone (h.queued.rtSide hs) (hrt _ _ _ hs)
    · exact hpopped.kinds
    · intro inv hmem
      rcases List.mem_append.mp hmem with hmem | hmem
      · exact h.queued.kindsMain hmem
      · exact .inr (.inr ⟨n, List.mem_singleton.mp hmem⟩)
    · exact hpopped.order
    · rw [List.pairwise_append]
      refine ⟨h.queued.orderMain, List.pairwise_singleton .., fun inv hmem inv' hmem' => ?_⟩
      rw [List.mem_singleton.mp hmem']
      cases inv with
      | nodeRemoveDone m =>
        intro heq
        rw [heq] at hmem
        exact hnot hmem
      | _ => trivial
    · intro d' m front rest' l dir p hsplit hside hnode
      rcases hpopped.cut hsplit hside hnode with hwhole | hmem | hmem
      · exact .inl hwhole
      · exact .inr (.inl hmem)
      · exact .inr (.inr (List.mem_append_left _ hmem))
    · intro m front rest' l dir p hsplit hside hnode
      rcases split_append_singleton hsplit with ⟨rest'', hold⟩ | ⟨heq, rfl⟩
      · exact h.queued.cutMain hold hside hnode
      · cases heq
        have hfirst : s.dataLoops d = [] ++ .nodeRemove n :: rest := hqueue
        rcases h.queued.cut hfirst hside hnode with hwhole | hmem | hmem
        · exact .inl hwhole
        · cases hmem
        · exact .inr hmem

/-- A loop takes all links from the ports of a node in the realtime thread. -/
theorem SafeWith.runNodeRemove (h : s.Safe loops)
    (hqueue : s.dataLoops d = .nodeRemove n :: rest) :
    (Daemon.doNodeRemove { s with dataLoops := Function.update s.dataLoops d rest } n).Safe
      loops := by
  obtain ⟨-, hlive, -⟩ := h.queued.remove (hqueue ▸ List.mem_cons_self)
  have htouch : ∀ o ∈ [Object.node n], o ∉ s.freed := by
    intro o ho
    rw [List.mem_singleton.mp ho]
    exact hlive
  obtain ⟨g, heq, hsafe, hfewer, hnone⟩ := foldl_removeRtLinks
    (Function.update s.dataLoops d rest) h (s.graph.wiring.ports n .input)
    fun p hp => ⟨(h.placed.ports hp).2.1, (h.placed.ports hp).2.2.1⟩
  obtain ⟨g', heq', hsafe', hfewer', hnone'⟩ := foldl_removeRtLinks
    (Function.update s.dataLoops d rest) hsafe (g.wiring.ports n .output)
    fun p hp => ⟨(hsafe.placed.ports hp).2.1, (hsafe.placed.ports hp).2.2.1⟩
  have hcleared : ∀ l dir p, g'.wiring.rtSide l dir = some p → g'.wiring.node p ≠ n := by
    intro l dir p hs hnode
    have hp := hsafe'.placed.rtSide hs
    change p ∈ g'.wiring.ports (g'.wiring.node p) dir at hp
    rw [hnode, hfewer'.ports] at hp
    cases dir with
    | input =>
      rw [hfewer.ports] at hp
      exact hnone p hp l (hfewer'.rtSide hs)
    | output => exact hnone' p hp l hs
  unfold Daemon.doNodeRemove
  dsimp only
  rw [touch_of_live]
  swap
  · exact htouch
  have hinput : (s.graph.nodes n).inputPorts.foldl (removeRtLinks .input)
      { s with dataLoops := Function.update s.dataLoops d rest } = _ := heq
  have houtput : (g.nodes n).outputPorts.foldl (removeRtLinks .output)
      { s with dataLoops := Function.update s.dataLoops d rest, graph := g } = _ := heq'
  rw [hinput]
  dsimp only
  rw [houtput]
  exact (hsafe'.popNodeRemove hqueue hcleared).withMainLoop _

/-! ## Ports that go -/

/-- The loop of a port that is not going is asked to clear its buffers. -/
theorem SafeWith.clearing (h : s.SafeWith main loops dying) (hq : s.Listed dir q)
    (hgoing : ¬ s.GoingWith main (s.graph.wiring.node q)) :
    (s.invokeData (s.graph.wiring.dataLoop (s.graph.wiring.node q)) (.clearBuffers q)).SafeWith
      main loops dying := by
  obtain ⟨hdata, hmain⟩ := not_or.mp hgoing
  have hdir : s.graph.wiring.direction q = dir := (h.placed.ports hq).2.1
  apply h.invokeData (fun _ heq => by cases heq) (fun _ heq => by cases heq)
  apply h.queued.invokeData (.inr (.inr (.inl ⟨q, rfl⟩)))
  · exact nofun
  · intro q' heq
    cases heq
    rw [hdir]
    exact ⟨rfl, hq, hmain⟩
  · exact nofun
  · intro inv hmem
    cases inv with
    | nodeRemove n =>
      intro heq
      rw [← heq] at hmem
      exact hdata hmem
    | _ => trivial

theorem portClearBuffers_eq (hport : .port q ∉ s.freed)
    (hnode : .node (s.graph.wiring.node q) ∉ s.freed) :
    s.portClearBuffers (some q) =
      s.invokeData (s.graph.wiring.dataLoop (s.graph.wiring.node q)) (.clearBuffers q) := by
  unfold Daemon.portClearBuffers
  dsimp only
  rw [touch_of_live]
  · rfl
  · intro o ho
    rcases List.mem_cons.mp ho with rfl | ho
    · exact hport
    · rw [List.mem_singleton.mp ho]
      exact hnode

/-- What `on_port_destroy` has done when it comes to `pinos_link_destroy`. -/
theorem portUnlinked_eq (h : s.SafeWith main loops dying)
    (hside : s.graph.wiring.side l dir = some p)
    (hother : s.graph.wiring.side l dir.other = some q) :
    ∃ (b : Daemon) (g : Graph), (b = s ∨ b = s.invokeData
        (s.graph.wiring.dataLoop (s.graph.wiring.node q)) (.clearBuffers q)) ∧
      g.wiring = s.graph.wiring.setSide l dir none ∧
      s.portUnlinked dir l p =
        Daemon.linkDestroy { b with listeners := s.quiet dir l s.listeners, graph := g } l := by
  obtain ⟨hport, hnode⟩ := h.port_live hside
  obtain ⟨hport', hnode'⟩ := h.port_live hother
  have hne : dir.other ≠ dir := by cases dir <;> exact PinosDirection.noConfusion
  have hstop : s.stopListening l p = { s with listeners := s.quiet dir l s.listeners } := by
    unfold stopListening
    dsimp only
    rw [touch_of_live]
    · congr 1
      funext o
      rw [quiet, hside]
      rfl
    · intro o ho
      rcases List.mem_cons.mp ho with rfl | ho
      · exact hport
      · rcases List.mem_cons.mp ho with rfl | ho
        · exact hnode
        · obtain ⟨l', hl', rfl⟩ := List.mem_map.mp ho
          exact h.clean p l' hl'
  unfold Daemon.portUnlinked
  rw [hstop]
  unfold Daemon.modify
  dsimp only
  generalize hg : (s.graph.modifyLink l fun link => link.setSide none dir) = g
  have hw : g.wiring = s.graph.wiring.setSide l dir none := by
    rw [← hg]
    exact Graph.wiring_setSide
  split
  · have hclear : (g.modifyLink l fun link => { link with buffers := none, nBuffers := 0 }).wiring =
        g.wiring := Graph.wiring_modifyLink_same rfl rfl
    have hq : (g.links l).side dir.other = some q := by
      show g.wiring.side l dir.other = some q
      rw [hw]
      exact (Wiring.side_setSide_of_ne (.inr hne)).trans hother
    have hnodeOf : ∀ p, (g.modifyLink l fun link =>
        { link with buffers := none, nBuffers := 0 }).wiring.node p = s.graph.wiring.node p := by
      rw [hclear, hw]
      exact fun _ => rfl
    rw [hq, portClearBuffers_eq]
    · dsimp only
      rw [hnodeOf, hclear, hw]
      refine ⟨_, _, .inr rfl, ?_, rfl⟩
      exact Graph.wiring_updateLinkState.trans (hclear.trans hw)
    · exact hport'
    · dsimp only
      rw [hnodeOf]
      exact hnode'
  · exact ⟨s, _, .inl rfl, Graph.wiring_updateLinkState.trans hw, rfl⟩

/-- A port that goes changes neither the main loop nor the wires of other ports. -/
structure Tied (s s' : Daemon) : Prop where
  mainLoop : s'.mainLoop = s.mainLoop
  rest : { s'.graph.wiring with side := s.graph.wiring.side } = s.graph.wiring

theorem Tied.wiring {s' : Daemon} (h : Tied s s') :
    s'.graph.wiring = { s.graph.wiring with side := s'.graph.wiring.side } := by
  rw [← h.rest]

theorem Tied.trans {s' s'' : Daemon} (h : Tied s s') (h' : Tied s' s'') : Tied s s'' where
  mainLoop := h'.mainLoop.trans h.mainLoop
  rest := by
    rw [h'.wiring]
    exact h.rest

/-- `on_port_destroy`, for a port of a node that goes. -/
theorem SafeWith.portUnlinked (h : s.SafeWith main loops (some n))
    (hdone : .nodeRemoveDone n ∈ main) (hl : l ∈ s.listeners (.port p))
    (hnode : s.graph.wiring.node p = n) (hdir : s.graph.wiring.direction p = dir) :
    ∃ loops', (s.portUnlinked dir l p).SafeWith main loops' (some n) ∧
      Tied s (s.portUnlinked dir l p) ∧
        (s.portUnlinked dir l p).listeners (.port p) = (s.listeners (.port p)).erase l := by
  have hwhole : s.Whole l := ⟨p, hl⟩
  obtain ⟨-, hside, q, hother, -, -, hpair⟩ := h.heard.whole hl
  rw [hdir] at hside hother
  have hgoing : ¬ s.GoingWith main (s.graph.wiring.node q) := by
    apply hpair
    rw [hnode]
    exact .inr hdone
  have hne : dir.other ≠ dir := by cases dir <;> exact PinosDirection.noConfusion
  have hcases : ∀ dir', dir' = dir ∨ dir' = dir.other := by
    intro dir'
    cases dir <;> cases dir' <;> simp [PinosDirection.other]
  obtain ⟨b, g, hb, hw, heq⟩ := portUnlinked_eq h hside hother
  -- buffers may be cleared first, which changes none of this
  have hsafe : b.SafeWith main loops (some n) := by
    rcases hb with rfl | rfl
    · exact h
    · exact h.clearing (h.placed.side hother) hgoing
  have hgraph : b.graph = s.graph := by rcases hb with rfl | rfl <;> rfl
  have hlisteners : b.listeners = s.listeners := by rcases hb with rfl | rfl <;> rfl
  have hmain : b.mainLoop = s.mainLoop := by rcases hb with rfl | rfl <;> rfl
  have hgoing' : ¬ b.GoingWith main (s.graph.wiring.node q) := by
    rcases hb with rfl | rfl
    · exact hgoing
    · exact fun hgone => hgoing ((goingWith_invokeData fun _ heq => by cases heq).mp hgone)
  have hotherSide : g.wiring.side l dir.other = some q := by
    rw [hw]
    exact (Wiring.side_setSide_of_ne (.inr hne)).trans hother
  have hnone : g.wiring.side l dir = none := by
    rw [hw]
    exact Wiring.side_setSide
  have hkept : ∀ {dir' q'}, g.wiring.side l dir' = some q' → dir' = dir.other ∧ q' = q := by
    intro dir' q' hs
    rcases hcases dir' with rfl | rfl
    · rw [hnone] at hs
      cases hs
    · rw [hotherSide] at hs
      exact ⟨rfl, (Option.some.inj hs).symm⟩
  rw [heq]
  generalize ht : ({ b with listeners := s.quiet dir l s.listeners, graph := g } : Daemon) = t
  have htGraph : t.graph = g := by rw [← ht]
  have htLoop : t.graph.wiring.dataLoop (t.graph.wiring.node q) =
      s.graph.wiring.dataLoop (s.graph.wiring.node q) := by
    rw [htGraph, hw]
    rfl
  have hmem : s.graph.wiring.dataLoop (s.graph.wiring.node q) ∈
      t.sideLoops .input l ++ t.sideLoops .output l := by
    rw [← htLoop]
    have hs : t.graph.wiring.side l dir.other = some q := by
      rw [htGraph]
      exact hotherSide
    revert hs
    cases dir with
    | input => exact fun hs => List.mem_append_right _ (mem_sideLoops hs)
    | output => exact fun hs => List.mem_append_left _ (mem_sideLoops hs)
  generalize hds : t.sideLoops .input l ++ t.sideLoops .output l = ds at hmem
  have hparted : t.linkDestroy l = b.parted l g ds := by
    have hbwhole : b.Whole l := by
      rw [Whole, hlisteners]
      exact hwhole
    obtain ⟨hlive, hcount, -⟩ := hsafe.referred.whole hbwhole
    rw [linkDestroy_eq, hds, ← ht]
    · unfold parted
      dsimp only
      congr 1
      funext o
      rw [hlisteners]
      exact erase_quiet (h.heard.nodup o)
    · rw [← ht]
      exact hlive
    · rw [← ht]
      exact hcount
    · intro dir' q' hs
      rw [htGraph] at hs ⊢
      obtain ⟨-, rfl⟩ := hkept hs
      have hlive := hsafe.port_live (hgraph ▸ hother)
      rw [hgraph] at hlive
      rw [hw, ← ht]
      exact hlive
    · intro o l' hl'
      rw [← ht] at hl' ⊢
      have hl' := mem_quiet hl'
      rw [← hlisteners] at hl'
      exact hsafe.listener_live o l' hl'
    · intro o
      rw [← ht]
      exact nodup_quiet (h.heard.nodup o)
    · intro o hl'
      rw [← ht] at hl'
      obtain ⟨dir', p', hs, ho⟩ := h.heard.sides (mem_quiet hl')
      rw [htGraph, hw]
      refine ⟨dir', p', ?_, ho⟩
      rw [Wiring.side_setSide_of_ne]
      · exact hs
      · right
        rintro rfl
        change l ∈ s.quiet dir' l s.listeners o at hl'
        rw [quiet_self hs ho] at hl'
        exact (h.heard.nodup o).not_mem_erase hl'
    · rw [hds]
      exact List.ne_nil_of_mem hmem
  rw [hparted]
  refine ⟨_, hsafe.part ⟨?_, ?_, ?_, ?_, ?_, List.ne_nil_of_mem hmem⟩, ⟨hmain, ?_⟩, ?_⟩
  · rw [Whole, hlisteners]
    exact hwhole
  · intro l' dir' hl'
    rw [hw, hgraph]
    exact Wiring.side_setSide_of_ne (.inl hl')
  · rw [hw, hgraph]
    rfl
  · intro dir' q' hs
    obtain ⟨rfl, rfl⟩ := hkept hs
    rw [hgraph]
    exact ⟨hother, hgoing', hmem⟩
  · intro dir' p' hs hs'
    rw [hgraph] at hs ⊢
    rcases hcases dir' with rfl | rfl
    · rw [hside] at hs
      cases hs
      exact ⟨congrArg some hnode.symm, hnode.symm ▸ hdone⟩
    · rw [hotherSide] at hs'
      cases hs'
  · show { g.wiring with side := s.graph.wiring.side } = s.graph.wiring
    rw [hw]
    rfl
  · show (b.listeners (.port p)).erase l = _
    rw [hlisteners]

theorem onPortDestroy_of_side (h : s.SafeWith main loops dying)
    (hside : s.graph.wiring.side l dir = some p) :
    s.onPortDestroy l p = s.portUnlinked dir l p := by
  have htouch : ∀ o ∈ [Object.link l], o ∉ s.freed := by
    intro o ho
    rw [List.mem_singleton.mp ho]
    exact (h.side_live hside).2
  unfold Daemon.onPortDestroy
  dsimp only
  rw [touch_of_live htouch]
  cases dir with
  | input => exact if_pos hside
  | output =>
    have hinput : (s.graph.links l).input ≠ some p := by
      intro hinput
      have hdir : s.graph.wiring.direction p = .input := h.direction hinput
      rw [h.direction hside] at hdir
      cases hdir
    rw [if_neg hinput]
    exact if_pos hside

/-- All links that listen to a port of a node that goes are destroyed. -/
theorem SafeWith.foldl_onPortDestroy (h : s.SafeWith main loops (some n))
    (hdone : .nodeRemoveDone n ∈ main) (hnode : s.graph.wiring.node p = n) {ls : List Nat}
    (hls : s.listeners (.port p) = ls) :
    ∃ loops', (ls.foldl (fun s l => s.onPortDestroy l p) s).SafeWith main loops' (some n) ∧
      Tied s (ls.foldl (fun s l => s.onPortDestroy l p) s) ∧
        (ls.foldl (fun s l => s.onPortDestroy l p) s).listeners (.port p) = [] := by
  induction ls generalizing s loops with
  | nil => exact ⟨loops, h, ⟨rfl, rfl⟩, hls⟩
  | cons l ls ih =>
    have hl : l ∈ s.listeners (.port p) := hls ▸ List.mem_cons_self
    obtain ⟨loops', hsafe, htied, hlisteners⟩ := h.portUnlinked hdone hl hnode rfl
    rw [hls, List.erase_cons_head] at hlisteners
    have hnode' : (s.portUnlinked (s.graph.wiring.direction p) l p).graph.wiring.node p = n := by
      rw [htied.wiring]
      exact hnode
    obtain ⟨loops'', hsafe', htied', hnil⟩ := ih hsafe hnode' hlisteners
    rw [List.foldl_cons, onPortDestroy_of_side h (h.heard.whole hl).2.1]
    exact ⟨loops'', hsafe', htied.trans htied', hnil⟩

theorem mem_ports_of_ne {w : Wiring} {ports : List Nat} (hne : q ≠ p)
    (hports : ports = (w.ports n dir).erase p) {m : Nat} {dir' : PinosDirection}
    (hq : q ∈ w.ports m dir') : q ∈ (w.setPorts n dir ports).ports m dir' := by
  rw [Wiring.ports_setPorts]
  split
  · next heq =>
    rw [hports]
    exact (List.mem_erase_of_ne hne).mpr (heq.1 ▸ heq.2 ▸ hq)
  · exact hq

/-- A port of a node that goes is freed, when no link listens to it any more. -/
theorem SafeWith.dropPort (h : s.SafeWith (.nodeRemoveDone n :: main) loops (some n))
    (hnode : s.graph.wiring.node p = n) (hp : s.Listed dir p)
    (hnil : s.listeners (.port p) = []) {g : Graph}
    (hw : g.wiring = s.graph.wiring.setPorts n dir ((s.graph.wiring.ports n dir).erase p)) :
    SafeWith { s with graph := g, freed := s.freed ++ [.port p] } (.nodeRemoveDone n :: main) loops
      (some n) := by
  have hdone : .nodeRemoveDone n ∈ Invocation.nodeRemoveDone n :: main := List.mem_cons_self
  obtain ⟨-, hdir, hlive, -⟩ := h.placed.ports hp
  have hside : ∀ {l dir' q}, s.graph.wiring.side l dir' = some q → q ≠ p := by
    rintro l dir' q hs rfl
    have hfirst : Invocation.nodeRemoveDone n :: main = [] ++ .nodeRemoveDone n :: main := rfl
    rcases h.queued.cutMain hfirst hs hnode with hwhole | hmem
    · have hl := h.heard.listens hwhole hs
      rw [hnil] at hl
      cases hl
    · cases hmem
  have hrtSide : ∀ {l dir' q}, s.graph.wiring.rtSide l dir' = some q → q ≠ p := by
    rintro l dir' q hs rfl
    exact h.queued.rtSide hs (hnode.symm ▸ hdone)
  have hgone : ∀ {q}, .nodeRemoveDone (s.graph.wiring.node q) ∉
      Invocation.nodeRemoveDone n :: main → q ≠ p := by
    rintro q hnot rfl
    exact hnot (hnode.symm ▸ hdone)
  have hfreed : ∀ {o : Object}, o ∈ s.freed ++ [.port p] → o ∈ s.freed ∨ o = .port p := by
    intro o ho
    rwa [List.mem_append, List.mem_singleton] at ho
  have hkept : ∀ {q m dir'}, q ≠ p → q ∈ s.graph.wiring.ports m dir' →
      q ∈ (s.graph.wiring.setPorts n dir ((s.graph.wiring.ports n dir).erase p)).ports m dir' :=
    fun hne hq => mem_ports_of_ne hne rfl hq
  have hwiring :
      Graph.wiring ({ s with graph := g, freed := s.freed ++ [.port p] } : Daemon).graph =
        s.graph.wiring.setPorts n dir ((s.graph.wiring.ports n dir).erase p) := hw
  refine ⟨?_, h.heard.congr rfl rfl (by rw [hwiring]; rfl) (by rw [hwiring]; rfl)
    (by rw [hwiring]; rfl) fun m hgone => ?_, ?_, ?_, ?_, h.wild⟩
  · rw [hwiring]
    constructor
    · intro m dir'
      rw [Wiring.ports_setPorts]
      split
      · exact (h.placed.nodup n dir).erase p
      · exact h.placed.nodup m dir'
    · intro m dir' q hq
      have hold := Wiring.mem_ports_of_erase hq
      obtain ⟨hnode', hdir', hport, hm⟩ := h.placed.ports hold
      refine ⟨hnode', hdir', fun hf => ?_, fun hf => ?_⟩
      · rcases hfreed hf with hf | heq
        · exact hport hf
        · cases heq
          have hm : m = n := hnode'.symm.trans hnode
          have hd : dir' = dir := hdir'.symm.trans hdir
          rw [hm, hd] at hq
          exact Wiring.notMem_ports_of_erase (h.placed.nodup n dir) hq
      · rcases hfreed hf with hf | heq
        · exact hm hf
        · cases heq
    · exact fun hs => hkept (hside hs) (h.placed.side hs)
    · exact fun hs => hkept (hrtSide hs) (h.placed.rtSide hs)
    · exact h.placed.linksNodup
    · intro q l hl
      by_cases hq : q = p
      · exact .inl (hq ▸ List.mem_append_right _ List.mem_cons_self)
      · exact (h.placed.listed hl).imp (List.mem_append_left _) (hkept hq)
    · exact fun hl => (h.placed.links hl).imp_left (List.mem_append_left _)
    · exact h.placed.rtNodup
    · exact h.placed.memRt
  · change .nodeRemove m ∈ s.dataLoops (g.wiring.dataLoop m) ∨ _ at hgone
    rw [hw] at hgone
    exact hgone
  · refine ⟨h.referred.count, ?_, ?_, ?_, h.referred.fresh, ?_, ?_⟩
    · intro l hwhole
      obtain ⟨hl, hrest⟩ := h.referred.whole hwhole
      refine ⟨fun hf => ?_, hrest⟩
      rcases hfreed hf with hf | heq
      · exact hl hf
      · cases heq
    · exact fun hwhole hmade hl => h.referred.leaving hwhole hmade fun hf =>
        hl (List.mem_append_left _ hf)
    · intro l hf
      rcases hfreed hf with hf | heq
      · exact h.referred.freed hf
      · cases heq
    · intro l dir' q hs
      rw [hwiring] at hs ⊢
      exact h.referred.side hs
    · intro l dir' q hs
      rw [hwiring] at hs
      exact h.referred.rtSide hs
  · constructor
    · intro d l q hmem
      obtain ⟨hd, hlisted, hnot, hrest⟩ := h.queued.add hmem
      rw [hwiring]
      exact ⟨hd, hkept (hgone hnot) hlisted, hnot, hrest⟩
    · intro d d' l q q' hmem hmem' heq
      rw [hwiring] at heq
      exact h.queued.addOnce hmem hmem' heq
    · intro d q hmem
      obtain ⟨hd, hlisted, hnot⟩ := h.queued.clear hmem
      rw [hwiring]
      exact ⟨hd, hkept (hgone hnot) hlisted, hnot⟩
    · intro q hmem
      have hlisted := h.queued.clearDone hmem
      rw [hwiring]
      refine hkept ?_ hlisted
      rintro rfl
      rcases List.mem_cons.mp hmem with heq | hmem
      · cases heq
      · exact (List.pairwise_cons.mp h.queued.orderMain).1 _ hmem hnode
    · intro d m hmem
      obtain ⟨hd, hm, hnot⟩ := h.queued.remove hmem
      rw [hwiring]
      refine ⟨hd, fun hf => ?_, hnot⟩
      rcases hfreed hf with hf | heq
      · exact hm hf
      · cases heq
    · intro m hmem hf
      rcases hfreed hf with hf | heq
      · exact h.queued.removeDone hmem hf
      · cases heq
    · intro l dir' q hs
      rw [hwiring] at hs ⊢
      exact h.queued.rtSide hs
    · exact h.queued.kinds
    · exact h.queued.kindsMain
    · intro d
      rw [hwiring]
      exact h.queued.order d
    · rw [hwiring]
      exact h.queued.orderMain
    · intro d m front rest l dir' q hsplit hs hm
      rw [hwiring] at hs hm
      exact h.queued.cut hsplit hs hm
    · intro m front rest l dir' q hsplit hs hm
      rw [hwiring] at hs hm
      exact h.queued.cutMain hsplit hs hm
  · show (s.freed ++ [Object.port p]).Nodup
    rw [List.nodup_append]
    refine ⟨h.once, by simp, fun o ho o' ho' heq => ?_⟩
    rw [heq, List.mem_singleton.mp ho'] at ho
    exact hlive ho

/-- `pinos_port_destroy`, for a port of a node that goes. -/
theorem SafeWith.portDestroy (h : s.SafeWith (.nodeRemoveDone n :: main) loops (some n))
    (hp : p ∈ s.graph.wiring.ports n dir) :
    ∃ loops', (s.portDestroy p).SafeWith (.nodeRemoveDone n :: main) loops' (some n) ∧
      (s.portDestroy p).mainLoop = s.mainLoop ∧
        (s.portDestroy p).graph.wiring.ports =
          (s.graph.wiring.setPorts n dir ((s.graph.wiring.ports n dir).erase p)).ports := by
  obtain ⟨hnode, hdir, hport, hlive⟩ := h.placed.ports hp
  have hdone : .nodeRemoveDone n ∈ Invocation.nodeRemoveDone n :: main := List.mem_cons_self
  have htouchPort : ∀ o ∈ [Object.port p], o ∉ s.freed := by
    intro o ho
    rw [List.mem_singleton.mp ho]
    exact hport
  obtain ⟨loops', hsafe, htied, hnil⟩ := h.foldl_onPortDestroy hdone hnode rfl
  unfold Daemon.portDestroy
  dsimp only
  rw [touch_of_live htouchPort]
  generalize (s.listeners (.port p)).foldl (fun s l => s.onPortDestroy l p) s = t
    at hsafe htied hnil
  have hnode' : t.graph.wiring.node p = n := by
    rw [htied.wiring]
    exact hnode
  have hdir' : (s.graph.ports p).direction = dir := hdir
  have hports : t.graph.wiring.ports = s.graph.wiring.ports := by rw [htied.wiring]
  have hlisted : t.Listed dir p := by
    rw [Listed, hnode', hports]
    exact hp
  have htouchNode : ∀ o ∈ [Object.node (s.graph.ports p).node], o ∉ t.freed := by
    intro o ho
    rw [List.mem_singleton.mp ho, show (s.graph.ports p).node = n from hnode]
    exact hnode' ▸ (hsafe.placed.ports hlisted).2.2.2
  rw [touch_of_live htouchNode, hdir', show (s.graph.ports p).node = n from hnode]
  have hw := @Graph.wiring_setPorts t.graph n dir fun ports => ports.erase p
  refine ⟨loops', hsafe.dropPort hnode' hlisted hnil hw, htied.mainLoop, ?_⟩
  rw [← hports]
  funext m dir'
  rw [Wiring.ports_setPorts, ← hports, ← Wiring.ports_setPorts]
  exact congrFun (congrFun (congrArg Wiring.ports hw) m) dir'

/-- All ports of a side of a node that goes are freed. -/
theorem SafeWith.foldl_portDestroy (h : s.SafeWith (.nodeRemoveDone n :: main) loops (some n))
    {ps : List Nat} (hps : s.graph.wiring.ports n dir = ps) :
    ∃ loops', (ps.foldl Daemon.portDestroy s).SafeWith (.nodeRemoveDone n :: main) loops' (some n) ∧
      (ps.foldl Daemon.portDestroy s).mainLoop = s.mainLoop ∧
        (ps.foldl Daemon.portDestroy s).graph.wiring.ports n dir = [] ∧
          ∀ dir', dir' ≠ dir → (ps.foldl Daemon.portDestroy s).graph.wiring.ports n dir' =
            s.graph.wiring.ports n dir' := by
  induction ps generalizing s loops with
  | nil => exact ⟨loops, h, rfl, hps, fun _ _ => rfl⟩
  | cons p ps ih =>
    obtain ⟨loops', hsafe, hmain, hports⟩ := h.portDestroy (hps ▸ List.mem_cons_self)
    have hrest : (s.portDestroy p).graph.wiring.ports n dir = ps := by
      rw [hports, Wiring.ports_setPorts, if_pos ⟨rfl, rfl⟩, hps, List.erase_cons_head]
    obtain ⟨loops'', hsafe', hmain', hnil, hothers⟩ := ih hsafe hrest
    rw [List.foldl_cons]
    refine ⟨loops'', hsafe', hmain'.trans hmain, hnil, fun dir' hne => ?_⟩
    rw [hothers dir' hne, hports, Wiring.ports_setPorts, if_neg fun heq => hne heq.2]

/-- A node without ports is freed. -/
theorem SafeWith.dropNode (h : s.SafeWith (.nodeRemoveDone n :: main) loops (some n))
    (hnil : ∀ dir, s.graph.wiring.ports n dir = []) :
    SafeWith { s with freed := s.freed ++ [.node n] } main loops none := by
  have hdone : .nodeRemoveDone n ∈ Invocation.nodeRemoveDone n :: main := List.mem_cons_self
  have hnext : s.SafeWith main loops (some n) := h.popMain fun _ heq => by cases heq
  have hfreed : ∀ {o : Object}, o ∈ s.freed ++ [.node n] → o ∈ s.freed ∨ o = .node n := by
    intro o ho
    rwa [List.mem_append, List.mem_singleton] at ho
  refine ⟨?_, ⟨hnext.heard.whole, hnext.heard.nodup, hnext.heard.node, hnext.heard.link⟩, ?_, ?_,
    ?_, h.wild⟩
  · refine ⟨h.placed.nodup, ?_, h.placed.side, h.placed.rtSide, h.placed.linksNodup, ?_, ?_,
      h.placed.rtNodup, h.placed.memRt⟩
    · intro m dir p hp
      obtain ⟨hnode, hdir, hport, hm⟩ := h.placed.ports hp
      refine ⟨hnode, hdir, fun hf => ?_, fun hf => ?_⟩
      · rcases hfreed hf with hf | heq
        · exact hport hf
        · cases heq
      · rcases hfreed hf with hf | heq
        · exact hm hf
        · cases heq
          rw [hnil] at hp
          cases hp
    · exact fun hl => (h.placed.listed hl).imp_left (List.mem_append_left _)
    · intro p l hl
      rcases h.placed.links hl with hf | hdying | hside
      · exact .inl (List.mem_append_left _ hf)
      · rcases h.placed.listed hl with hf | hp
        · exact .inl (List.mem_append_left _ hf)
        · rw [← Option.some.inj hdying, hnil] at hp
          cases hp
      · exact .inr (.inr hside)
  · refine ⟨hnext.referred.count, ?_, ?_, ?_, hnext.referred.fresh, hnext.referred.side,
      hnext.referred.rtSide⟩
    · intro l hwhole
      obtain ⟨hl, hrest⟩ := hnext.referred.whole hwhole
      refine ⟨fun hf => ?_, hrest⟩
      rcases hfreed hf with hf | heq
      · exact hl hf
      · cases heq
    · exact fun hwhole hmade hl => hnext.referred.leaving hwhole hmade fun hf =>
        hl (List.mem_append_left _ hf)
    · intro l hf
      rcases hfreed hf with hf | heq
      · exact hnext.referred.freed hf
      · cases heq
  · refine ⟨hnext.queued.add, hnext.queued.addOnce, hnext.queued.clear, hnext.queued.clearDone, ?_,
      ?_, hnext.queued.rtSide, hnext.queued.kinds, hnext.queued.kindsMain, hnext.queued.order,
      hnext.queued.orderMain, hnext.queued.cut, hnext.queued.cutMain⟩
    · intro d m hmem
      obtain ⟨hd, hm, hnot⟩ := h.queued.remove hmem
      refine ⟨hd, fun hf => ?_, fun hmem => hnot (List.mem_cons_of_mem _ hmem)⟩
      rcases hfreed hf with hf | heq
      · exact hm hf
      · cases heq
        exact hnot hdone
    · intro m hmem hf
      rcases hfreed hf with hf | heq
      · exact hnext.queued.removeDone hmem hf
      · cases heq
        exact (List.pairwise_cons.mp h.queued.orderMain).1 _ hmem rfl
  · show (s.freed ++ [Object.node n]).Nodup
    rw [List.nodup_append]
    refine ⟨h.once, by simp, fun o ho o' ho' heq => ?_⟩
    rw [heq, List.mem_singleton.mp ho'] at ho
    exact h.queued.removeDone hdone ho

/-- It is said less when a node is dying. -/
theorem SafeWith.withDying (h : s.SafeWith main loops none) (n : Nat) :
    s.SafeWith main loops (some n) :=
  ⟨⟨h.placed.nodup, h.placed.ports, h.placed.side, h.placed.rtSide, h.placed.linksNodup,
      h.placed.listed, fun hl => (h.placed.links hl).imp_right fun hor =>
        .inr (hor.resolve_left (Option.some_ne_none _).symm),
      h.placed.rtNodup, h.placed.memRt⟩, h.heard, h.referred, h.queued, h.once, h.wild⟩

/-- The main loop frees a node with its ports. -/
theorem SafeWith.runNodeRemoveDone (h : s.SafeWith (.nodeRemoveDone n :: main) loops none) :
    ∃ loops', (Daemon.doNodeRemoveDone { s with mainLoop := main } n).Safe loops' := by
  have hlive : .node n ∉ s.freed := h.queued.removeDone List.mem_cons_self
  have htouch : ∀ o ∈ [Object.node n], o ∉ s.freed := by
    intro o ho
    rw [List.mem_singleton.mp ho]
    exact hlive
  unfold Daemon.doNodeRemoveDone
  dsimp only
  rw [touch_of_live]
  swap
  · exact htouch
  have hstart := (h.withDying n).withMainLoop main
  have hinput : s.graph.wiring.ports n .input = (s.graph.nodes n).inputPorts := rfl
  obtain ⟨loops', hsafe, hmain, hnil, hothers⟩ := hstart.foldl_portDestroy hinput
  dsimp only
  generalize (s.graph.nodes n).inputPorts.foldl Daemon.portDestroy { s with mainLoop := main } = t
    at hsafe hmain hnil hothers
  have houtput : t.graph.wiring.ports n .output = (t.graph.nodes n).outputPorts := rfl
  obtain ⟨loops'', hsafe', hmain', hnil', hothers'⟩ := hsafe.foldl_portDestroy houtput
  generalize (t.graph.nodes n).outputPorts.foldl Daemon.portDestroy t = t' at *
  have hmainLoop : t'.mainLoop = main := hmain'.trans hmain
  have hports : ∀ dir, t'.graph.wiring.ports n dir = [] := by
    intro dir
    cases dir with
    | input =>
      rw [hothers' _ PinosDirection.noConfusion]
      exact hnil
    | output => exact hnil'
  refine ⟨loops'', ?_⟩
  show SafeWith _ t'.mainLoop loops'' none
  rw [hmainLoop]
  exact (hsafe'.dropNode hports).withMainLoop main

/-! ## Every run -/

theorem mainLoop_portLink {output input : Nat} :
    (s.portLink output input).mainLoop = s.mainLoop := by
  unfold Daemon.portLink
  dsimp only
  split
  · rfl
  · split
    · rfl
    · split <;> rfl

theorem mainLoop_linkUnbind : (s.linkUnbind l).mainLoop = s.mainLoop := mainLoop_unref

theorem mainLoop_unbindAll {k : Nat} : (s.unbindAll l k).mainLoop = s.mainLoop := by
  induction k generalizing s with
  | zero => rfl
  | succ k ih => exact ih.trans mainLoop_linkUnbind

theorem mainLoop_requestRemove : (s.requestRemove dir l).mainLoop = s.mainLoop := by
  unfold Daemon.requestRemove
  split <;> rfl

theorem mainLoop_linkDestroy : (s.linkDestroy l).mainLoop = s.mainLoop :=
  mainLoop_unref.trans (mainLoop_requestRemove.trans (mainLoop_requestRemove.trans
    mainLoop_unbindAll))

theorem mainLoop_linkStates {g : Graph} : (s.linkStates l g).mainLoop = s.mainLoop := by
  unfold Daemon.linkStates
  split <;> rfl

theorem Safe.runMain (h : s.Safe loops) : ∃ loops', s.runMain.Safe loops' := by
  unfold Daemon.runMain
  cases hqueue : s.mainLoop with
  | nil => exact ⟨loops, h⟩
  | cons inv rest =>
    have hsafe : s.SafeWith (inv :: rest) loops none := hqueue ▸ h
    rcases hsafe.queued.kindsMain List.mem_cons_self with ⟨l, rfl⟩ | ⟨p, rfl⟩ | ⟨n, rfl⟩
    · exact ⟨loops, hsafe.runLinkRemoveDone⟩
    · exact ⟨loops, hsafe.runClearDone⟩
    · exact hsafe.runNodeRemoveDone

theorem Safe.runData (h : s.Safe loops) (d : Nat) : ∃ loops', (s.runData d).Safe loops' := by
  unfold Daemon.runData
  cases hqueue : s.dataLoops d with
  | nil => exact ⟨loops, h⟩
  | cons inv rest =>
    have hmem : inv ∈ s.dataLoops d := hqueue ▸ List.mem_cons_self
    rcases h.queued.kinds hmem with ⟨l, p, rfl⟩ | ⟨l, rfl⟩ | ⟨p, rfl⟩ | ⟨n, rfl⟩
    · exact ⟨loops, SafeWith.runAdd h hqueue⟩
    · exact SafeWith.runLinkRemove h hqueue
    · exact ⟨loops, SafeWith.runClear h hqueue⟩
    · exact ⟨loops, SafeWith.runNodeRemove h hqueue⟩

/-- Whatever waits in the loops, a step leaves things safe. -/
theorem Safe.relayStep (h : s.Safe loops) {op : RelayOp} (hop : s.Orderly op) :
    ∃ loops', (s.relayStep op).Safe loops' := by
  cases op with
  | portLink output input =>
    obtain ⟨houtput, hinput, hgoing⟩ := hop
    refine ⟨loops, ?_⟩
    show SafeWith _ (s.portLink output input).mainLoop _ none
    rw [mainLoop_portLink]
    exact SafeWith.portLink h houtput hinput hgoing
  | linkDestroy l =>
    obtain ⟨hwhole, hgoing⟩ := hop
    obtain ⟨loops', hsafe⟩ := SafeWith.linkDestroy h hwhole hgoing
    refine ⟨loops', ?_⟩
    show SafeWith _ (s.linkDestroy l).mainLoop _ none
    rw [mainLoop_linkDestroy]
    exact hsafe
  | linkBind l => exact ⟨loops, SafeWith.linkBind h hop⟩
  | linkUnbind l =>
    refine ⟨loops, ?_⟩
    show SafeWith _ (s.linkUnbind l).mainLoop _ none
    rw [mainLoop_linkUnbind]
    exact SafeWith.linkUnbind h hop.1 hop.2
  | nodeDestroy n =>
    obtain ⟨hlive, hgoing, hpairs⟩ := hop
    exact ⟨loops, SafeWith.nodeDestroy h hlive hgoing hpairs⟩
  | states l g =>
    refine ⟨loops, ?_⟩
    show SafeWith _ (s.linkStates l g).mainLoop _ none
    rw [mainLoop_linkStates]
    exact SafeWith.linkStates h hop
  | mainLoop => exact h.runMain
  | dataLoop d => exact h.runData d

theorem Start.safe (h : s.Start) : s.Safe fun _ => [] := by
  have hlisteners : ∀ {o : Object} {l}, l ∉ s.listeners o := by
    intro o l hl
    rw [h.listeners] at hl
    cases hl
  have hside : ∀ {l dir p}, s.graph.wiring.side l dir ≠ some p := by
    intro l dir p hs
    rw [h.side] at hs
    cases hs
  have hrtSide : ∀ {l dir p}, s.graph.wiring.rtSide l dir ≠ some p := by
    intro l dir p hs
    rw [h.rtSide] at hs
    cases hs
  have hlinks : ∀ {p l}, l ∉ s.graph.wiring.links p := by
    intro p l hl
    rw [h.links] at hl
    cases hl
  have hdata : ∀ {inv d}, inv ∉ s.dataLoops d := by
    intro inv d hmem
    rw [h.settled.data] at hmem
    cases hmem
  have hmain : ∀ {inv}, inv ∉ s.mainLoop := by
    intro inv hmem
    rw [h.settled.main] at hmem
    cases hmem
  have hfreed : ∀ {o : Object}, o ∉ s.freed := by
    intro o ho
    rw [h.freed] at ho
    cases ho
  refine ⟨?_, ?_, ?_, ?_, ?_, h.wild⟩
  · refine ⟨h.nodup, fun hp => ?_, fun hs => absurd hs hside, fun hs => absurd hs hrtSide,
      fun p => ?_, fun hl => absurd hl hlinks, fun hl => absurd hl hlinks, fun p => ?_, ?_⟩
    · obtain ⟨hnode, hdir⟩ := h.ports hp
      exact ⟨hnode, hdir, hfreed, hfreed⟩
    · rw [h.links]
      exact List.nodup_nil
    · rw [h.rtLinks]
      exact List.nodup_nil
    · intro p l
      rw [h.rtLinks]
      exact iff_of_false List.not_mem_nil hrtSide
  · refine ⟨fun hl => absurd hl hlisteners, fun o => ?_, fun hl => absurd hl hlisteners,
      fun l => h.listeners _⟩
    rw [h.listeners]
    exact List.nodup_nil
  · refine ⟨fun d l => ?_, fun hwhole => absurd hwhole.choose_spec hlisteners,
      fun _ hmade => ?_, fun hf => absurd hf hfreed, fun _ => ⟨rfl, hmain⟩,
      fun hs => absurd hs hside, fun hs => absurd hs hrtSide⟩
    · rw [h.settled.data]
      rfl
    · rw [h.nLinks] at hmade
      exact absurd hmade (Nat.not_lt_zero _)
  · refine ⟨fun hm => absurd hm hdata, fun hm => absurd hm hdata, fun hm => absurd hm hdata,
      fun hm => absurd hm hmain, fun hm => absurd hm hdata, fun hm => absurd hm hmain,
      fun hs => absurd hs hrtSide, fun hm => absurd hm hdata, fun hm => absurd hm hmain,
      fun d => ?_, ?_, fun _ hs => absurd hs hside, fun _ hs => absurd hs hside⟩
    · rw [h.settled.data]
      exact .nil
    · rw [h.settled.main]
      exact .nil
  · rw [h.freed]
    exact List.nodup_nil

theorem Safe.takenDown (h : s.Safe loops) : s.TakenDown where
  wild := h.wild
  once := h.once
  sides l dir p hside := by
    rcases hside with hside | hside
    · exact ⟨(SafeWith.side_live h hside).2, SafeWith.port_live h hside⟩
    · exact ⟨(SafeWith.rtSide_live h hside).2, (h.placed.ports (h.placed.rtSide hside)).2.2⟩
  lists p l hp hl := by
    rcases hl with hl | hl
    · rcases h.placed.links hl with hfreed | hnone | hside
      · exact absurd hfreed hp
      · cases hnone
      · exact (SafeWith.side_live h hside).2
    · exact (SafeWith.rtSide_live h (h.placed.memRt.mp hl)).2
  destroyed l hfreed hwhole := (h.referred.whole hwhole).1 hfreed
  done hsettled l hl := by
    by_contra hnot
    obtain ⟨hwhole, hlive⟩ := not_or.mp hnot
    obtain ⟨hcount, hpos⟩ := h.referred.leaving hwhole hl hlive
    have hloops : loops l = [] := by
      apply List.eq_nil_iff_forall_not_mem.mpr
      intro d hd
      have hdata := h.referred.count d l
      rw [hsettled.data, List.count_nil] at hdata
      exact List.count_eq_zero.mp hdata.symm hd
    rw [hloops, hsettled.main] at hcount
    rw [hcount] at hpos
    exact Int.lt_irrefl 0 hpos

/-- Both nodes of a link are destroyed: the main loop uses a port that it has freed. -/
theorem not_takenDown_both :
    ¬ (Run.run Daemon.relayStep pair
      [.portLink 0 1, .dataLoop 0, .dataLoop 0, .nodeDestroy 0, .nodeDestroy 1, .dataLoop 0,
        .dataLoop 0, .mainLoop, .mainLoop, .dataLoop 0, .mainLoop]).TakenDown :=
  fun h => absurd h.wild (by decide)

end Daemon
end Pinos
