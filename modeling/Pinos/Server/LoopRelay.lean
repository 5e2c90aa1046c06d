import Pinos.Server.LinkRelay

/-
The loops at work for links that are made, destroyed and freed.
-/

namespace Pinos
namespace Daemon

variable {s : Daemon} {main : List Invocation} {loops : Nat → List Nat} {dying : Option Nat}
variable {l p q n d : Nat} {dir : PinosDirection} {rest : List Invocation}

/-! ## The data loops at work -/

theorem goingWith_popData {inv : Invocation} (hqueue : s.dataLoops d = inv :: rest)
    (hinv : ∀ n, inv ≠ .nodeRemove n) :
    GoingWith { s with dataLoops := Function.update s.dataLoops d rest } main n ↔
      s.GoingWith main n :=
  or_congr_left ⟨mem_of_mem_update hqueue, fun hmem => mem_update_of_mem hqueue hmem (hinv n).symm⟩

theorem count_popData {inv : Invocation} (hqueue : s.dataLoops d = inv :: rest)
    (hinv : inv ≠ .linkRemove l) (d' : Nat) :
    (Function.update s.dataLoops d rest d').count (.linkRemove l) =
      (s.dataLoops d').count (.linkRemove l) := by
  by_cases hd : d' = d
  · rw [hd, Function.update_self, hqueue, List.count_cons_of_ne hinv]
  · rw [Function.update_of_ne hd]

/-- A loop is done with what removes nothing. -/
theorem SafeWith.popData {inv : Invocation} (h : s.SafeWith main loops dying)
    (hqueue : s.dataLoops d = inv :: rest) (hlink : ∀ l, inv ≠ .linkRemove l)
    (hnode : ∀ n, inv ≠ .nodeRemove n) :
    SafeWith { s with dataLoops := Function.update s.dataLoops d rest } main loops dying where
  placed := h.placed
  heard := h.heard.congr rfl rfl rfl rfl rfl fun _ => (goingWith_popData hqueue hnode).mp
  referred :=
    { count := by
        intro d' l
        rw [← h.referred.count]
        exact count_popData hqueue (hlink l) d'
      whole := h.referred.whole
      leaving := h.referred.leaving
      freed := h.referred.freed
      fresh := h.referred.fresh
      side := by
        intro l dir p hside
        rcases h.referred.side hside with hwhole | hmem | hmem
        · exact .inl hwhole
        · exact .inr (.inl (mem_update_of_mem hqueue hmem (hlink l).symm))
        · exact .inr (.inr hmem)
      rtSide := h.referred.rtSide }
  queued := h.queued.popData hqueue fun l heq => absurd heq (hlink l)
  once := h.once
  wild := h.wild

/-- The realtime sides of links change: what is there in the end was there, or is as it should. -/
theorem SafeWith.rewireRt (h : s.SafeWith main loops dying) {g : Graph}
    (hw : g.wiring =
      { s.graph.wiring with rtSide := g.wiring.rtSide, rtLinks := g.wiring.rtLinks })
    (hnodup : ∀ p, (g.wiring.rtLinks p).Nodup)
    (hmem : ∀ {p l}, l ∈ g.wiring.rtLinks p ↔
      g.wiring.rtSide l (s.graph.wiring.direction p) = some p)
    (hside : ∀ {l dir p}, g.wiring.rtSide l dir = some p →
      s.graph.wiring.rtSide l dir = some p ∨
        s.Listed dir p ∧ (s.Whole l ∨ loops l ≠ []) ∧
          .nodeRemoveDone (s.graph.wiring.node p) ∉ main)
    (hadd : ∀ {d l p}, .addLink l p ∈ s.dataLoops d →
      g.wiring.rtSide l (s.graph.wiring.direction p) = none) :
    SafeWith { s with graph := g } main loops dying where
  placed := by
    show g.wiring.Placed s.freed dying
    rw [hw]
    exact
      { nodup := h.placed.nodup
        ports := h.placed.ports
        side := h.placed.side
        rtSide := fun hs => (hside hs).elim h.placed.rtSide fun hnew => hnew.1
        linksNodup := h.placed.linksNodup
        listed := h.placed.listed
        links := h.placed.links
        rtNodup := hnodup
        memRt := hmem }
  heard := h.heard.congr rfl rfl (by rw [hw]) (by rw [hw]) (by rw [hw]) fun n hgoing => by
    change .nodeRemove n ∈ s.dataLoops (g.wiring.dataLoop n) ∨ _ at hgoing
    rw [hw] at hgoing
    exact hgoing
  referred :=
    { count := h.referred.count
      whole := h.referred.whole
      leaving := h.referred.leaving
      freed := h.referred.freed
      fresh := h.referred.fresh
      side := by
        intro l dir p hs
        change g.wiring.side l dir = some p at hs
        show _ ∨ .linkRemove l ∈ s.dataLoops (g.wiring.dataLoop (g.wiring.node p)) ∨ _
        rw [hw] at hs ⊢
        exact h.referred.side hs
      rtSide := fun hs => (hside hs).elim h.referred.rtSide fun hnew => hnew.2.1 }
  queued := by
    have hwiring : Graph.wiring { s with graph := g }.graph =
        { s.graph.wiring with rtSide := g.wiring.rtSide, rtLinks := g.wiring.rtLinks } := hw
    constructor
    · intro d l p hm
      obtain ⟨hd, hlisted, hgone, -, hlink⟩ := h.queued.add hm
      rw [hwiring]
      exact ⟨hd, hlisted, hgone, hadd hm, hlink⟩
    · intro d d' l p p' hm hm' hdir
      rw [hwiring] at hdir
      exact h.queued.addOnce hm hm' hdir
    · intro d p hm
      rw [hwiring]
      exact h.queued.clear hm
    · intro p hm
      rw [hwiring]
      exact h.queued.clearDone hm
    · intro d n hm
      rw [hwiring]
      exact h.queued.remove hm
    · exact h.queued.removeDone
    · intro l dir p hs
      rw [hwiring] at hs ⊢
      exact (hside hs).elim h.queued.rtSide fun hnew => hnew.2.2
    · exact h.queued.kinds
    · exact h.queued.kindsMain
    · intro d
      rw [hwiring]
      exact h.queued.order d
    · rw [hwiring]
      exact h.queued.orderMain
    · intro d n front rest l dir p hsplit hs hnode
      rw [hwiring] at hs hnode
      exact h.queued.cut hsplit hs hnode
    · intro n front rest l dir p hsplit hs hnode
      rw [hwiring] at hs hnode
      exact h.queued.cutMain hsplit hs hnode
  once := h.once
  wild := h.wild

/-- A side of a link leaves its port in the realtime thread. -/
theorem SafeWith.removeRt (h : s.SafeWith main loops dying) (dir : PinosDirection) (l : Nat) :
    (s.modify fun g => g.removeRt dir l).SafeWith main loops dying := by
  cases hrt : s.graph.wiring.rtSide l dir with
  | none =>
    unfold Daemon.modify
    dsimp only
    rw [Graph.removeRt_none hrt]
    exact h
  | some p =>
    have hw : (s.graph.removeRt dir l).wiring = s.graph.wiring.removeRt dir l p :=
      Graph.wiring_removeRt hrt
    have hdir : s.graph.wiring.direction p = dir := (h.placed.ports (h.placed.rtSide hrt)).2.1
    have hkept : ∀ {l' dir' q}, (s.graph.removeRt dir l).wiring.rtSide l' dir' = some q →
        s.graph.wiring.rtSide l' dir' = some q := by
      intro l' dir' q hs
      by_cases hne : l' ≠ l ∨ dir' ≠ dir
      · rwa [rtSide_removeRt_of_ne hne] at hs
      · obtain ⟨hl, hd⟩ := not_or.mp hne
        rw [not_not.mp hl, not_not.mp hd, rtSide_removeRt_self] at hs
        cases hs
    apply h.rewireRt
    · rw [hw]
      rfl
    · intro q
      rw [hw]
      by_cases hq : q = p
      · rw [hq]
        exact Wiring.rtLinks_setRtLinks ▸ (h.placed.rtNodup p).erase l
      · exact (Wiring.rtLinks_setRtLinks_of_ne hq).symm ▸ h.placed.rtNodup q
    · intro q l'
      rw [hw]
      by_cases hq : q = p
      · show l' ∈ (s.graph.wiring.setRtLinks p _).rtLinks q ↔ _
        rw [hq, Wiring.rtLinks_setRtLinks, hdir]
        by_cases hl : l' = l
        · rw [hl]
          exact iff_of_false (h.placed.rtNodup p).not_mem_erase
            (Wiring.rtSide_setRtSide ▸ (Option.some_ne_none p).symm)
        · rw [List.mem_erase_of_ne hl, h.placed.memRt, hdir]
          exact (Wiring.rtSide_setRtSide_of_ne (.inl hl)).symm ▸ Iff.rfl
      · show l' ∈ (s.graph.wiring.setRtLinks p _).rtLinks q ↔ _
        rw [Wiring.rtLinks_setRtLinks_of_ne hq, h.placed.memRt, ← hw]
        refine ⟨fun hs => ?_, hkept⟩
        rw [rtSide_removeRt_of_ne, hs]
        by_contra hboth
        obtain ⟨hl, hd⟩ := not_or.mp hboth
        rw [not_not.mp hl, not_not.mp hd, hrt] at hs
        exact hq (Option.some.inj hs).symm
    · exact fun hs => .inl (hkept hs)
    · intro d l' q hm
      obtain ⟨-, -, -, hnone, -⟩ := h.queued.add hm
      rw [Option.eq_none_iff_forall_ne_some]
      intro q' hs
      rw [hkept hs] at hnone
      cases hnone

/-- A link that is to be removed is there. -/
theorem SafeWith.live_of_linkRemove (h : s.SafeWith main loops dying)
    (hmem : .linkRemove l ∈ s.dataLoops d) : d ∈ loops l ∧ .link l ∉ s.freed ∧ ¬ s.Whole l ∧
      l < s.nLinks := by
  have hcount := h.referred.count d l
  have hd : d ∈ loops l := by
    rw [← List.count_pos_iff, ← hcount]
    exact List.count_pos_iff.mpr hmem
  have hne := List.ne_nil_of_mem hd
  refine ⟨hd, fun hfreed => hne (h.referred.freed hfreed).2.1,
    fun hwhole => hne (h.referred.whole hwhole).2.2.1, ?_⟩
  by_contra hle
  exact hne (h.referred.fresh (Nat.le_of_not_lt hle)).1

/-- A loop adds a link to the realtime list of a port. -/
theorem SafeWith.runAdd (h : s.SafeWith main loops dying)
    (hqueue : s.dataLoops d = .addLink l p :: rest) :
    (Daemon.doAddLink { s with dataLoops := Function.update s.dataLoops d rest } l p).SafeWith main
      loops dying := by
  have hhead : .addLink l p ∈ s.dataLoops d := hqueue ▸ List.mem_cons_self
  obtain ⟨hd, hlisted, hgone, hrt, hlink⟩ := h.queued.add hhead
  have hlive : .link l ∉ s.freed := by
    rcases hlink with ⟨hwhole, -⟩ | hremove
    · exact (h.referred.whole hwhole).1
    · exact (h.live_of_linkRemove hremove).2.1
  have hpending : s.Whole l ∨ loops l ≠ [] := by
    rcases hlink with ⟨hwhole, -⟩ | hremove
    · exact .inl hwhole
    · exact .inr (List.ne_nil_of_mem (h.live_of_linkRemove hremove).1)
  have hnext := h.popData hqueue (fun _ heq => by cases heq) fun _ heq => by cases heq
  have htouch : ∀ o ∈ Object.port p :: .link l :: (s.graph.ports p).rtLinks.map .link,
      o ∉ s.freed := by
    intro o ho
    rcases List.mem_cons.mp ho with rfl | ho
    · exact (h.placed.ports hlisted).2.2.1
    · rcases List.mem_cons.mp ho with rfl | ho
      · exact hlive
      · exact h.rtList o ho
  unfold Daemon.doAddLink
  rw [touch_of_live]
  swap
  · exact htouch
  have hw : (s.graph.addRt l p).wiring = s.graph.wiring.addRt l p := Graph.wiring_addRt
  have hnot : l ∉ s.graph.wiring.rtLinks p := by
    rw [h.placed.memRt, hrt]
    exact (Option.some_ne_none p).symm
  have hself : (s.graph.addRt l p).wiring.rtSide l (s.graph.wiring.direction p) = some p := by
    rw [hw]
    exact Wiring.rtSide_setRtSide
  have hothers : ∀ {l' dir'}, l' ≠ l ∨ dir' ≠ s.graph.wiring.direction p →
      (s.graph.addRt l p).wiring.rtSide l' dir' = s.graph.wiring.rtSide l' dir' := by
    intro l' dir' hne
    rw [hw]
    exact Wiring.rtSide_setRtSide_of_ne hne
  apply hnext.rewireRt
  · show (s.graph.addRt l p).wiring = _
    rw [hw]
    rfl
  · intro q
    show ((s.graph.addRt l p).wiring.rtLinks q).Nodup
    rw [hw]
    by_cases hq : q = p
    · have happend : (s.graph.wiring.rtLinks p ++ [l]).Nodup := by
        rw [List.nodup_append]
        refine ⟨h.placed.rtNodup p, by simp, fun l' hl' l'' hl'' heq => hnot ?_⟩
        rw [← List.mem_singleton.mp hl'', ← heq]
        exact hl'
      rw [hq]
      exact Wiring.rtLinks_setRtLinks ▸ happend
    · exact (Wiring.rtLinks_setRtLinks_of_ne hq).symm ▸ h.placed.rtNodup q
  · intro q l'
    show l' ∈ (s.graph.addRt l p).wiring.rtLinks q ↔
      (s.graph.addRt l p).wiring.rtSide l' (s.graph.wiring.direction q) = some q
    by_cases hq : q = p
    · have hlinks : (s.graph.addRt l p).wiring.rtLinks p = s.graph.wiring.rtLinks p ++ [l] := by
        rw [hw]
        exact Wiring.rtLinks_setRtLinks
      rw [hq, hlinks, List.mem_append, List.mem_singleton]
      by_cases hl : l' = l
      · rw [hl]
        exact iff_of_true (.inr rfl) hself
      · rw [or_iff_left hl, h.placed.memRt, hothers (.inl hl)]
    · have hlinks : (s.graph.addRt l p).wiring.rtLinks q = s.graph.wiring.rtLinks q := by
        rw [hw]
        exact Wiring.rtLinks_setRtLinks_of_ne hq
      rw [hlinks, h.placed.memRt]
      by_cases hne : l' ≠ l ∨ s.graph.wiring.direction q ≠ s.graph.wiring.direction p
      · rw [hothers hne]
      · obtain ⟨hl, hdir⟩ := not_or.mp hne
        rw [not_not.mp hl, not_not.mp hdir, hself, hrt]
        exact iff_of_false nofun fun heq => hq (Option.some.inj heq).symm
  · intro l' dir' q hs
    change (s.graph.addRt l p).wiring.rtSide l' dir' = some q at hs
    by_cases hne : l' ≠ l ∨ dir' ≠ s.graph.wiring.direction p
    · rw [hothers hne] at hs
      exact .inl hs
    · obtain ⟨hl, hdir⟩ := not_or.mp hne
      rw [not_not.mp hl, not_not.mp hdir, hself] at hs
      cases hs
      rw [not_not.mp hl, not_not.mp hdir]
      exact .inr ⟨hlisted, hpending, hgone⟩
  · intro d' l' q hmem
    show (s.graph.addRt l p).wiring.rtSide l' (s.graph.wiring.direction q) = none
    have hold := mem_of_mem_update hqueue hmem
    obtain ⟨hd', -, -, hnone, -⟩ := h.queued.add hold
    rw [hothers]
    · exact hnone
    · by_contra hboth
      obtain ⟨hl, hdir⟩ := not_or.mp hboth
      rw [not_not.mp hl] at hold hmem
      have hq : q = p := h.queued.addOnce hold hhead (not_not.mp hdir)
      have horder := h.queued.order d
      rw [hqueue, List.pairwise_cons] at horder
      have hloop : d' = d := by rw [← hd', ← hd, hq]
      change .addLink l q ∈ Function.update s.dataLoops d rest d' at hmem
      rw [hloop, Function.update_self, hq] at hmem
      exact horder.1 _ hmem rfl rfl

/-- The main loop is asked for what clears buffers. -/
theorem SafeWith.pushClear (h : s.SafeWith main loops dying)
    (hp : p ∈ s.graph.wiring.ports (s.graph.wiring.node p) (s.graph.wiring.direction p))
    (hgone : .nodeRemoveDone (s.graph.wiring.node p) ∉ main) :
    s.SafeWith (main ++ [.clearBuffersDone p]) loops dying where
  placed := h.placed
  heard := h.heard.congr rfl rfl rfl rfl rfl fun n hgoing => hgoing.imp_right fun hmem => by
    rcases List.mem_append.mp hmem with hmem | hmem
    · exact hmem
    · cases List.mem_singleton.mp hmem
  referred :=
    { count := h.referred.count
      whole := by
        intro l hwhole
        obtain ⟨hlive, hcount, hnone, hdone⟩ := h.referred.whole hwhole
        exact ⟨hlive, hcount, hnone, by simpa using hdone⟩
      leaving := by
        intro l hwhole hmade hlive
        have hcount := h.referred.leaving hwhole hmade hlive
        rwa [List.count_append, List.count_singleton, if_neg (by simp), Nat.add_zero]
      freed := by
        intro l hfreed
        obtain ⟨hmade, hnone, hdone⟩ := h.referred.freed hfreed
        exact ⟨hmade, hnone, by simpa using hdone⟩
      fresh := by
        intro l hle
        obtain ⟨hnone, hdone⟩ := h.referred.fresh hle
        exact ⟨hnone, by simpa using hdone⟩
      side := by
        intro l dir p hside
        rcases h.referred.side hside with hwhole | hmem | hmem
        · exact .inl hwhole
        · exact .inr (.inl hmem)
        · exact .inr (.inr (List.mem_append_left _ hmem))
      rtSide := h.referred.rtSide }
  queued := h.queued.pushMain (.inr ⟨p, rfl, hp, hgone⟩)
  once := h.once
  wild := h.wild

/-- The queue of the main loop is no part of what is said with `main`. -/
theorem SafeWith.withMainLoop (h : s.SafeWith main loops dying) (queue : List Invocation) :
    SafeWith { s with mainLoop := queue } main loops dying :=
  ⟨h.placed, ⟨h.heard.whole, h.heard.nodup, h.heard.node, h.heard.link⟩,
    ⟨h.referred.count, h.referred.whole, h.referred.leaving, h.referred.freed, h.referred.fresh,
      h.referred.side, h.referred.rtSide⟩,
    ⟨h.queued.add, h.queued.addOnce, h.queued.clear, h.queued.clearDone, h.queued.remove,
      h.queued.removeDone, h.queued.rtSide, h.queued.kinds, h.queued.kindsMain, h.queued.order,
      h.queued.orderMain, h.queued.cut, h.queued.cutMain⟩, h.once, h.wild⟩

/-- A loop pauses a port whose buffers are to be cleared. -/
theorem SafeWith.runClear (h : s.Safe loops) (hqueue : s.dataLoops d = .clearBuffers p :: rest) :
    (Daemon.doClearBuffers { s with dataLoops := Function.update s.dataLoops d rest } p).Safe
      loops := by
  obtain ⟨-, hlisted, hgone⟩ := h.queued.clear (hqueue ▸ List.mem_cons_self)
  have hnext := h.popData hqueue (fun _ heq => by cases heq) fun _ heq => by cases heq
  have htouch : ∀ o ∈ [Object.port p, .node (s.graph.ports p).node], o ∉ s.freed := by
    obtain ⟨-, -, hport, hnode⟩ := h.placed.ports hlisted
    intro o ho
    rcases List.mem_cons.mp ho with rfl | ho
    · exact hport
    · rw [List.mem_singleton.mp ho]
      exact hnode
  unfold Daemon.doClearBuffers
  dsimp only
  rw [touch_of_live]
  swap
  · exact htouch
  have hpaused := hnext.withGraph (g := s.graph.portPauseRt p) Graph.wiring_portPauseRt
  have hw : (s.graph.portPauseRt p).wiring = s.graph.wiring := Graph.wiring_portPauseRt
  apply SafeWith.withMainLoop
  apply hpaused.pushClear
  · show p ∈ (s.graph.portPauseRt p).wiring.ports ((s.graph.portPauseRt p).wiring.node p)
      ((s.graph.portPauseRt p).wiring.direction p)
    rw [hw]
    exact hlisted
  · show .nodeRemoveDone ((s.graph.portPauseRt p).wiring.node p) ∉ s.mainLoop
    rw [hw]
    exact hgone

/-- A loop hands a link that it has let go of back to the main loop. -/
theorem SafeWith.popLinkRemove (h : s.SafeWith main loops dying)
    (hqueue : s.dataLoops d = .linkRemove l :: rest)
    (hrt : ∀ dir, s.graph.wiring.rtSide l dir = none) :
    SafeWith { s with dataLoops := Function.update s.dataLoops d rest }
      (main ++ [.linkRemoveDone l]) (Function.update loops l ((loops l).erase d)) dying := by
  obtain ⟨hd, -, hwhole, hlt⟩ := h.live_of_linkRemove (hqueue ▸ List.mem_cons_self)
  have hne : ∀ {l'}, loops l' = [] → l' ≠ l := by
    intro l' hnone heq
    rw [← heq, hnone] at hd
    cases hd
  have hdone : ∀ {l'}, l' ≠ l → .linkRemoveDone l' ∉ main →
      .linkRemoveDone l' ∉ main ++ [.linkRemoveDone l] := by
    intro l' hl' hnot hmem
    rcases List.mem_append.mp hmem with hmem | hmem
    · exact hnot hmem
    · exact hl' (Invocation.linkRemoveDone.inj (List.mem_singleton.mp hmem))
  refine ⟨h.placed, h.heard.congr rfl rfl rfl rfl rfl fun n => ?_, ?_, ?_, h.once, h.wild⟩
  · rintro (hmem | hmem)
    · exact .inl (mem_of_mem_update hqueue hmem)
    · rcases List.mem_append.mp hmem with hmem | hmem
      · exact .inr hmem
      · cases List.mem_singleton.mp hmem
  · constructor
    · intro d' l'
      show (Function.update s.dataLoops d rest d').count (.linkRemove l') = _
      by_cases hl : l' = l
      · rw [hl, Function.update_self]
        by_cases hd' : d' = d
        · have hcount := h.referred.count d l
          rw [hqueue, List.count_cons_self] at hcount
          rw [hd', Function.update_self, List.count_erase_self]
          omega
        · rw [Function.update_of_ne hd', List.count_erase_of_ne hd', h.referred.count]
      · rw [Function.update_of_ne hl, ← h.referred.count]
        exact count_popData hqueue (fun heq => hl (Invocation.linkRemove.inj heq).symm) d'
    · intro l' hold
      obtain ⟨hlive, hcount, hnone, hnot⟩ := h.referred.whole hold
      rw [Function.update_of_ne (hne hnone)]
      exact ⟨hlive, hcount, hnone, hdone (hne hnone) hnot⟩
    · intro l' hold hmade hlive
      have hcount := h.referred.leaving hold hmade hlive
      show s.refcount l' = _ ∧ _
      by_cases hl : l' = l
      · rw [hl] at hcount ⊢
        rw [Function.update_self, List.count_append, List.count_singleton_self,
          List.length_erase_of_mem hd]
        have hpos := List.length_pos_of_mem hd
        refine ⟨?_, hcount.2⟩
        omega
      · have hother : (main ++ [Invocation.linkRemoveDone l]).count (.linkRemoveDone l') =
            main.count (.linkRemoveDone l') := by
          have hnot : Invocation.linkRemoveDone l' ∉ [Invocation.linkRemoveDone l] :=
            fun hmem => hl (Invocation.linkRemoveDone.inj (List.mem_singleton.mp hmem))
          rw [List.count_append, List.count_eq_zero.mpr hnot, Nat.add_zero]
        rw [Function.update_of_ne hl, hother]
        exact hcount
    · intro l' hfreed
      obtain ⟨hmade, hnone, hnot⟩ := h.referred.freed hfreed
      rw [Function.update_of_ne (hne hnone)]
      exact ⟨hmade, hnone, hdone (hne hnone) hnot⟩
    · intro l' hle
      obtain ⟨hnone, hnot⟩ := h.referred.fresh hle
      rw [Function.update_of_ne (hne hnone)]
      exact ⟨hnone, hdone (hne hnone) hnot⟩
    · intro l' dir p hside
      rcases h.referred.side hside with hold | hmem | hmem
      · exact .inl hold
      · by_cases hl : l' = l
        · rw [hl]
          exact .inr (.inr (List.mem_append_right _ List.mem_cons_self))
        · exact .inr (.inl (mem_update_of_mem hqueue hmem
            fun heq => hl (Invocation.linkRemove.inj heq)))
      · exact .inr (.inr (List.mem_append_left _ hmem))
    · intro l' dir p hside
      have hl : l' ≠ l := by
        intro heq
        change s.graph.wiring.rtSide l' dir = some p at hside
        rw [heq, hrt] at hside
        cases hside
      rw [Function.update_of_ne hl]
      exact h.referred.rtSide hside
  · apply (h.queued.pushMain (.inl ⟨l, rfl⟩)).popData hqueue
    intro l' heq
    rw [Invocation.linkRemove.inj heq]
    exact List.mem_append_right _ List.mem_cons_self

/-- A loop takes a link from both of its ports in the realtime thread. -/
theorem SafeWith.runLinkRemove (h : s.Safe loops)
    (hqueue : s.dataLoops d = .linkRemove l :: rest) :
    ∃ loops', (Daemon.doLinkRemove
      { s with dataLoops := Function.update s.dataLoops d rest } l).Safe loops' := by
  obtain ⟨-, hlive, -⟩ := h.live_of_linkRemove (hqueue ▸ List.mem_cons_self)
  have htouch : ∀ o ∈ Object.link l :: (s.graph.rtUses .input l ++ s.graph.rtUses .output l),
      o ∉ s.freed := by
    intro o ho
    rcases List.mem_cons.mp ho with rfl | ho
    · exact hlive
    · rcases List.mem_append.mp ho with ho | ho
      · exact h.rtUses o ho
      · exact h.rtUses o ho
  have hnone : ∀ dir, ((s.graph.removeRt .input l).removeRt .output l).wiring.rtSide l dir =
      none := by
    intro dir
    cases dir with
    | input =>
      rw [rtSide_removeRt_of_ne (.inr PinosDirection.noConfusion)]
      exact rtSide_removeRt_self
    | output => exact rtSide_removeRt_self
  have hgone := (SafeWith.removeRt h .input l).removeRt .output l
  unfold Daemon.doLinkRemove
  dsimp only
  rw [touch_of_live]
  swap
  · exact htouch
  exact ⟨_, (hgone.popLinkRemove hqueue hnone).withMainLoop _⟩

/-! ## The main loop at work -/

/-- The main loop is done with what is not for a link. -/
theorem SafeWith.popMain {inv : Invocation} (h : s.SafeWith (inv :: main) loops dying)
    (hinv : ∀ l, inv ≠ .linkRemoveDone l) : s.SafeWith main loops dying where
  placed := h.placed
  heard := h.heard.congr rfl rfl rfl rfl rfl fun _ hgoing =>
    hgoing.imp_right (List.mem_cons_of_mem inv)
  referred :=
    { count := h.referred.count
      whole := by
        intro l hwhole
        obtain ⟨hlive, hcount, hnone, hl⟩ := h.referred.whole hwhole
        exact ⟨hlive, hcount, hnone, fun hmem => hl (List.mem_cons_of_mem inv hmem)⟩
      leaving := by
        intro l hwhole hmade hlive
        have hcount := h.referred.leaving hwhole hmade hlive
        rwa [List.count_cons_of_ne (hinv l)] at hcount
      freed := by
        intro l hfreed
        obtain ⟨hmade, hnone, hl⟩ := h.referred.freed hfreed
        exact ⟨hmade, hnone, fun hmem => hl (List.mem_cons_of_mem inv hmem)⟩
      fresh := by
        intro l hle
        obtain ⟨hnone, hl⟩ := h.referred.fresh hle
        exact ⟨hnone, fun hmem => hl (List.mem_cons_of_mem inv hmem)⟩
      side := by
        intro l dir p hside
        rcases h.referred.side hside with hwhole | hmem | hmem
        · exact .inl hwhole
        · exact .inr (.inl hmem)
        · exact .inr (.inr ((List.mem_cons.mp hmem).resolve_left (hinv l).symm))
      rtSide := h.referred.rtSide }
  queued := h.queued.popMain fun l heq => absurd heq (hinv l)
  once := h.once
  wild := h.wild

/-- The buffers of a port are cleared. -/
theorem SafeWith.runClearDone (h : s.SafeWith (.clearBuffersDone p :: main) loops none) :
    (Daemon.doClearBuffersDone { s with mainLoop := main } p).Safe loops := by
  obtain ⟨-, -, hport, hnode⟩ := h.placed.ports (h.queued.clearDone List.mem_cons_self)
  have htouch : ∀ o ∈ [Object.port p, .node (s.graph.ports p).node], o ∉ s.freed := by
    intro o ho
    rcases List.mem_cons.mp ho with rfl | ho
    · exact hport
    · rw [List.mem_singleton.mp ho]
      exact hnode
  have hnext : SafeWith s main loops none := h.popMain fun _ heq => by cases heq
  unfold Daemon.doClearBuffersDone
  dsimp only
  rw [touch_of_live]
  swap
  · exact htouch
  refine (hnext.withGraph (g := if (s.graph.ports p).state.value ≤ PinosPortState.ready.value then
    s.graph else s.graph.clearPort p) ?_).withMainLoop main
  split
  · rfl
  · exact Graph.wiring_clearPort

/-- A graph in which a link has left its ports. -/
structure Left (g g' : Graph) (l : Nat) : Prop where
  others : ∀ {l' dir}, l' ≠ l → g'.wiring.side l' dir = g.wiring.side l' dir
  none : ∀ dir, g'.wiring.side l dir = none
  rest : { g'.wiring with
    side := g.wiring.side
    links := g.wiring.links
    usedLinks := g.wiring.usedLinks } = g.wiring

theorem Left.wiring {g g' : Graph} (h : Left g g' l) :
    g'.wiring = { g.wiring with
      side := g'.wiring.side
      links := g'.wiring.links
      usedLinks := g'.wiring.usedLinks } := by
  rw [← h.rest]

/-- A link that was destroyed leaves its ports. -/
theorem SafeWith.leave (h : s.SafeWith main loops dying) (hnot : ¬ s.Whole l) {g : Graph}
    (hleft : Left s.graph g l) (hplaced : g.wiring.Placed s.freed dying) :
    SafeWith { s with graph := g } main loops dying := by
  have hw : Graph.wiring { s with graph := g }.graph = { s.graph.wiring with
      side := g.wiring.side
      links := g.wiring.links
      usedLinks := g.wiring.usedLinks } := hleft.wiring
  have hkept : ∀ {l' dir p}, g.wiring.side l' dir = some p →
      s.graph.wiring.side l' dir = some p := by
    intro l' dir p hside
    by_cases hl : l' = l
    · rw [hl, hleft.none] at hside
      cases hside
    · rwa [hleft.others hl] at hside
  have hother : ∀ {l' dir}, s.Whole l' → g.wiring.side l' dir = s.graph.wiring.side l' dir :=
    fun hwhole => hleft.others fun heq => hnot (heq ▸ hwhole)
  refine ⟨hplaced, ?_, ?_, ?_, h.once, h.wild⟩
  · constructor
    · intro p l' hl'
      obtain ⟨hlt, hside, q, hq, hmem, hnode, hpair⟩ := h.heard.whole hl'
      have hgoing : ∀ {n}, GoingWith { s with graph := g } main n → s.GoingWith main n := by
        intro n hgone
        change .nodeRemove n ∈ s.dataLoops (Graph.wiring { s with graph := g }.graph |>.dataLoop n)
          ∨ _ at hgone
        rw [hw] at hgone
        exact hgone
      rw [hw]
      exact ⟨hlt, (hother ⟨p, hl'⟩).trans hside, q, (hother ⟨p, hl'⟩).trans hq, hmem, hnode,
        fun hp hq => hpair (hgoing hp) (hgoing hq)⟩
    · exact h.heard.nodup
    · intro n l' hl'
      rw [hw]
      exact h.heard.node hl'
    · exact h.heard.link
  · refine ⟨h.referred.count, h.referred.whole, h.referred.leaving, h.referred.freed,
      h.referred.fresh, ?_, ?_⟩
    · intro l' dir p hside
      have hold := h.referred.side (hkept hside)
      rw [hw]
      exact hold
    · intro l' dir p hside
      rw [hw] at hside
      exact h.referred.rtSide hside
  · constructor
    · intro d l' p hmem
      obtain ⟨hd, hlisted, hgone, hrt, hlink⟩ := h.queued.add hmem
      rw [hw]
      exact ⟨hd, hlisted, hgone, hrt, hlink.imp_left fun hl =>
        ⟨hl.1, (hother hl.1).trans hl.2⟩⟩
    · intro d d' l' p p' hmem hmem' hdir
      rw [hw] at hdir
      exact h.queued.addOnce hmem hmem' hdir
    · intro d p hmem
      rw [hw]
      exact h.queued.clear hmem
    · intro p hmem
      rw [hw]
      exact h.queued.clearDone hmem
    · intro d n hmem
      rw [hw]
      exact h.queued.remove hmem
    · exact h.queued.removeDone
    · intro l' dir p hside
      rw [hw] at hside ⊢
      exact h.queued.rtSide hside
    · exact h.queued.kinds
    · exact h.queued.kindsMain
    · intro d
      rw [hw]
      exact h.queued.order d
    · rw [hw]
      exact h.queued.orderMain
    · intro d n front rest l' dir p hsplit hside hnode
      rw [hw] at hnode
      exact h.queued.cut hsplit (hkept hside) hnode
    · intro n front rest l' dir p hsplit hside hnode
      rw [hw] at hnode
      exact h.queued.cutMain hsplit (hkept hside) hnode

theorem placed_removeSide {g : Graph} {freed : List Object} (h : g.wiring.Placed freed dying)
    (dir : PinosDirection) (l : Nat) : (g.removeSide dir l).wiring.Placed freed dying := by
  cases hside : g.wiring.side l dir with
  | none =>
    rw [Graph.removeSide_none hside]
    exact h
  | some p =>
    have hdir : g.wiring.direction p = dir := (h.ports (h.side hside)).2.1
    have hlinks : ∀ q, (g.removeSide dir l).wiring.links q =
        if q = p then (g.wiring.links p).erase l else g.wiring.links q := by
      intro q
      rw [Graph.wiring_removeSide hside]
      exact Wiring.links_detach dir l p (g.wiring.node p) q
    have hw : (g.removeSide dir l).wiring = { g.wiring with
        side := (g.removeSide dir l).wiring.side
        links := (g.removeSide dir l).wiring.links
        usedLinks := (g.removeSide dir l).wiring.usedLinks } := by
      rw [Graph.wiring_removeSide hside]
      rfl
    have hmem : ∀ {q l'}, l' ∈ (g.removeSide dir l).wiring.links q →
        l' ∈ g.wiring.links q ∧ (q = p → l' ≠ l) := by
      intro q l' hl'
      rw [hlinks] at hl'
      split at hl'
      · next hq =>
        obtain ⟨hne, hl'⟩ := (h.linksNodup p).mem_erase_iff.mp hl'
        exact ⟨hq ▸ hl', fun _ => hne⟩
      · next hq => exact ⟨hl', fun heq => absurd heq hq⟩
    have hkept : ∀ {l' dir' q}, (g.removeSide dir l).wiring.side l' dir' = some q →
        g.wiring.side l' dir' = some q := by
      intro l' dir' q hs
      by_cases hne : l' ≠ l ∨ dir' ≠ dir
      · rwa [side_removeSide_of_ne hne] at hs
      · obtain ⟨hl, hd⟩ := not_or.mp hne
        rw [not_not.mp hl, not_not.mp hd, side_removeSide_self] at hs
        cases hs
    constructor
    · rw [hw]
      exact h.nodup
    · rw [hw]
      exact h.ports
    · intro l' dir' q hs
      rw [hw]
      exact h.side (hkept hs)
    · intro l' dir' q hs
      rw [hw] at hs ⊢
      exact h.rtSide hs
    · intro q
      rw [hlinks]
      split
      · exact (h.linksNodup p).erase l
      · exact h.linksNodup q
    · intro q l' hl'
      have hold := h.listed (hmem hl').1
      rw [hw]
      exact hold
    · intro q l' hl'
      obtain ⟨hl', hne⟩ := hmem hl'
      have hnode : (g.removeSide dir l).wiring.node = g.wiring.node := by rw [hw]
      have hdirs : (g.removeSide dir l).wiring.direction = g.wiring.direction := by rw [hw]
      rw [hnode, hdirs]
      rcases h.links hl' with hfreed | hdying | hs
      · exact .inl hfreed
      · exact .inr (.inl hdying)
      · refine .inr (.inr ?_)
        rw [side_removeSide_of_ne, hs]
        by_contra hboth
        obtain ⟨hl, hd⟩ := not_or.mp hboth
        rw [not_not.mp hl, not_not.mp hd, hside] at hs
        exact hne (Option.some.inj hs).symm (not_not.mp hl)
    · rw [hw]
      exact h.rtNodup
    · rw [hw]
      exact h.memRt

theorem left_removeSides {g : Graph} :
    Left g ((g.removeSide .input l).removeSide .output l) l where
  others hne := by rw [side_removeSide_of_ne (.inl hne), side_removeSide_of_ne (.inl hne)]
  none dir := by
    cases dir with
    | input =>
      rw [side_removeSide_of_ne (.inr PinosDirection.noConfusion)]
      exact side_removeSide_self
    | output => exact side_removeSide_self
  rest := by
    have hstep : ∀ {g : Graph} {dir : PinosDirection} {side : Nat → PinosDirection → Option Nat}
        {links : Nat → List Nat} {usedLinks : Nat → PinosDirection → UInt32},
        { (g.removeSide dir l).wiring with side := side, links := links, usedLinks := usedLinks } =
          { g.wiring with side := side, links := links, usedLinks := usedLinks } := by
      intro g dir side links usedLinks
      cases hside : g.wiring.side l dir with
      | none => rw [Graph.removeSide_none hside]
      | some p =>
        rw [Graph.wiring_removeSide hside]
        rfl
    rw [hstep, hstep]

theorem placed_free {w : Wiring} {freed : List Object} (h : w.Placed freed dying) (l : Nat) :
    w.Placed (freed ++ [.link l]) dying where
  nodup := h.nodup
  ports hp := by
    obtain ⟨hnode, hdir, hport, hn⟩ := h.ports hp
    refine ⟨hnode, hdir, fun hmem => ?_, fun hmem => ?_⟩
    · rcases List.mem_append.mp hmem with hmem | hmem
      · exact hport hmem
      · cases List.mem_singleton.mp hmem
    · rcases List.mem_append.mp hmem with hmem | hmem
      · exact hn hmem
      · cases List.mem_singleton.mp hmem
  side := h.side
  rtSide := h.rtSide
  linksNodup := h.linksNodup
  listed hl := (h.listed hl).imp_left (List.mem_append_left _)
  links hl := (h.links hl).imp_left (List.mem_append_left _)
  rtNodup := h.rtNodup
  memRt := h.memRt

/-- The main loop is done with a link that has left its ports, and frees it in the end. -/
theorem SafeWith.popLinkRemoveDone (h : s.SafeWith (.linkRemoveDone l :: main) loops dying)
    (hnone : ∀ dir, s.graph.wiring.side l dir = none) :
    (s.unref l).SafeWith main loops dying := by
  have hwhole : ¬ s.Whole l := fun hw => (h.referred.whole hw).2.2.2 List.mem_cons_self
  have hlive : .link l ∉ s.freed := fun hf => (h.referred.freed hf).2.2 List.mem_cons_self
  have hlt : l < s.nLinks := by
    by_contra hle
    exact (h.referred.fresh (Nat.le_of_not_lt hle)).2 List.mem_cons_self
  obtain ⟨hcount, -⟩ := h.referred.leaving hwhole hlt hlive
  rw [List.count_cons_self] at hcount
  have hqueued : s.Queued main := by
    apply h.queued.popMain
    intro l' heq
    cases heq
    exact hnone
  have hheard : s.Heard main := h.heard.congr rfl rfl rfl rfl rfl fun _ hgoing =>
    hgoing.imp_right (List.mem_cons_of_mem _)
  have hothers : ∀ {l'}, l' ≠ l → .linkRemoveDone l' ∈ Invocation.linkRemoveDone l :: main →
      .linkRemoveDone l' ∈ main := by
    intro l' hl' hmem
    rcases List.mem_cons.mp hmem with heq | hmem
    · exact absurd (Invocation.linkRemoveDone.inj heq) hl'
    · exact hmem
  have hside : ∀ {l' dir p}, s.graph.wiring.side l' dir = some p → l' ≠ l := by
    intro l' dir p hs heq
    rw [heq, hnone] at hs
    cases hs
  have hrefs : ∀ {l'}, l' ≠ l → ¬ s.Whole l' → l' < s.nLinks → .link l' ∉ s.freed →
      s.refcount l' = (loops l').length + main.count (.linkRemoveDone l') ∧
        0 < s.refcount l' := by
    intro l' hl' hw hmade hf
    have hcount := h.referred.leaving hw hmade hf
    rwa [List.count_cons_of_ne fun heq => hl' (Invocation.linkRemoveDone.inj heq).symm] at hcount
  by_cases hone : s.refcount l = 1
  · have hloops : loops l = [] := List.eq_nil_of_length_eq_zero (by omega)
    have hdone : .linkRemoveDone l ∉ main := List.count_eq_zero.mp (by omega)
    have hfree : ∀ {o : Object}, o ∈ s.freed ++ [.link l] → o ∈ s.freed ∨ o = .link l := by
      intro o ho
      rwa [List.mem_append, List.mem_singleton] at ho
    rw [unref_free hone]
    refine ⟨placed_free h.placed l,
      ⟨hheard.whole, hheard.nodup, hheard.node, hheard.link⟩, ?_, ?_, ?_, h.wild⟩
    · constructor
      · exact h.referred.count
      · intro l' hw
        obtain ⟨hlive', hcount', hnil, hnot⟩ := h.referred.whole hw
        have hl' : l' ≠ l := fun heq => hwhole (heq ▸ hw)
        refine ⟨fun hf => ?_, (Function.update_of_ne hl' ..).trans hcount', hnil,
          fun hmem => hnot (List.mem_cons_of_mem _ hmem)⟩
        rcases hfree hf with hf | heq
        · exact hlive' hf
        · exact hl' (Object.link.inj heq)
      · intro l' hw hmade hf
        have hl' : l' ≠ l := by
          rintro rfl
          exact hf (List.mem_append_right _ List.mem_cons_self)
        show Function.update s.refcount l 0 l' = _ ∧ 0 < Function.update s.refcount l 0 l'
        rw [Function.update_of_ne hl']
        exact hrefs hl' hw hmade fun hold => hf (List.mem_append_left _ hold)
      · intro l' hf
        rcases hfree hf with hf | heq
        · obtain ⟨hmade, hnil, hnot⟩ := h.referred.freed hf
          exact ⟨hmade, hnil, fun hmem => hnot (List.mem_cons_of_mem _ hmem)⟩
        · cases heq
          exact ⟨hlt, hloops, hdone⟩
      · intro l' hle
        obtain ⟨hnil, hnot⟩ := h.referred.fresh hle
        exact ⟨hnil, fun hmem => hnot (List.mem_cons_of_mem _ hmem)⟩
      · intro l' dir p hs
        exact (h.referred.side hs).imp_right fun hlink => hlink.imp_right (hothers (hside hs))
      · exact h.referred.rtSide
    · refine ⟨hqueued.add, hqueued.addOnce, hqueued.clear, hqueued.clearDone, ?_, ?_,
        hqueued.rtSide, hqueued.kinds, hqueued.kindsMain, hqueued.order, hqueued.orderMain,
        hqueued.cut, hqueued.cutMain⟩
      · intro d n hmem
        obtain ⟨hd, hn, hnot⟩ := hqueued.remove hmem
        refine ⟨hd, fun hf => ?_, hnot⟩
        rcases hfree hf with hf | heq
        · exact hn hf
        · cases heq
      · intro n hmem hf
        rcases hfree hf with hf | heq
        · exact hqueued.removeDone hmem hf
        · cases heq
    · show (s.freed ++ [Object.link l]).Nodup
      rw [List.nodup_append]
      refine ⟨h.once, by simp, fun o ho o' ho' heq => ?_⟩
      rw [heq, List.mem_singleton.mp ho'] at ho
      exact hlive ho
  · rw [unref_keep hone]
    refine ⟨h.placed, ⟨hheard.whole, hheard.nodup, hheard.node, hheard.link⟩, ?_,
      ⟨hqueued.add, hqueued.addOnce, hqueued.clear, hqueued.clearDone, hqueued.remove,
        hqueued.removeDone, hqueued.rtSide, hqueued.kinds, hqueued.kindsMain, hqueued.order,
        hqueued.orderMain, hqueued.cut, hqueued.cutMain⟩, h.once, h.wild⟩
    constructor
    · exact h.referred.count
    · intro l' hw
      obtain ⟨hlive', hcount', hnil, hnot⟩ := h.referred.whole hw
      have hl' : l' ≠ l := fun heq => hwhole (heq ▸ hw)
      exact ⟨hlive', (Function.update_of_ne hl' ..).trans hcount', hnil,
        fun hmem => hnot (List.mem_cons_of_mem _ hmem)⟩
    · intro l' hw hmade hf
      show Function.update s.refcount l _ l' = _ ∧ 0 < Function.update s.refcount l _ l'
      by_cases hl' : l' = l
      · rw [hl', Function.update_self]
        omega
      · rw [Function.update_of_ne hl']
        exact hrefs hl' hw hmade hf
    · intro l' hf
      obtain ⟨hmade, hnil, hnot⟩ := h.referred.freed hf
      exact ⟨hmade, hnil, fun hmem => hnot (List.mem_cons_of_mem _ hmem)⟩
    · intro l' hle
      obtain ⟨hnil, hnot⟩ := h.referred.fresh hle
      exact ⟨hnil, fun hmem => hnot (List.mem_cons_of_mem _ hmem)⟩
    · intro l' dir p hs
      exact (h.referred.side hs).imp_right fun hlink => hlink.imp_right (hothers (hside hs))
    · exact h.referred.rtSide

theorem mainLoop_unref : (s.unref l).mainLoop = s.mainLoop := by
  unfold Daemon.unref
  dsimp only
  split <;> rfl

/-- The main loop takes a link from both of its ports. -/
theorem SafeWith.runLinkRemoveDone (h : s.SafeWith (.linkRemoveDone l :: main) loops none) :
    (Daemon.doLinkRemoveDone { s with mainLoop := main } l).Safe loops := by
  have hwhole : ¬ s.Whole l := fun hw => (h.referred.whole hw).2.2.2 List.mem_cons_self
  have hlive : .link l ∉ s.freed := fun hf => (h.referred.freed hf).2.2 List.mem_cons_self
  have htouch : ∀ o ∈ Object.link l :: (s.graph.sideUses .input l ++ s.graph.sideUses .output l),
      o ∉ s.freed := by
    intro o ho
    rcases List.mem_cons.mp ho with rfl | ho
    · exact hlive
    · rcases List.mem_append.mp ho with ho | ho
      · exact h.sideUses o ho
      · exact h.sideUses o ho
  have hplaced : ((s.graph.removeSide .input l).removeSide .output l).wiring.Placed s.freed none :=
    placed_removeSide (placed_removeSide h.placed .input l) .output l
  have hleft := (h.leave hwhole left_removeSides hplaced).withMainLoop main
  unfold Daemon.doLinkRemoveDone
  dsimp only
  rw [touch_of_live]
  swap
  · exact htouch
  show SafeWith _ (Daemon.unref _ l).mainLoop loops none
  rw [mainLoop_unref]
  exact hleft.popLinkRemoveDone left_removeSides.none

end Daemon
end Pinos
