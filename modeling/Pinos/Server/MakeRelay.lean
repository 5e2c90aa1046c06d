import Pinos.Server.LinkRelay

/-
Links that are made, whatever else is on its way.
-/

namespace Pinos
namespace Daemon

variable {s : Daemon} {main : List Invocation} {loops : Nat → List Nat} {dying : Option Nat}
variable {l p n d : Nat} {dir : PinosDirection}

/-! ## A link before the loops know it -/

variable {output input : Nat}

theorem listeners_makeLink (o : Object) :
    (s.makeLink output input).listeners o =
      if o = .port output ∨ o = .node (s.graph.wiring.node output) then
        (if o = .port input ∨ o = .node (s.graph.wiring.node input) then
          s.listeners o ++ [s.nLinks] else s.listeners o) ++ [s.nLinks]
      else if o = .port input ∨ o = .node (s.graph.wiring.node input) then
        s.listeners o ++ [s.nLinks]
      else s.listeners o := rfl

/-- A port or its node, and not the other port or its node. -/
theorem mem_listeners_makeLink {o : Object} {l' : Nat} :
    l' ∈ (s.makeLink output input).listeners o ↔ l' ∈ s.listeners o ∨ l' = s.nLinks ∧
      ((o = .port output ∨ o = .node (s.graph.wiring.node output)) ∨
        o = .port input ∨ o = .node (s.graph.wiring.node input)) := by
  rw [listeners_makeLink]
  by_cases hout : o = .port output ∨ o = .node (s.graph.wiring.node output)
  · rw [if_pos hout]
    by_cases hin : o = .port input ∨ o = .node (s.graph.wiring.node input)
    · rw [if_pos hin]
      simp [hout]
    · rw [if_neg hin]
      simp [hout]
  · rw [if_neg hout]
    by_cases hin : o = .port input ∨ o = .node (s.graph.wiring.node input)
    · rw [if_pos hin]
      simp [hin]
    · rw [if_neg hin]
      simp [hout, hin]

/-- What is asked for a link to be made. -/
structure Making (s : Daemon) (main : List Invocation) (output input : Nat) : Prop where
  outListed : s.Listed .output output
  inListed : s.Listed .input input
  nodes : s.graph.wiring.node output ≠ s.graph.wiring.node input
  outGoing : ¬ s.GoingWith main (s.graph.wiring.node output)
  inGoing : ¬ s.GoingWith main (s.graph.wiring.node input)

/-- The ports of a new link. -/
theorem Making.direction (hmaking : s.Making main output input)
    (h : s.SafeWith main loops dying) :
    s.graph.wiring.direction output = .output ∧ s.graph.wiring.direction input = .input :=
  ⟨(h.placed.ports hmaking.outListed).2.1, (h.placed.ports hmaking.inListed).2.1⟩

/-- A link that is not made has left no trace. -/
theorem SafeWith.fresh (h : s.SafeWith main loops dying) :
    (∀ dir, s.graph.wiring.side s.nLinks dir = none) ∧
      (∀ dir, s.graph.wiring.rtSide s.nLinks dir = none) ∧ ¬ s.Whole s.nLinks ∧
      (∀ d, .linkRemove s.nLinks ∉ s.dataLoops d) ∧
      (∀ d p, .addLink s.nLinks p ∉ s.dataLoops d) ∧ .link s.nLinks ∉ s.freed := by
  have hside : ∀ dir, s.graph.wiring.side s.nLinks dir = none := by
    intro dir
    cases hside : s.graph.wiring.side s.nLinks dir with
    | none => rfl
    | some p => exact absurd (h.side_live hside).1 (Nat.lt_irrefl _)
  have hrt : ∀ dir, s.graph.wiring.rtSide s.nLinks dir = none := by
    intro dir
    cases hrt : s.graph.wiring.rtSide s.nLinks dir with
    | none => rfl
    | some p => exact absurd (h.rtSide_live hrt).1 (Nat.lt_irrefl _)
  have hwhole : ¬ s.Whole s.nLinks := fun hw => Nat.lt_irrefl _ (h.heard.lt hw)
  have hremove : ∀ d, .linkRemove s.nLinks ∉ s.dataLoops d := by
    intro d
    rw [← List.count_eq_zero, h.referred.count, (h.referred.fresh (Nat.le_refl _)).1]
    rfl
  refine ⟨hside, hrt, hwhole, hremove, fun d p hmem => ?_, fun hfreed => ?_⟩
  · obtain ⟨-, -, -, -, hlink⟩ := h.queued.add hmem
    exact hlink.elim (fun hw => hwhole hw.1) (hremove d)
  · exact Nat.lt_irrefl _ (h.referred.freed hfreed).1

theorem SafeWith.placed_link (h : s.SafeWith main loops none)
    (hmaking : s.Making main output input) :
    (s.graph.wiring.link s.nLinks output input).Placed s.freed none := by
  obtain ⟨hside, -, -⟩ := h.fresh
  obtain ⟨hout, hin⟩ := hmaking.direction h
  have hport : ∀ {dir p}, s.Listed dir p → s.graph.wiring.direction p = dir →
      s.nLinks ∉ s.graph.wiring.links p := by
    intro dir p hlisted hdir hmem
    rcases h.placed.links hmem with hfreed | hnone | hold
    · exact (h.placed.ports hlisted).2.2.1 hfreed
    · cases hnone
    · rw [hside] at hold
      cases hold
  have hne : input ≠ output := fun heq => hmaking.nodes (congrArg s.graph.wiring.node heq.symm)
  have hlinks : ∀ p, (s.graph.wiring.link s.nLinks output input).links p =
      if p = output ∨ p = input then s.graph.wiring.links p ++ [s.nLinks]
      else s.graph.wiring.links p := by
    intro p
    show (((s.graph.wiring.join .output s.nLinks output).setLinks input _).links p) = _
    by_cases hp : p = input
    · have hfirst : (s.graph.wiring.join .output s.nLinks output).links input =
          s.graph.wiring.links input := Wiring.links_setLinks_of_ne hne
      rw [hp, Wiring.links_setLinks, hfirst, if_pos (.inr rfl)]
    · rw [Wiring.links_setLinks_of_ne hp]
      by_cases hp' : p = output
      · rw [hp', if_pos (.inl rfl)]
        exact Wiring.links_setLinks
      · rw [if_neg (not_or.mpr ⟨hp', hp⟩)]
        exact Wiring.links_setLinks_of_ne hp'
  have hcases : ∀ {p l}, l ∈ (s.graph.wiring.link s.nLinks output input).links p →
      l ∈ s.graph.wiring.links p ∨ l = s.nLinks ∧ (p = output ∨ p = input) := by
    intro p l hl
    rw [hlinks] at hl
    split at hl
    · next hp =>
      rcases List.mem_append.mp hl with hl | hl
      · exact .inl hl
      · exact .inr ⟨List.mem_singleton.mp hl, hp⟩
    · exact .inl hl
  have hnew : ∀ {p}, p = output ∨ p = input →
      s.Listed (s.graph.wiring.direction p) p ∧
        (s.graph.wiring.link s.nLinks output input).side s.nLinks (s.graph.wiring.direction p) =
          some p := by
    intro p hp
    rcases hp with rfl | rfl
    · rw [hout]
      exact ⟨hmaking.outListed, Wiring.side_link_output⟩
    · rw [hin]
      exact ⟨hmaking.inListed, Wiring.side_link_input⟩
  exact
    { nodup := h.placed.nodup
      ports := h.placed.ports
      side := by
        intro l dir p hl
        by_cases hlne : l = s.nLinks
        · rw [hlne] at hl
          cases dir with
          | input =>
            cases Wiring.side_link_input.symm.trans hl
            exact hmaking.inListed
          | output =>
            cases Wiring.side_link_output.symm.trans hl
            exact hmaking.outListed
        · rw [Wiring.side_link_of_ne hlne] at hl
          exact h.placed.side hl
      rtSide := h.placed.rtSide
      linksNodup := by
        intro p
        rw [hlinks]
        split
        · next hp =>
          obtain ⟨hlisted, -⟩ := hnew hp
          rw [List.nodup_append]
          refine ⟨h.placed.linksNodup p, by simp, fun l hl l' hl' heq => ?_⟩
          rw [heq, List.mem_singleton.mp hl'] at hl
          exact hport hlisted rfl hl
        · exact h.placed.linksNodup p
      listed := by
        intro p l hl
        rcases hcases hl with hl | ⟨-, hp⟩
        · exact h.placed.listed hl
        · exact .inr (hnew hp).1
      links := by
        intro p l hl
        rcases hcases hl with hl | ⟨rfl, hp⟩
        · rcases h.placed.links hl with hfreed | hnone | hold
          · exact .inl hfreed
          · cases hnone
          · refine .inr (.inr ?_)
            have hlne : l ≠ s.nLinks := by
              intro heq
              rw [heq, hside] at hold
              cases hold
            exact (Wiring.side_link_of_ne hlne).trans hold
        · exact .inr (.inr (hnew hp).2)
      rtNodup := h.placed.rtNodup
      memRt := h.placed.memRt }

/-- A new link, before the loops are asked to know it. -/
def made (s : Daemon) (output input : Nat) : Daemon :=
  { s with
    graph := s.graph.addLink s.nLinks output input
    nLinks := s.nLinks + 1
    refcount := Function.update s.refcount s.nLinks 1
    resources := Function.update s.resources s.nLinks 0
    listeners := (s.makeLink output input).listeners }

theorem SafeWith.makeLink_eq (h : s.SafeWith main loops none)
    (hmaking : s.Making main output input) :
    s.makeLink output input =
      ((s.made output input).invokeData ((s.graph.addLink s.nLinks output input).loopOf output)
        (.addLink s.nLinks output)).invokeData
          ((s.graph.addLink s.nLinks output input).loopOf input) (.addLink s.nLinks input) := by
  obtain ⟨listeners, heq⟩ := Daemon.makeLink_eq (h.clean output) (h.clean input) hmaking.nodes
  have hlisteners : (s.makeLink output input).listeners = listeners := by
    rw [heq]
    rfl
  rw [made, hlisteners, heq]

theorem SafeWith.wiring_made (h : s.SafeWith main loops none) :
    (s.made output input).graph.wiring = s.graph.wiring.link s.nLinks output input :=
  Graph.wiring_addLink.trans (Wiring.newLink_attach h.fresh.2.1)

theorem SafeWith.goingWith_made (h : s.SafeWith main loops none) :
    (s.made output input).GoingWith main n ↔ s.GoingWith main n := by
  show .nodeRemove n ∈ s.dataLoops ((s.made output input).graph.wiring.dataLoop n) ∨ _ ↔ _
  rw [h.wiring_made]
  exact Iff.rfl

theorem whole_made {l' : Nat} :
    (s.made output input).Whole l' ↔ s.Whole l' ∨ l' = s.nLinks := by
  constructor
  · rintro ⟨p, hp⟩
    exact (mem_listeners_makeLink.mp hp).imp (fun hp => ⟨p, hp⟩) fun hnew => hnew.1
  · rintro (⟨p, hp⟩ | rfl)
    · exact ⟨p, mem_listeners_makeLink.mpr (.inl hp)⟩
    · exact ⟨output, mem_listeners_makeLink.mpr (.inr ⟨rfl, .inl (.inl rfl)⟩)⟩

theorem SafeWith.heard_made (h : s.SafeWith main loops none)
    (hmaking : s.Making main output input) : (s.made output input).Heard main := by
  obtain ⟨hout, hin⟩ := hmaking.direction h
  have hnew : ∀ {o : Object}, s.nLinks ∉ s.listeners o :=
    fun hmem => h.fresh.2.2.1 (h.heard.whole_of_mem hmem)
  have hself : ∀ {o : Object}, o = .port output ∨ o = .port input →
      s.nLinks ∈ (s.made output input).listeners o := by
    intro o ho
    apply mem_listeners_makeLink.mpr
    rcases ho with rfl | rfl
    · exact .inr ⟨rfl, .inl (.inl rfl)⟩
    · exact .inr ⟨rfl, .inr (.inl rfl)⟩
  constructor
  · intro p l' hl'
    have hgoing : ∀ {n}, (s.made output input).GoingWith main n → s.GoingWith main n :=
      h.goingWith_made.mp
    rw [h.wiring_made]
    show l' < s.nLinks + 1 ∧ _ = some p ∧ ∃ q, _ = some q ∧
      l' ∈ (s.made output input).listeners (.port q) ∧
        s.graph.wiring.node q ≠ s.graph.wiring.node p ∧
        ((s.made output input).GoingWith main (s.graph.wiring.node p) →
          ¬ (s.made output input).GoingWith main (s.graph.wiring.node q))
    rcases mem_listeners_makeLink.mp hl' with hold | ⟨rfl, hp⟩
    · obtain ⟨hmade, hside, q, hother, hq, hnode, hpair⟩ := h.heard.whole hold
      have hne : l' ≠ s.nLinks := Nat.ne_of_lt hmade
      exact ⟨Nat.lt_succ_of_lt hmade, (Wiring.side_link_of_ne hne).trans hside, q,
        (Wiring.side_link_of_ne hne).trans hother, mem_listeners_makeLink.mpr (.inl hq), hnode,
        fun hp hq => hpair (hgoing hp) (hgoing hq)⟩
    · have hport : p = output ∨ p = input := by
        rcases hp with (heq | heq) | heq | heq <;> cases heq
        · exact .inl rfl
        · exact .inr rfl
      rcases hport with rfl | rfl
      · refine ⟨Nat.lt_succ_self _, ?_, input, ?_, hself (.inr rfl), hmaking.nodes.symm,
          fun hgone => absurd (hgoing hgone) hmaking.outGoing⟩
        · show (s.graph.wiring.link _ p input).side s.nLinks (s.graph.wiring.direction p) = some p
          rw [hout]
          exact Wiring.side_link_output
        · show (s.graph.wiring.link _ p input).side s.nLinks (s.graph.wiring.direction p).other =
            some input
          rw [hout]
          exact Wiring.side_link_input
      · refine ⟨Nat.lt_succ_self _, ?_, output, ?_, hself (.inl rfl), hmaking.nodes,
          fun hgone => absurd (hgoing hgone) hmaking.inGoing⟩
        · show (s.graph.wiring.link _ output p).side s.nLinks (s.graph.wiring.direction p) = some p
          rw [hin]
          exact Wiring.side_link_input
        · show (s.graph.wiring.link _ output p).side s.nLinks
            (s.graph.wiring.direction p).other = some output
          rw [hin]
          exact Wiring.side_link_output
  · intro o
    show ((s.makeLink output input).listeners o).Nodup
    have happend : (s.listeners o ++ [s.nLinks]).Nodup := by
      rw [List.nodup_append]
      refine ⟨h.heard.nodup o, by simp, fun l hl l' hl' heq => @hnew o ?_⟩
      rw [← List.mem_singleton.mp hl', ← heq]
      exact hl
    have hboth : ¬ ((o = .port output ∨ o = .node (s.graph.wiring.node output)) ∧
        (o = .port input ∨ o = .node (s.graph.wiring.node input))) := by
      rintro ⟨rfl | rfl, heq | heq⟩
      · cases heq
        exact hmaking.nodes rfl
      · cases heq
      · cases heq
      · exact hmaking.nodes (Object.node.inj heq)
    rw [listeners_makeLink]
    split
    · next ho =>
      rw [if_neg fun hi => hboth ⟨ho, hi⟩]
      exact happend
    · split
      · exact happend
      · exact h.heard.nodup o
  · intro n l' hl'
    rw [h.wiring_made]
    show ∃ p, s.graph.wiring.node p = n ∧ l' ∈ (s.made output input).listeners (.port p)
    rcases mem_listeners_makeLink.mp hl' with hold | ⟨rfl, hn⟩
    · obtain ⟨p, hnode, hp⟩ := h.heard.node hold
      exact ⟨p, hnode, mem_listeners_makeLink.mpr (.inl hp)⟩
    · rcases hn with (heq | heq) | heq | heq <;> cases heq
      · exact ⟨output, rfl, hself (.inl rfl)⟩
      · exact ⟨input, rfl, hself (.inr rfl)⟩
  · intro l'
    show (s.makeLink output input).listeners (.link l') = []
    rw [listeners_makeLink, if_neg (by rintro (heq | heq) <;> cases heq),
      if_neg (by rintro (heq | heq) <;> cases heq), h.heard.link]

theorem SafeWith.referred_made (h : s.SafeWith main loops none) :
    (s.made output input).Referred main loops := by
  have hwhole : ∀ {l'}, (s.made output input).Whole l' ↔ s.Whole l' ∨ l' = s.nLinks :=
    whole_made
  constructor
  · exact h.referred.count
  · intro l' hl'
    show _ ∧ Function.update s.refcount _ _ l' =
      1 + ((Function.update s.resources s.nLinks 0 l' : Nat) : Int) ∧ _
    rcases hwhole.mp hl' with hold | rfl
    · have hne : l' ≠ s.nLinks := Nat.ne_of_lt (h.heard.lt hold)
      rw [Function.update_of_ne hne, Function.update_of_ne hne]
      exact h.referred.whole hold
    · rw [Function.update_self, Function.update_self]
      exact ⟨h.fresh.2.2.2.2.2, rfl, h.referred.fresh (Nat.le_refl _)⟩
  · intro l' hl' hmade hlive
    obtain ⟨hold, hne⟩ := not_or.mp (mt hwhole.mpr hl')
    show Function.update s.refcount _ _ l' = _ ∧ 0 < Function.update s.refcount _ _ l'
    rw [Function.update_of_ne hne]
    have hlt : l' < s.nLinks + 1 := hmade
    exact h.referred.leaving hold (by omega) hlive
  · intro l' hfreed
    obtain ⟨hmade, hpending⟩ := h.referred.freed hfreed
    exact ⟨Nat.lt_succ_of_lt hmade, hpending⟩
  · intro l' hle
    exact h.referred.fresh (Nat.le_of_succ_le hle)
  · intro l' dir p hside
    rw [h.wiring_made] at hside ⊢
    by_cases hne : l' = s.nLinks
    · exact .inl (hwhole.mpr (.inr hne))
    · rw [Wiring.side_link_of_ne hne] at hside
      exact (h.referred.side hside).imp_left fun hold => hwhole.mpr (.inl hold)
  · intro l' dir p hside
    rw [h.wiring_made] at hside
    exact (h.referred.rtSide hside).imp_left fun hold => hwhole.mpr (.inl hold)

theorem SafeWith.queued_made (h : s.SafeWith main loops none) :
    (s.made output input).Queued main := by
  obtain ⟨hside, -, -, -, hadd, -⟩ := h.fresh
  have hwhole : ∀ {l'}, (s.made output input).Whole l' ↔ s.Whole l' ∨ l' = s.nLinks :=
    whole_made
  have hold : ∀ {l' dir p}, l' ≠ s.nLinks →
      (s.graph.wiring.link s.nLinks output input).side l' dir = some p →
        s.graph.wiring.side l' dir = some p :=
    fun hne hs => (Wiring.side_link_of_ne hne).symm.trans hs
  constructor
  · intro d l' p hmem
    have hne : l' ≠ s.nLinks := fun heq => hadd d p (heq ▸ hmem)
    obtain ⟨hd, hlisted, hgone, hrt, hlink⟩ := h.queued.add hmem
    rw [h.wiring_made]
    exact ⟨hd, hlisted, hgone, hrt, hlink.imp_left fun hl =>
      ⟨hwhole.mpr (.inl hl.1), (Wiring.side_link_of_ne hne).trans hl.2⟩⟩
  · intro d d' l' p p' hmem hmem' hdir
    rw [h.wiring_made] at hdir
    exact h.queued.addOnce hmem hmem' hdir
  · intro d p hmem
    rw [h.wiring_made]
    exact h.queued.clear hmem
  · intro p hmem
    rw [h.wiring_made]
    exact h.queued.clearDone hmem
  · intro d n hmem
    rw [h.wiring_made]
    exact h.queued.remove hmem
  · exact h.queued.removeDone
  · intro l' dir p hs
    rw [h.wiring_made] at hs ⊢
    exact h.queued.rtSide hs
  · exact h.queued.kinds
  · exact h.queued.kindsMain
  · intro d
    rw [h.wiring_made]
    exact h.queued.order d
  · rw [h.wiring_made]
    exact h.queued.orderMain
  · intro d n front rest l' dir p hsplit hs hnode
    rw [h.wiring_made] at hs hnode
    by_cases hne : l' = s.nLinks
    · exact .inl (hwhole.mpr (.inr hne))
    · exact (h.queued.cut hsplit (hold hne hs) hnode).imp_left fun hw => hwhole.mpr (.inl hw)
  · intro n front rest l' dir p hsplit hs hnode
    rw [h.wiring_made] at hs hnode
    by_cases hne : l' = s.nLinks
    · exact .inl (hwhole.mpr (.inr hne))
    · exact (h.queued.cutMain hsplit (hold hne hs) hnode).imp_left fun hw => hwhole.mpr (.inl hw)

theorem SafeWith.made (h : s.SafeWith main loops none) (hmaking : s.Making main output input) :
    (s.made output input).SafeWith main loops none where
  placed := by
    rw [h.wiring_made]
    exact h.placed_link hmaking
  heard := h.heard_made hmaking
  referred := h.referred_made
  queued := h.queued_made
  once := h.once
  wild := h.wild

/-- The loop of a port that is not going is asked to know a link. -/
theorem SafeWith.invokeAdd (h : s.SafeWith main loops dying) (hp : s.Listed dir p)
    (hgoing : ¬ s.GoingWith main (s.graph.wiring.node p)) (hl : s.Whole l)
    (hside : s.graph.wiring.side l dir = some p) (hrt : s.graph.wiring.rtSide l dir = none)
    (hremove : ∀ d, .linkRemove l ∉ s.dataLoops d)
    (hadd : ∀ {d p'}, .addLink l p' ∈ s.dataLoops d → s.graph.wiring.direction p' ≠ dir) :
    (s.invokeData (s.graph.wiring.dataLoop (s.graph.wiring.node p)) (.addLink l p)).SafeWith main
      loops dying := by
  obtain ⟨hdata, hmain⟩ := not_or.mp hgoing
  have hdir : s.graph.wiring.direction p = dir := (h.placed.ports hp).2.1
  apply h.invokeData (fun _ heq => by cases heq) (fun _ heq => by cases heq)
  apply h.queued.invokeData (.inl ⟨l, p, rfl⟩)
  · intro l' p' heq
    cases heq
    rw [hdir]
    exact ⟨rfl, hp, hmain, hrt, ⟨hl, hside⟩, hadd⟩
  · exact nofun
  · exact nofun
  · intro inv hmem
    cases inv with
    | nodeRemove n =>
      intro heq
      rw [← heq] at hmem
      exact hdata hmem
    | linkRemove l' =>
      intro heq
      rw [heq] at hmem
      exact hremove _ hmem
    | addLink l' p' =>
      intro hl' hp'
      rw [hl'] at hmem
      exact hadd hmem (hp' ▸ hdir)
    | _ => trivial

theorem SafeWith.makeLink (h : s.SafeWith main loops none)
    (hmaking : s.Making main output input) :
    (s.makeLink output input).SafeWith main loops none := by
  obtain ⟨-, hrt, -, hremove, hadd, -⟩ := h.fresh
  obtain ⟨hout, -⟩ := hmaking.direction h
  have hw : (s.made output input).graph.wiring = s.graph.wiring.link s.nLinks output input :=
    h.wiring_made
  have hwhole : (s.made output input).Whole s.nLinks := whole_made.mpr (.inr rfl)
  have houtListed : (s.made output input).Listed .output output := by
    rw [Listed, hw]
    exact hmaking.outListed
  have hinListed : (s.made output input).Listed .input input := by
    rw [Listed, hw]
    exact hmaking.inListed
  have houtSide : (s.made output input).graph.wiring.side s.nLinks .output = some output := by
    rw [hw]
    exact Wiring.side_link_output
  have hinSide : (s.made output input).graph.wiring.side s.nLinks .input = some input := by
    rw [hw]
    exact Wiring.side_link_input
  have hrtSide : ∀ dir, (s.made output input).graph.wiring.rtSide s.nLinks dir = none := by
    rw [hw]
    exact hrt
  have hdirOut : (s.made output input).graph.wiring.direction output = .output := by
    rw [hw]
    exact hout
  have houtGoing : ¬ (s.made output input).GoingWith main
      ((s.made output input).graph.wiring.node output) := by
    rw [hw]
    exact fun hgone => hmaking.outGoing (h.goingWith_made.mp hgone)
  have hinGoing : ¬ (s.made output input).GoingWith main
      ((s.made output input).graph.wiring.node input) := by
    rw [hw]
    exact fun hgone => hmaking.inGoing (h.goingWith_made.mp hgone)
  rw [h.makeLink_eq hmaking]
  apply ((h.made hmaking).invokeAdd houtListed houtGoing hwhole houtSide (hrtSide _) hremove
    fun hmem => absurd hmem (hadd _ _)).invokeAdd hinListed
  · exact fun hgone => hinGoing ((goingWith_invokeData fun _ heq => by cases heq).mp hgone)
  · exact hwhole
  · exact hinSide
  · exact hrtSide _
  · intro d hmem
    rcases mem_invokeData.mp hmem with hmem | ⟨-, heq⟩
    · exact hremove d hmem
    · cases heq
  · intro d p' hmem
    rcases mem_invokeData.mp hmem with hmem | ⟨-, heq⟩
    · exact absurd hmem (hadd d p')
    · cases heq
      show (s.made output input).graph.wiring.direction output ≠ _
      rw [hdirOut]
      exact PinosDirection.noConfusion

/-- `pinos_port_link`. -/
theorem SafeWith.portLink (h : s.SafeWith main loops none) (houtput : s.Listed .output output)
    (hinput : s.Listed .input input)
    (hgoing : s.Makes output input → ¬ s.GoingWith main (s.graph.wiring.node output) ∧
      ¬ s.GoingWith main (s.graph.wiring.node input)) :
    (s.portLink output input).SafeWith main loops none := by
  have htouch : s.touch (s.graph.listUses output ++ s.graph.listUses input) = s := by
    apply touch_of_live
    intro o ho
    rcases List.mem_append.mp ho with ho | ho
    · exact h.listUses houtput o ho
    · exact h.listUses hinput o ho
  unfold Daemon.portLink
  dsimp only
  rw [htouch]
  split
  · exact h
  · next hne =>
    split
    · exact h
    · next hlinks =>
      split
      · exact h
      · next hfind =>
        obtain ⟨hout, hin⟩ := hgoing ⟨hne, not_not.mp hlinks, not_not.mp hfind⟩
        exact h.makeLink ⟨houtput, hinput, hne, hout, hin⟩

end Daemon
end Pinos
