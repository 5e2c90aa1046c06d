import Pinos.Modules.Autolink

/-
An input whose output is destroyed is not linked again: the module is told while the link
that goes is in the list of the input still, and `pinos_port_link` takes no input that has a
link.
-/

namespace Pinos

/-! ## What links leave behind -/

/-- Links are in the lists of their inputs, each the only one there. -/
structure Wiring.Attached (w : Wiring) (nLinks nPorts : Nat) : Prop where
  mem : ∀ {l q}, w.side l .input = some q → l ∈ w.links q
  only : ∀ {l l' q}, w.side l .input = some q → w.side l' .input = some q → l = l'
  port : ∀ {l dir p}, w.side l dir = some p → p < nPorts ∧ w.direction p = dir
  fresh : ∀ {l dir}, nLinks ≤ l → w.side l dir = none
  listed : ∀ {n dir p}, p ∈ w.ports n dir → p < nPorts ∧ w.direction p = dir

namespace Daemon

/-- No link is made, no link gets a port, and the loops are asked for more at most. -/
structure Onward (s s' : Daemon) : Prop where
  nLinks : s'.nLinks = s.nLinks
  side : ∀ {l dir p}, s'.graph.wiring.side l dir = some p → s.graph.wiring.side l dir = some p
  main : ∀ inv ∈ s.mainLoop, inv ∈ s'.mainLoop
  data : ∀ i, ∀ inv ∈ s.dataLoops i, inv ∈ s'.dataLoops i
  freed : ∀ o ∈ s.freed, o ∈ s'.freed
  listed : ∀ {n dir p}, p ∈ s.graph.wiring.ports n dir →
    p ∈ s'.graph.wiring.ports n dir ∨ .port p ∈ s'.freed

/-- The links that keep their inputs stay in the lists, and there is no new port. -/
structure Loses (s s' : Daemon) : Prop extends Onward s s' where
  mem : ∀ {l q}, s'.graph.wiring.side l .input = some q → l ∈ s.graph.wiring.links q →
    l ∈ s'.graph.wiring.links q
  ports : ∀ {n dir p}, p ∈ s'.graph.wiring.ports n dir → p ∈ s.graph.wiring.ports n dir
  direction : s'.graph.wiring.direction = s.graph.wiring.direction

section Loses

variable {s s' s'' : Daemon} {l p : Nat} {dir : PinosDirection}

theorem Onward.refl (s : Daemon) : Onward s s where
  nLinks := rfl
  side h := h
  main _ h := h
  data _ _ h := h
  freed _ h := h
  listed h := .inl h

theorem Onward.trans (h : Onward s s') (h' : Onward s' s'') : Onward s s'' where
  nLinks := h'.nLinks.trans h.nLinks
  side hside := h.side (h'.side hside)
  main inv hinv := h'.main inv (h.main inv hinv)
  data i inv hinv := h'.data i inv (h.data i inv hinv)
  freed o ho := h'.freed o (h.freed o ho)
  listed hp := (h.listed hp).elim h'.listed fun hfreed => .inr (h'.freed _ hfreed)

theorem Loses.refl (s : Daemon) : Loses s s where
  toOnward := .refl s
  mem _ h := h
  ports h := h
  direction := rfl

theorem Loses.trans (h : Loses s s') (h' : Loses s' s'') : Loses s s'' where
  toOnward := h.toOnward.trans h'.toOnward
  mem hside hl := h'.mem hside (h.mem (h'.side hside) hl)
  ports hp := h.ports (h'.ports hp)
  direction := h'.direction.trans h.direction

theorem Loses.attached (h : Loses s s') {nPorts : Nat}
    (hs : s.graph.wiring.Attached s.nLinks nPorts) :
    s'.graph.wiring.Attached s'.nLinks nPorts where
  mem hside := h.mem hside (hs.mem (h.side hside))
  only hside hside' := hs.only (h.side hside) (h.side hside')
  port hside := by
    rw [h.direction]
    exact hs.port (h.side hside)
  fresh {l dir} hl := by
    rw [h.nLinks] at hl
    rw [Option.eq_none_iff_forall_ne_some]
    intro p hside
    exact absurd ((hs.fresh hl).symm.trans (h.side hside)) nofun
  listed hp := by
    rw [h.direction]
    exact hs.listed (h.ports hp)

/-- The graph changes, and its wires only where the realtime thread is. -/
theorem loses_modify {f : Graph → Graph} (hside : (f s.graph).wiring.side = s.graph.wiring.side)
    (hlinks : (f s.graph).wiring.links = s.graph.wiring.links)
    (hports : (f s.graph).wiring.ports = s.graph.wiring.ports)
    (hdir : (f s.graph).wiring.direction = s.graph.wiring.direction) : Loses s (s.modify f) where
  nLinks := rfl
  side h := by rwa [modify, hside] at h
  main _ h := h
  data _ _ h := h
  freed _ h := h
  listed h := .inl (by rwa [modify, hports])
  mem _ h := by rwa [modify, hlinks]
  ports h := by rwa [modify, hports] at h
  direction := hdir

theorem loses_modify_of_eq {f : Graph → Graph} (h : (f s.graph).wiring = s.graph.wiring) :
    Loses s (s.modify f) :=
  loses_modify (by rw [h]) (by rw [h]) (by rw [h]) (by rw [h])

/-- What the daemon keeps of the loops and of what is freed grows. -/
theorem loses_of_graph (hgraph : s'.graph.wiring = s.graph.wiring) (hnLinks : s'.nLinks = s.nLinks)
    (hmain : ∀ inv ∈ s.mainLoop, inv ∈ s'.mainLoop)
    (hdata : ∀ i, ∀ inv ∈ s.dataLoops i, inv ∈ s'.dataLoops i)
    (hfreed : ∀ o ∈ s.freed, o ∈ s'.freed) : Loses s s' where
  nLinks := hnLinks
  side h := by rwa [hgraph] at h
  main := hmain
  data := hdata
  freed := hfreed
  listed h := .inl (by rwa [hgraph])
  mem _ h := by rwa [hgraph]
  ports h := by rwa [hgraph] at h
  direction := by rw [hgraph]

theorem loses_touch {objects : List Object} : Loses s (s.touch objects) :=
  loses_of_graph rfl rfl (fun _ h => h) (fun _ _ h => h) fun _ h => h

theorem loses_crash : Loses s s.crash :=
  loses_of_graph rfl rfl (fun _ h => h) (fun _ _ h => h) fun _ h => h

theorem loses_invokeMain {inv : Invocation} : Loses s (s.invokeMain inv) :=
  loses_of_graph rfl rfl (fun _ h => List.mem_append_left _ h) (fun _ _ h => h) fun _ h => h

theorem loses_invokeData {d : Nat} {inv : Invocation} : Loses s (s.invokeData d inv) := by
  refine loses_of_graph rfl rfl (fun _ h => h) (fun i inv' h => ?_) fun _ h => h
  show inv' ∈ Function.update s.dataLoops d (s.dataLoops d ++ [inv]) i
  by_cases hi : i = d
  · rw [hi, Function.update_self]
    exact List.mem_append_left _ (hi ▸ h)
  · rwa [Function.update_of_ne hi]

theorem loses_freed {objects : List Object} : Loses s { s with freed := s.freed ++ objects } :=
  loses_of_graph rfl rfl (fun _ h => h) (fun _ _ h => h) fun _ h => List.mem_append_left _ h

/-! ## Links that are destroyed -/

theorem loses_linkFree : Loses s (s.linkFree l) :=
  loses_of_graph rfl rfl (fun _ h => h) (fun _ _ h => h) fun _ h => List.mem_append_left _ h

/-- Counts and listeners do not matter. -/
theorem loses_withCounts {refcount : Nat → Int} {resources : Nat → Nat}
    {listeners : Object → List Nat} :
    Loses s { s with refcount := refcount, resources := resources, listeners := listeners } :=
  loses_of_graph rfl rfl (fun _ h => h) (fun _ _ h => h) fun _ h => h

theorem loses_unref : Loses s (s.unref l) := by
  have hcount : Loses s { s with refcount := Function.update s.refcount l (s.refcount l - 1) } :=
    loses_withCounts
  unfold unref
  dsimp only
  split
  · exact hcount.trans loses_linkFree
  · exact hcount

theorem loses_linkUnbind : Loses s (s.linkUnbind l) := by
  unfold linkUnbind
  refine Loses.trans ?_ loses_unref
  exact loses_touch.trans loses_withCounts

theorem loses_linkBind : Loses s (s.linkBind l) := by
  unfold linkBind
  exact loses_touch.trans loses_withCounts

theorem loses_unbindAll (k : Nat) : Loses s (s.unbindAll l k) := by
  induction k generalizing s with
  | zero => exact .refl s
  | succ k ih => exact loses_linkUnbind.trans ih

theorem loses_stopListening : Loses s (s.stopListening l p) := by
  unfold stopListening
  exact loses_touch.trans loses_withCounts

theorem loses_requestRemove : Loses s (s.requestRemove dir l) := by
  unfold requestRemove
  split
  · exact .refl s
  · refine Loses.trans ?_ loses_invokeData
    exact loses_stopListening.trans loses_withCounts

theorem loses_linkDestroy : Loses s (s.linkDestroy l) :=
  loses_touch.trans ((loses_unbindAll _).trans
    (loses_requestRemove.trans (loses_requestRemove.trans loses_unref)))

theorem loses_unlinkedDestroy : Loses s (s.unlinkedDestroy l) :=
  Loses.trans (loses_modify_of_eq Graph.wiring_updateLinkState) loses_linkDestroy

theorem loses_portUnlink : Loses s (s.portUnlink p l) := loses_touch.trans loses_invokeData

theorem loses_portClearBuffers (p : Option Nat) : Loses s (s.portClearBuffers p) := by
  cases p with
  | none => exact loses_crash
  | some p => exact loses_touch.trans loses_invokeData

/-- A link leaves a port. -/
theorem loses_setSide :
    Loses s (s.modify fun g => g.modifyLink l fun link => link.setSide none dir) := by
  have hside : ∀ {l' dir' p}, (s.graph.wiring.setSide l dir none).side l' dir' = some p →
      s.graph.wiring.side l' dir' = some p := by
    intro l' dir' p h
    by_cases hne : l' ≠ l ∨ dir' ≠ dir
    · rwa [Wiring.side_setSide_of_ne hne] at h
    · push Not at hne
      rw [hne.1, hne.2, Wiring.side_setSide] at h
      exact absurd h nofun
  exact
    { nLinks := rfl
      side := fun h => hside (by rwa [modify, Graph.wiring_setSide] at h)
      main := fun _ h => h
      data := fun _ _ h => h
      freed := fun _ h => h
      listed := fun h => .inl (by rwa [modify, Graph.wiring_setSide])
      mem := fun _ h => by rwa [modify, Graph.wiring_setSide]
      ports := fun h => by rwa [modify, Graph.wiring_setSide] at h
      direction := by rw [modify, Graph.wiring_setSide]; rfl }

theorem loses_leavePort : Loses s (s.leavePort dir l p) := by
  unfold leavePort
  dsimp only
  have hleave : Loses s ((s.stopListening l p).modify fun g =>
      g.modifyLink l fun link => link.setSide none dir) := loses_stopListening.trans loses_setSide
  split
  · refine hleave.trans (Loses.trans (loses_modify_of_eq ?_) (loses_portClearBuffers _))
    apply Graph.wiring_modifyLink_same
    · funext d
      cases d <;> rfl
    · funext d
      cases d <;> rfl
  · exact hleave

/-! ## The realtime thread -/

theorem loses_addRt : Loses s (s.modify fun g => g.addRt l p) := by
  apply loses_modify <;> rw [Graph.wiring_addRt] <;> rfl

theorem loses_removeRt : Loses s (s.modify fun g => g.removeRt dir l) := by
  cases hrt : s.graph.wiring.rtSide l dir with
  | none =>
    apply loses_modify_of_eq
    rw [Graph.removeRt_none hrt]
  | some p => apply loses_modify <;> rw [Graph.wiring_removeRt hrt] <;> rfl

theorem loses_doAddLink : Loses s (s.doAddLink l p) := loses_touch.trans loses_addRt

theorem loses_doLinkRemove : Loses s (s.doLinkRemove l) := by
  unfold doLinkRemove
  refine Loses.trans ?_ loses_invokeMain
  exact loses_touch.trans ((@loses_removeRt _ l .input).trans (@loses_removeRt _ l .output))

theorem loses_doRemoveLink : Loses s (s.doRemoveLink l p) := by
  unfold doRemoveLink
  dsimp only
  split
  · exact loses_touch.trans loses_crash
  · exact loses_touch.trans (loses_removeRt.trans loses_invokeMain)

theorem loses_removeRtLink : Loses s (removeRtLink dir s l) := by
  unfold removeRtLink
  dsimp only
  split
  · exact loses_touch.trans loses_crash
  · exact loses_touch.trans loses_removeRt

theorem loses_foldl {f : Daemon → Nat → Daemon} (hf : ∀ s i, Loses s (f s i)) (is : List Nat) :
    Loses s (is.foldl f s) := by
  induction is generalizing s with
  | nil => exact .refl s
  | cons i is ih => exact (hf s i).trans ih

theorem loses_removeRtLinks : Loses s (removeRtLinks dir s p) :=
  loses_touch.trans (loses_foldl (fun _ _ => loses_removeRtLink) _)

theorem loses_doNodeRemove {n : Nat} : Loses s (s.doNodeRemove n) := by
  unfold doNodeRemove
  refine Loses.trans ?_ loses_invokeMain
  exact loses_touch.trans ((loses_foldl (fun _ _ => loses_removeRtLinks) _).trans
    (loses_foldl (fun _ _ => loses_removeRtLinks) _))

theorem loses_doClearBuffers : Loses s (s.doClearBuffers p) :=
  loses_touch.trans (Loses.trans (loses_modify_of_eq Graph.wiring_portPauseRt) loses_invokeMain)

theorem loses_doClearBuffersDone : Loses s (s.doClearBuffersDone p) := by
  unfold doClearBuffersDone
  refine loses_touch.trans (loses_modify_of_eq ?_)
  split
  · rfl
  · exact Graph.wiring_clearPort

/-! ## Links that leave their ports -/

section Attached

variable {nPorts : Nat} (h : s.graph.wiring.Attached s.nLinks nPorts)
include h

/-- The list of the other port of the link stays as it is. -/
theorem loses_detach {f : Graph → Graph} {n : Nat} (hside : s.graph.wiring.side l dir = some p)
    (hf : (f s.graph).wiring = (s.graph.wiring.detach dir l p n).setSide l dir none) :
    Loses s (s.modify f) := by
  have hlost : ∀ {l' dir' q}, (f s.graph).wiring.side l' dir' = some q →
      s.graph.wiring.side l' dir' = some q ∧ (l' ≠ l ∨ dir' ≠ dir) := by
    intro l' dir' q h'
    rw [hf] at h'
    by_cases hne : l' ≠ l ∨ dir' ≠ dir
    · exact ⟨by rwa [Wiring.side_setSide_of_ne hne] at h', hne⟩
    · push Not at hne
      rw [hne.1, hne.2, Wiring.side_setSide] at h'
      exact absurd h' nofun
  have hmem : ∀ {l' q}, (f s.graph).wiring.side l' .input = some q → l' ∈ s.graph.wiring.links q →
      l' ∈ (f s.graph).wiring.links q := by
    intro l' q hq hl
    obtain ⟨hold, hne⟩ := hlost hq
    rw [hf]
    show l' ∈ Function.update s.graph.wiring.links p _ q
    by_cases hqp : q = p
    · -- The link in the list of the port is another one: its ports have other directions.
      subst hqp
      have hl' : l' ≠ l := by
        rintro rfl
        have hdir := (h.port hold).2.symm.trans (h.port hside).2
        exact hne.elim (fun hl => hl rfl) fun hd => hd hdir
      rw [Function.update_self]
      exact (List.mem_erase_of_ne hl').mpr hl
    · rwa [Function.update_of_ne hqp]
  exact
    { nLinks := rfl
      side := fun h' => (hlost h').1
      main := fun _ h' => h'
      data := fun _ _ h' => h'
      freed := fun _ h' => h'
      listed := fun h' => .inl (by rw [modify, hf]; exact h')
      mem := hmem
      ports := fun h' => by rw [modify, hf] at h'; exact h'
      direction := by rw [modify, hf]; rfl }

theorem loses_removeSide : Loses s (s.modify fun g => g.removeSide dir l) := by
  cases hside : s.graph.wiring.side l dir with
  | none =>
    apply loses_modify_of_eq
    rw [Graph.removeSide_none hside]
  | some p => exact loses_detach h hside (Graph.wiring_removeSide hside)

theorem loses_removeLinkDone : Loses s (s.modify fun g => g.removeLinkDone l p) := by
  cases hside : s.graph.wiring.side l (s.graph.wiring.direction p) with
  | none =>
    apply loses_modify_of_eq
    unfold Graph.removeLinkDone
    dsimp only
    rw [show (s.graph.links l).side (s.graph.ports p).direction = none from hside]
    dsimp only
    rw [apply_ite Graph.wiring, Graph.wiring_updateNodeState, ite_self, apply_ite Graph.wiring,
      Graph.wiring_clearPort, ite_self]
  | some q => exact loses_detach h hside (Graph.wiring_removeLinkDone hside)

theorem loses_doLinkRemoveDone : Loses s (s.doLinkRemoveDone l) := by
  unfold doLinkRemoveDone
  refine Loses.trans ?_ loses_unref
  have hinput := @loses_removeSide (s.touch (.link l ::
    (s.graph.sideUses .input l ++ s.graph.sideUses .output l))) l .input nPorts h
  exact loses_touch.trans (hinput.trans (loses_removeSide (hinput.attached h)))

theorem loses_doRemoveLinkDone : Loses s (s.doRemoveLinkDone l p) := by
  unfold doRemoveLinkDone
  exact loses_touch.trans (loses_removeLinkDone h)

end Attached

end Loses

end Daemon

namespace AutolinkCore

def Attached (s : AutolinkCore) : Prop :=
  s.daemon.graph.wiring.Attached s.daemon.nLinks s.nPorts

/-- No link is made. -/
structure Steps (s s' : AutolinkCore) : Prop where
  onward : s.daemon.Onward s'.daemon
  attached : s'.Attached

/-- Ports are added at most. -/
structure Grows (s s' : AutolinkCore) : Prop extends Steps s s' where
  nPorts : s.nPorts ≤ s'.nPorts
  links : ∀ p < s.nPorts, s'.daemon.graph.wiring.links p = s.daemon.graph.wiring.links p
  direction : ∀ p < s.nPorts,
    s'.daemon.graph.wiring.direction p = s.daemon.graph.wiring.direction p

section Grows

variable {s s' s'' : AutolinkCore} {n l p q : Nat} {dir : PinosDirection}

theorem Steps.refl (h : s.Attached) : Steps s s := ⟨.refl _, h⟩

theorem Steps.trans (h : Steps s s') (h' : Steps s' s'') : Steps s s'' :=
  ⟨h.onward.trans h'.onward, h'.attached⟩

theorem Attached.steps (h : s.Attached) {f : Daemon → Daemon}
    (hloses : s.daemon.Loses (f s.daemon)) : Steps s (s.modifyDaemon f) :=
  ⟨hloses.toOnward, hloses.attached h⟩

theorem Grows.refl (h : s.Attached) : Grows s s where
  toSteps := .refl h
  nPorts := Nat.le_refl _
  links _ _ := rfl
  direction _ _ := rfl

theorem Grows.trans (h : Grows s s') (h' : Grows s' s'') : Grows s s'' where
  toSteps := h.toSteps.trans h'.toSteps
  nPorts := Nat.le_trans h.nPorts h'.nPorts
  links p hp := (h'.links p (Nat.lt_of_lt_of_le hp h.nPorts)).trans (h.links p hp)
  direction p hp := (h'.direction p (Nat.lt_of_lt_of_le hp h.nPorts)).trans (h.direction p hp)

theorem Attached.touch (h : s.Attached) (objects : List Object) :
    Grows s (s.modifyDaemon fun d => d.touch objects) where
  toSteps := h.steps Daemon.loses_touch
  nPorts := Nat.le_refl _
  links _ _ := rfl
  direction _ _ := rfl

/-! ## Ports that are found -/

/-- The wires with a new port. -/
theorem wiring_addPort {i place : Nat} :
    (s.addPort n dir i place).daemon.graph.wiring =
      { s.daemon.graph.wiring with
        links := Function.update s.daemon.graph.wiring.links s.nPorts []
        rtLinks := Function.update s.daemon.graph.wiring.rtLinks s.nPorts []
        node := Function.update s.daemon.graph.wiring.node s.nPorts n
        direction := Function.update s.daemon.graph.wiring.direction s.nPorts dir
        ports := Function.update s.daemon.graph.wiring.ports n
          (Function.update (s.daemon.graph.wiring.ports n) dir
            ((s.daemon.graph.wiring.ports n dir).take place ++
              s.nPorts :: (s.daemon.graph.wiring.ports n dir).drop place)) } := by
  rw [show (s.addPort n dir i place).daemon.graph =
    (s.daemon.graph.modifyPort s.nPorts fun _ => newPort n dir).modifyNode n fun node =>
      node.setPorts ((node.ports dir).take place ++ s.nPorts :: (node.ports dir).drop place) dir
    from rfl]
  rw [@Graph.wiring_setPorts _ _ _ fun ports => ports.take place ++ s.nPorts :: ports.drop place]
  simp only [Graph.wiring, Graph.modifyPort, Wiring.setPorts, Graph.update_comp, newPort]

theorem grows_addPort (h : s.Attached) (n : Nat) (dir : PinosDirection) (i place : Nat) :
    Grows s (s.addPort n dir i place) := by
  have hports : ∀ {n' dir' p}, p ∈ (s.addPort n dir i place).daemon.graph.wiring.ports n' dir' ↔
      p ∈ s.daemon.graph.wiring.ports n' dir' ∨ p = s.nPorts ∧ n' = n ∧ dir' = dir := by
    intro n' dir' p
    rw [wiring_addPort]
    dsimp only
    by_cases hn : n' = n
    · rw [hn, Function.update_self]
      by_cases hd : dir' = dir
      · rw [hd, Function.update_self]
        conv_rhs => rw [← List.take_append_drop place (s.daemon.graph.wiring.ports n dir)]
        simp only [List.mem_append, List.mem_cons]
        tauto
      · rw [Function.update_of_ne hd]
        tauto
    · rw [Function.update_of_ne hn]
      tauto
  have hside : (s.addPort n dir i place).daemon.graph.wiring.side = s.daemon.graph.wiring.side := by
    rw [wiring_addPort]
  have hlinks : ∀ p < s.nPorts, (s.addPort n dir i place).daemon.graph.wiring.links p =
      s.daemon.graph.wiring.links p := by
    intro p hp
    rw [wiring_addPort]
    exact Function.update_of_ne (Nat.ne_of_lt hp) ..
  have hdir : ∀ p < s.nPorts, (s.addPort n dir i place).daemon.graph.wiring.direction p =
      s.daemon.graph.wiring.direction p := by
    intro p hp
    rw [wiring_addPort]
    exact Function.update_of_ne (Nat.ne_of_lt hp) ..
  exact
    { onward :=
        { nLinks := rfl
          side := fun h' => by rwa [hside] at h'
          main := fun _ h' => h'
          data := fun _ _ h' => h'
          freed := fun _ h' => h'
          listed := fun h' => .inl (hports.mpr (.inl h')) }
      attached :=
        { mem := fun h' => by
            rw [hside] at h'
            rw [hlinks _ (h.port h').1]
            exact h.mem h'
          only := fun h' h'' => by
            rw [hside] at h' h''
            exact h.only h' h''
          port := fun h' => by
            rw [hside] at h'
            exact ⟨Nat.lt_succ_of_lt (h.port h').1,
              (hdir _ (h.port h').1).trans (h.port h').2⟩
          fresh := fun hl => by
            rw [hside]
            exact h.fresh hl
          listed := fun h' => by
            rcases hports.mp h' with h' | ⟨rfl, -, rfl⟩
            · exact ⟨Nat.lt_succ_of_lt (h.listed h').1,
                (hdir _ (h.listed h').1).trans (h.listed h').2⟩
            · refine ⟨Nat.lt_succ_self _, ?_⟩
              rw [wiring_addPort]
              exact Function.update_self .. }
      nPorts := Nat.le_succ _
      links := hlinks
      direction := hdir }

theorem listed_addPort {i place : Nat} :
    s.nPorts ∈ (s.addPort n dir i place).daemon.graph.wiring.ports n dir := by
  rw [wiring_addPort]
  dsimp only
  rw [Function.update_self, Function.update_self]
  exact List.mem_append_right _ List.mem_cons_self

theorem grows_countPort (h : s.Attached) : Grows s (s.countPort n dir) :=
  ⟨⟨.refl _, h⟩, Nat.le_refl _, fun _ _ => rfl, fun _ _ => rfl⟩

/-- A port that is found is in the list of a node. -/
theorem grows_getFreePort (h : s.Attached) :
    Grows s (s.getFreePort n dir).1 ∧ ∀ p ∈ (s.getFreePort n dir).2,
      p ∈ (s.getFreePort n dir).1.daemon.graph.wiring.ports n dir := by
  unfold getFreePort
  dsimp only
  have htouch := h.touch (.node n :: ((s.daemon.graph.nodes n).ports dir).map .port)
  split
  · next p hp => exact ⟨htouch, fun _ h' => Option.some_inj.mp h' ▸ List.mem_of_find?_eq_some hp⟩
  split
  · split
    · next i _ =>
      have hadd := grows_addPort htouch.attached n dir i 0
      refine ⟨htouch.trans (hadd.trans (grows_countPort hadd.attached)), ?_⟩
      intro p hp
      cases Option.some_inj.mp hp
      exact @listed_addPort _ n dir i 0
    · exact ⟨htouch, nofun⟩
  split
  · exact ⟨htouch, fun _ h' => List.mem_of_head? h'⟩
  · exact ⟨htouch, nofun⟩

/-- A port that can be linked with another. -/
def Suits (s : AutolinkCore) (q p : Nat) : Prop :=
  p < s.nPorts ∧ s.daemon.graph.wiring.direction p = (s.daemon.graph.wiring.direction q).other

variable {findFormat : Graph → Nat → Nat → Bool}

theorem grows_findPortIn (hq : q < s.nPorts) (pathId : UInt32) (nodes : List Nat)
    {best : Option Nat} (h : s.Attached) (hbest : ∀ p ∈ best, s.Suits q p) :
    Grows s (findPortIn findFormat q pathId nodes s best).1 ∧
      ∀ p ∈ (findPortIn findFormat q pathId nodes s best).2,
        (findPortIn findFormat q pathId nodes s best).1.Suits q p := by
  induction nodes generalizing s best with
  | nil => exact ⟨.refl h, hbest⟩
  | cons n nodes ih =>
    unfold findPortIn
    split
    · exact ih hq h hbest
    · next id _ =>
      obtain ⟨hgrows, hfound⟩ := @grows_getFreePort s n (s.daemon.graph.ports q).direction.other h
      dsimp only
      generalize s.getFreePort n (s.daemon.graph.ports q).direction.other = found at hgrows hfound
      have hq' : q < found.1.nPorts := Nat.lt_of_lt_of_le hq hgrows.nPorts
      have hdir := hgrows.direction q hq
      have hsuits : ∀ p ∈ found.2, found.1.Suits q p := by
        intro p hp
        obtain ⟨hlt, hdirp⟩ := hgrows.attached.listed (hfound p hp)
        exact ⟨hlt, hdirp.trans (congrArg PinosDirection.other hdir.symm)⟩
      have hbest' : ∀ p ∈ best, found.1.Suits q p := by
        intro p hp
        obtain ⟨hlt, hdirp⟩ := hbest p hp
        exact ⟨Nat.lt_of_lt_of_le hlt hgrows.nPorts, by rw [hgrows.direction p hlt, hdir, hdirp]⟩
      have hrest : ∀ {best : Option Nat}, (∀ p ∈ best, found.1.Suits q p) →
          Grows s (findPortIn findFormat q pathId nodes found.1 best).1 ∧
            ∀ p ∈ (findPortIn findFormat q pathId nodes found.1 best).2,
              (findPortIn findFormat q pathId nodes found.1 best).1.Suits q p := by
        intro best hb
        obtain ⟨hgrows', hport⟩ := ih hq' hgrows.attached hb
        exact ⟨hgrows.trans hgrows', hport⟩
      split
      · split
        · exact ih hq h hbest
        split
        · next p hp => exact ⟨hgrows, fun p' hp' => hsuits p' (by rw [hp]; exact hp')⟩
        · exact hrest nofun
      split
      · exact hrest hbest'
      · next p hp =>
        apply hrest
        intro p' hp'
        split at hp'
        · exact hsuits p' (by rw [hp]; exact hp')
        · exact hbest' p' hp'

theorem grows_target (h : s.Attached) (hq : q < s.nPorts) :
    Grows s (s.target findFormat q).1 ∧
      ∀ p ∈ (s.target findFormat q).2, (s.target findFormat q).1.Suits q p := by
  unfold target
  split
  · exact ⟨.refl h, nofun⟩
  · exact grows_findPortIn hq _ _ h nofun

/-! ## Links that are made -/

/-- An input with a link is not linked. -/
theorem linkPorts_of_linked {output input : Nat}
    (hlinked : s.daemon.graph.wiring.links input ≠ []) :
    ∃ objects, s.linkPorts output input = s.modifyDaemon fun d => d.touch objects := by
  have hlinked : (s.daemon.graph.ports input).links ≠ [] := hlinked
  have hnone : s.daemon.portLinked output input = none := by
    unfold Daemon.portLinked
    rw [if_pos hlinked, ite_self]
  refine ⟨s.daemon.graph.listUses output ++ s.daemon.graph.listUses input, ?_⟩
  unfold linkPorts
  rw [hnone]
  dsimp only [modifyDaemon]
  congr 1
  unfold Daemon.portLink
  dsimp only
  split
  · rfl
  · exact if_pos hlinked

/-- `try_link_port` makes nothing of an input with a link. -/
theorem grows_tryLinkPort (h : s.Attached) (hq : q < s.nPorts)
    (hdir : s.daemon.graph.wiring.direction q = .input)
    (hlinked : s.daemon.graph.wiring.links q ≠ []) : Grows s (s.tryLinkPort findFormat q) := by
  obtain ⟨hgrows, -⟩ := @grows_target s q findFormat h hq
  unfold tryLinkPort
  dsimp only
  split
  · exact hgrows
  · next p _ =>
    have hinput : ((s.target findFormat q).1.daemon.graph.ports q).direction = .input :=
      (hgrows.direction q hq).trans hdir
    rw [hinput]
    dsimp only
    obtain ⟨objects, heq⟩ := @linkPorts_of_linked (s.target findFormat q).1 p q
      (by rwa [hgrows.links q hq])
    rw [heq]
    exact hgrows.trans (hgrows.attached.touch objects)

/-! ## Ports that go -/

section FindFormat

variable (findFormat)

/-- The link that notifies the module is in the list of the input. -/
theorem steps_onLinkPortUnlinked (h : s.Attached) :
    Steps s (s.onLinkPortUnlinked findFormat l p) := by
  unfold onLinkPortUnlinked
  split
  · split
    · exact .refl h
    · next q hq =>
      have hside : s.daemon.graph.wiring.side l .input = some q := hq
      exact (grows_tryLinkPort h (h.port hside).1 (h.port hside).2
        (List.ne_nil_of_mem (h.mem hside))).toSteps
  · exact .refl h

theorem steps_portUnlinked (h : s.Attached) : Steps s (s.portUnlinked findFormat dir l p) := by
  unfold portUnlinked
  have hleave : Steps s (s.modifyDaemon fun d => d.leavePort dir l p) :=
    h.steps Daemon.loses_leavePort
  have htold : Steps s
      (if l ∈ s.listening then
        (s.modifyDaemon fun d => d.leavePort dir l p).onLinkPortUnlinked findFormat l p
      else s.modifyDaemon fun d => d.leavePort dir l p) := by
    split
    · exact hleave.trans (steps_onLinkPortUnlinked findFormat hleave.attached)
    · exact hleave
  exact htold.trans (htold.attached.steps Daemon.loses_unlinkedDestroy)

theorem steps_onPortDestroy (h : s.Attached) : Steps s (s.onPortDestroy findFormat l p) := by
  unfold onPortDestroy
  have htouch := (h.touch [.link l]).toSteps
  dsimp only
  split
  · exact htouch.trans (steps_portUnlinked findFormat htouch.attached)
  split
  · exact htouch.trans (steps_portUnlinked findFormat htouch.attached)
  · exact htouch

theorem steps_foldl {f : AutolinkCore → Nat → AutolinkCore}
    (hf : ∀ s i, s.Attached → Steps s (f s i)) (is : List Nat) (h : s.Attached) :
    Steps s (is.foldl f s) := by
  induction is generalizing s with
  | nil => exact .refl h
  | cons i is ih => exact (hf s i h).trans (ih (hf s i h).attached)

/-- A port leaves the list of its node when it is freed. -/
theorem loses_portFree {d : Daemon} : d.Loses (portFree d dir n p) := by
  have hwiring : (portFree d dir n p).graph.wiring =
      d.graph.wiring.setPorts n dir ((d.graph.wiring.ports n dir).erase p) :=
    @Graph.wiring_setPorts _ _ _ fun ports => ports.erase p
  have hfreed : ∀ o, o ∈ (portFree d dir n p).freed ↔ o ∈ d.freed ∨ o = .port p := by
    intro o
    show o ∈ d.freed ++ [.port p] ↔ _
    rw [List.mem_append, List.mem_singleton]
  exact
    { nLinks := rfl
      side := fun h => by rwa [hwiring] at h
      main := fun _ h => h
      data := fun _ _ h => h
      freed := fun o h => (hfreed o).mpr (.inl h)
      listed := fun {n' dir' p'} h => by
        by_cases hp : p' = p
        · exact .inr ((hfreed _).mpr (.inr (congrArg _ hp)))
        · left
          rw [hwiring]
          show p' ∈ Function.update d.graph.wiring.ports n (Function.update _ dir _) n' dir'
          by_cases hn : n' = n
          · rw [hn, Function.update_self]
            by_cases hd : dir' = dir
            · rw [hd, Function.update_self]
              exact (List.mem_erase_of_ne hp).mpr (hd ▸ hn ▸ h)
            · rw [Function.update_of_ne hd]
              exact hn ▸ h
          · rwa [Function.update_of_ne hn]
      mem := fun _ h => by rwa [hwiring]
      ports := fun {n' dir' p'} h => by
        rw [hwiring] at h
        change p' ∈ Function.update d.graph.wiring.ports n (Function.update _ dir _) n' dir' at h
        by_cases hn : n' = n
        · rw [hn, Function.update_self] at h
          by_cases hd : dir' = dir
          · rw [hd, Function.update_self] at h
            rw [hn, hd]
            exact List.mem_of_mem_erase h
          · rw [Function.update_of_ne hd] at h
            exact hn ▸ h
        · rwa [Function.update_of_ne hn] at h
      direction := by rw [hwiring]; rfl }

theorem steps_portDestroy (h : s.Attached) :
    Steps s (s.portDestroy findFormat p) ∧ .port p ∈ (s.portDestroy findFormat p).daemon.freed := by
  unfold portDestroy
  have htouch := (h.touch [.port p]).toSteps
  have htold := htouch.trans (steps_foldl
    (fun s l (hs : s.Attached) => @steps_onPortDestroy s l p findFormat hs)
    (s.daemon.listeners (.port p)) htouch.attached)
  exact ⟨htold.trans (htold.attached.steps loses_portFree),
    List.mem_append_right _ (List.mem_singleton_self _)⟩

/-- All ports in a list are destroyed. -/
theorem steps_portsDestroy (h : s.Attached) (ports : List Nat) :
    Steps s (ports.foldl (portDestroy findFormat) s) ∧
      ∀ p ∈ ports, .port p ∈ (ports.foldl (portDestroy findFormat) s).daemon.freed := by
  induction ports generalizing s with
  | nil => exact ⟨.refl h, nofun⟩
  | cons p ports ih =>
    obtain ⟨hstep, hfreed⟩ := @steps_portDestroy s p findFormat h
    obtain ⟨hrest, hports⟩ := ih hstep.attached
    refine ⟨hstep.trans hrest, fun p' hp' => ?_⟩
    rcases List.mem_cons.mp hp' with rfl | hp'
    · exact hrest.onward.freed _ hfreed
    · exact hports p' hp'

theorem steps_doNodeRemoveDone (h : s.Attached) :
    Steps s (s.doNodeRemoveDone findFormat n) ∧
      ∀ p, p ∈ s.daemon.graph.wiring.ports n .output →
        .port p ∈ (s.doNodeRemoveDone findFormat n).daemon.freed := by
  unfold doNodeRemoveDone
  have htouch := (h.touch [.node n]).toSteps
  dsimp only
  generalize (s.modifyDaemon fun d => d.touch [.node n]) = s₁ at htouch
  obtain ⟨hin, -⟩ := steps_portsDestroy findFormat htouch.attached (s₁.daemon.graph.nodes n).inputPorts
  generalize (s₁.daemon.graph.nodes n).inputPorts.foldl (portDestroy findFormat) s₁ = s₂ at hin
  obtain ⟨hout, hports⟩ :=
    steps_portsDestroy findFormat hin.attached (s₂.daemon.graph.nodes n).outputPorts
  generalize (s₂.daemon.graph.nodes n).outputPorts.foldl (portDestroy findFormat) s₂ = s₃ at hout hports
  have hfree : Steps s₃ (s₃.modifyDaemon fun d => { d with freed := d.freed ++ [.node n] }) :=
    hout.attached.steps Daemon.loses_freed
  refine ⟨htouch.trans (hin.trans (hout.trans hfree)), fun p hp => ?_⟩
  refine hfree.onward.freed _ ?_
  rcases (htouch.trans hin).onward.listed hp with hp | hp
  · exact hports p hp
  · exact hout.onward.freed _ hp

/-! ## The loops at work -/

theorem steps_perform (h : s.Attached) (inv : Invocation) :
    Steps s (s.perform findFormat inv) := by
  have hdaemon : ∀ inv, s.daemon.Loses (s.daemon.perform inv) →
      Steps s (s.modifyDaemon fun d => d.perform inv) := fun _ hloses => h.steps hloses
  cases inv with
  | addLink l p => exact hdaemon (.addLink l p) Daemon.loses_doAddLink
  | removeLink l p => exact hdaemon (.removeLink l p) Daemon.loses_doRemoveLink
  | removeLinkDone l p => exact hdaemon (.removeLinkDone l p) (Daemon.loses_doRemoveLinkDone h)
  | clearBuffers p => exact hdaemon (.clearBuffers p) Daemon.loses_doClearBuffers
  | clearBuffersDone p => exact hdaemon (.clearBuffersDone p) Daemon.loses_doClearBuffersDone
  | linkRemove l => exact hdaemon (.linkRemove l) Daemon.loses_doLinkRemove
  | linkRemoveDone l => exact hdaemon (.linkRemoveDone l) (Daemon.loses_doLinkRemoveDone h)
  | nodeRemove n => exact hdaemon (.nodeRemove n) Daemon.loses_doNodeRemove
  | nodeRemoveDone n => exact (steps_doNodeRemoveDone findFormat h).1

/-- A port is freed, or its node is still to be removed. -/
def Going (s : AutolinkCore) (n p : Nat) : Prop :=
  .port p ∈ s.daemon.freed ∨ p ∈ s.daemon.graph.wiring.ports n .output ∧
    (.nodeRemoveDone n ∈ s.daemon.mainLoop ∨ ∃ i, .nodeRemove n ∈ s.daemon.dataLoops i)

theorem Going.steps (hsteps : Steps s s') (h : s.Going n p) : s'.Going n p := by
  rcases h with h | ⟨hp, h⟩
  · exact .inl (hsteps.onward.freed _ h)
  · rcases hsteps.onward.listed hp with hp | hp
    · refine .inr ⟨hp, h.imp (hsteps.onward.main _) ?_⟩
      exact fun ⟨i, hi⟩ => ⟨i, hsteps.onward.data i _ hi⟩
    · exact .inl hp

/-- An invocation is taken from a queue, and performed. -/
theorem Going.perform {inv : Invocation} (hs : s.Attached)
    (h : s.Going n p ∨ p ∈ s.daemon.graph.wiring.ports n .output ∧
      (inv = .nodeRemove n ∨ inv = .nodeRemoveDone n)) :
    (s.perform findFormat inv).Going n p := by
  rcases h with h | ⟨hp, rfl | rfl⟩
  · exact h.steps (steps_perform findFormat hs inv)
  · -- The main loop is asked for the rest.
    rcases (steps_perform findFormat hs (.nodeRemove n)).onward.listed hp with hp | hp
    · exact .inr ⟨hp, .inl (List.mem_append_right _ (List.mem_singleton_self _))⟩
    · exact .inl hp
  · exact .inl ((steps_doNodeRemoveDone findFormat hs).2 p hp)

/-- What a turn of a loop does to the links and their ports. -/
structure Turns (s s' : AutolinkCore) : Prop where
  attached : s'.Attached
  nLinks : s'.daemon.nLinks = s.daemon.nLinks
  side : ∀ {l dir p}, s'.daemon.graph.wiring.side l dir = some p →
    s.daemon.graph.wiring.side l dir = some p
  going : ∀ {n p}, s.Going n p → s'.Going n p

theorem Turns.of_perform {inv : Invocation} {f : Daemon → Daemon}
    (hgraph : (f s.daemon).graph = s.daemon.graph) (hnLinks : (f s.daemon).nLinks = s.daemon.nLinks)
    (h : s.Attached) (hgoing : ∀ {n p}, s.Going n p → (s.modifyDaemon f).Going n p ∨
      p ∈ s.daemon.graph.wiring.ports n .output ∧ (inv = .nodeRemove n ∨ inv = .nodeRemoveDone n)) :
    Turns s ((s.modifyDaemon f).perform findFormat inv) := by
  have hf : (s.modifyDaemon f).Attached := by
    show ((f s.daemon).graph.wiring).Attached (f s.daemon).nLinks s.nPorts
    rw [hgraph, hnLinks]
    exact h
  have hstep := steps_perform findFormat hf inv
  exact
    { attached := hstep.attached
      nLinks := hstep.onward.nLinks.trans hnLinks
      side := fun hside => by
        have hside' := hstep.onward.side hside
        rwa [show (s.modifyDaemon f).daemon.graph = s.daemon.graph from hgraph] at hside'
      going := fun hg => by
        apply Going.perform findFormat hf
        rw [show (s.modifyDaemon f).daemon.graph = s.daemon.graph from hgraph]
        exact hgoing hg }

theorem Turns.refl (h : s.Attached) : Turns s s := ⟨h, rfl, fun h => h, fun h => h⟩

theorem Turns.trans (h : Turns s s') (h' : Turns s' s'') : Turns s s'' :=
  ⟨h'.attached, h'.nLinks.trans h.nLinks, fun hside => h.side (h'.side hside),
    fun hg => h'.going (h.going hg)⟩

theorem turns_turn (h : s.Attached) (t : LoopTurn) : Turns s (s.turn findFormat t) := by
  cases t with
  | mainLoop =>
    show Turns s (s.runMain findFormat)
    unfold runMain
    split
    · exact .refl h
    · next inv rest hmain =>
      refine Turns.of_perform findFormat rfl rfl h fun {n p} hg => ?_
      rcases hg with hg | ⟨hp, hg | hg⟩
      · exact .inl (.inl hg)
      · rw [hmain] at hg
        rcases List.mem_cons.mp hg with hg | hg
        · exact .inr ⟨hp, .inr hg.symm⟩
        · exact .inl (.inr ⟨hp, .inl hg⟩)
      · exact .inl (.inr ⟨hp, .inr hg⟩)
  | dataLoop i =>
    show Turns s (s.runData findFormat i)
    unfold runData
    split
    · exact .refl h
    · next inv rest hdata =>
      refine Turns.of_perform findFormat rfl rfl h fun {n p} hg => ?_
      rcases hg with hg | ⟨hp, hg | ⟨j, hg⟩⟩
      · exact .inl (.inl hg)
      · exact .inl (.inr ⟨hp, .inl hg⟩)
      · have hkeep : .nodeRemove n ∈ Function.update s.daemon.dataLoops i rest j →
            (s.modifyDaemon fun d =>
              { d with dataLoops := Function.update d.dataLoops i rest }).Going n p :=
          fun hmem => .inr ⟨hp, .inr ⟨j, hmem⟩⟩
        by_cases hj : j = i
        · subst hj
          rw [hdata] at hg
          rcases List.mem_cons.mp hg with hg | hg
          · exact .inr ⟨hp, .inl hg.symm⟩
          · exact .inl (hkeep (by rwa [Function.update_self]))
        · exact .inl (hkeep (by rwa [Function.update_of_ne hj]))

/-! ## Every run -/

/-- The wires with a new link. -/
theorem attached_addLink (h : s.Attached) {output input : Nat} (houtput : output < s.nPorts)
    (hinput : input < s.nPorts) (hout : s.daemon.graph.wiring.direction output = .output)
    (hin : s.daemon.graph.wiring.direction input = .input)
    (hnone : s.daemon.graph.wiring.links input = []) :
    (s.daemon.graph.addLink s.daemon.nLinks output input).wiring.Attached (s.daemon.nLinks + 1)
      s.nPorts := by
  have hne : input ≠ output := by
    rintro rfl
    exact absurd (hin.symm.trans hout) nofun
  generalize hl : s.daemon.nLinks = l
  rw [Graph.wiring_addLink]
  generalize hw : s.daemon.graph.wiring = w at *
  have hw' : w.Attached l s.nPorts := by
    rw [← hw, ← hl]
    exact h
  have hnewInput : (((w.newLink l output input).attach .output l output).attach .input l input).side
      l .input = some input := by
    show Function.update w.side l _ l .input = _
    rw [Function.update_self]
  have hnewOutput : (((w.newLink l output input).attach .output l output).attach .input l input).side
      l .output = some output := by
    show Function.update w.side l _ l .output = _
    rw [Function.update_self]
  have hold : ∀ {l' dir}, l' ≠ l →
      (((w.newLink l output input).attach .output l output).attach .input l input).side l' dir =
        w.side l' dir := by
    intro l' dir hl'
    show Function.update w.side l _ l' dir = _
    rw [Function.update_of_ne hl']
  have hlinks : ∀ {l' q}, l' ∈ w.links q →
      l' ∈ (((w.newLink l output input).attach .output l output).attach .input l input).links q := by
    intro l' q hmem
    show l' ∈ Function.update (Function.update w.links output (w.links output ++ [l])) input
      (Function.update w.links output (w.links output ++ [l]) input ++ [l]) q
    rw [Function.update_of_ne hne]
    by_cases hq : q = input
    · rw [hq, Function.update_self]
      exact List.mem_append_left _ (hq ▸ hmem)
    · rw [Function.update_of_ne hq]
      by_cases hq' : q = output
      · rw [hq', Function.update_self]
        exact List.mem_append_left _ (hq' ▸ hmem)
      · rwa [Function.update_of_ne hq']
  have hinlist :
      l ∈ (((w.newLink l output input).attach .output l output).attach .input l input).links input := by
    show l ∈ Function.update (Function.update w.links output (w.links output ++ [l])) input
      (Function.update w.links output (w.links output ++ [l]) input ++ [l]) input
    rw [Function.update_self]
    exact List.mem_append_right _ (List.mem_singleton_self _)
  have hfree : ∀ {l'}, l' ≠ l → w.side l' .input ≠ some input := by
    intro l' _ hside
    have hmem := hw'.mem hside
    rw [hnone] at hmem
    cases hmem
  exact
    { mem := fun {l' q} hside => by
        by_cases hl' : l' = l
        · rw [hl', hnewInput] at hside
          cases hside
          exact hl' ▸ hinlist
        · rw [hold hl'] at hside
          exact hlinks (hw'.mem hside)
      only := fun {l' l'' q} hside hside' => by
        by_cases hl' : l' = l
        · by_cases hl'' : l'' = l
          · rw [hl', hl'']
          · rw [hl', hnewInput] at hside
            rw [hold hl''] at hside'
            cases hside
            exact absurd hside' (hfree hl'')
        · rw [hold hl'] at hside
          by_cases hl'' : l'' = l
          · rw [hl'', hnewInput] at hside'
            cases hside'
            exact absurd hside (hfree hl')
          · rw [hold hl''] at hside'
            exact hw'.only hside hside'
      port := fun {l' dir p} hside => by
        by_cases hl' : l' = l
        · rw [hl'] at hside
          cases dir with
          | input =>
            rw [hnewInput] at hside
            cases hside
            exact ⟨hinput, hin⟩
          | output =>
            rw [hnewOutput] at hside
            cases hside
            exact ⟨houtput, hout⟩
        · rw [hold hl'] at hside
          exact hw'.port hside
      fresh := fun {l' dir} hl' => by
        rw [hold (Nat.ne_of_gt hl')]
        exact hw'.fresh (Nat.le_of_lt hl')
      listed := fun hp => hw'.listed hp }

theorem attached_portLink (h : s.Attached) {output input : Nat} (houtput : output < s.nPorts)
    (hinput : input < s.nPorts) (hout : s.daemon.graph.wiring.direction output = .output)
    (hin : s.daemon.graph.wiring.direction input = .input) :
    (s.modifyDaemon fun d => d.portLink output input).Attached := by
  unfold modifyDaemon Daemon.portLink
  dsimp only
  split
  · exact h
  split
  · exact h
  · next hnone =>
    split
    · exact h
    · exact attached_addLink h houtput hinput hout hin (not_not.mp hnone)

theorem attached_linkPorts (h : s.Attached) {output input : Nat} (houtput : output < s.nPorts)
    (hinput : input < s.nPorts) (hout : s.daemon.graph.wiring.direction output = .output)
    (hin : s.daemon.graph.wiring.direction input = .input) :
    (s.linkPorts output input).Attached := by
  have hlink := attached_portLink h houtput hinput hout hin
  unfold linkPorts
  split
  · exact hlink
  · next l _ =>
    exact (@Attached.steps _ hlink (fun d => d.modify fun g => g.linkActivate l)
      (Daemon.loses_modify_of_eq Graph.wiring_addWork)).attached

theorem attached_tryLinkPort (h : s.Attached) (hp : p < s.nPorts) :
    (s.tryLinkPort findFormat p).Attached := by
  obtain ⟨hgrows, hsuits⟩ := @grows_target s p findFormat h hp
  unfold tryLinkPort
  dsimp only
  split
  · exact hgrows.attached
  · next q hq =>
    obtain ⟨hlt, hdir⟩ := hsuits q hq
    have hp' := Nat.lt_of_lt_of_le hp hgrows.nPorts
    split
    · next hout =>
      have hout : (s.target findFormat p).1.daemon.graph.wiring.direction p = .output := hout
      exact attached_linkPorts hgrows.attached hp' hlt hout (by rw [hdir, hout]; rfl)
    · next hin =>
      have hin : (s.target findFormat p).1.daemon.graph.wiring.direction p = .input := hin
      exact attached_linkPorts hgrows.attached hlt hp' (by rw [hdir, hin]; rfl) hin

theorem attached_step (h : s.Attached) {op : Op} (hop : s.Admits op) :
    (s.step findFormat op).Attached := by
  have hdaemon : ∀ f : Daemon → Daemon, s.daemon.Loses (f s.daemon) → (s.modifyDaemon f).Attached :=
    fun _ hloses => (h.steps hloses).attached
  cases op with
  | portLink output input => exact attached_portLink h hop.1 hop.2.1 hop.2.2.1 hop.2.2.2
  | portUnlink p l => exact hdaemon (fun d => d.portUnlink p l) Daemon.loses_portUnlink
  | linkDestroy l => exact hdaemon (fun d => d.linkDestroy l) Daemon.loses_linkDestroy
  | linkBind l => exact hdaemon (fun d => d.linkBind l) Daemon.loses_linkBind
  | linkUnbind l => exact hdaemon (fun d => d.linkUnbind l) Daemon.loses_linkUnbind
  | portDestroy p => exact (steps_portDestroy findFormat h).1.attached
  | nodeDestroy n => exact h
  | nodeAdded n id props => exact h
  | portAdded n dir i place =>
    exact attached_tryLinkPort findFormat (grows_addPort h n dir i place).attached
      (Nat.lt_succ_self _)
  | tryLinkPort p => exact attached_tryLinkPort findFormat h hop
  | states g =>
    exact hdaemon (fun d => { d with graph := g })
      (@Daemon.loses_modify_of_eq s.daemon (fun _ => g) hop)
  | loop t => exact (turns_turn findFormat h t).attached

/-- Nodes and ports before there are links. -/
structure Start (s : AutolinkCore) : Prop where
  nLinks : s.daemon.nLinks = 0
  side : ∀ l dir, s.daemon.graph.wiring.side l dir = none
  listed : ∀ {n dir p}, p ∈ s.daemon.graph.wiring.ports n dir →
    p < s.nPorts ∧ s.daemon.graph.wiring.direction p = dir

/-- An input is linked to an output that is there. -/
def Linked (s : AutolinkCore) (q : Nat) : Prop :=
  ∃ l < s.daemon.nLinks, (s.daemon.graph.links l).input = some q ∧
    ∃ p ∈ (s.daemon.graph.links l).output, .port p ∉ s.daemon.freed

/-- `try_link_port` finds an output of another node. -/
def Finds (n q : Nat) (s : AutolinkCore) (_ : LoopTurn) : Prop :=
  ∃ p ∈ (s.target findFormat q).2, (s.daemon.graph.ports p).node ≠ n

theorem Start.attached (h : s.Start) : s.Attached where
  mem hside := absurd ((h.side _ _).symm.trans hside) nofun
  only hside := absurd ((h.side _ _).symm.trans hside) nofun
  port hside := absurd ((h.side _ _).symm.trans hside) nofun
  fresh _ := h.side _ _
  listed := h.listed

/-- An input whose output is destroyed with its node is not linked again, whatever ports there
are to be found. -/
theorem run_not_linked (h : s.Start) {ops : List Op}
    (hops : Run.Along (step findFormat) Admits s ops)
    (hinput : ((Run.run (step findFormat) s ops).daemon.graph.links l).input = some q)
    (houtput : ((Run.run (step findFormat) s ops).daemon.graph.links l).output = some p)
    (hp : p ∈ ((Run.run (step findFormat) s ops).daemon.graph.nodes n).outputPorts)
    {turns : List LoopTurn}
    (hsettled : (Run.run (turn findFormat)
      ((Run.run (step findFormat) s ops).nodeDestroy n) turns).daemon.Settled) :
    ¬ (Run.run (turn findFormat)
      ((Run.run (step findFormat) s ops).nodeDestroy n) turns).Linked q := by
  have hs := Run.run_invariant Attached (fun _ _ hs hop => attached_step findFormat hs hop)
    h.attached hops
  generalize Run.run (step findFormat) s ops = s₁ at hs hinput houtput hp hsettled ⊢
  have hgoing : (s₁.nodeDestroy n).Going n p := by
    refine .inr ⟨hp, .inr ⟨(s₁.daemon.graph.nodes n).dataLoop, ?_⟩⟩
    show _ ∈ Function.update s₁.daemon.dataLoops _ (_ ++ [_]) _
    rw [Function.update_self]
    exact List.mem_append_right _ (List.mem_singleton_self _)
  have hturns : Turns (s₁.nodeDestroy n) (Run.run (turn findFormat) (s₁.nodeDestroy n) turns) :=
    Run.run_keeps (Turns (s₁.nodeDestroy n))
      (fun _ t h₂ => h₂.trans (turns_turn findFormat h₂.attached t)) (@Turns.refl (s₁.nodeDestroy n) hs)
      turns
  generalize Run.run (turn findFormat) (s₁.nodeDestroy n) turns = s₂ at hturns hsettled ⊢
  have hfreed : .port p ∈ s₂.daemon.freed := by
    rcases hturns.going hgoing with hfreed | ⟨-, hmain | ⟨i, hdata⟩⟩
    · exact hfreed
    · rw [hsettled.main] at hmain
      cases hmain
    · rw [hsettled.data] at hdata
      cases hdata
  rintro ⟨l', -, hinput', p', houtput', hlive⟩
  -- The link is the one that the input had, and has its output, or none.
  have hside : s₁.daemon.graph.wiring.side l' .input = some q :=
    @Turns.side _ _ hturns l' .input q hinput'
  cases hs.only hside hinput
  have hsame : s₁.daemon.graph.wiring.side l .output = some p' :=
    @Turns.side _ _ hturns l .output p' houtput'
  cases (show some p' = some p from hsame.symm.trans houtput)
  exact hlive hfreed

end FindFormat

end Grows

/-! ## An output with a successor -/

/-- A sink that is to be linked, and two sources for it. -/
def trio : AutolinkCore where
  daemon :=
    { Daemon.pair with
      graph :=
        { Daemon.pair.graph with
          nodes := fun n =>
            { state := .suspended
              live := true
              dataLoop := 0
              inputPorts := if n = 1 then [1] else []
              outputPorts := if n = 0 then [0] else if n = 2 then [2] else []
              nUsedInputLinks := 0
              nUsedOutputLinks := 0
              work := [] }
          ports := fun p => newPort p (if p = 1 then .input else .output) } }
  nPorts := 3
  nodeList := [2, 0, 1]
  globalId n := some n.toUInt32
  maxPorts _ _ := 0
  portCount _ _ := 0
  portMap _ _ _ := none
  properties n := if n = 1 then some ⟨none, some 1⟩ else none
  listening := []

theorem start_trio : trio.Start where
  nLinks := rfl
  side _ dir := by cases dir <;> rfl
  listed := by
    intro n dir p hp
    cases dir with
    | input =>
      change p ∈ (if n = 1 then [1] else []) at hp
      split at hp
      · rw [List.mem_singleton.mp hp]
        decide
      · cases hp
    | output =>
      change p ∈ (if n = 0 then [0] else if n = 2 then [2] else []) at hp
      split at hp
      · rw [List.mem_singleton.mp hp]
        decide
      split at hp
      · rw [List.mem_singleton.mp hp]
        decide
      · cases hp

def anyFormat (_ : Graph) (_ _ : Nat) : Bool := true

/-- The sink is linked to the first source. -/
def linking : List Op := [.tryLinkPort 1, .loop (.dataLoop 0), .loop (.dataLoop 0)]

/-- The first source is removed, and then its link. -/
def removal : List LoopTurn := [.dataLoop 0, .mainLoop, .dataLoop 0, .mainLoop]

theorem admits_linking : Run.Along (step anyFormat) Admits trio linking :=
  ⟨Nat.lt_of_sub_eq_succ rfl, trivial, trivial, trivial⟩

theorem settled_removal :
    (Run.run (turn anyFormat) ((Run.run (step anyFormat) trio linking).nodeDestroy 0)
      removal).daemon.Settled := by
  refine ⟨by rfl, fun i => ?_⟩
  cases i <;> rfl

theorem run_not_linked_trio :
    ¬ (Run.run (turn anyFormat) ((Run.run (step anyFormat) trio linking).nodeDestroy 0)
      removal).Linked 1 :=
  run_not_linked anyFormat start_trio admits_linking (l := 0) (p := 0) (by rfl) (by rfl)
    List.mem_cons_self settled_removal

/-- The second source is found all the time. -/
theorem not_run_linked :
    ¬ ∀ (findFormat : Graph → Nat → Nat → Bool) (s : AutolinkCore) (ops : List Op) (n p q l : Nat)
      (turns : List LoopTurn), s.Start → Run.Along (step findFormat) Admits s ops →
      l ∈ (Run.run (step findFormat) s ops).listening →
      ((Run.run (step findFormat) s ops).daemon.graph.links l).input = some q →
      ((Run.run (step findFormat) s ops).daemon.graph.links l).output = some p →
      p ∈ ((Run.run (step findFormat) s ops).daemon.graph.nodes n).outputPorts →
      Run.Along (turn findFormat) (Finds findFormat n q)
        ((Run.run (step findFormat) s ops).nodeDestroy n) turns →
      (Run.run (turn findFormat) ((Run.run (step findFormat) s ops).nodeDestroy n)
        turns).daemon.Settled →
      (Run.run (turn findFormat) ((Run.run (step findFormat) s ops).nodeDestroy n)
        turns).Linked q := by
  intro h
  have hfinds : Run.Along (turn anyFormat) (Finds anyFormat 0 1)
      ((Run.run (step anyFormat) trio linking).nodeDestroy 0) removal :=
    ⟨⟨2, by rfl, by decide⟩, ⟨2, by rfl, by decide⟩, ⟨2, by rfl, by decide⟩, ⟨2, by rfl, by decide⟩,
      trivial⟩
  have hlinked := h anyFormat trio linking 0 0 1 0 removal start_trio admits_linking
    List.mem_cons_self rfl rfl List.mem_cons_self hfinds settled_removal
  obtain ⟨l, hl, hinput, -⟩ := hlinked
  obtain rfl : l = 0 := Nat.lt_one_iff.mp hl
  cases hinput

end AutolinkCore
end Pinos
