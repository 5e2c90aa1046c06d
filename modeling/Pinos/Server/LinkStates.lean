import Mathlib.Data.List.Basic
import Pinos.Server.Link

/-
`check_states` and the results of `do_negotiate`, `do_allocation` and `do_start`: when a run
leaves nothing behind that goes on with the link.
-/

namespace Pinos
namespace Graph

/-! ## What a run leaves as it is -/

/-- Nodes keep their states and ports, ports their links, and links their sides and their
work. -/
structure Grows (g g' : Graph) : Prop where
  nodes : ∀ n, (g'.nodes n).state = (g.nodes n).state ∧
    (g'.nodes n).inputPorts = (g.nodes n).inputPorts ∧
    (g'.nodes n).outputPorts = (g.nodes n).outputPorts
  ports : ∀ p, (g'.ports p).node = (g.ports p).node ∧ (g'.ports p).links = (g.ports p).links
  links : ∀ l, (g'.links l).input = (g.links l).input ∧ (g'.links l).output = (g.links l).output
  work : ∀ l, (g.links l).work ⊆ (g'.links l).work

/-- Links keep their states, and nobody is told of one. -/
def Quiet (g g' : Graph) : Prop :=
  ∀ l, (g'.links l).state = (g.links l).state ∧
    (g'.links l).stateChanged = (g.links l).stateChanged

variable {g g' g'' : Graph} {n p l i : Nat}

theorem Grows.refl (g : Graph) : Grows g g :=
  ⟨fun _ => ⟨rfl, rfl, rfl⟩, fun _ => ⟨rfl, rfl⟩, fun _ => ⟨rfl, rfl⟩, fun _ => List.Subset.refl _⟩

theorem Grows.trans (h : Grows g g') (h' : Grows g' g'') : Grows g g'' := by
  constructor
  · intro n
    have hn := h.nodes n
    have hn' := h'.nodes n
    exact ⟨hn'.1.trans hn.1, hn'.2.1.trans hn.2.1, hn'.2.2.trans hn.2.2⟩
  · intro p
    exact ⟨(h'.ports p).1.trans (h.ports p).1, (h'.ports p).2.trans (h.ports p).2⟩
  · intro l
    exact ⟨(h'.links l).1.trans (h.links l).1, (h'.links l).2.trans (h.links l).2⟩
  · exact fun l => List.Subset.trans (h.work l) (h'.work l)

theorem Quiet.refl (g : Graph) : Quiet g g := fun _ => ⟨rfl, rfl⟩

theorem Quiet.trans (h : Quiet g g') (h' : Quiet g' g'') : Quiet g g'' :=
  fun l => ⟨(h' l).1.trans (h l).1, (h' l).2.trans (h l).2⟩

theorem Grows.nodeOf (h : Grows g g') (p : Nat) : (g'.nodeOf p).state = (g.nodeOf p).state := by
  rw [Graph.nodeOf, Graph.nodeOf, (h.ports p).1]
  exact (h.nodes _).1

theorem grows_modifyNode {f : PinosNode → PinosNode}
    (hf : (f (g.nodes n)).state = (g.nodes n).state ∧
      (f (g.nodes n)).inputPorts = (g.nodes n).inputPorts ∧
      (f (g.nodes n)).outputPorts = (g.nodes n).outputPorts) :
    Grows g (g.modifyNode n f) := by
  refine { Grows.refl g with nodes := ?_ }
  intro i
  by_cases hi : i = n
  · rw [hi, nodes_modifyNode]
    exact hf
  · rw [nodes_modifyNode_of_ne hi]
    exact ⟨rfl, rfl, rfl⟩

theorem grows_modifyPort {f : PinosPort → PinosPort}
    (hf : (f (g.ports p)).node = (g.ports p).node ∧ (f (g.ports p)).links = (g.ports p).links) :
    Grows g (g.modifyPort p f) := by
  refine { Grows.refl g with ports := ?_ }
  intro i
  by_cases hi : i = p
  · rw [hi, ports_modifyPort]
    exact hf
  · rw [ports_modifyPort_of_ne hi]
    exact ⟨rfl, rfl⟩

theorem grows_modifyLink {f : PinosLink → PinosLink}
    (hf : (f (g.links l)).input = (g.links l).input ∧ (f (g.links l)).output = (g.links l).output)
    (hwork : (g.links l).work ⊆ (f (g.links l)).work) : Grows g (g.modifyLink l f) := by
  refine { Grows.refl g with links := ?_, work := ?_ }
  · intro i
    by_cases hi : i = l
    · rw [hi, links_modifyLink]
      exact hf
    · rw [links_modifyLink_of_ne hi]
      exact ⟨rfl, rfl⟩
  · intro i
    by_cases hi : i = l
    · rw [hi, links_modifyLink]
      exact hwork
    · rw [links_modifyLink_of_ne hi]
      exact List.Subset.refl _

theorem quiet_modifyLink {f : PinosLink → PinosLink}
    (hf : (f (g.links l)).state = (g.links l).state ∧
      (f (g.links l)).stateChanged = (g.links l).stateChanged) : Quiet g (g.modifyLink l f) := by
  intro i
  by_cases hi : i = l
  · rw [hi, links_modifyLink]
    exact hf
  · rw [links_modifyLink_of_ne hi]
    exact ⟨rfl, rfl⟩

/-! ## The functions that a run calls -/

theorem grows_updateLinkState (state : PinosLinkState) : Grows g (g.updateLinkState l state) := by
  apply grows_modifyLink
  · split <;> exact ⟨rfl, rfl⟩
  · split <;> exact List.Subset.refl _

theorem state_updateLinkState (state : PinosLinkState) :
    ((g.updateLinkState l state).links l).state = state := by
  rw [updateLinkState, links_modifyLink]
  split
  · next h => exact h.symm
  · rfl

theorem stateChanged_updateLinkState {state : PinosLinkState} (h : (g.links l).state ≠ state) :
    ((g.updateLinkState l state).links l).stateChanged = (g.links l).stateChanged ++ [state] := by
  rw [updateLinkState, links_modifyLink, if_neg (Ne.symm h)]

theorem grows_addWork (item : LinkWork) : Grows g (g.addWork l item) :=
  grows_modifyLink ⟨rfl, rfl⟩ (List.subset_append_left _ _)

theorem quiet_addWork (item : LinkWork) : Quiet g (g.addWork l item) :=
  quiet_modifyLink ⟨rfl, rfl⟩

theorem grows_activate (links : List Nat) : Grows g (links.foldl linkActivate g) := by
  induction links generalizing g with
  | nil => exact Grows.refl g
  | cons l links ih => exact (grows_addWork _).trans ih

/-- A link that is activated has an item for `check_states`. -/
theorem exists_checkStates_activate {links : List Nat} (h : l ∈ links) :
    ∃ item ∈ ((links.foldl linkActivate g).links l).work, item.func = .checkStates := by
  induction links generalizing g with
  | nil => cases h
  | cons i links ih =>
    rcases List.mem_cons.mp h with hl | hl
    · refine ⟨.new none .waitSync .checkStates, (grows_activate links).work l ?_, rfl⟩
      rw [hl, linkActivate, addWork, links_modifyLink]
      exact List.mem_append_right _ (List.mem_singleton_self _)
    · exact ih hl

section Plugins

variable {Format : Type} {spa : SpaNodes Format}

theorem grows_suspendPort : Grows g (g.suspendPort p) := by
  have h := @grows_modifyPort g p (fun port =>
    { port with buffers := none, nBuffers := 0, allocated := false, state := .configure }) ⟨rfl, rfl⟩
  exact { h with }

theorem grows_suspendNode : Grows g (g.suspendNode spa n).1 := by
  rw [suspendNode]
  generalize (g.nodes n).inputPorts ++ (g.nodes n).outputPorts = ports
  generalize SpaResult.ok = res
  induction ports generalizing g res with
  | nil => exact Grows.refl g
  | cons p ports ih => exact grows_suspendPort.trans (ih _)

theorem links_suspendNode : (g.suspendNode spa n).1.links = g.links := by
  rw [suspendNode]
  generalize (g.nodes n).inputPorts ++ (g.nodes n).outputPorts = ports
  generalize SpaResult.ok = res
  induction ports generalizing g res with
  | nil => rfl
  | cons p ports ih => exact (ih _).trans rfl

theorem grows_setNodeState_finish (state : PinosNodeState) (done : Graph × SpaResult) :
    Grows done.1 (setNodeState.finish n state done).1 := by
  rw [setNodeState.finish]
  split
  · exact Grows.refl done.1
  · exact @grows_modifyNode _ n (fun node =>
      { node with work := node.work ++ [(done.2, state)] }) ⟨rfl, rfl, rfl⟩

theorem links_setNodeState_finish (state : PinosNodeState) (done : Graph × SpaResult) :
    (setNodeState.finish n state done).1.links = done.1.links := by
  rw [setNodeState.finish]
  split <;> rfl

theorem grows_setNodeState (state : PinosNodeState) : Grows g (g.setNodeState spa n state).1 := by
  cases state with
  | creating => exact Grows.refl g
  | suspended => exact grows_suspendNode.trans (grows_setNodeState_finish _ _)
  | idle => exact grows_setNodeState_finish _ (g, _)
  | running => exact (grows_activate _).trans (grows_setNodeState_finish _ (_, _))
  | error => exact grows_setNodeState_finish _ (g, _)

theorem grows_suspendIdle (state : PinosPortState) : Grows g (g.suspendIdle spa p state) := by
  rw [suspendIdle]
  split
  · exact grows_setNodeState _
  · exact Grows.refl g

theorem links_suspendIdle (state : PinosPortState) :
    (g.suspendIdle spa p state).links = g.links := by
  rw [suspendIdle]
  split
  · exact (links_setNodeState_finish _ _).trans links_suspendNode
  · rfl

/-! ## Negotiating -/

/-- The listeners of the link have been told of an error. -/
def PutsInError (l : Nat) (g g' : Graph) : Prop :=
  .error ∈ (g'.links l).stateChanged.drop (g.links l).stateChanged.length

/-- A link that was in another state has been put in error. -/
structure Fails (l : Nat) (g g' : Graph) : Prop where
  state : (g'.links l).state = .error
  told : (g'.links l).stateChanged = (g.links l).stateChanged ++ [.error]

theorem fails_iff_of_quiet (h : Quiet g g') : Fails l g g'' ↔ Fails l g' g'' := by
  constructor
  · exact fun h' => ⟨h'.state, by rw [h'.told, (h l).2]⟩
  · exact fun h' => ⟨h'.state, by rw [h'.told, (h l).2]⟩

theorem fails_updateLinkState (h : (g.links l).state ≠ .error) :
    Fails l g (g.updateLinkState l .error) :=
  ⟨state_updateLinkState .error, stateChanged_updateLinkState h⟩

/-- What is told when the state is updated first. -/
theorem putsInError_of_fails {state : PinosLinkState}
    (h : Fails l (g.updateLinkState l state) g') : PutsInError l g g' := by
  rw [PutsInError, h.told, updateLinkState, links_modifyLink]
  split
  · rw [List.drop_left]
    exact List.mem_singleton_self _
  · rw [List.append_assoc, List.drop_left]
    exact List.mem_append_right _ (List.mem_singleton_self _)

theorem not_putsInError_of_quiet {state : PinosLinkState} (hstate : state ≠ .error)
    (h : Quiet (g.updateLinkState l state) g') : ¬ PutsInError l g g' := by
  rw [PutsInError, (h l).2, updateLinkState, links_modifyLink]
  split
  · rw [List.drop_length]
    exact List.not_mem_nil
  · rw [List.drop_left]
    exact fun hin => hstate (List.mem_singleton.mp hin).symm

theorem not_putsInError_self : ¬ PutsInError l g g := by
  rw [PutsInError, List.drop_length]
  exact List.not_mem_nil

theorem Quiet.of_links (h : g'.links = g.links) : Quiet g g' := by
  intro l
  rw [h]
  exact ⟨rfl, rfl⟩

/-- A function that returns a result has put the link in error or has told nothing, and
the result says which unless it is wrong. -/
structure Reports (l : Nat) (g : Graph) (done : Graph × SpaResult) (wrong : Prop) : Prop where
  ends : Fails l g done.1 ∨ Quiet g done.1
  reports : (done.2.isError = true ↔ Fails l g done.1) ↔ ¬ wrong

section Reports

variable {done : Graph × SpaResult} {wrong : Prop}

theorem Quiet.not_fails (h : Quiet g g') (hstate : (g.links l).state ≠ .error) :
    ¬ Fails l g g' :=
  fun hfails => hstate ((h l).1.symm.trans hfails.state)

theorem reports_of_fails (h : Fails l g done.1) (hres : done.2.isError = true) (hnot : ¬ wrong) :
    Reports l g done wrong :=
  ⟨.inl h, iff_of_true (iff_of_true hres h) hnot⟩

theorem reports_of_fails_wrong (h : Fails l g done.1) (hres : done.2.isError = false)
    (hwrong : wrong) : Reports l g done wrong := by
  refine ⟨.inl h, iff_of_false ?_ (not_not_intro hwrong)⟩
  intro hiff
  exact Bool.noConfusion (hres.symm.trans (hiff.mpr h))

theorem reports_of_quiet (h : Quiet g done.1) (hstate : (g.links l).state ≠ .error)
    (hres : done.2.isError = false) (hnot : ¬ wrong) : Reports l g done wrong := by
  refine ⟨.inr h, iff_of_true (iff_of_false ?_ (h.not_fails hstate)) hnot⟩
  exact fun htrue => Bool.noConfusion (hres.symm.trans htrue)

theorem reports_of_quiet_wrong (h : Quiet g done.1) (hstate : (g.links l).state ≠ .error)
    (hres : done.2.isError = true) (hwrong : wrong) : Reports l g done wrong := by
  refine ⟨.inr h, iff_of_false ?_ (not_not_intro hwrong)⟩
  exact fun hiff => h.not_fails hstate (hiff.mp hres)

theorem Reports.of_quiet (h : Reports l g' done wrong) (hquiet : Quiet g g') :
    Reports l g done wrong := by
  have hfails := @fails_iff_of_quiet g g' done.1 l hquiet
  refine ⟨h.ends.imp hfails.mpr hquiet.trans, ?_⟩
  rw [hfails]
  exact h.reports

theorem Reports.congr {wrong' : Prop} (h : Reports l g done wrong) (hiff : wrong ↔ wrong') :
    Reports l g done wrong' :=
  ⟨h.ends, h.reports.trans (not_congr hiff)⟩

end Reports

section Format

variable {input output : Nat} {inState outState : PinosPortState} {format : Format}
  {res : SpaResult}

theorem isError_error : SpaResult.error.isError = true := by decide

theorem isError_ok : SpaResult.ok.isError = false := by decide

theorem grows_setInputFormat : Grows g (g.setInputFormat spa l input inState format res).1 := by
  unfold setInputFormat
  dsimp only
  split
  · split
    · exact grows_updateLinkState _
    · exact grows_addWork _
  · exact Grows.refl g

theorem grows_setFormats :
    Grows g (g.setFormats spa l input output inState outState format).1 := by
  unfold setFormats
  dsimp only
  split
  · split
    · exact grows_updateLinkState _
    · exact (grows_addWork _).trans grows_setInputFormat
  · exact grows_setInputFormat

/-- The end of `do_negotiate` fails when the input port does not take the format. -/
theorem setInputFormat_fails (hstate : (g.links l).state ≠ .error) (hin : inState = .configure)
    (h : (spa.portSetFormat input (some format)).isError = true) :
    Fails l g (g.setInputFormat spa l input inState format res).1 ∧
      (g.setInputFormat spa l input inState format res).2 = res := by
  unfold setInputFormat
  dsimp only
  rw [if_pos hin, if_pos h]
  exact ⟨fails_updateLinkState hstate, rfl⟩

theorem setInputFormat_quiet
    (h : inState = .configure → (spa.portSetFormat input (some format)).isError = false) :
    Quiet g (g.setInputFormat spa l input inState format res).1 ∧
      (g.setInputFormat spa l input inState format res).2 =
        if inState = .configure ∧ spa.portSetFormat input (some format) ≠ .ok then
          spa.portSetFormat input (some format)
        else res := by
  unfold setInputFormat
  dsimp only
  by_cases hin : inState = .configure
  · rw [if_pos hin, h hin]
    refine ⟨quiet_addWork _, ?_⟩
    by_cases hok : spa.portSetFormat input (some format) = .ok <;> simp [hin, hok]
  · simp [hin, Quiet.refl]

theorem setInputFormat_ok (h : res.isError = false) :
    (g.setInputFormat spa l input inState format res).2.isError = false := by
  unfold setInputFormat
  dsimp only
  split
  · split
    · exact h
    · next hset =>
      dsimp only
      split
      · exact Bool.eq_false_iff.mpr hset
      · exact h
  · exact h

/-- An error is that of the output port when this one gets a format. -/
theorem setFormats_fails (hout : outState = .configure)
    (herr : (g.setFormats spa l input output inState outState format).2.isError = true) :
    ((g.setFormats spa l input output inState outState format).1.links l).state = .error := by
  unfold setFormats at herr ⊢
  dsimp only at herr ⊢
  rw [if_pos hout] at herr ⊢
  split at herr
  · next hset =>
    rw [if_pos hset]
    exact state_updateLinkState .error
  · next hset =>
    rw [setInputFormat_ok (Bool.eq_false_iff.mpr hset)] at herr
    exact Bool.noConfusion herr

/-- `do_negotiate` gives a port its format and returns the wrong result: that of the output
port when the input port fails, or the one the variable was set to at first when only the
input port needs a format and takes it at once. -/
structure Misreports (spa : SpaNodes Format) (input : Nat) (inState outState : PinosPortState)
    (format : Format) (setOutput : SpaResult) : Prop where
  configures : inState = .configure
  wrong : if outState = .configure then
      setOutput.isError = false ∧ (spa.portSetFormat input (some format)).isError = true
    else spa.portSetFormat input (some format) = .ok

theorem setFormats_reports (hstate : (g.links l).state ≠ .error)
    (hsome : inState = .configure ∨ outState = .configure) :
    Reports l g (g.setFormats spa l input output inState outState format)
      (Misreports spa input inState outState format (spa.portSetFormat output (some format))) := by
  by_cases hout : outState = .configure
  · unfold setFormats
    dsimp only
    rw [if_pos hout]
    cases houtput : (spa.portSetFormat output (some format)).isError with
    | true =>
      refine reports_of_fails (fails_updateLinkState hstate) houtput fun hmis => ?_
      have hwrong := hmis.wrong
      rw [if_pos hout, houtput] at hwrong
      exact Bool.noConfusion hwrong.1
    | false =>
      have hadd : Quiet g (g.addWork l (.new (some (g.ports output).node)
        (spa.portSetFormat output (some format)) (.completeReady output))) := quiet_addWork _
      simp only [Bool.false_eq_true, if_false]
      generalize g.addWork l (.new (some (g.ports output).node)
        (spa.portSetFormat output (some format)) (.completeReady output)) = g₁ at hadd ⊢
      have hstate₁ : (g₁.links l).state ≠ .error := by
        rw [(hadd l).1]
        exact hstate
      apply Reports.of_quiet _ hadd
      by_cases hin : inState = .configure ∧
        (spa.portSetFormat input (some format)).isError = true
      · have h := @setInputFormat_fails g₁ l _ spa input inState format
          (spa.portSetFormat output (some format)) hstate₁ hin.1 hin.2
        refine reports_of_fails_wrong h.1 (by rw [h.2]; exact houtput) ⟨hin.1, ?_⟩
        rw [if_pos hout]
        exact ⟨houtput, hin.2⟩
      · have hfine : inState = .configure →
            (spa.portSetFormat input (some format)).isError = false := by
          intro h
          exact Bool.eq_false_iff.mpr fun herr => hin ⟨h, herr⟩
        have h := @setInputFormat_quiet g₁ l _ spa input inState format
          (spa.portSetFormat output (some format)) hfine
        refine reports_of_quiet h.1 hstate₁ ?_ fun hmis => ?_
        · rw [h.2]
          split
          · next hset => exact hfine hset.1
          · exact houtput
        · have hwrong := hmis.wrong
          rw [if_pos hout] at hwrong
          exact hin ⟨hmis.configures, hwrong.2⟩
  · have hin := hsome.resolve_right hout
    unfold setFormats
    rw [if_neg hout]
    cases hinput : (spa.portSetFormat input (some format)).isError with
    | true =>
      have h := @setInputFormat_fails g l _ spa input inState format .error hstate hin hinput
      refine reports_of_fails h.1 (by rw [h.2]; exact isError_error) fun hmis => ?_
      have hwrong := hmis.wrong
      rw [if_neg hout] at hwrong
      rw [hwrong] at hinput
      exact Bool.noConfusion (isError_ok.symm.trans hinput)
    | false =>
      have h := @setInputFormat_quiet g l _ spa input inState format .error fun _ => hinput
      by_cases hok : spa.portSetFormat input (some format) = .ok
      · rw [if_neg (fun hboth => hboth.2 hok)] at h
        refine reports_of_quiet_wrong h.1 hstate (by rw [h.2]; exact isError_error) ⟨hin, ?_⟩
        rw [if_neg hout]
        exact hok
      · rw [if_pos ⟨hin, hok⟩] at h
        refine reports_of_quiet h.1 hstate (by rw [h.2]; exact hinput) fun hmis => hok ?_
        have hwrong := hmis.wrong
        rw [if_neg hout] at hwrong
        exact hwrong

variable {fixate : Format → Format} {fuel : Nat}

/-- `do_negotiate` finds a format, and returns the wrong result when it gives it to the
ports. -/
def Misnegotiates (spa : SpaNodes Format) (fixate : Format → Format) (fuel : Nat) (g : Graph)
    (input output : Nat) (inState outState : PinosPortState) : Prop :=
  (inState = .configure ∨ outState = .configure) ∧
    ∃ format, findFormat spa fixate fuel g output input = some (some format) ∧
      Misreports spa input (g.idleState input inState) (g.idleState output outState) format
        (spa.portSetFormat output (some format))

theorem idleState_configure : g.idleState p .configure = .configure := by
  rw [idleState]
  split <;> rfl

/-- What `do_negotiate` does from the moment that the link negotiates. -/
theorem doNegotiate_cases
    (h : doNegotiate spa fixate fuel g l input output inState outState = some (g', res)) :
    Grows g g' ∧
    ((inState ≠ .configure ∧ outState ≠ .configure ∧ g' = g ∧ res = .ok) ∨
      (inState = .configure ∨ outState = .configure) ∧
      Reports l (g.updateLinkState l .negotiating) (g', res)
        (Misnegotiates spa fixate fuel g input output inState outState) ∧
      (g.idleState output outState = .configure → res.isError = true →
        (g'.links l).state = .error)) := by
  unfold doNegotiate at h
  dsimp only at h
  split at h
  · next hnone =>
    obtain ⟨rfl, rfl⟩ : g = g' ∧ .ok = res := Prod.mk.inj (Option.some.inj h)
    exact ⟨Grows.refl g, .inl ⟨hnone.1, hnone.2, rfl, rfl⟩⟩
  · next hsome =>
    have hsome : inState = .configure ∨ outState = .configure := by
      by_contra hnone
      exact hsome (not_or.mp hnone)
    obtain ⟨found, hfound, h⟩ := Option.map_eq_some_iff.mp h
    have hstate : ((g.updateLinkState l .negotiating).links l).state ≠ .error := by
      rw [state_updateLinkState]
      exact PinosLinkState.noConfusion
    have hgrows : Grows g (g.updateLinkState l .negotiating) := grows_updateLinkState _
    generalize hg₀ : g.updateLinkState l .negotiating = g₀ at h hstate hgrows hfound ⊢
    have hidle : ∀ p state, g₀.idleState p state = g.idleState p state := by
      rw [← hg₀]
      exact fun _ _ => rfl
    have hfind : findFormat spa fixate fuel g₀ output input =
        findFormat spa fixate fuel g output input := by
      rw [← hg₀]
      rfl
    rw [hfind] at hfound
    cases found with
    | none =>
      obtain ⟨rfl, rfl⟩ : g₀.updateLinkState l .error = g' ∧ .error = res := Prod.mk.inj h
      refine ⟨hgrows.trans (grows_updateLinkState _), .inr ⟨hsome,
        reports_of_fails (fails_updateLinkState hstate) isError_error ?_,
        fun _ _ => state_updateLinkState .error⟩⟩
      intro ⟨_, format, hformat, _⟩
      rw [hfound] at hformat
      cases hformat
    | some format =>
      obtain ⟨rfl, rfl⟩ := Prod.ext_iff.mp h
      have hsuspend : Quiet g₀ ((g₀.suspendIdle spa output outState).suspendIdle spa input inState) :=
        Quiet.of_links ((links_suspendIdle _).trans (links_suspendIdle _))
      have hsuspends : Grows g₀
          ((g₀.suspendIdle spa output outState).suspendIdle spa input inState) :=
        (grows_suspendIdle _).trans (grows_suspendIdle _)
      have hsides : g₀.idleState input inState = .configure ∨
          g₀.idleState output outState = .configure := by
        rcases hsome with rfl | rfl
        · exact .inl idleState_configure
        · exact .inr idleState_configure
      have hset := @setFormats_reports _ l Format spa input output _ _ format
        (by rw [(hsuspend l).1]; exact hstate) hsides
      refine ⟨(hgrows.trans hsuspends).trans grows_setFormats, .inr ⟨hsome,
        (hset.of_quiet hsuspend).congr ?_, fun hout => setFormats_fails (hidle output _ ▸ hout)⟩⟩
      rw [hidle, hidle, Misnegotiates, hfound]
      refine ⟨fun hmis => ⟨hsome, format, rfl, hmis⟩, ?_⟩
      intro ⟨_, _, hsame, hmis⟩
      cases hsame
      exact hmis

theorem putsInError_iff {state : PinosLinkState} {done : Graph × SpaResult} {wrong : Prop}
    (hstate : state ≠ .error) (h : Reports l (g.updateLinkState l state) done wrong) :
    PutsInError l g done.1 ↔ Fails l (g.updateLinkState l state) done.1 := by
  constructor
  · intro hputs
    exact h.ends.resolve_right fun hquiet => not_putsInError_of_quiet hstate hquiet hputs
  · exact putsInError_of_fails

theorem doNegotiate_reports
    (h : doNegotiate spa fixate fuel g l input output inState outState = some (g', res)) :
    (res.isError = true ↔ PutsInError l g g') ↔
      ¬ Misnegotiates spa fixate fuel g input output inState outState := by
  obtain ⟨-, hnone | ⟨-, hreports, -⟩⟩ := doNegotiate_cases h
  · obtain ⟨hin, hout, rfl, rfl⟩ := hnone
    rw [isError_ok]
    exact iff_of_true (iff_of_false Bool.false_ne_true not_putsInError_self)
      fun hmis => hmis.1.elim hin hout
  · rw [putsInError_iff PinosLinkState.noConfusion hreports]
    exact hreports.reports

end Format

/-! ## Allocating -/

section Buffers

variable {input output : Nat} {inState outState : PinosPortState} {inFlags outFlags : UInt32}
  {res : SpaResult} {block : BufferBlock}

theorem grows_allocationError : Grows g (g.allocationError l input output) :=
  ((grows_modifyPort ⟨rfl, rfl⟩).trans (grows_modifyPort ⟨rfl, rfl⟩)).trans
    (grows_updateLinkState .error)

theorem fails_allocationError (h : (g.links l).state ≠ .error) :
    Fails l g (g.allocationError l input output) := by
  have hfails := @fails_updateLinkState ((g.modifyPort output allocationError.clear).modifyPort input
    allocationError.clear) l h
  exact ⟨hfails.state, hfails.told⟩

theorem grows_setLive (flags : UInt32) : Grows g (g.setLive input output flags) := by
  rw [setLive]
  split
  · exact (grows_modifyNode ⟨rfl, rfl, rfl⟩).trans (grows_modifyNode ⟨rfl, rfl, rfl⟩)
  · exact Grows.refl g

theorem links_setLive (flags : UInt32) : (g.setLive input output flags).links = g.links := by
  rw [setLive]
  split <;> rfl

theorem grows_newBuffers : Grows g (g.newBuffers l block) := by
  have h := @grows_modifyLink g l (fun link => { link with
    bufferOwner := some .link
    nBuffers := block.nBuffers
    buffers := some g.blocks.length
    bufferMem := some g.blocks.length }) ⟨rfl, rfl⟩ (List.Subset.refl _)
  exact { h with }

theorem quiet_newBuffers : Quiet g (g.newBuffers l block) := by
  have h := @quiet_modifyLink g l (fun link => { link with
    bufferOwner := some .link
    nBuffers := block.nBuffers
    buffers := some g.blocks.length
    bufferMem := some g.blocks.length }) ⟨rfl, rfl⟩
  exact h

theorem grows_portAllocBuffers : Grows g (g.portAllocBuffers spa l p).1 := by
  unfold portAllocBuffers
  dsimp only
  have hcount : ∀ n, Grows g (g.modifyLink l fun link => { link with nBuffers := n }) :=
    fun _ => grows_modifyLink ⟨rfl, rfl⟩ (List.Subset.refl _)
  split
  · exact hcount _
  · dsimp only
    exact (((hcount _).trans (grows_addWork _)).trans (grows_modifyPort ⟨rfl, rfl⟩)).trans
      (grows_modifyLink ⟨rfl, rfl⟩ (List.Subset.refl _))

theorem quiet_portAllocBuffers : Quiet g (g.portAllocBuffers spa l p).1 := by
  unfold portAllocBuffers
  dsimp only
  have hcount : ∀ n, Quiet g (g.modifyLink l fun link => { link with nBuffers := n }) :=
    fun _ => quiet_modifyLink ⟨rfl, rfl⟩
  split
  · exact hcount _
  · dsimp only
    exact (((hcount _).trans (quiet_addWork _)).trans (Quiet.of_links rfl)).trans
      (quiet_modifyLink ⟨rfl, rfl⟩)

theorem portAllocBuffers_result : (g.portAllocBuffers spa l p).2 =
    (spa.portAllocBuffers p (g.links l).buffers (g.links l).nBuffers).1 := by
  unfold portAllocBuffers
  dsimp only
  split <;> rfl

theorem grows_portUseBuffers : Grows g (g.portUseBuffers spa l p).1 := by
  unfold portUseBuffers
  dsimp only
  split
  · exact Grows.refl g
  · dsimp only
    exact (grows_addWork _).trans (grows_modifyPort ⟨rfl, rfl⟩)

theorem quiet_portUseBuffers : Quiet g (g.portUseBuffers spa l p).1 := by
  unfold portUseBuffers
  dsimp only
  split
  · exact Quiet.refl g
  · dsimp only
    exact (quiet_addWork _).trans (Quiet.of_links rfl)

/-- The port that is asked to allocate memory. -/
def allocatingPort (input output : Nat) (inFlags outFlags : UInt32) : Option Nat :=
  if hasFlag outFlags canAllocBuffers then some output
  else if hasFlag inFlags canAllocBuffers then some input
  else none

/-- Neither port is asked to use the buffers that there are. -/
structure LeavesUnused (spa : SpaNodes Format) (g : Graph) (l input output : Nat)
    (block : BufferBlock) (inFlags outFlags : UInt32) : Prop where
  inUnused : hasFlag inFlags canUseBuffers = false
  outUnused : hasFlag outFlags canUseBuffers = false
  buffers : (g.links l).buffers = none →
    (g.ports output).nBuffers = 0 ∧ (g.ports input).nBuffers = 0 ∧
      ∀ p ∈ allocatingPort input output inFlags outFlags,
        (spa.portAllocBuffers p (some g.blocks.length) block.nBuffers).1.isError = false

theorem prepareBuffers_grows :
    Grows g (g.prepareBuffers spa l input output block inFlags outFlags res).1 ∧
      Quiet g (g.prepareBuffers spa l input output block inFlags outFlags res).1 := by
  have hreuse : ∀ p, Grows g (g.reuseBuffers l p) ∧ Quiet g (g.reuseBuffers l p) := fun p =>
    ⟨grows_modifyLink ⟨rfl, rfl⟩ (List.Subset.refl _), quiet_modifyLink ⟨rfl, rfl⟩⟩
  unfold prepareBuffers
  split
  · exact ⟨Grows.refl g, Quiet.refl g⟩
  · split
    · exact hreuse _
    · split
      · exact hreuse _
      · dsimp only
        split
        · exact ⟨grows_newBuffers.trans grows_portAllocBuffers,
            quiet_newBuffers.trans quiet_portAllocBuffers⟩
        · split
          · exact ⟨grows_newBuffers.trans grows_portAllocBuffers,
              quiet_newBuffers.trans quiet_portAllocBuffers⟩
          · exact ⟨grows_newBuffers, quiet_newBuffers⟩

theorem newBuffers_result {chosen : BufferBlock} (h : chosen.nBuffers = block.nBuffers) :
    ((g.newBuffers l chosen).portAllocBuffers spa l p).2 =
      (spa.portAllocBuffers p (some g.blocks.length) block.nBuffers).1 := by
  have hlink : ((g.newBuffers l chosen).links l).buffers = some g.blocks.length ∧
      ((g.newBuffers l chosen).links l).nBuffers = chosen.nBuffers := by
    simp [newBuffers]
  rw [portAllocBuffers_result, hlink.1, hlink.2, h]

theorem prepareBuffers_unused (hres : res.isError = false) :
    let prepared := g.prepareBuffers spa l input output block inFlags outFlags res
    (prepared.2.1.isError = false ∧ hasFlag prepared.2.2.1 canUseBuffers = false ∧
        hasFlag prepared.2.2.2 canUseBuffers = false) ↔
      LeavesUnused spa g l input output block inFlags outFlags := by
  dsimp only
  unfold prepareBuffers
  by_cases hbuffers : (g.links l).buffers = none
  · rw [if_neg (not_not_intro hbuffers)]
    by_cases hout : (g.ports output).nBuffers = 0
    · rw [if_neg (not_not_intro hout)]
      by_cases hin : (g.ports input).nBuffers = 0
      · rw [if_neg (not_not_intro hin)]
        dsimp only
        generalize hchosen : (if hasFlag inFlags canAllocBuffers = true ∨
          hasFlag outFlags canAllocBuffers = true then { block with dataSize := 0 } else block) =
          chosen
        have hsame : chosen.nBuffers = block.nBuffers := by
          rw [← hchosen]
          split <;> rfl
        have hleaves : LeavesUnused spa g l input output block inFlags outFlags ↔
            (∀ p ∈ allocatingPort input output inFlags outFlags,
              (spa.portAllocBuffers p (some g.blocks.length) block.nBuffers).1.isError = false) ∧
            hasFlag inFlags canUseBuffers = false ∧ hasFlag outFlags canUseBuffers = false :=
          ⟨fun h => ⟨(h.buffers hbuffers).2.2, h.inUnused, h.outUnused⟩,
            fun h => ⟨h.2.1, h.2.2, fun _ => ⟨hout, hin, h.1⟩⟩⟩
        rw [hleaves, allocatingPort]
        split
        · have hresult := @newBuffers_result g output l _ spa block chosen hsame
          simp only [hresult, Option.mem_some_iff, forall_eq']
        · split
          · have hresult := @newBuffers_result g input l _ spa block chosen hsame
            simp only [hresult, Option.mem_some_iff, forall_eq']
          · simp [hres]
      · rw [if_pos hin]
        refine iff_of_false (fun h => ?_) (fun h => hin (h.buffers hbuffers).2.1)
        have huse : hasFlag canUseBuffers canUseBuffers = false := h.2.2
        exact absurd huse (by decide)
    · rw [if_pos hout]
      refine iff_of_false (fun h => ?_) (fun h => hout (h.buffers hbuffers).1)
      have huse : hasFlag canUseBuffers canUseBuffers = false := h.2.1
      exact absurd huse (by decide)
  · rw [if_pos hbuffers]
    constructor
    · intro h
      exact ⟨h.2.1, h.2.2, fun hnone => absurd hnone hbuffers⟩
    · exact fun h => ⟨hres, h.inUnused, h.outUnused⟩

theorem grows_useBuffers :
    Grows g (g.useBuffers spa l input output inFlags outFlags res).1 := by
  have hend : ∀ (g' : Graph) (res : SpaResult) (failed : Bool), Grows g g' →
      Grows g (if failed then (g'.allocationError l input output, res) else (g', res)).1 := by
    intro g' res failed h
    cases failed with
    | true => exact h.trans grows_allocationError
    | false => exact h
  unfold useBuffers
  dsimp only
  split
  · exact hend _ _ _ grows_portUseBuffers
  · split
    · exact hend _ _ _ grows_portUseBuffers
    · exact hend _ _ true (Grows.refl g)

/-- A port uses the buffers, and the link fails when it cannot. -/
theorem portUseBuffers_reports (hstate : (g.links l).state ≠ .error) {wrong : Prop}
    (hnot : ¬ wrong) :
    let used := g.portUseBuffers spa l p
    Reports l g (if used.2.isError then (used.1.allocationError l input output, used.2) else used)
      wrong := by
  dsimp only
  have hquiet : Quiet g (g.portUseBuffers spa l p).1 := quiet_portUseBuffers
  cases hres : (g.portUseBuffers spa l p).2.isError with
  | true =>
    have hfails := @fails_allocationError _ l input output (by rw [(hquiet l).1]; exact hstate)
    exact reports_of_fails ((fails_iff_of_quiet hquiet).mpr hfails) hres hnot
  | false => exact reports_of_quiet hquiet hstate hres hnot

/-- The end of `do_allocation` returns no error when there is nobody to use the buffers. -/
theorem useBuffers_reports (hstate : (g.links l).state ≠ .error) (hres : res.isError = false) :
    Reports l g (g.useBuffers spa l input output inFlags outFlags res)
      (hasFlag inFlags canUseBuffers = false ∧ hasFlag outFlags canUseBuffers = false) := by
  unfold useBuffers
  by_cases hin : hasFlag inFlags canUseBuffers = true
  · simp only [hin, if_true]
    exact portUseBuffers_reports hstate fun h => Bool.noConfusion h.1
  · rw [if_neg hin]
    by_cases hout : hasFlag outFlags canUseBuffers = true
    · simp only [hout, if_true]
      exact portUseBuffers_reports hstate fun h => Bool.noConfusion h.2
    · rw [if_neg hout]
      exact reports_of_fails_wrong (fails_allocationError hstate) hres
        ⟨Bool.eq_false_iff.mpr hin, Bool.eq_false_iff.mpr hout⟩

theorem state_allocationError :
    ((g.allocationError l input output).links l).state = .error :=
  state_updateLinkState .error

theorem useBuffers_fails
    (herr : (g.useBuffers spa l input output inFlags outFlags res).2.isError = true) :
    ((g.useBuffers spa l input output inFlags outFlags res).1.links l).state = .error := by
  have hused : ∀ used : Graph × SpaResult,
      (if used.2.isError then (used.1.allocationError l input output, used.2)
        else (used.1, used.2)).2.isError = true →
      ((if used.2.isError then (used.1.allocationError l input output, used.2)
        else (used.1, used.2)).1.links l).state = .error := by
    intro used hdone
    cases hres : used.2.isError with
    | true => exact state_allocationError
    | false =>
      rw [hres] at hdone
      exact Bool.noConfusion (hres.symm.trans hdone)
  unfold useBuffers at herr ⊢
  by_cases hin : hasFlag inFlags canUseBuffers = true
  · simp only [hin, if_true] at herr ⊢
    exact hused _ herr
  · rw [if_neg hin] at herr ⊢
    by_cases hout : hasFlag outFlags canUseBuffers = true
    · simp only [hout, if_true] at herr ⊢
      exact hused _ herr
    · rw [if_neg hout]
      exact state_allocationError

variable {ringbuffer : UInt32}

theorem doAllocation_fails
    (herr : (g.doAllocation spa ringbuffer l input output inState outState).2.isError = true) :
    ((g.doAllocation spa ringbuffer l input output inState outState).1.links l).state = .error := by
  unfold doAllocation at herr ⊢
  dsimp only at herr ⊢
  split
  · next hnone =>
    rw [if_pos hnone] at herr
    exact Bool.noConfusion (isError_ok.symm.trans herr)
  next hsome =>
  rw [if_neg hsome] at herr
  split
  · exact state_allocationError
  next houtput =>
  rw [if_neg houtput] at herr
  split
  · exact state_allocationError
  next hinput =>
  rw [if_neg hinput] at herr
  split
  · next hflags =>
    rw [hflags] at herr
    exact Bool.noConfusion (isError_ok.symm.trans herr)
  · exact state_allocationError
  · next hflags =>
    rw [hflags] at herr
    dsimp only at herr
    split
    · exact state_allocationError
    · next hprepared =>
      rw [if_neg hprepared] at herr
      exact useBuffers_fails herr

/-- `do_allocation` is left with buffers that neither port is asked to use. -/
def Misallocates (spa : SpaNodes Format) (ringbuffer : UInt32) (g : Graph) (l input output : Nat)
    (inState outState : PinosPortState) : Prop :=
  (inState = .ready ∨ outState = .ready) ∧
  (spa.portGetInfo output).1.isError = false ∧ (spa.portGetInfo input).1.isError = false ∧
  ∃ inFlags outFlags,
    allocFlags inState outState (spa.portGetInfo input).2.flags (spa.portGetInfo output).2.flags =
      .flags inFlags outFlags ∧
    LeavesUnused spa g l input output
      (bufferBlock ringbuffer (spa.portGetInfo input).2 (spa.portGetInfo output).2) inFlags outFlags

theorem leavesUnused_congr (hbuffers : (g'.links l).buffers = (g.links l).buffers)
    (hports : g'.ports = g.ports) (hblocks : g'.blocks = g.blocks) :
    LeavesUnused spa g' l input output block inFlags outFlags ↔
      LeavesUnused spa g l input output block inFlags outFlags := by
  constructor
  · intro h
    have hleft := h.buffers
    rw [hbuffers, hports, hblocks] at hleft
    exact ⟨h.inUnused, h.outUnused, hleft⟩
  · intro h
    have hleft := h.buffers
    rw [← hbuffers, ← hports, ← hblocks] at hleft
    exact ⟨h.inUnused, h.outUnused, hleft⟩

/-- What `do_allocation` does when the ports are asked for something. -/
theorem allocate_reports (hstate : (g.links l).state ≠ .error) (hres : res.isError = false) :
    let prepared := g.prepareBuffers spa l input output block inFlags outFlags res
    let done :=
      if prepared.2.1.isError then (prepared.1.allocationError l input output, prepared.2.1)
      else prepared.1.useBuffers spa l input output prepared.2.2.1 prepared.2.2.2 prepared.2.1
    Grows g done.1 ∧ Reports l g done (LeavesUnused spa g l input output block inFlags outFlags) := by
  dsimp only
  have hprepares := @prepareBuffers_grows g l _ spa input output inFlags outFlags res block
  have hunused := @prepareBuffers_unused g l _ spa input output inFlags outFlags res block hres
  dsimp only at hunused
  generalize g.prepareBuffers spa l input output block inFlags outFlags res = prepared
    at hprepares hunused
  obtain ⟨g₁, res₁, inFlags₁, outFlags₁⟩ := prepared
  obtain ⟨hgrows, hquiet⟩ := hprepares
  have hstate₁ : (g₁.links l).state ≠ .error := by
    rw [(hquiet l).1]
    exact hstate
  cases hres₁ : res₁.isError with
  | true =>
    refine ⟨hgrows.trans grows_allocationError, Reports.of_quiet ?_ hquiet⟩
    refine reports_of_fails (fails_allocationError hstate₁) hres₁ fun h => ?_
    exact Bool.noConfusion (hres₁.symm.trans (hunused.mpr h).1)
  | false =>
    refine ⟨hgrows.trans grows_useBuffers, Reports.of_quiet ?_ hquiet⟩
    refine (useBuffers_reports hstate₁ hres₁).congr ?_
    rw [← hunused]
    exact (and_iff_right hres₁).symm

/-- What `do_allocation` does from the moment that the link allocates. -/
theorem doAllocation_cases :
    let done := g.doAllocation spa ringbuffer l input output inState outState
    Grows g done.1 ∧
    ((inState ≠ .ready ∧ outState ≠ .ready ∧ done = (g, .ok)) ∨
      (inState = .ready ∨ outState = .ready) ∧
      Reports l (g.updateLinkState l .allocating) done
        (Misallocates spa ringbuffer g l input output inState outState)) := by
  dsimp only
  unfold doAllocation
  by_cases hnone : inState ≠ .ready ∧ outState ≠ .ready
  · rw [if_pos hnone]
    exact ⟨Grows.refl g, .inl ⟨hnone.1, hnone.2, rfl⟩⟩
  rw [if_neg hnone]
  have hsome : inState = .ready ∨ outState = .ready := by
    by_contra hneither
    exact hnone (not_or.mp hneither)
  have hstate : ((g.updateLinkState l .allocating).links l).state ≠ .error := by
    rw [state_updateLinkState]
    exact PinosLinkState.noConfusion
  have hgrows : Grows g (g.updateLinkState l .allocating) := grows_updateLinkState _
  have hlink : ((g.updateLinkState l .allocating).links l).buffers = (g.links l).buffers := by
    rw [updateLinkState, links_modifyLink]
    split <;> rfl
  have hports : (g.updateLinkState l .allocating).ports = g.ports := rfl
  have hblocks : (g.updateLinkState l .allocating).blocks = g.blocks := rfl
  generalize g.updateLinkState l .allocating = g₀ at hstate hgrows hlink hports hblocks ⊢
  dsimp only
  cases houtput : (spa.portGetInfo output).1.isError with
  | true =>
    refine ⟨hgrows.trans grows_allocationError, .inr ⟨hsome,
      reports_of_fails (fails_allocationError hstate) houtput fun hmis => ?_⟩⟩
    exact Bool.noConfusion (houtput.symm.trans hmis.2.1)
  | false =>
    cases hinput : (spa.portGetInfo input).1.isError with
    | true =>
      refine ⟨hgrows.trans grows_allocationError, .inr ⟨hsome,
        reports_of_fails (fails_allocationError hstate) hinput fun hmis => ?_⟩⟩
      exact Bool.noConfusion (hinput.symm.trans hmis.2.2.1)
    | false =>
      simp only [Bool.false_eq_true, if_false]
      have hlive : Quiet g₀ (g₀.setLive input output (spa.portGetInfo output).2.flags) :=
        Quiet.of_links (links_setLive _)
      have hlives : Grows g (g₀.setLive input output (spa.portGetInfo output).2.flags) :=
        hgrows.trans (grows_setLive _)
      have hunused : ∀ inFlags outFlags block,
          LeavesUnused spa (g₀.setLive input output (spa.portGetInfo output).2.flags) l input output
            block inFlags outFlags ↔ LeavesUnused spa g l input output block inFlags outFlags := by
        intro inFlags outFlags block
        rw [setLive]
        split <;> exact leavesUnused_congr hlink hports hblocks
      have hstate₁ :
          ((g₀.setLive input output (spa.portGetInfo output).2.flags).links l).state ≠ .error := by
        rw [(hlive l).1]
        exact hstate
      generalize g₀.setLive input output (spa.portGetInfo output).2.flags = g₁
        at hlive hlives hunused hstate₁ ⊢
      cases hflags : allocFlags inState outState (spa.portGetInfo input).2.flags
        (spa.portGetInfo output).2.flags with
      | delayed =>
        refine ⟨hlives, .inr ⟨hsome, reports_of_quiet hlive hstate isError_ok ?_⟩⟩
        intro ⟨_, _, _, _, _, hasked, _⟩
        rw [hflags] at hasked
        cases hasked
      | noCommon =>
        refine ⟨hlives.trans grows_allocationError, .inr ⟨hsome, Reports.of_quiet ?_ hlive⟩⟩
        refine reports_of_fails (fails_allocationError hstate₁) isError_error ?_
        intro ⟨_, _, _, _, _, hasked, _⟩
        rw [hflags] at hasked
        cases hasked
      | flags inFlags outFlags =>
        have hallocate := @allocate_reports g₁ l _ spa input output inFlags outFlags
          (spa.portGetInfo input).1
          (bufferBlock ringbuffer (spa.portGetInfo input).2 (spa.portGetInfo output).2) hstate₁ hinput
        refine ⟨hlives.trans hallocate.1, .inr ⟨hsome,
          (hallocate.2.of_quiet hlive).congr ?_⟩⟩
        rw [hunused]
        constructor
        · exact fun h => ⟨hsome, houtput, hinput, inFlags, outFlags, hflags, h⟩
        · intro ⟨_, _, _, _, _, hasked, h⟩
          rw [hflags] at hasked
          cases hasked
          exact h

theorem doAllocation_reports :
    let done := g.doAllocation spa ringbuffer l input output inState outState
    (done.2.isError = true ↔ PutsInError l g done.1) ↔
      ¬ Misallocates spa ringbuffer g l input output inState outState := by
  dsimp only
  obtain ⟨-, hnone | ⟨-, hreports⟩⟩ :=
    @doAllocation_cases g l _ spa input output inState outState ringbuffer
  · obtain ⟨hin, hout, hdone⟩ := hnone
    rw [hdone, isError_ok]
    exact iff_of_true (iff_of_false Bool.false_ne_true not_putsInError_self)
      fun hmis => hmis.1.elim hin hout
  · rw [putsInError_iff PinosLinkState.noConfusion hreports]
    exact hreports.reports

end Buffers

/-! ## Starting -/

section Run

variable {input output : Nat} {inState outState : PinosPortState} {res : SpaResult}

/-- The link is in the lists of its ports, and these are in the lists of their nodes. -/
structure Linked (g : Graph) (l : Nat) : Prop where
  input : ∀ p ∈ (g.links l).input,
    p ∈ (g.nodeOf p).inputPorts ∧ l ∈ (g.ports p).links
  output : ∀ p ∈ (g.links l).output,
    p ∈ (g.nodeOf p).outputPorts ∧ l ∈ (g.ports p).links

theorem Linked.of_grows (h : Linked g l) (hgrows : Grows g g') : Linked g' l := by
  constructor
  · intro p hp
    rw [(hgrows.links l).1] at hp
    rw [nodeOf, (hgrows.ports p).1, (hgrows.nodes _).2.1, (hgrows.ports p).2]
    exact h.input p hp
  · intro p hp
    rw [(hgrows.links l).2] at hp
    rw [nodeOf, (hgrows.ports p).1, (hgrows.nodes _).2.2, (hgrows.ports p).2]
    exact h.output p hp

/-- There is an item for `check_states` on the queue of the link. -/
def Queued (g : Graph) (l : Nat) : Prop :=
  ∃ item ∈ (g.links l).work, item.func = .checkStates

theorem Queued.of_grows (h : Queued g l) (hgrows : Grows g g') : Queued g' l := by
  obtain ⟨item, hitem, hfunc⟩ := h
  exact ⟨item, hgrows.work l hitem, hfunc⟩

theorem grows_startPort : Grows g (g.startPort spa l p).1 := by
  unfold startPort
  dsimp only
  exact (grows_setNodeState _).trans (grows_addWork _)

theorem grows_doStart : Grows g (g.doStart spa l input output inState outState).1 := by
  unfold doStart
  split
  · exact Grows.refl g
  split
  · exact grows_updateLinkState _
  have hinput : Grows g (if inState = .paused then
      (g.updateLinkState l .paused).startPort spa l input
      else (g.updateLinkState l .paused, SpaResult.ok)).1 := by
    split
    · exact (grows_updateLinkState _).trans grows_startPort
    · exact grows_updateLinkState _
  dsimp only
  split
  · exact hinput.trans grows_startPort
  · exact hinput

/-- A port whose node is set to run has its links activated. -/
theorem queued_startPort (h : l ∈ g.nodeLinks (g.ports p).node) :
    Queued (g.startPort spa l p).1 l := by
  have hactive : Queued (g.nodeActivate (g.ports p).node) l := exists_checkStates_activate h
  unfold startPort
  dsimp only
  apply Queued.of_grows _ (grows_addWork _)
  exact hactive.of_grows (grows_setNodeState_finish _ (_, _))

theorem Linked.mem_nodeLinks_input (h : Linked g l) (hin : (g.links l).input = some p) :
    l ∈ g.nodeLinks (g.ports p).node := by
  obtain ⟨hport, hlink⟩ := h.input p hin
  rw [nodeLinks, List.mem_flatMap]
  exact ⟨p, List.mem_append_left _ hport, hlink⟩

theorem Linked.mem_nodeLinks_output (h : Linked g l) (hout : (g.links l).output = some p) :
    l ∈ g.nodeLinks (g.ports p).node := by
  obtain ⟨hport, hlink⟩ := h.output p hout
  rw [nodeLinks, List.mem_flatMap]
  exact ⟨p, List.mem_append_right _ hport, hlink⟩

/-- `do_start` leaves an item for `check_states` when it returns an error. -/
theorem doStart_queued (h : Linked g l) (hin : (g.links l).input = some input)
    (hout : (g.links l).output = some output) :
    let done := g.doStart spa l input output inState outState
    Grows g done.1 ∧ (done.2.isError = true → Queued done.1 l) := by
  dsimp only
  unfold doStart
  split
  · exact ⟨Grows.refl g, fun herr => Bool.noConfusion (isError_ok.symm.trans herr)⟩
  split
  · exact ⟨grows_updateLinkState _, fun herr => Bool.noConfusion (isError_ok.symm.trans herr)⟩
  have hgrows : Grows g (g.updateLinkState l .paused) := grows_updateLinkState _
  generalize g.updateLinkState l .paused = g₁ at hgrows
  have hlinked := h.of_grows hgrows
  have hin₁ := (hgrows.links l).1.trans hin
  have hout₁ := (hgrows.links l).2.trans hout
  dsimp only
  by_cases hout : outState = .paused
  · rw [if_pos hout]
    split
    · have hboth : Grows g₁ (g₁.startPort spa l input).1 := grows_startPort
      refine ⟨(hgrows.trans hboth).trans grows_startPort, fun _ => queued_startPort ?_⟩
      exact (hlinked.of_grows hboth).mem_nodeLinks_output ((hboth.links l).2.trans hout₁)
    · exact ⟨hgrows.trans grows_startPort,
        fun _ => queued_startPort (hlinked.mem_nodeLinks_output hout₁)⟩
  · rw [if_neg hout]
    split
    · exact ⟨hgrows.trans grows_startPort,
        fun _ => queued_startPort (hlinked.mem_nodeLinks_input hin₁)⟩
    · exact ⟨hgrows, fun herr => Bool.noConfusion (isError_ok.symm.trans herr)⟩

/-! ## Runs -/

/-- A run has left the link where it has to be, or something that goes on with it. -/
def Ended (g : Graph) (l : Nat) : Prop :=
  (g.links l).state = .error ∨
    match (g.links l).input, (g.links l).output with
    | some input, some output =>
      (g.nodeOf input).state = .error ∨ (g.nodeOf output).state = .error ∨
        ((g.ports input).state = .streaming ∧ (g.ports output).state = .streaming) ∨ Queued g l
    | _, _ => True

/-- Only the input port of the link needs a format and takes it at once, and nothing waits on
the queue of the link. -/
structure Stalls (spa : SpaNodes Format) (g : Graph) (l input output : Nat) : Prop where
  inputSide : (g.links l).input = some input
  outputSide : (g.links l).output = some output
  link : (g.links l).state ≠ .error
  inputNode : (g.nodeOf input).state ≠ .error
  outputNode : (g.nodeOf output).state ≠ .error ∧ (g.nodeOf output).state ≠ .idle
  inState : (g.ports input).state = .configure
  outState : PinosPortState.configure.bits < (g.ports output).state.bits
  format : (spa.portGetFormat output).1.isError = false ∧
    ∃ format, (spa.portGetFormat output).2 = some format ∧
      spa.portSetFormat input (some format) = .ok
  queue : ¬ Queued g l

variable {fixate : Format → Format} {fuel : Nat} {ringbuffer : UInt32}

theorem queued_linkActivate : Queued (g.linkActivate l) l := by
  refine ⟨.new none .waitSync .checkStates, ?_, rfl⟩
  rw [linkActivate, addWork, links_modifyLink]
  exact List.mem_append_right _ (List.mem_singleton_self _)

theorem exit_queued (h : res.isError = true → (g.links l).state = .error ∨ Queued g l) :
    ((checkStates.exit l g res).1.links l).state = .error ∨
      Queued (checkStates.exit l g res).1 l := by
  rw [checkStates.exit]
  split
  · next herr => exact h herr
  · exact .inr queued_linkActivate

theorem grows_exit : Grows g (checkStates.exit l g res).1 := by
  rw [checkStates.exit]
  split
  · exact Grows.refl g
  · exact grows_addWork _

/-- A run of `check_states` leaves nodes in their states, and links where they are. -/
theorem grows_checkStates {done : Graph × SpaResult}
    (h : g.checkStates spa fixate ringbuffer fuel l = some done) : Grows g done.1 := by
  unfold checkStates at h
  split at h
  · cases h
    exact Grows.refl g
  split at h
  · dsimp only at h
    split at h
    · cases h
      exact Grows.refl g
    split at h
    · cases h
      exact Grows.refl g
    obtain ⟨⟨negotiated, res⟩, hnegotiated, rfl⟩ := Option.map_eq_some_iff.mp h
    have hgrows := (doNegotiate_cases hnegotiated).1
    split
    · exact hgrows.trans grows_exit
    split
    · exact hgrows.trans (doAllocation_cases.1.trans grows_exit)
    · exact hgrows.trans (doAllocation_cases.1.trans (grows_doStart.trans grows_exit))
  · cases h
    exact Grows.refl g

/-- A run that comes to `do_negotiate` ends in an error of the link or with an item on its
queue, unless only the input port gets a format and `do_negotiate` returns an error. -/
theorem Linked.checkStates_negotiates (ringbuffer : UInt32) (h : Linked g l)
    (hin : (g.links l).input = some input)
    (hout : (g.links l).output = some output)
    (hmis : g.idleState output outState ≠ .configure →
      Misnegotiates spa fixate fuel g input output inState outState → Queued g l)
    {g₁ : Graph} {res₁ : SpaResult}
    (hnegotiate : doNegotiate spa fixate fuel g l input output inState outState =
      some (g₁, res₁)) :
    let allocated := g₁.doAllocation spa ringbuffer l input output inState outState
    let started := allocated.1.doStart spa l input output inState outState
    let done :=
      if res₁ ≠ .ok then checkStates.exit l g₁ res₁
      else if allocated.2 ≠ .ok then checkStates.exit l allocated.1 allocated.2
      else checkStates.exit l started.1 started.2
    Grows g done.1 ∧ ((done.1.links l).state = .error ∨ Queued done.1 l) := by
  dsimp only
  obtain ⟨hgrows, hcases⟩ := doNegotiate_cases hnegotiate
  have hallocates := @doAllocation_cases g₁ l _ spa input output inState outState ringbuffer
  dsimp only at hallocates
  split
  · next hres =>
    refine ⟨hgrows.trans grows_exit, exit_queued fun herr => ?_⟩
    obtain ⟨-, -, -, hok⟩ | ⟨-, hreports, hfails⟩ := hcases
    · exact absurd hok hres
    by_cases hconf : g.idleState output outState = .configure
    · exact .inl (hfails hconf herr)
    by_cases hwrong : Misnegotiates spa fixate fuel g input output inState outState
    · exact .inr ((hmis hconf hwrong).of_grows hgrows)
    · exact .inl ((hreports.reports.mpr hwrong).mp herr).state
  have hgrown := hgrows.trans hallocates.1
  split
  · exact ⟨hgrown.trans grows_exit, exit_queued fun herr => .inl (doAllocation_fails herr)⟩
  · have hstart := @doStart_queued _ l _ spa input output inState outState (h.of_grows hgrown)
      ((hgrown.links l).1.trans hin) ((hgrown.links l).2.trans hout)
    exact ⟨(hgrown.trans hstart.1).trans grows_exit, exit_queued fun herr => .inr (hstart.2 herr)⟩

/-- Where `do_negotiate` returns an error when only the input port gets a format, a run stalls
or something waits on the queue. -/
theorem Misnegotiates.queued
    (h : Misnegotiates spa fixate fuel g input output (g.ports input).state (g.ports output).state)
    (hconf : g.idleState output (g.ports output).state ≠ .configure)
    (hin : (g.links l).input = some input) (hout : (g.links l).output = some output)
    (hlink : (g.links l).state ≠ .error) (hinput : (g.nodeOf input).state ≠ .error)
    (houtput : (g.nodeOf output).state ≠ .error) (hstalls : ¬ Stalls spa g l input output) :
    Queued g l := by
  obtain ⟨hsome, format, hfound, hmis⟩ := h
  have hstate : (g.ports input).state = .configure := by
    refine hsome.resolve_right fun hstate => hconf ?_
    rw [hstate]
    exact idleState_configure
  have hset := hmis.wrong
  rw [if_neg hconf] at hset
  unfold findFormat at hfound
  dsimp only at hfound
  split at hfound
  · next hget =>
    have hidle : ¬ (PinosPortState.configure.bits < (g.ports output).state.bits ∧
        (g.nodeOf output).state = .idle) := by
      intro hidle
      apply hconf
      rw [idleState, if_pos hidle]
    have hbits := hget.2
    rw [idleState, if_neg hidle] at hbits
    by_contra hqueue
    refine hstalls ⟨hin, hout, hlink, hinput, ⟨houtput, fun hnode => hidle ⟨hbits, hnode⟩⟩, hstate,
      hbits, ?_, hqueue⟩
    split at hfound
    · cases hfound
    · next hres => exact ⟨Bool.eq_false_iff.mpr hres, format, Option.some.inj hfound, hset⟩
  · rw [if_neg (fun hboth => hconf hboth.1), if_neg (fun hboth => hconf hboth.2)] at hfound
    cases hfound

theorem Linked.checkStates_ended (h : Linked g l)
    (hrun : checkStates spa fixate ringbuffer fuel g l = some (g', res))
    (hstalls : ∀ input output, ¬ Stalls spa g l input output) : Ended g' l := by
  unfold checkStates at hrun
  split at hrun
  · next hlink =>
    obtain ⟨rfl, -⟩ := Prod.mk.inj (Option.some.inj hrun)
    exact .inl hlink
  next hlink =>
  cases hin : (g.links l).input with
  | none =>
    rw [hin] at hrun
    obtain ⟨rfl, -⟩ := Prod.mk.inj (Option.some.inj hrun)
    right
    rw [hin]
    trivial
  | some input =>
    cases hout : (g.links l).output with
    | none =>
      rw [hin, hout] at hrun
      obtain ⟨rfl, -⟩ := Prod.mk.inj (Option.some.inj hrun)
      right
      rw [hin, hout]
      trivial
    | some output =>
      rw [hin, hout] at hrun
      dsimp only at hrun
      split at hrun
      · next hnode =>
        obtain ⟨rfl, -⟩ := Prod.mk.inj (Option.some.inj hrun)
        right
        rw [hin, hout]
        exact hnode.elim .inl fun hnode => .inr (.inl hnode)
      next hnode =>
      split at hrun
      · next hstreams =>
        obtain ⟨rfl, -⟩ := Prod.mk.inj (Option.some.inj hrun)
        right
        rw [hin, hout]
        exact .inr (.inr (.inl hstreams))
      obtain ⟨⟨g₁, res₁⟩, hnegotiate, hrun⟩ := Option.map_eq_some_iff.mp hrun
      have hnodes := not_or.mp hnode
      have hends := checkStates_negotiates ringbuffer h hin hout (fun hconf hmis =>
        hmis.queued hconf hin hout hlink hnodes.1 hnodes.2 (hstalls input output)) hnegotiate
      dsimp only at hends hrun
      rw [hrun] at hends
      refine hends.2.imp id fun hqueued => ?_
      rw [(hends.1.links l).1, (hends.1.links l).2, hin, hout]
      exact .inr (.inr (.inr hqueued))

/-- What a run that stalls leaves: the link negotiates, and an item is for the format of the
input port. -/
def stalled (g : Graph) (l input : Nat) : Graph :=
  (g.updateLinkState l .negotiating).addWork l
    (.new (some (g.ports input).node) .ok (.completeReady input))

theorem Stalls.doNegotiate_eq (h : Stalls spa g l input output) :
    doNegotiate spa fixate fuel g l input output (g.ports input).state (g.ports output).state =
      some (g.stalled l input, .error) := by
  obtain ⟨hget, format, hformat, hset⟩ := h.format
  have hconf : (g.ports output).state ≠ .configure := by
    intro hconf
    have hlt := h.outState
    rw [hconf] at hlt
    exact absurd hlt (by decide)
  have hidle : g.idleState output (g.ports output).state = (g.ports output).state := by
    rw [idleState, if_neg fun hboth => h.outputNode.2 hboth.2]
  have hfound : findFormat spa fixate fuel g output input = some (some format) := by
    unfold findFormat
    dsimp only
    rw [h.inState, idleState_configure, hidle, if_pos ⟨rfl, h.outState⟩, hget, hformat]
    rfl
  have houtput : ∀ g₁ : Graph, g₁.nodes = g.nodes → g₁.ports = g.ports →
      g₁.suspendIdle spa output (g.ports output).state = g₁ := by
    intro g₁ hnodes hports
    rw [suspendIdle, nodeOf, hnodes, hports, if_neg fun hboth => h.outputNode.2 hboth.2]
  have hinput : ∀ g₁ : Graph, g₁.suspendIdle spa input .configure = g₁ := by
    intro g₁
    rw [suspendIdle, if_neg fun hboth => absurd hboth.1 (by decide)]
  unfold doNegotiate
  rw [if_neg fun hnone => hnone.1 h.inState]
  have hfind : findFormat spa fixate fuel (g.updateLinkState l .negotiating) output input =
      findFormat spa fixate fuel g output input := rfl
  have hsame : (g.updateLinkState l .negotiating).idleState output (g.ports output).state =
      g.idleState output (g.ports output).state := rfl
  dsimp only
  rw [hfind, hfound, Option.map_some]
  dsimp only
  rw [houtput (g.updateLinkState l .negotiating) rfl rfl, h.inState, hinput, idleState_configure,
    hsame, hidle]
  unfold setFormats setInputFormat stalled
  simp [hconf, hset, isError_ok, updateLinkState]

theorem Stalls.not_ended (h : Stalls spa g l input output) :
    ∃ g' res, checkStates spa fixate ringbuffer fuel g l = some (g', res) ∧ ¬ Ended g' l := by
  have herror : SpaResult.error ≠ .ok := by decide
  refine ⟨g.stalled l input, .error, ?_, ?_⟩
  · unfold checkStates
    rw [if_neg h.link, h.inputSide, h.outputSide]
    dsimp only
    rw [if_neg (not_or.mpr ⟨h.inputNode, h.outputNode.1⟩), if_neg ?_, h.doNegotiate_eq,
      Option.map_some, if_pos herror, checkStates.exit, if_pos isError_error]
    rw [h.inState]
    exact fun hboth => PinosPortState.noConfusion hboth.1
  · have hgrows : Grows g (g.stalled l input) := (grows_updateLinkState _).trans (grows_addWork _)
    intro hended
    rcases hended with hstate | hended
    · rw [stalled, (quiet_addWork _ l).1, state_updateLinkState] at hstate
      cases hstate
    · rw [(hgrows.links l).1, (hgrows.links l).2, h.inputSide, h.outputSide] at hended
      obtain hnode | hnode | hstreams | hqueued := hended
      · exact h.inputNode ((hgrows.nodeOf input).symm.trans hnode)
      · exact h.outputNode.1 ((hgrows.nodeOf output).symm.trans hnode)
      · have hstate : (g.ports input).state = .streaming := hstreams.1
        rw [h.inState] at hstate
        cases hstate
      · obtain ⟨item, hitem, hfunc⟩ := hqueued
        rw [stalled, addWork, links_modifyLink] at hitem
        rcases List.mem_append.mp hitem with hold | hnew
        · refine h.queue ⟨item, ?_, hfunc⟩
          rw [updateLinkState, links_modifyLink] at hold
          split at hold <;> exact hold
        · rw [List.mem_singleton.mp hnew] at hfunc
          cases hfunc

/-- Every run of `check_states` ends well if and only if not only the input port of the link
gets a format at once; `do_negotiate` and `do_allocation` return an error exactly when they
put the link in error, except where the first gets the result of the wrong port or of none,
and the second has buffers that nobody uses. -/
theorem checkStates_ends_iff (spa : SpaNodes Format) (fixate : Format → Format)
    (ringbuffer : UInt32) (g : Graph) (l : Nat) (h : Linked g l) :
    ((∀ fuel g' res, checkStates spa fixate ringbuffer fuel g l = some (g', res) → Ended g' l) ↔
      ∀ input output, ¬ Stalls spa g l input output) ∧
    (∀ fuel input output inState outState g' res,
      doNegotiate spa fixate fuel g l input output inState outState = some (g', res) →
        ((res.isError = true ↔ PutsInError l g g') ↔
          ¬ Misnegotiates spa fixate fuel g input output inState outState)) ∧
    ∀ input output inState outState,
      let done := g.doAllocation spa ringbuffer l input output inState outState
      (done.2.isError = true ↔ PutsInError l g done.1) ↔
        ¬ Misallocates spa ringbuffer g l input output inState outState := by
  refine ⟨⟨?_, ?_⟩, fun _ _ _ _ _ _ _ => doNegotiate_reports, fun _ _ _ _ => doAllocation_reports⟩
  · intro hends input output hstalls
    obtain ⟨g', res, hrun, hnot⟩ := @Stalls.not_ended g l Format spa input output fixate 0 ringbuffer
      hstalls
    exact hnot (hends 0 g' res hrun)
  · exact fun hstalls _ _ _ hrun => h.checkStates_ended hrun hstalls

/-- The nodes 0 and 1 run, and the output port 0 of the first is linked to the input port 1 of
the second, that has no format yet. -/
def exampleLink (outState : PinosPortState) : Graph where
  nodes n := {
    state := .running, live := false, dataLoop := 0, work := []
    inputPorts := if n = 1 then [1] else []
    outputPorts := if n = 0 then [0] else []
    nUsedInputLinks := if n = 1 then 1 else 0
    nUsedOutputLinks := if n = 0 then 1 else 0 }
  ports p := {
    node := p
    direction := if p = 0 then .output else .input
    state := if p = 0 then outState else .configure
    allocated := false, bufferMem := none, buffers := none, nBuffers := 0
    links := if p ≤ 1 then [0] else []
    rtLinks := [], given := none }
  links l := {
    state := .init, stateChanged := []
    input := if l = 0 then some 1 else none
    output := if l = 0 then some 0 else none
    rtInput := none, rtOutput := none, bufferOwner := none, bufferMem := none, buffers := none
    nBuffers := 0, work := [] }
  blocks := []
  freed := []

/-- Plugins that do at once what they are asked for. -/
def exampleNodes : SpaNodes Unit where
  sendCommand _ _ := .ok
  portGetInfo _ := (.ok, ⟨canUseBuffers, []⟩)
  portGetFormat _ := (.ok, some ())
  portEnumFormats _ _ _ := (.ok, some ())
  portSetFormat _ _ := .ok
  portAllocBuffers _ _ nBuffers := (.ok, nBuffers)
  portUseBuffers _ _ _ := .ok

theorem linked_exampleLink (outState : PinosPortState) : Linked (exampleLink outState) 0 := by
  constructor
  · intro p hp
    obtain rfl : 1 = p := Option.some.inj hp
    exact ⟨List.mem_singleton_self 1, List.mem_singleton_self 0⟩
  · intro p hp
    obtain rfl : 0 = p := Option.some.inj hp
    exact ⟨List.mem_singleton_self 0, List.mem_singleton_self 0⟩

theorem stalls_exampleLink : Stalls exampleNodes (exampleLink .streaming) 0 1 0 where
  inputSide := rfl
  outputSide := rfl
  link := PinosLinkState.noConfusion
  inputNode := PinosNodeState.noConfusion
  outputNode := ⟨PinosNodeState.noConfusion, PinosNodeState.noConfusion⟩
  inState := rfl
  outState := by decide
  format := ⟨by decide, (), rfl, rfl⟩
  queue := fun ⟨_, hitem, _⟩ => List.not_mem_nil hitem

/-- When both ports need a format the run ends well. -/
theorem checkStates_ends_iff_configure : Linked (exampleLink .configure) 0 ∧
    ∀ fuel g' res, checkStates exampleNodes id 0 fuel (exampleLink .configure) 0 = some (g', res) →
      Ended g' 0 := by
  refine ⟨linked_exampleLink _, (checkStates_ends_iff exampleNodes id 0 (exampleLink .configure) 0
    (linked_exampleLink _)).1.mpr ?_⟩
  intro input output hstalls
  have houtput : some 0 = some output := hstalls.outputSide
  cases houtput
  exact absurd hstalls.outState (by decide)

/-- When the output port streams already the run leaves the link where it is. -/
theorem not_checkStates_ends :
    ¬ ∀ (Format : Type) (spa : SpaNodes Format) (fixate : Format → Format) (ringbuffer : UInt32)
      (g : Graph) (l : Nat), Linked g l →
      (∀ fuel g' res, checkStates spa fixate ringbuffer fuel g l = some (g', res) → Ended g' l) ∧
      (∀ fuel input output inState outState g' res,
        doNegotiate spa fixate fuel g l input output inState outState = some (g', res) →
          (res.isError = true ↔ PutsInError l g g')) ∧
      ∀ input output inState outState,
        let done := g.doAllocation spa ringbuffer l input output inState outState
        done.2.isError = true ↔ PutsInError l g done.1 := by
  intro h
  obtain ⟨g', res, hrun, hnot⟩ := @Stalls.not_ended (exampleLink .streaming) 0 Unit exampleNodes 1 0
    id 0 0 stalls_exampleLink
  exact hnot ((h Unit exampleNodes id 0 _ 0 (linked_exampleLink _)).1 0 g' res hrun)

end Run

end Plugins
end Graph
end Pinos
