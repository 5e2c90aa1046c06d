import Pinos.Client.TransportArea
import Pinos.Server.LinkCounts

/-
`do_pull` of `server/node.c`: a node that needs input asks the nodes of its links, and these
theirs.
-/

namespace Pinos

/-! ## Loops with fuel -/

namespace Fuel

variable {α β : Type}

/-- A loop does what another one does whose turns do less. -/
theorem foldlM_mono {f f' : β → α → Option β} (h : ∀ v a w, f v a = some w → f' v a = some w)
    {as : List α} {v w : β} (hw : as.foldlM f v = some w) : as.foldlM f' v = some w := by
  induction as generalizing v with
  | nil => exact hw
  | cons a as ih =>
    rw [List.foldlM_cons] at hw ⊢
    obtain ⟨u, hu, hw⟩ := Option.bind_eq_some_iff.mp hw
    exact Option.bind_eq_some_iff.mpr ⟨u, h v a u hu, ih hw⟩

variable {f : Nat → β → α → Option β}

/-- More fuel changes nothing. -/
def Monotone (f : Nat → β → α → Option β) : Prop :=
  ∀ k k', k ≤ k' → ∀ v a w, f k v a = some w → f k' v a = some w

/-- A loop ends when each of its turns does. -/
theorem foldlM_ends (h : Monotone f) {as : List α}
    (hends : ∀ a ∈ as, ∀ v, ∃ k w, f k v a = some w) (v : β) :
    ∃ k w, as.foldlM (f k) v = some w := by
  induction as generalizing v with
  | nil => exact ⟨0, v, rfl⟩
  | cons a as ih =>
    obtain ⟨k, u, hu⟩ := hends a List.mem_cons_self v
    obtain ⟨k', w, hw⟩ := ih (fun b hb => hends b (List.mem_cons_of_mem a hb)) u
    refine ⟨max k k', w, ?_⟩
    rw [List.foldlM_cons]
    exact Option.bind_eq_some_iff.mpr
      ⟨u, h k _ (Nat.le_max_left ..) v a u hu, foldlM_mono (h k' _ (Nat.le_max_right ..)) hw⟩

variable {g : β → α → Option β} {P : β → Prop}

theorem foldlM_keeps (hkeeps : ∀ v a w, P v → g v a = some w → P w) {as : List α} {v w : β}
    (hv : P v) (hw : as.foldlM g v = some w) : P w := by
  induction as generalizing v with
  | nil =>
    cases hw
    exact hv
  | cons a as ih =>
    rw [List.foldlM_cons] at hw
    obtain ⟨u, hu, hw⟩ := Option.bind_eq_some_iff.mp hw
    exact ih (hkeeps v a u hv hu) hw

/-- A loop does not end when one of its turns does not. -/
theorem foldlM_eq_none (hkeeps : ∀ v a w, P v → g v a = some w → P w) {as : List α} {a : α}
    (ha : a ∈ as) (hnone : ∀ v, P v → g v a = none) {v : β} (hv : P v) :
    as.foldlM g v = none := by
  induction as generalizing v with
  | nil => cases ha
  | cons b as ih =>
    rw [List.foldlM_cons]
    cases hg : g v b with
    | none => rfl
    | some u =>
      rcases List.mem_cons.mp ha with rfl | ha
      · rw [hnone v hv] at hg
        cases hg
      · exact ih ha (hkeeps v b u hv hg)

end Fuel

/-- The io of the ports, and how many calls of the process functions there were. -/
structure ScheduleState where
  io : Nat → SpaPortIO
  calls : Nat

/-- What a process function of the node with this number answers and leaves in the io of the
ports, call by call. -/
abbrev ProcessCall := Nat → Nat → (Nat → SpaPortIO) → SpaResult × (Nat → SpaPortIO)

structure ProcessCalls where
  processInput : ProcessCall
  processOutput : ProcessCall

/-- The variables of `do_pull`. -/
structure Pulling where
  state : ScheduleState
  res : SpaResult
  haveOutput : Bool

namespace ScheduleState

def process (s : ScheduleState) (call : ProcessCall) (n : Nat) : SpaResult × ScheduleState :=
  let (res, io) := call s.calls n s.io
  (res, ⟨io, s.calls + 1⟩)

end ScheduleState

namespace Graph

section Pull

variable (g : Graph) (spa : ProcessCalls)

/-- What an output port of a link has answered. -/
def pullAnswer (pull : Nat → ScheduleState → Option (SpaResult × ScheduleState))
    (inport outport : Nat) (v : Pulling) (res : SpaResult) (s : ScheduleState) : Option Pulling :=
  if res = .needBuffer then
    (pull (g.ports outport).node s).map fun (res, s) => { v with state := s, res := res }
  else if res = .haveBuffer then
    some
      { state := { s with io := Function.update s.io inport (s.io outport) }
        res := res
        haveOutput := true }
  else some { v with state := s, res := res }

/-- A turn of the inner loop, for a link of an input port. -/
def pullLink (pull : Nat → ScheduleState → Option (SpaResult × ScheduleState)) (inport : Nat)
    (v : Pulling) (l : Nat) : Option Pulling :=
  match (g.links l).rtInput, (g.links l).rtOutput with
  | some _, some outport =>
    let pi := v.state.io inport
    let io := Function.update (Function.update v.state.io outport pi) inport
      { pi with bufferId := spaIdInvalid }
    let (res, s) := { v.state with io := io }.process spa.processOutput (g.ports outport).node
    g.pullAnswer pull inport outport v res s
  | _, _ => some v

/-- A turn of the outer loop. -/
def pullPort (pull : Nat → ScheduleState → Option (SpaResult × ScheduleState)) (v : Pulling)
    (inport : Nat) : Option Pulling :=
  if (v.state.io inport).status ≠ .needBuffer then some v
  else (g.ports inport).rtLinks.foldlM (g.pullLink spa pull inport) v

/-- `do_pull`, with how deep it may call itself. -/
def doPull : Nat → Nat → ScheduleState → Option (SpaResult × ScheduleState)
  | 0, _, _ => none
  | fuel + 1, n, s =>
    ((g.nodes n).inputPorts.foldlM (g.pullPort spa (doPull fuel)) ⟨s, .ok, false⟩).map fun v =>
      if v.haveOutput then v.state.process spa.processInput n else (v.res, v.state)

/-- A link leads from an output port of one node to an input port of another. -/
def Upstream (m n : Nat) : Prop :=
  ∃ inport ∈ (g.nodes n).inputPorts, ∃ l ∈ (g.ports inport).rtLinks,
    (g.links l).rtInput ≠ none ∧ ∃ outport, (g.links l).rtOutput = some outport ∧
      (g.ports outport).node = m

end Pull

variable {g : Graph} {spa : ProcessCalls} {n : Nat}

/-! ## Where the links come to an end -/

section Ends

variable {pull pull' : Nat → ScheduleState → Option (SpaResult × ScheduleState)}
  {inport outport l : Nat} {v w : Pulling} {res : SpaResult} {s : ScheduleState}

theorem pullAnswer_mono (hpull : ∀ {n s r}, pull n s = some r → pull' n s = some r)
    (h : g.pullAnswer pull inport outport v res s = some w) :
    g.pullAnswer pull' inport outport v res s = some w := by
  unfold pullAnswer at h ⊢
  split at h
  · next hneed =>
    rw [if_pos hneed]
    obtain ⟨r, hr, hw⟩ := Option.map_eq_some_iff.mp h
    exact Option.map_eq_some_iff.mpr ⟨r, hpull hr, hw⟩
  · next hneed =>
    rw [if_neg hneed]
    exact h

theorem pullLink_mono (hpull : ∀ {n s r}, pull n s = some r → pull' n s = some r)
    (h : g.pullLink spa pull inport v l = some w) : g.pullLink spa pull' inport v l = some w := by
  unfold pullLink at h ⊢
  cases hin : (g.links l).rtInput with
  | none =>
    rw [hin] at h
    exact h
  | some port =>
    cases hout : (g.links l).rtOutput with
    | none =>
      rw [hin, hout] at h
      exact h
    | some outport =>
      rw [hin, hout] at h
      exact pullAnswer_mono hpull h

theorem pullPort_mono (hpull : ∀ {n s r}, pull n s = some r → pull' n s = some r)
    (h : g.pullPort spa pull v inport = some w) : g.pullPort spa pull' v inport = some w := by
  unfold pullPort at h ⊢
  split at h
  · next hstatus =>
    rw [if_pos hstatus]
    exact h
  · next hstatus =>
    rw [if_neg hstatus]
    exact Fuel.foldlM_mono (fun _ _ _ => pullLink_mono hpull) h

theorem doPull_le {fuel fuel' : Nat} (hle : fuel ≤ fuel') {r : SpaResult × ScheduleState}
    (h : g.doPull spa fuel n s = some r) : g.doPull spa fuel' n s = some r := by
  induction fuel generalizing fuel' n s r with
  | zero => cases h
  | succ fuel ih =>
    obtain ⟨k, rfl⟩ := Nat.exists_eq_add_of_le hle
    rw [Nat.add_right_comm]
    obtain ⟨v, hv, hr⟩ := Option.map_eq_some_iff.mp h
    refine Option.map_eq_some_iff.mpr ⟨v, Fuel.foldlM_mono (fun _ _ _ => pullPort_mono ?_) hv, hr⟩
    exact fun hpull => ih (Nat.le_add_right fuel k) hpull

/-- A node whose links lead to nodes where the calls return is one itself. -/
theorem doPull_ends_of_upstream
    (h : ∀ m, g.Upstream m n → ∀ s, ∃ fuel r, g.doPull spa fuel m s = some r) (s : ScheduleState) :
    ∃ fuel r, g.doPull spa fuel n s = some r := by
  have hlink : ∀ inport ∈ (g.nodes n).inputPorts, ∀ l ∈ (g.ports inport).rtLinks, ∀ v,
      ∃ k w, g.pullLink spa (g.doPull spa k) inport v l = some w := by
    intro inport hinport l hl v
    unfold pullLink
    cases hin : (g.links l).rtInput with
    | none => exact ⟨0, v, rfl⟩
    | some port =>
      cases hout : (g.links l).rtOutput with
      | none => exact ⟨0, v, rfl⟩
      | some outport =>
        dsimp only
        unfold pullAnswer
        split
        · obtain ⟨k, r, hr⟩ := h (g.ports outport).node
            ⟨inport, hinport, l, hl, by rw [hin]; exact Option.some_ne_none port, outport, hout,
              rfl⟩ _
          exact ⟨k, _, Option.map_eq_some_iff.mpr ⟨r, hr, rfl⟩⟩
        · split
          · exact ⟨0, _, rfl⟩
          · exact ⟨0, _, rfl⟩
  have hport : ∀ inport ∈ (g.nodes n).inputPorts, ∀ v,
      ∃ k w, g.pullPort spa (g.doPull spa k) v inport = some w := by
    intro inport hinport v
    unfold pullPort
    split
    · exact ⟨0, v, rfl⟩
    · have hmono : Fuel.Monotone fun k => g.pullLink spa (g.doPull spa k) inport :=
        fun k k' hle _ _ _ => pullLink_mono (doPull_le hle)
      exact Fuel.foldlM_ends hmono (hlink inport hinport) v
  have hmono : Fuel.Monotone fun k => g.pullPort spa (g.doPull spa k) :=
    fun k k' hle _ _ _ => pullPort_mono (doPull_le hle)
  obtain ⟨k, w, hw⟩ := Fuel.foldlM_ends hmono hport ⟨s, .ok, false⟩
  exact ⟨k + 1, _, Option.map_eq_some_iff.mpr ⟨w, hw, rfl⟩⟩

end Ends

/-! ## Where they go on -/

section Goes

/-- No process function has a buffer, and all ports need one. -/
def needAll : ProcessCalls where
  processInput _ _ _ := (.needBuffer, fun _ => ⟨.needBuffer, spaIdInvalid⟩)
  processOutput _ _ _ := (.needBuffer, fun _ => ⟨.needBuffer, spaIdInvalid⟩)

def NeedsAll (s : ScheduleState) : Prop := ∀ p, (s.io p).status = .needBuffer

variable {pull : Nat → ScheduleState → Option (SpaResult × ScheduleState)} {inport l : Nat}
  {v w : Pulling} {s : ScheduleState}

theorem pullLink_needAll {port outport : Nat} (hin : (g.links l).rtInput = some port)
    (hout : (g.links l).rtOutput = some outport) :
    g.pullLink needAll pull inport v l =
      (pull (g.ports outport).node ⟨fun _ => ⟨.needBuffer, spaIdInvalid⟩, v.state.calls + 1⟩).map
        fun (res, s) => { v with state := s, res := res } := by
  unfold pullLink
  rw [hin, hout]
  exact if_pos rfl

theorem pullLink_needsAll (hpull : ∀ {n s r}, NeedsAll s → pull n s = some r → NeedsAll r.2)
    (hv : NeedsAll v.state) (h : g.pullLink needAll pull inport v l = some w) :
    NeedsAll w.state := by
  cases hin : (g.links l).rtInput with
  | none =>
    unfold pullLink at h
    rw [hin] at h
    cases h
    exact hv
  | some port =>
    cases hout : (g.links l).rtOutput with
    | none =>
      unfold pullLink at h
      rw [hin, hout] at h
      cases h
      exact hv
    | some outport =>
      rw [pullLink_needAll hin hout] at h
      obtain ⟨r, hr, rfl⟩ := Option.map_eq_some_iff.mp h
      exact hpull (fun _ => rfl) hr

theorem pullPort_needsAll (hpull : ∀ {n s r}, NeedsAll s → pull n s = some r → NeedsAll r.2)
    (hv : NeedsAll v.state) (h : g.pullPort needAll pull v inport = some w) :
    NeedsAll w.state := by
  unfold pullPort at h
  split at h
  · cases h
    exact hv
  · exact Fuel.foldlM_keeps (P := fun v => NeedsAll v.state)
      (fun _ _ _ hv hw => pullLink_needsAll hpull hv hw) hv h

theorem doPull_needsAll {fuel : Nat} {r : SpaResult × ScheduleState} (hs : NeedsAll s)
    (h : g.doPull needAll fuel n s = some r) : NeedsAll r.2 := by
  induction fuel generalizing n s r with
  | zero => cases h
  | succ fuel ih =>
    obtain ⟨v, hv, rfl⟩ := Option.map_eq_some_iff.mp h
    have hkeeps := Fuel.foldlM_keeps (P := fun v : Pulling => NeedsAll v.state)
      (fun _ _ _ hv hw => pullPort_needsAll (fun hs hr => ih hs hr) hv hw) hs hv
    split
    · exact fun _ => rfl
    · exact hkeeps

/-- From a node with an endless way upstream the calls do not return. -/
theorem doPull_eq_none (fuel : Nat) (hacc : ¬ Acc g.Upstream n) (hs : NeedsAll s) :
    g.doPull needAll fuel n s = none := by
  induction fuel generalizing n s with
  | zero => rfl
  | succ fuel ih =>
    have hnext : ∃ m, g.Upstream m n ∧ ¬ Acc g.Upstream m := by
      by_contra hnot
      exact hacc ⟨n, fun m hm => not_not.mp fun hm' => hnot ⟨m, hm, hm'⟩⟩
    obtain ⟨m, ⟨inport, hinport, l, hl, hin, outport, hout, rfl⟩, hm⟩ := hnext
    obtain ⟨port, hport⟩ := Option.ne_none_iff_exists'.mp hin
    refine Option.map_eq_none_iff.mpr (Fuel.foldlM_eq_none
      (P := fun v : Pulling => NeedsAll v.state)
      (fun _ _ _ hv hw => pullPort_needsAll (fun hs hr => doPull_needsAll hs hr) hv hw)
      hinport (fun v hv => ?_) hs)
    unfold pullPort
    rw [if_neg (not_not.mpr (hv inport))]
    refine Fuel.foldlM_eq_none (P := fun v : Pulling => NeedsAll v.state)
      (fun _ _ _ hv hw => pullLink_needsAll (fun hs hr => doPull_needsAll hs hr) hv hw) hl
      (fun v _ => ?_) hv
    rw [pullLink_needAll hport hout, ih hm fun _ => rfl]
    rfl

end Goes

/-- The calls return, whatever the process functions answer, if and only if the links upstream
come to an end. -/
theorem doPull_ends_iff (g : Graph) (n : Nat) :
    (∀ (spa : ProcessCalls) (s : ScheduleState), ∃ fuel r, g.doPull spa fuel n s = some r) ↔
      Acc g.Upstream n := by
  constructor
  · intro h
    by_contra hacc
    obtain ⟨fuel, r, hr⟩ := h needAll ⟨fun _ => ⟨.needBuffer, spaIdInvalid⟩, 0⟩
    rw [doPull_eq_none fuel hacc fun _ => rfl] at hr
    cases hr
  · intro hacc spa s
    induction hacc generalizing s with
    | intro n _ ih => exact doPull_ends_of_upstream (fun m hm s => ih m hm s) s

/-- Two nodes that lead to each other are on no way that comes to an end. -/
theorem not_acc_of_cycle {m : Nat} (hmn : g.Upstream m n) (hnm : g.Upstream n m) :
    ¬ Acc g.Upstream n := by
  intro hacc
  induction hacc generalizing m with
  | intro n _ ih => exact ih m hmn hnm hmn

end Graph

namespace Daemon

/-- Two nodes in one loop, each with an output port and an input port. -/
def crossed : Daemon where
  graph :=
    { nodes := fun n =>
        { state := .suspended
          live := true
          dataLoop := 0
          inputPorts := if n < 2 then [2 * n + 1] else []
          outputPorts := if n < 2 then [2 * n] else []
          nUsedInputLinks := 0
          nUsedOutputLinks := 0
          work := [] }
      ports := fun p =>
        { node := p / 2
          direction := if p % 2 = 0 then .output else .input
          state := .configure
          allocated := false
          bufferMem := none
          buffers := none
          nBuffers := 0
          links := []
          rtLinks := []
          given := none }
      links := pair.graph.links
      blocks := []
      freed := [] }
  nLinks := 0
  refcount _ := 0
  resources _ := 0
  listeners _ := []
  mainLoop := []
  dataLoops _ := []
  freed := []
  wild := false

theorem start_crossed : crossed.Start where
  nodup n dir := by
    cases dir <;> (show (ite _ _ _ : List Nat).Nodup; split <;> simp)
  ports := by
    intro n dir p hp
    cases dir with
    | input =>
      change p ∈ (if n < 2 then [2 * n + 1] else []) at hp
      split at hp
      · rw [List.mem_singleton.mp hp]
        refine ⟨by show (2 * n + 1) / 2 = n; omega, ?_⟩
        exact if_neg (by omega)
      · cases hp
    | output =>
      change p ∈ (if n < 2 then [2 * n] else []) at hp
      split at hp
      · rw [List.mem_singleton.mp hp]
        refine ⟨by show 2 * n / 2 = n; omega, ?_⟩
        exact if_pos (by omega)
      · cases hp
  links _ := rfl
  rtLinks _ := rfl
  side _ dir := by cases dir <;> rfl
  rtSide _ dir := by cases dir <;> rfl
  used _ dir := by cases dir <;> rfl
  nLinks := rfl
  resources _ := rfl
  listeners _ := rfl
  settled := ⟨rfl, fun _ => rfl⟩
  freed := rfl
  wild := rfl

/-- The first node is linked to the second, and the second to the first. -/
def crossing : List LinkOp :=
  [.portLink 0 3, .dataLoop 0, .dataLoop 0, .portLink 2 1, .dataLoop 0, .dataLoop 0]

theorem admits_crossing : Run.Along linkStep Admits crossed crossing := by
  refine ⟨⟨⟨rfl, fun _ => rfl⟩, List.mem_cons_self, List.mem_cons_self⟩, trivial, trivial,
    ⟨⟨rfl, fun d => ?_⟩, List.mem_cons_self, List.mem_cons_self⟩, trivial, trivial, trivial⟩
  cases d <;> rfl

/-- Two nodes that are linked in a circle ask each other for ever. -/
theorem not_doPull_ends :
    ¬ ∀ (s : Daemon) (ops : List LinkOp), s.Start → Run.Along linkStep Admits s ops →
      ∀ (n : Nat) (spa : ProcessCalls) (state : ScheduleState),
        ∃ fuel r, (Run.run linkStep s ops).graph.doPull spa fuel n state = some r := by
  intro h
  have hacc := (Graph.doPull_ends_iff _ 0).mp (h crossed crossing start_crossed admits_crossing 0)
  refine Graph.not_acc_of_cycle (m := 1) ?_ ?_ hacc
  · exact ⟨1, by decide, 1, by decide, by decide, 2, by decide, rfl⟩
  · exact ⟨3, by decide, 0, by decide, by decide, 0, by decide, rfl⟩

end Daemon
end Pinos
