import Pinos.Server.Link
import Pinos.Server.WorkQueue

/-
`server/node.c`: requests for states of a node, which complete through its work queue.

Formats and buffers of the ports are left out: what counts is what the spa node is told.
-/

namespace Pinos

/-- What the functions that set states tell the spa node. -/
inductive NodeCommand where
  | clockUpdate
  | start
  | pause
  | unsetFormat (direction : PinosDirection) (port : Nat)
  deriving DecidableEq

/-- The command is the one for a state. -/
def NodeCommand.isFor : NodeCommand → PinosNodeState → Bool
  | start, .running => true
  | pause, .idle => true
  | unsetFormat .., .suspended => true
  | _, _ => false

namespace PinosNodeState

/-- `SPA_INT_TO_PTR` of a state. -/
def toPtr (state : PinosNodeState) : UInt64 := UInt64.ofInt state.value

/-- `SPA_PTR_TO_INT`, as a state. -/
def ofPtr (data : UInt64) : PinosNodeState :=
  if data = creating.toPtr then creating
  else if data = suspended.toPtr then suspended
  else if data = idle.toPtr then idle
  else if data = running.toPtr then running
  else error

theorem ofPtr_toPtr (state : PinosNodeState) : ofPtr state.toPtr = state := by
  cases state <;> rfl

end PinosNodeState

/-- The node as an object of its work queue. -/
def nodePtr : UInt64 := 1

/-- `on_state_complete`. -/
def onStateCompletePtr : UInt64 := 2

/-- `PinosNodeImpl`, with what the spa node has been told, and with the state that has been
asked for last. -/
structure StateNode where
  state : PinosNodeState
  inputPorts : List Nat
  outputPorts : List Nat
  work : WorkQueue
  received : List NodeCommand
  requested : Option PinosNodeState

namespace StateNode

def tell (s : StateNode) (command : NodeCommand) : StateNode :=
  { s with received := s.received ++ [command] }

section Commands

variable (answers : NodeCommand → SpaResult)

def pauseNode (s : StateNode) : StateNode × SpaResult :=
  if s.state.value ≤ PinosNodeState.idle.value then (s, .ok)
  else (s.tell .pause, answers .pause)

def startNode (s : StateNode) : StateNode × SpaResult := (s.tell .start, answers .start)

def suspendPort (direction : PinosDirection) (s : StateNode × SpaResult) (port : Nat) :
    StateNode × SpaResult :=
  (s.1.tell (.unsetFormat direction port), answers (.unsetFormat direction port))

def suspendNode (s : StateNode) : StateNode × SpaResult :=
  s.outputPorts.foldl (suspendPort answers .output)
    (s.inputPorts.foldl (suspendPort answers .input) (s, .ok))

def sendClockUpdate (s : StateNode) : StateNode := s.tell .clockUpdate

/-- The part of `pinos_node_set_state` that tells the spa node. -/
def sendState (s : StateNode) : PinosNodeState → StateNode × SpaResult
  | .creating => (s, .error)
  | .suspended => s.suspendNode answers
  | .idle => s.pauseNode answers
  | .running => s.sendClockUpdate.startNode answers
  | .error => (s, .ok)

/-- `pinos_node_set_state`; the work queue finds memory for an item. -/
def setState (s : StateNode) (state : PinosNodeState) : StateNode × SpaResult :=
  let (s, res) := s.sendState answers state
  if res.isError then (s, res)
  else
    ({ s with
      work := (s.work.add nodePtr res onStateCompletePtr state.toPtr true).1
      requested := some state }, res)

end Commands

/-- `pinos_node_update_state`. -/
def updateState (s : StateNode) (state : PinosNodeState) : StateNode := { s with state := state }

def onStateComplete (s : StateNode) (data : UInt64) (res : SpaResult) : StateNode :=
  s.updateState (if res.isError then .error else .ofPtr data)

/-! ## Runs -/

/-- A request with the answers of the spa node, a completion from it, and the steps of
`process_work_queue`.  Requests are also made by what `on_state_complete` tells. -/
inductive Op where
  | setState (state : PinosNodeState) (answers : NodeCommand → SpaResult)
  | asyncComplete (seq : UInt32) (res : SpaResult)
  | process
  | visit
  | return

def withWork (s : StateNode) (work : WorkQueue) : StateNode := { s with work := work }

/-- One turn of the loop of `process_work_queue`, with the call of `on_state_complete`. -/
def visit (s : StateNode) (a : Nat) : StateNode :=
  let work := s.work.visit a
  if s.work.Waits a ∨ (s.work.item a).func = 0 then s.withWork work
  else (s.withWork work).onStateComplete (s.work.item a).data (s.work.item a).res

def step (s : StateNode) : Op → StateNode
  | .setState state answers => if s.work.pass.inLoop then s else (s.setState answers state).1
  | .asyncComplete seq res => s.withWork (s.work.step (.complete nodePtr seq res))
  | .process => s.withWork (s.work.step .process)
  | .visit =>
    match s.work.pass with
    | .visits (some a) => s.visit a
    | _ => s.withWork (s.work.step .visit)
  | .return => s.withWork (s.work.step .return)

/-- Requests complete at once or asynchronously, in the order in which they were made, and
without an error. -/
def Admits (s : StateNode) : Op → Prop
  | .setState state answers =>
    (state = .suspended ∨ state = .idle ∨ state = .running) ∧
      ∀ command, answers command = .ok ∨ (answers command).isAsync
  | .asyncComplete seq res =>
    seq ≠ spaIdInvalid ∧ res.isError = false ∧
      ∀ {pre a rest}, s.work.workList = pre ++ a :: rest → (s.work.item a).seq = seq →
        ∀ b ∈ pre, (s.work.item b).seq = spaIdInvalid
  | .process => True
  | .visit => True
  | .return => True

/-- The spa node has been told last what a state asks for. -/
def Told (s : StateNode) (state : PinosNodeState) : Prop :=
  (s.received.getLast?.any fun command => command.isFor state) = true

instance (s : StateNode) (state : PinosNodeState) : Decidable (s.Told state) :=
  inferInstanceAs (Decidable (_ = _))

/-- The last request completes, and one for another state waits. -/
def Overtakes (s : StateNode) (a : Nat) : Prop :=
  ¬ s.work.Waits a ∧ s.work.workList.getLast? = some a ∧
    ∃ b ∈ s.work.workList, (s.work.item b).data ≠ (s.work.item a).data

instance (s : StateNode) (a : Nat) : Decidable (s.Overtakes a) :=
  inferInstanceAs (Decidable (_ ∧ _ ∧ _))

/-- Requests tell the spa node something, unless it has been told before, and the last one
does not complete while one for another state waits. -/
def Keeps (s : StateNode) : Op → Prop
  | .setState .suspended _ =>
    s.inputPorts ++ s.outputPorts ≠ [] ∨ s.Told .suspended
  | .setState .idle _ => PinosNodeState.idle.value < s.state.value ∨ s.Told .idle
  | .setState _ _ => True
  | .visit =>
    match s.work.pass with
    | .visits (some a) => ¬ s.Overtakes a
    | _ => True
  | .asyncComplete _ _ => True
  | .process => True
  | .return => True

instance (s : StateNode) : ∀ op, Decidable (s.Keeps op)
  | .setState .suspended _ => inferInstanceAs (Decidable (_ ∨ _))
  | .setState .idle _ => inferInstanceAs (Decidable (_ ∨ _))
  | .setState .error _ => inferInstanceAs (Decidable True)
  | .setState .creating _ => inferInstanceAs (Decidable True)
  | .setState .running _ => inferInstanceAs (Decidable True)
  | .visit =>
    match hpass : s.work.pass with
    | .idle => decidable_of_iff True (by rw [Keeps, hpass])
    | .visits none => decidable_of_iff True (by rw [Keeps, hpass])
    | .calls _ _ => decidable_of_iff True (by rw [Keeps, hpass])
    | .visits (some a) => decidable_of_iff (¬ s.Overtakes a) (by rw [Keeps, hpass])
  | .asyncComplete _ _ => inferInstanceAs (Decidable True)
  | .process => inferInstanceAs (Decidable True)
  | .return => inferInstanceAs (Decidable True)

/-- A node without requests. -/
structure Start (s : StateNode) : Prop where
  work : s.work.Inv
  empty : s.work.workList = []
  requested : s.requested = none

/-- When all requests have completed, the node has the state that was asked for last, and the
spa node the command for it. -/
def LastWins (s : StateNode) : Prop :=
  ∀ state, s.requested = some state → s.work.workList = [] → s.state = state ∧ s.Told state

/-! ## What holds in every state -/

/-- The last item of the work list is for the state that was asked for last. -/
structure Inv (s : StateNode) : Prop where
  work : s.work.Inv
  items : ∀ a ∈ s.work.workList, (s.work.item a).res.isError = false
  called : ∀ a ∈ s.work.workList, (s.work.item a).func = onStateCompletePtr
  last : ∀ a, s.work.workList.getLast? = some a →
    ∃ state, s.requested = some state ∧ (s.work.item a).data = state.toPtr
  state : s.work.workList = [] → ∀ state, s.requested = some state → s.state = state
  told : ∀ state, s.requested = some state → s.Told state

section Invariant

variable {s : StateNode} {answers : NodeCommand → SpaResult} {state : PinosNodeState} {a : Nat}

theorem isError_of_isAsync {res : SpaResult} (h : res.isAsync = true) : res.isError = false := by
  have hand := congrArg UInt32.toNat (beq_iff_eq.mp h)
  rw [UInt32.toNat_and] at hand
  have hbit : Nat.testBit (res.toNat &&& 0xC0000000) 31 = Nat.testBit 0x40000000 31 := by
    exact congrArg (Nat.testBit · 31) hand
  rw [Nat.testBit_and, show Nat.testBit 0xC0000000 31 = true from rfl,
    show Nat.testBit 0x40000000 31 = false from rfl, Bool.and_true,
    Nat.testBit_eq_decide_div_mod_eq, decide_eq_false_iff_not] at hbit
  have hlt := res.toNat_lt
  unfold SpaResult.isError
  rw [decide_eq_false_iff_not, UInt32.le_iff_toNat_le]
  show ¬ 2147483648 ≤ res.toNat
  omega

/-- An answer to a request that completes. -/
def Answered (res : SpaResult) : Prop := res = .ok ∨ res.isAsync = true

theorem Answered.isError {res : SpaResult} (h : Answered res) : res.isError = false := by
  rcases h with rfl | hasync
  · decide
  · exact isError_of_isAsync hasync

/-! ### What the spa node is told -/

/-- The spa node is told something, and nothing else changes. -/
def Tells (s s' : StateNode) : Prop := ∃ commands, s' = { s with received := s.received ++ commands }

theorem tells_refl : s.Tells s := ⟨[], by rw [List.append_nil]⟩

theorem tells_tell {command : NodeCommand} : s.Tells (s.tell command) := ⟨[command], rfl⟩

theorem Tells.trans {s' s'' : StateNode} (h : s.Tells s') (h' : s'.Tells s'') : s.Tells s'' := by
  obtain ⟨commands, rfl⟩ := h
  obtain ⟨commands', rfl⟩ := h'
  exact ⟨commands ++ commands', by rw [List.append_assoc]⟩

theorem told_tell {command : NodeCommand} (h : command.isFor state) :
    (s.tell command).Told state := by
  unfold Told tell
  rw [List.getLast?_concat]
  exact h

theorem suspendPorts (hanswers : ∀ command, Answered (answers command)) {dir : PinosDirection}
    {ports : List Nat} {done : StateNode × SpaResult} (hdone : Answered done.2) :
    done.1.Tells (ports.foldl (suspendPort answers dir) done).1 ∧
      Answered (ports.foldl (suspendPort answers dir) done).2 ∧
      (ports ≠ [] ∨ done.1.Told .suspended →
        (ports.foldl (suspendPort answers dir) done).1.Told .suspended) := by
  induction ports generalizing done with
  | nil => exact ⟨tells_refl, hdone, fun h => h.resolve_left fun hne => hne rfl⟩
  | cons port ports ih =>
    obtain ⟨htells, hanswered, htold⟩ := @ih (suspendPort answers dir done port) (hanswers _)
    exact ⟨tells_tell.trans htells, hanswered, fun _ => htold (.inr (told_tell rfl))⟩

/-- What a request tells the spa node, and that it completes. -/
theorem sendState_tells (hanswers : ∀ command, Answered (answers command))
    (hstate : state = .suspended ∨ state = .idle ∨ state = .running)
    (hkeeps : s.Keeps (.setState state answers)) :
    s.Tells (s.sendState answers state).1 ∧ Answered (s.sendState answers state).2 ∧
      (s.sendState answers state).1.Told state := by
  rcases hstate with rfl | rfl | rfl
  · obtain ⟨htells, hanswered, htold⟩ :=
      @suspendPorts answers hanswers .input s.inputPorts (s, .ok) (.inl rfl)
    obtain ⟨htells', hanswered', htold'⟩ :=
      @suspendPorts answers hanswers .output s.outputPorts _ hanswered
    refine ⟨htells.trans htells', hanswered', htold' ?_⟩
    by_cases houtput : s.outputPorts = []
    · refine .inr (htold (hkeeps.imp_left fun hne hinput => hne ?_))
      rw [hinput, houtput]
      rfl
    · exact .inl houtput
  · show s.Tells (s.pauseNode answers).1 ∧ Answered (s.pauseNode answers).2 ∧
      (s.pauseNode answers).1.Told .idle
    unfold pauseNode
    split
    · next hle => exact ⟨tells_refl, .inl rfl, hkeeps.resolve_left (by omega)⟩
    · exact ⟨tells_tell, hanswers _, told_tell rfl⟩
  · exact ⟨tells_tell.trans tells_tell, hanswers _, told_tell rfl⟩

/-! ### Steps -/

theorem inv_start (h : s.Start) : s.Inv where
  work := h.work
  items a ha := by
    rw [h.empty] at ha
    cases ha
  called a ha := by
    rw [h.empty] at ha
    cases ha
  last a ha := by
    rw [h.empty] at ha
    cases ha
  state _ state hstate := by
    rw [h.requested] at hstate
    cases hstate
  told state hstate := by
    rw [h.requested] at hstate
    cases hstate

theorem Inv.setState (hinv : s.Inv) (hanswers : ∀ command, Answered (answers command))
    (hstate : state = .suspended ∨ state = .idle ∨ state = .running)
    (hkeeps : s.Keeps (.setState state answers)) : (s.setState answers state).1.Inv := by
  obtain ⟨⟨commands, hsent⟩, hanswered, htold⟩ := sendState_tells hanswers hstate hkeeps
  have herror := hanswered.isError
  generalize hdone : s.sendState answers state = done at hsent herror htold
  obtain ⟨s', res⟩ := done
  dsimp only at hsent herror htold
  have hset : (s.setState answers state).1 = { s' with
      work := (s'.work.add nodePtr res onStateCompletePtr state.toPtr true).1
      requested := some state } := by
    unfold StateNode.setState
    rw [hdone]
    dsimp only
    rw [if_neg (by rw [herror]; exact Bool.false_ne_true)]
  have hroom : ¬ s.work.noItem true := by simp [WorkQueue.noItem]
  obtain ⟨hnew, q, hlist, hitem, -, hadd⟩ :=
    hinv.work.add_enqueues nodePtr res onStateCompletePtr state.toPtr hroom
  have hwork : s'.work = s.work := by rw [hsent]
  rw [hset, hwork]
  have hinv' : (s.work.add nodePtr res onStateCompletePtr state.toPtr true).1.Inv :=
    hinv.work.add true
  rw [hadd] at hinv' ⊢
  have hwork' : (q.enqueue s.work.nextItem nodePtr res onStateCompletePtr state.toPtr).workList =
      s.work.workList ++ [s.work.nextItem] := congrArg (· ++ [_]) hlist
  have hself := @WorkQueue.enqueue_item_self q s.work.nextItem nodePtr res onStateCompletePtr
    state.toPtr
  have hother : ∀ a ∈ s.work.workList,
      (q.enqueue s.work.nextItem nodePtr res onStateCompletePtr state.toPtr).item a =
        s.work.item a := by
    intro a ha
    have hne : a ≠ s.work.nextItem := fun heq => hnew (heq ▸ ha)
    rw [WorkQueue.enqueue_item_of_ne hne, hitem]
  refine ⟨hinv', ?_, ?_, ?_, ?_, ?_⟩
  · intro a ha
    change a ∈ (q.enqueue ..).workList at ha
    show (((q.enqueue _ _ _ _ _).item a).res).isError = false
    rw [hwork'] at ha
    rcases List.mem_append.mp ha with ha | ha
    · rw [hother a ha]
      exact hinv.items a ha
    · rw [List.mem_singleton.mp ha, hself]
      exact herror
  · intro a ha
    change a ∈ (q.enqueue ..).workList at ha
    show ((q.enqueue _ _ _ _ _).item a).func = _
    rw [hwork'] at ha
    rcases List.mem_append.mp ha with ha | ha
    · rw [hother a ha]
      exact hinv.called a ha
    · rw [List.mem_singleton.mp ha, hself]
  · intro a ha
    change (q.enqueue ..).workList.getLast? = some a at ha
    rw [hwork', List.getLast?_concat] at ha
    refine ⟨state, rfl, ?_⟩
    show ((q.enqueue _ _ _ _ _).item a).data = _
    rw [← Option.some.inj ha, hself]
  · intro hempty
    change (q.enqueue ..).workList = [] at hempty
    rw [hwork'] at hempty
    exact absurd hempty (List.concat_ne_nil _ _)
  · intro state' hstate'
    cases hstate'
    exact htold

/-- What does not touch the items of the list keeps the invariant. -/
theorem Inv.withWork (hinv : s.Inv) {work : WorkQueue} (hwork : work.Inv)
    (hlist : work.workList = s.work.workList)
    (hitem : ∀ a ∈ s.work.workList, (work.item a).res.isError = false ∧
      (work.item a).func = (s.work.item a).func ∧ (work.item a).data = (s.work.item a).data) :
    (s.withWork work).Inv where
  work := hwork
  items a ha := (hitem a (hlist ▸ ha)).1
  called a ha := (hitem a (hlist ▸ ha)).2.1.trans (hinv.called a (hlist ▸ ha))
  last a ha := by
    change work.workList.getLast? = some a at ha
    rw [hlist] at ha
    obtain ⟨state, hstate, hdata⟩ := hinv.last a ha
    exact ⟨state, hstate, (hitem a (List.mem_of_getLast? ha)).2.2.trans hdata⟩
  state hempty := hinv.state (hlist ▸ hempty)
  told := hinv.told

theorem Inv.asyncComplete (hinv : s.Inv) {seq : UInt32} {res : SpaResult}
    (hres : res.isError = false) : (s.step (.asyncComplete seq res)).Inv := by
  show (s.withWork (s.work.step (.complete nodePtr seq res))).Inv
  have hwork := hinv.work.step (.complete nodePtr seq res)
  rw [WorkQueue.step] at hwork ⊢
  split at hwork
  · next hloop =>
    rw [if_pos hloop]
    exact hinv
  · next hloop =>
    rw [if_neg hloop]
    refine hinv.withWork hwork rfl fun a ha => ?_
    by_cases hmatch : a ∈ s.work.workList ∧ WorkQueue.completeMatches nodePtr seq (s.work.item a)
    · have hitem : (s.work.complete nodePtr seq res).1.item a =
          WorkQueue.completeItem res (s.work.item a) := if_pos hmatch
      rw [hitem]
      exact ⟨hres, rfl, rfl⟩
    · have hitem : (s.work.complete nodePtr seq res).1.item a = s.work.item a := if_neg hmatch
      rw [hitem]
      exact ⟨hinv.items a ha, rfl, rfl⟩

theorem Inv.visit (hinv : s.Inv) (hpass : s.work.pass = .visits (some a))
    (hkeeps : ¬ s.Overtakes a) : (s.visit a).Inv := by
  have hwork := hinv.work.visit hpass
  obtain ⟨pre, rest, hsplit, ha, -⟩ := hinv.work.split hpass
  have hmem : a ∈ s.work.workList := hsplit ▸ List.mem_append_right pre List.mem_cons_self
  unfold StateNode.visit
  dsimp only
  by_cases hwaits : s.work.Waits a
  · rw [if_pos (.inl hwaits)]
    unfold WorkQueue.visit at hwork ⊢
    rw [if_pos hwaits] at hwork ⊢
    exact hinv.withWork hwork rfl fun b hb => ⟨hinv.items b hb, rfl, rfl⟩
  · have hfunc : (s.work.item a).func ≠ 0 := by
      rw [hinv.called a hmem]
      decide
    rw [if_neg (not_or.mpr ⟨hwaits, hfunc⟩)]
    obtain ⟨hlist, hitem⟩ := WorkQueue.visit_of_not_waits hwaits
    rw [hsplit, List.erase_append_right _ ha, List.erase_cons_head] at hlist
    generalize s.work.visit a = work at hwork hlist hitem
    have hsub : ∀ b ∈ work.workList, b ∈ s.work.workList := by
      intro b hb
      rw [hlist] at hb
      rw [hsplit]
      exact List.mem_append.mpr ((List.mem_append.mp hb).imp_right (List.mem_cons_of_mem a))
    have hstate : ((s.withWork work).onStateComplete (s.work.item a).data
        (s.work.item a).res).state = .ofPtr (s.work.item a).data := by
      show (if (s.work.item a).res.isError then PinosNodeState.error else _) = _
      rw [hinv.items a hmem]
      rfl
    refine ⟨hwork, ?_, ?_, ?_, ?_, hinv.told⟩
    · intro b hb
      show ((work.item b).res).isError = false
      rw [hitem]
      exact hinv.items b (hsub b hb)
    · intro b hb
      show (work.item b).func = _
      rw [hitem]
      exact hinv.called b (hsub b hb)
    · intro b hb
      change work.workList.getLast? = some b at hb
      show ∃ state, s.requested = some state ∧ (work.item b).data = state.toPtr
      rw [hitem]
      cases rest with
      | nil =>
        -- the request that was made last completes before others for the same state
        have hlast : s.work.workList.getLast? = some a := by rw [hsplit, List.getLast?_concat]
        have hdata : (s.work.item b).data = (s.work.item a).data := by
          by_contra hne
          exact hkeeps ⟨hwaits, hlast, b, hsub b (List.mem_of_getLast? hb), hne⟩
        rw [hdata]
        exact hinv.last a hlast
      | cons c rest =>
        apply hinv.last b
        rw [hlist, List.getLast?_append_cons] at hb
        rw [hsplit, List.getLast?_append_cons, List.getLast?_cons_cons]
        exact hb
    · intro hempty state hrequested
      rw [hstate]
      change work.workList = [] at hempty
      rw [hlist] at hempty
      obtain ⟨rfl, rfl⟩ := List.append_eq_nil_iff.mp hempty
      obtain ⟨state', hrequested', hdata⟩ := hinv.last a (by rw [hsplit]; rfl)
      rw [hdata, PinosNodeState.ofPtr_toPtr]
      exact Option.some.inj (hrequested'.symm.trans hrequested)

theorem Inv.step (hinv : s.Inv) {op : Op} (hadmits : s.Admits op) (hkeeps : s.Keeps op) :
    (s.step op).Inv := by
  have hsame : ∀ {work : WorkQueue}, work.Inv → work.workList = s.work.workList →
      work.item = s.work.item → (s.withWork work).Inv := by
    intro work hwork hlist hitem
    refine hinv.withWork hwork hlist fun a ha => ?_
    rw [hitem]
    exact ⟨hinv.items a ha, rfl, rfl⟩
  cases op with
  | setState state answers =>
    show (if s.work.pass.inLoop then s else (s.setState answers state).1).Inv
    split
    · exact hinv
    · exact hinv.setState hadmits.2 hadmits.1 hkeeps
  | asyncComplete seq res => exact hinv.asyncComplete hadmits.2.1
  | process =>
    show (s.withWork (s.work.step .process)).Inv
    apply hsame (hinv.work.step .process)
    · rw [WorkQueue.step]
      split <;> rfl
    · rw [WorkQueue.step]
      split <;> rfl
  | visit =>
    rw [StateNode.step]
    split
    · next a hpass =>
      rw [Keeps, hpass] at hkeeps
      exact hinv.visit hpass hkeeps
    · next hpass =>
      apply hsame (hinv.work.step .visit)
      · rw [WorkQueue.step]
        split
        · next a hvisits => exact absurd hvisits (hpass a)
        · rfl
        · rfl
      · rw [WorkQueue.step]
        split
        · next a hvisits => exact absurd hvisits (hpass a)
        · rfl
        · rfl
  | «return» =>
    show (s.withWork (s.work.step .return)).Inv
    apply hsame (hinv.work.step .return)
    · rw [WorkQueue.step]
      split <;> rfl
    · rw [WorkQueue.step]
      split <;> rfl

theorem Inv.lastWins (hinv : s.Inv) : s.LastWins :=
  fun state hstate hempty => ⟨hinv.state hempty state hstate, hinv.told state hstate⟩

end Invariant

/-- The last request wins, in every state of a run whose steps keep to the condition. -/
theorem run_lastWins {s : StateNode} (hstart : s.Start) {ops : List Op}
    (hops : Run.Along step (fun s op => s.Admits op ∧ s.Keeps op) s ops) :
    (Run.run step s ops).LastWins :=
  (Run.run_invariant Inv (fun _ _ hinv hop => hinv.step hop.1 hop.2) (inv_start hstart)
    hops).lastWins

/-- A node with a port that is suspended. -/
def suspended : StateNode where
  state := .suspended
  inputPorts := [0]
  outputPorts := []
  work := .new
  received := []
  requested := none

theorem start_suspended : suspended.Start := ⟨WorkQueue.inv_new, rfl, rfl⟩

/-- The spa node starts asynchronously, and does everything else at once. -/
def startsLater : NodeCommand → SpaResult
  | .start => .returnAsync 5
  | _ => .ok

theorem startsLater_answers (command : NodeCommand) :
    startsLater command = .ok ∨ (startsLater command).isAsync = true := by
  cases command with
  | start => exact .inr (by decide)
  | clockUpdate => exact .inl rfl
  | pause => exact .inl rfl
  | unsetFormat => exact .inl rfl

/-- The spa node has started. -/
def starting : List Op :=
  [.setState .running startsLater, .asyncComplete 5 .ok, .process, .visit, .return, .visit]

/-- Nothing stands in front of the only element of a list. -/
theorem first_of_single {P : Nat → Prop} {pre rest : List Nat} {a : Nat}
    (hsplit : [0] = pre ++ a :: rest) : ∀ b ∈ pre, P b := by
  cases pre with
  | nil => exact fun b hb => absurd hb List.not_mem_nil
  | cons c pre => simp at hsplit

theorem admits_starting : Run.Along step Admits suspended starting :=
  ⟨⟨.inr (.inr rfl), startsLater_answers⟩, ⟨by decide, by decide, fun hsplit _ =>
    first_of_single hsplit⟩, trivial, trivial, trivial, trivial, trivial⟩

theorem run_lastWins_idle :
    (Run.run step suspended (starting ++
      [.setState .idle startsLater, .process, .visit, .return, .visit])).LastWins := by
  apply run_lastWins start_suspended
  refine Run.along_and.mpr ⟨Run.along_append.mpr ⟨admits_starting, ?_⟩, by decide⟩
  exact ⟨⟨.inr (.inl rfl), startsLater_answers⟩, trivial, trivial, trivial, trivial, trivial⟩

/-- The node runs in the end, though it was asked to be idle. -/
theorem not_run_lastWins :
    ¬ ∀ (s : StateNode) (ops : List Op), s.Start → Run.Along step Admits s ops →
      (Run.run step s ops).LastWins := by
  intro h
  have hadmits : Run.Along step Admits suspended
      [.setState .running startsLater, .setState .idle startsLater, .process, .visit, .visit,
        .return, .visit, .asyncComplete 5 .ok, .process, .visit, .return, .visit] := by
    refine ⟨⟨.inr (.inr rfl), startsLater_answers⟩, ⟨.inr (.inl rfl), startsLater_answers⟩, trivial,
      trivial, trivial, trivial, trivial, ⟨by decide, by decide, ?_⟩, trivial, trivial, trivial,
      trivial, trivial⟩
    exact fun hsplit _ => first_of_single hsplit
  exact absurd (h suspended _ start_suspended hadmits .idle rfl rfl).1 (by decide)

end StateNode
end Pinos
