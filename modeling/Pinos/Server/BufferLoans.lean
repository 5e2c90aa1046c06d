import Pinos.Lib.Run
import Pinos.Server.NodeFlow

/-
Runs of nodes that hand out buffers and report them.

A buffer is out from when its producer hands it out until it is given back.  An input port
holds it from when it is delivered until the port reports it, by `reuse_buffer` or in the
io with which it is pulled.
-/

namespace Pinos

/-- A buffer that is out, whether it was delivered, and the input ports that hold it. -/
structure Loan where
  delivered : Bool
  holders : List Nat
  deriving DecidableEq

namespace Loan

def deliver (q : Nat) (loan : Loan) : Loan := ⟨true, q :: loan.holders⟩

def report (q : Nat) (loan : Loan) : Loan :=
  { loan with holders := loan.holders.filter (· ≠ q) }

/-- Every port that the buffer was delivered to has reported it. -/
def Finished (loan : Loan) : Prop := loan.delivered = true ∧ loan.holders = []

end Loan

/-- What happens to the buffers; a call that is going on proceeds at any time. -/
inductive LoanOp where
  | produce (p : Nat) (id : UInt32)
  | haveOutput (n : Nat)
  | needInput (m : Nat) (ios : Nat → SpaPortIO)
  | reuseBuffer (m : Nat) (portId bufferId : UInt32)
  | proceed (i : Nat)

/-- The io of the ports, and the buffers of each output port that are out. -/
structure BufferLoans where
  io : NodeFlow
  loans : Nat → UInt32 → Option Loan

namespace BufferLoans

def start : BufferLoans where
  io := .empty
  loans _ _ := none

variable (g : NodeGraph)

/-- The loan of the buffer in an io changes. -/
def changeLoan (s : BufferLoans) (p : Nat) (buffer : Option UInt32) (f : Loan → Loan) :
    Nat → UInt32 → Option Loan :=
  fun p' id => if p' = p ∧ buffer = some id then (s.loans p' id).map f else s.loans p' id

def processOutput (s : BufferLoans) (n : Nat) : BufferLoans where
  io := s.io.processOutput g n
  loans p id := if p ∈ g.outputPorts n ∧ s.io.returned g p = some id then none else s.loans p id

def copyBack (s : BufferLoans) (p q : Nat) : BufferLoans where
  io := s.io.copyBack p q
  loans := s.changeLoan p (s.io.inputs q).buffer? (Loan.report q)

def deliver (s : BufferLoans) (p q : Nat) : BufferLoans where
  io := s.io.deliver p q
  loans := s.changeLoan p (s.io.outputs p).buffer? (Loan.deliver q)

/-- The state in which a port that is pulled has been given what its node has. -/
def pulled (s : BufferLoans) (p q : Nat) : BufferLoans :=
  (s.copyBack p q).processOutput g (g.outputNode p)

def perform (s : BufferLoans) : NodeWork → BufferLoans
  | .deliver p q => s.deliver p q
  | .processOutput n => s.processOutput g n
  | .pull p q =>
    match g.producer (g.outputNode p) with
    | .clientNode => (s.pulled g p q).deliver p q
    | .v4l2Source => s.pulled g p q
  | work => { s with io := (s.io.perform g work).1 }

def step (s : BufferLoans) : LoanOp → BufferLoans
  | .produce p id =>
    { io := s.io.produce g p id
      loans := fun p' id' => if p' = p ∧ id' = id then some ⟨false, []⟩ else s.loans p' id' }
  | .haveOutput n => { s with io := s.io.onNodeHaveOutput g n }
  | .needInput m ios => { s with io := s.io.onNodeNeedInput g m ios }
  | .reuseBuffer m portId bufferId =>
    { io := s.io.onNodeReuseBuffer g m bufferId
      loans := fun p id =>
        if id = bufferId then
          (s.loans p id).map fun loan =>
            { loan with
              holders := loan.holders.filter fun q =>
                ¬ (q ∈ g.inputPorts m ∧ g.portId q = portId ∧ g.inputLink q = some p) }
        else s.loans p id }
  | .proceed i =>
    { io := s.io.proceed g i
      loans := match s.io.next i with
        | some work => (s.perform g work).loans
        | none => s.loans }

/-- The state in which a step asks a producer for output, and the producer. -/
def asks (s : BufferLoans) : LoanOp → Option (BufferLoans × Nat)
  | .proceed i =>
    match s.io.next i with
    | some (.processOutput n) => some (s, n)
    | some (.pull p q) => some (s.copyBack p q, g.outputNode p)
    | _ => none
  | _ => none

/-- The state in which a step delivers what is in the io of an output port, and the port. -/
def lends (s : BufferLoans) : LoanOp → Option (BufferLoans × Nat)
  | .proceed i =>
    match s.io.next i with
    | some (.deliver p _) => some (s, p)
    | some (.pull p q) =>
      if g.producer (g.outputNode p) = .clientNode then some (s.pulled g p q, p) else none
    | _ => none
  | _ => none

def FinishedAt (s : BufferLoans) (p : Nat) (id : UInt32) : Prop :=
  ∃ loan, s.loans p id = some loan ∧ loan.Finished

/-- A buffer that every port has reported is in the io of its output port. -/
def Kept (s : BufferLoans) : Prop :=
  ∀ p id, s.FinishedAt p id → (s.io.outputs p).bufferId = id

/-- A buffer is given back when it is out and no port holds it, and none that every port has
reported is forgotten; what is delivered is out; and a report changes only the io of output
ports that are linked to the port it is for. -/
structure Right (s : BufferLoans) (op : LoanOp) : Prop where
  back : ∀ t n, s.asks g op = some (t, n) → ∀ p ∈ g.outputPorts n, ∀ id,
    t.io.returned g p = some id → ∃ loan, t.loans p id = some loan ∧ loan.holders = []
  lent : ∀ t p, s.lends g op = some (t, p) → ∀ id,
    (t.io.outputs p).buffer? = some id → t.loans p id ≠ none
  kept : (s.step g op).Kept ∧ ∀ t n, s.asks g op = some (t, n) → t.Kept
  own : ∀ m portId bufferId, op = .reuseBuffer m portId bufferId → ∀ p,
    (¬ ∃ q ∈ g.inputPorts m, g.portId q = portId ∧ g.inputLink q = some p) →
      (s.step g op).io.outputs p = s.io.outputs p

/-- A producer hands out a buffer that is not out; a client does when its slot is empty. -/
def Admits (s : BufferLoans) : LoanOp → Prop
  | .produce p id => s.loans p id = none ∧ id ≠ spaIdInvalid ∧
    (g.producer (g.outputNode p) = .clientNode → (s.io.slots p).bufferId = spaIdInvalid)
  | _ => True

/-- No port holds what is in the io of the output ports of a node, and it is out. -/
def SafeOutput (s : BufferLoans) (n : Nat) : Prop :=
  ∀ p ∈ g.outputPorts n, ∀ id, s.io.returned g p = some id →
    ∃ loan, s.loans p id = some loan ∧ loan.holders = []

/-- The io of an output port is read when no port holds its buffer, and written when it does
not have a buffer that was reported; and reports come from nodes whose other input ports
have no links that matter. -/
def Safe (s : BufferLoans) : LoanOp → Prop
  | .produce p _ => g.producer (g.outputNode p) = .v4l2Source → ∀ id, ¬ s.FinishedAt p id
  | .haveOutput n => g.producer n = .clientNode → ∀ p ∈ g.outputPorts n, ∀ id,
    s.FinishedAt p id → (s.io.slots p).bufferId = id
  | .needInput _ _ => True
  | .reuseBuffer m portId bufferId => ∀ q ∈ g.inputPorts m, ∀ p, g.inputLink q = some p →
    (∀ id, s.FinishedAt p id → id = bufferId) ∧
      ((∃ q' ∈ g.inputPorts m, g.portId q' = portId ∧ g.inputLink q' = some p) ∨
        (s.io.outputs p).bufferId = bufferId)
  | .proceed i =>
    match s.io.next i with
    | some (.deliver p _) => ∀ id, (s.io.outputs p).buffer? = some id → s.loans p id ≠ none
    | some (.processOutput n) => s.SafeOutput g n
    | some (.pull p q) =>
      (∀ id, s.FinishedAt p id → id = (s.io.inputs q).bufferId) ∧
        (s.copyBack p q).SafeOutput g (g.outputNode p) ∧
        (g.producer (g.outputNode p) = .clientNode → ∀ id,
          ((s.pulled g p q).io.outputs p).buffer? = some id → (s.pulled g p q).loans p id ≠ none)
    | _ => True

theorem io_perform (s : BufferLoans) (work : NodeWork) :
    (s.perform g work).io = (s.io.perform g work).1 := by
  cases work with
  | pull p q =>
    simp only [perform, NodeFlow.perform, NodeFlow.pull]
    cases g.producer (g.outputNode p) <;> rfl
  | _ => rfl

/-! ## What the pieces of work keep -/

structure Inv (s : BufferLoans) : Prop where
  valid : ∀ p, s.loans p spaIdInvalid = none
  kept : s.Kept

variable {g} {s : BufferLoans} {p q n : Nat} {id : UInt32}

theorem valid_changeLoan (h : ∀ p, s.loans p spaIdInvalid = none) (p : Nat) (buffer : Option UInt32)
    (f : Loan → Loan) (p' : Nat) : s.changeLoan p buffer f p' spaIdInvalid = none := by
  rw [changeLoan]
  split
  · rw [h]
    rfl
  · exact h p'

theorem valid_processOutput (h : ∀ p, s.loans p spaIdInvalid = none) (p : Nat) :
    (s.processOutput g n).loans p spaIdInvalid = none := by
  show (if _ then none else _) = none
  split
  · rfl
  · exact h p

theorem valid_perform (h : ∀ p, s.loans p spaIdInvalid = none) (work : NodeWork) (p : Nat) :
    (s.perform g work).loans p spaIdInvalid = none := by
  have hpulled : ∀ p q p', (s.pulled g p q).loans p' spaIdInvalid = none := fun p q p' =>
    valid_processOutput (fun p'' => valid_changeLoan h p _ _ p'') p'
  cases work with
  | deliver p q => exact valid_changeLoan h _ _ _ _
  | processOutput n => exact valid_processOutput h p
  | pull p q =>
    rw [perform]
    split
    · exact valid_changeLoan (hpulled p q) _ _ _ _
    · exact hpulled p q _
  | output p => exact h _
  | settle p => exact h _
  | input q => exact h _

/-- What is delivered is held. -/
theorem Kept.deliver (h : s.Kept) (p q : Nat) : (s.deliver p q).Kept := by
  intro p' id hfinished
  obtain ⟨loan, hloan, hdone⟩ := hfinished
  have hloan : s.changeLoan p (s.io.outputs p).buffer? (Loan.deliver q) p' id = some loan := hloan
  rw [changeLoan] at hloan
  split at hloan
  · obtain ⟨before, -, rfl⟩ := Option.map_eq_some_iff.mp hloan
    cases hdone.2
  · exact h p' id ⟨loan, hloan, hdone⟩

/-- What was reported is given back. -/
theorem Kept.processOutput (h : s.Kept) (hvalid : ∀ p, s.loans p spaIdInvalid = none)
    (hnode : ∀ p ∈ g.outputPorts n, g.outputNode p = n) : (s.processOutput g n).Kept := by
  intro p id hfinished
  obtain ⟨loan, hloan, hdone⟩ := hfinished
  have hloan : (if p ∈ g.outputPorts n ∧ s.io.returned g p = some id then none else s.loans p id) =
      some loan := hloan
  split at hloan
  · cases hloan
  · next hnot =>
    have hio := h p id ⟨loan, hloan, hdone⟩
    have hne : id ≠ spaIdInvalid := by
      intro hid
      rw [hid, hvalid] at hloan
      cases hloan
    have hbuffer : (s.io.outputs p).buffer? = some id := SpaPortIO.buffer?_eq_some.mpr ⟨hio, hne⟩
    show ((s.io.processOutput g n).outputs p).bufferId = id
    by_cases hp : p ∈ g.outputPorts n
    · have hnot : ¬ s.io.returned g p = some id := fun hreturned => hnot ⟨hp, hreturned⟩
      rw [NodeFlow.returned, hnode p hp] at hnot
      rw [NodeFlow.processOutput]
      cases hproducer : g.producer n with
      | clientNode =>
        rw [hproducer] at hnot
        exact absurd hbuffer hnot
      | v4l2Source =>
        rw [hproducer] at hnot
        by_cases hstatus : (s.io.outputs p).status = .haveBuffer
        · simp [hstatus, hio]
        · exact absurd hbuffer (by simpa [hstatus] using hnot)
    · rw [NodeFlow.processOutput]
      cases g.producer n <;> simp [hp, hio]

/-- The io of the output port is written with what the input port reports. -/
theorem kept_copyBack (h : s.Kept) :
    (s.copyBack p q).Kept ↔ ∀ id, s.FinishedAt p id → id = (s.io.inputs q).bufferId := by
  have hsame : ∀ p' id, ¬ (p' = p ∧ (s.io.inputs q).buffer? = some id) →
      ((s.copyBack p q).FinishedAt p' id ↔ s.FinishedAt p' id) := by
    intro p' id hnot
    have hloans : (s.copyBack p q).loans p' id = s.loans p' id := if_neg hnot
    rw [FinishedAt, FinishedAt, hloans]
  have hwritten : (s.copyBack p q).io.outputs p = s.io.inputs q := if_pos rfl
  constructor
  · intro hkept id hfinished
    by_cases hreported : (s.io.inputs q).buffer? = some id
    · have heq := SpaPortIO.buffer?_eq_some.mp hreported
      exact heq.1.symm
    · have hio := hkept p id ((hsame p id fun hboth => hreported hboth.2).mpr hfinished)
      rw [hwritten] at hio
      exact hio.symm
  · intro hsafe p' id hfinished
    by_cases hport : p' = p
    · rw [hport] at hfinished ⊢
      rw [hwritten]
      by_cases hreported : (s.io.inputs q).buffer? = some id
      · have heq := SpaPortIO.buffer?_eq_some.mp hreported
        exact heq.1
      · exact (hsafe id ((hsame p id fun hboth => hreported hboth.2).mp hfinished)).symm
    · have hio := h p' id ((hsame p' id fun hboth => hport hboth.1).mp hfinished)
      have hother : (s.copyBack p q).io.outputs p' = s.io.outputs p' := if_neg hport
      rw [hother]
      exact hio

theorem Kept.congr {s' : BufferLoans} (h : s.Kept) (hloans : s'.loans = s.loans)
    (houtputs : ∀ p, (s'.io.outputs p).bufferId = (s.io.outputs p).bufferId) : s'.Kept := by
  intro p id hfinished
  rw [FinishedAt, hloans] at hfinished
  rw [houtputs]
  exact h p id hfinished

theorem outputs_proceed {i : Nat} {work : NodeWork} (h : s.io.next i = some work) :
    (s.io.proceed g i).outputs = (s.perform g work).io.outputs := by
  rw [io_perform, NodeFlow.proceed]
  rw [NodeFlow.next] at h
  obtain ⟨call, hcall, hhead⟩ := Option.bind_eq_some_iff.mp h
  obtain ⟨rest, hrest⟩ := List.head?_eq_some_iff.mp hhead
  rw [hcall, hrest]

theorem proceed_of_none {i : Nat} (h : s.io.next i = none) : s.io.proceed g i = s.io := by
  rw [NodeFlow.proceed]
  rw [NodeFlow.next] at h
  cases hcall : s.io.calls[i]? with
  | none => rfl
  | some call =>
    rw [hcall, Option.bind_some, List.head?_eq_none_iff] at h
    rw [h]

/-! ## Steps -/

theorem right_iff_kept {op : LoanOp} (hasks : s.asks g op = none) (hlends : s.lends g op = none)
    (hother : ∀ m portId bufferId, op ≠ .reuseBuffer m portId bufferId) :
    s.Right g op ↔ (s.step g op).Kept := by
  constructor
  · exact fun hright => hright.kept.1
  · intro hkept
    refine ⟨fun t n hask => ?_, fun t p hlend => ?_, ⟨hkept, fun t n hask => ?_⟩,
      fun m portId bufferId hop => absurd hop (hother m portId bufferId)⟩
    · rw [hasks] at hask
      cases hask
    · rw [hlends] at hlend
      cases hlend
    · rw [hasks] at hask
      cases hask

theorem Inv.produce_iff (h : s.Inv) (hadmits : s.Admits g (.produce p id)) :
    s.Right g (.produce p id) ↔ s.Safe g (.produce p id) := by
  rw [right_iff_kept rfl rfl fun _ _ _ hop => by cases hop]
  have hloans : ∀ p' id', (s.step g (.produce p id)).FinishedAt p' id' ↔ s.FinishedAt p' id' := by
    intro p' id'
    have hnew : (s.step g (.produce p id)).loans p' id' =
        if p' = p ∧ id' = id then some ⟨false, []⟩ else s.loans p' id' := rfl
    rw [FinishedAt, FinishedAt, hnew]
    by_cases hsame : p' = p ∧ id' = id
    · rw [if_pos hsame, hsame.1, hsame.2, hadmits.1]
      simp [Loan.Finished]
    · rw [if_neg hsame]
  have hproduce : (s.step g (.produce p id)).io = s.io.produce g p id := rfl
  cases hproducer : g.producer (g.outputNode p) with
  | clientNode =>
    refine iff_of_true (fun p' id' hfinished => ?_) fun hdevice => ?_
    · rw [hproduce, NodeFlow.produce, hproducer]
      exact h.kept p' id' ((hloans p' id').mp hfinished)
    · rw [hproducer] at hdevice
      cases hdevice
  | v4l2Source =>
    have houtputs : ∀ p', (s.step g (.produce p id)).io.outputs p' =
        if p' = p then ⟨.haveBuffer, id⟩ else s.io.outputs p' := by
      intro p'
      rw [hproduce, NodeFlow.produce, hproducer]
      rfl
    constructor
    · intro hkept _ id' hfinished
      have hio := hkept p id' ((hloans p id').mpr hfinished)
      rw [houtputs, if_pos rfl] at hio
      obtain ⟨loan, hloan, -⟩ := hfinished
      rw [← show id = id' from hio, hadmits.1] at hloan
      cases hloan
    · intro hsafe p' id' hfinished
      have hbefore := (hloans p' id').mp hfinished
      have hne : p' ≠ p := fun hsame => hsafe hproducer id' (hsame ▸ hbefore)
      rw [houtputs, if_neg hne]
      exact h.kept p' id' hbefore

theorem Inv.haveOutput_iff (h : s.Inv) (n : Nat) :
    s.Right g (.haveOutput n) ↔ s.Safe g (.haveOutput n) := by
  rw [right_iff_kept rfl rfl fun _ _ _ hop => by cases hop]
  have hcopy : (s.step g (.haveOutput n)).io.outputs = (s.io.copySlots g n).outputs := rfl
  cases hproducer : g.producer n with
  | clientNode =>
    have houtputs : ∀ p, (s.step g (.haveOutput n)).io.outputs p =
        if p ∈ g.outputPorts n then s.io.slots p else s.io.outputs p := by
      intro p
      rw [hcopy, NodeFlow.copySlots, hproducer]
    constructor
    · intro hkept _ p hp id hfinished
      have hio := hkept p id hfinished
      rwa [houtputs, if_pos hp] at hio
    · intro hsafe p id hfinished
      rw [houtputs]
      split
      · next hp => exact hsafe hproducer p hp id hfinished
      · exact h.kept p id hfinished
  | v4l2Source =>
    refine iff_of_true (fun p id hfinished => ?_) fun hclient => ?_
    · rw [hcopy, NodeFlow.copySlots, hproducer]
      exact h.kept p id hfinished
    · rw [hproducer] at hclient
      cases hclient

theorem Inv.reuseBuffer_iff (h : s.Inv) (m : Nat) (portId bufferId : UInt32) :
    s.Right g (.reuseBuffer m portId bufferId) ↔ s.Safe g (.reuseBuffer m portId bufferId) := by
  have hloans : ∀ p id, (s.step g (.reuseBuffer m portId bufferId)).loans p id =
      if id = bufferId then
        (s.loans p id).map fun loan =>
          { loan with
            holders := loan.holders.filter fun q =>
              ¬ (q ∈ g.inputPorts m ∧ g.portId q = portId ∧ g.inputLink q = some p) }
      else s.loans p id := fun _ _ => rfl
  have houtputs : ∀ p, (s.step g (.reuseBuffer m portId bufferId)).io.outputs p =
      if ∃ q ∈ g.inputPorts m, g.inputLink q = some p then { s.io.outputs p with bufferId := bufferId }
      else s.io.outputs p := fun _ => rfl
  constructor
  · intro hright q hq p hlink
    have hwritten := houtputs p
    rw [if_pos ⟨q, hq, hlink⟩] at hwritten
    constructor
    · intro id hfinished
      by_contra hne
      have hsame := hloans p id
      rw [if_neg hne] at hsame
      have hio := hright.kept.1 p id (by rw [FinishedAt, hsame]; exact hfinished)
      rw [hwritten] at hio
      exact hne hio.symm
    · by_cases howner : ∃ q' ∈ g.inputPorts m, g.portId q' = portId ∧ g.inputLink q' = some p
      · exact .inl howner
      · have hsame := hright.own m portId bufferId rfl p howner
        rw [hwritten] at hsame
        exact .inr (congrArg SpaPortIO.bufferId hsame).symm
  · intro hsafe
    refine ⟨fun t n hask => (by cases hask), fun t p hlend => (by cases hlend),
      ⟨fun p id hfinished => ?_, fun t n hask => (by cases hask)⟩, ?_⟩
    · rw [houtputs]
      by_cases hlinked : ∃ q ∈ g.inputPorts m, g.inputLink q = some p
      · rw [if_pos hlinked]
        obtain ⟨q, hq, hlink⟩ := hlinked
        by_cases hid : id = bufferId
        · exact hid.symm
        · rw [FinishedAt, hloans, if_neg hid] at hfinished
          exact ((hsafe q hq p hlink).1 id hfinished).symm
      · rw [if_neg hlinked]
        refine h.kept p id ?_
        rw [FinishedAt, hloans] at hfinished
        have hnone : ∀ q, ¬ (q ∈ g.inputPorts m ∧ g.portId q = portId ∧ g.inputLink q = some p) :=
          fun q hall => hlinked ⟨q, hall.1, hall.2.2⟩
        simp only [hnone, not_false_eq_true, decide_true, List.filter_true, Option.map_id',
          ite_self] at hfinished
        exact hfinished
    · intro m' portId' bufferId' hop p hnot
      cases hop
      rw [houtputs]
      split
      · next hlinked =>
        obtain ⟨q, hq, hlink⟩ := hlinked
        have hsame := (hsafe q hq p hlink).2.resolve_left hnot
        rw [← hsame]
      · rfl

theorem kept_proceed {i : Nat} {work : NodeWork} (hnext : s.io.next i = some work)
    (h : (s.perform g work).Kept) : (s.step g (.proceed i)).Kept := by
  refine h.congr ?_ fun p => ?_
  · show (match s.io.next i with | some work => _ | none => _) = _
    rw [hnext]
  · rw [← outputs_proceed hnext]
    rfl

theorem Inv.kept_perform (h : s.Inv) {work : NodeWork} (hpull : ∀ p q, work = .pull p q →
    (s.copyBack p q).Kept) : (s.perform g work).Kept := by
  have hnode := fun n p (hp : p ∈ g.outputPorts n) => g.outputNode_of_mem n p hp
  cases work with
  | output p =>
    refine h.kept.congr rfl fun p' => ?_
    show ((s.io.perform g (.output p)).1.outputs p').bufferId = _
    rw [NodeFlow.perform]
    split <;> rfl
  | deliver p q => exact h.kept.deliver p q
  | settle p =>
    refine h.kept.congr rfl fun p' => ?_
    show (if p' = p then _ else s.io.outputs p').bufferId = _
    split
    · next hp => rw [hp]
    · rfl
  | processOutput n => exact h.kept.processOutput h.valid (hnode n)
  | input q =>
    refine h.kept.congr rfl fun p' => ?_
    show ((s.io.perform g (.input q)).1.outputs p').bufferId = _
    rw [NodeFlow.perform]
    split <;> rfl
  | pull p q =>
    have hpulled : (s.pulled g p q).Kept :=
      (hpull p q rfl).processOutput (fun p' => valid_changeLoan h.valid _ _ _ p') (hnode _)
    rw [perform]
    split
    · exact hpulled.deliver p q
    · exact hpulled

theorem Inv.proceed_iff (h : s.Inv) (i : Nat) : s.Right g (.proceed i) ↔ s.Safe g (.proceed i) := by
  have hop : ∀ m portId bufferId, LoanOp.proceed i ≠ .reuseBuffer m portId bufferId :=
    fun _ _ _ hop => by cases hop
  cases hnext : s.io.next i with
  | none =>
    rw [right_iff_kept (by simp only [asks, hnext]) (by simp only [lends, hnext]) hop]
    refine iff_of_true (h.kept.congr ?_ fun p => ?_) (by simp only [Safe, hnext])
    · show (match s.io.next i with | some work => _ | none => _) = _
      rw [hnext]
    · show ((s.io.proceed g i).outputs p).bufferId = _
      rw [proceed_of_none hnext]
  | some work =>
    have hkept : (∀ p q, work = .pull p q → (s.copyBack p q).Kept) → (s.step g (.proceed i)).Kept :=
      fun hpull => kept_proceed hnext (h.kept_perform hpull)
    cases work with
    | output p =>
      rw [right_iff_kept (by simp only [asks, hnext]) (by simp only [lends, hnext]) hop]
      exact iff_of_true (hkept fun _ _ hwork => by cases hwork) (by simp only [Safe, hnext])
    | settle p =>
      rw [right_iff_kept (by simp only [asks, hnext]) (by simp only [lends, hnext]) hop]
      exact iff_of_true (hkept fun _ _ hwork => by cases hwork) (by simp only [Safe, hnext])
    | input q =>
      rw [right_iff_kept (by simp only [asks, hnext]) (by simp only [lends, hnext]) hop]
      exact iff_of_true (hkept fun _ _ hwork => by cases hwork) (by simp only [Safe, hnext])
    | deliver p q =>
      have hasks : s.asks g (.proceed i) = none := by simp only [asks, hnext]
      have hlends : s.lends g (.proceed i) = some (s, p) := by simp only [lends, hnext]
      have hsafe : s.Safe g (.proceed i) ↔
          ∀ id, (s.io.outputs p).buffer? = some id → s.loans p id ≠ none := by
        simp only [Safe, hnext]
      rw [hsafe]
      refine ⟨fun hright => hright.lent s p hlends, fun hout => ?_⟩
      refine ⟨fun t n hask => ?_, fun t p' hlend => ?_, ⟨hkept fun _ _ hwork => (by cases hwork),
        fun t n hask => ?_⟩, fun m portId bufferId heq => absurd heq (hop m portId bufferId)⟩
      · rw [hasks] at hask
        cases hask
      · rw [hlends] at hlend
        cases hlend
        exact hout
      · rw [hasks] at hask
        cases hask
    | processOutput n =>
      have hasks : s.asks g (.proceed i) = some (s, n) := by simp only [asks, hnext]
      have hlends : s.lends g (.proceed i) = none := by simp only [lends, hnext]
      have hsafe : s.Safe g (.proceed i) ↔ s.SafeOutput g n := by simp only [Safe, hnext]
      rw [hsafe]
      refine ⟨fun hright => hright.back s n hasks, fun hout => ?_⟩
      refine ⟨fun t n' hask => ?_, fun t p' hlend => ?_, ⟨hkept fun _ _ hwork => (by cases hwork),
        fun t n' hask => ?_⟩, fun m portId bufferId heq => absurd heq (hop m portId bufferId)⟩
      · rw [hasks] at hask
        cases hask
        exact hout
      · rw [hlends] at hlend
        cases hlend
      · rw [hasks] at hask
        cases hask
        exact h.kept
    | pull p q =>
      have hasks : s.asks g (.proceed i) = some (s.copyBack p q, g.outputNode p) := by
        simp only [asks, hnext]
      have hlends : s.lends g (.proceed i) =
          if g.producer (g.outputNode p) = .clientNode then some (s.pulled g p q, p) else none := by
        simp only [lends, hnext]
      have hsafe : s.Safe g (.proceed i) ↔
          (∀ id, s.FinishedAt p id → id = (s.io.inputs q).bufferId) ∧
            (s.copyBack p q).SafeOutput g (g.outputNode p) ∧
            (g.producer (g.outputNode p) = .clientNode → ∀ id,
              ((s.pulled g p q).io.outputs p).buffer? = some id →
                (s.pulled g p q).loans p id ≠ none) := by
        simp only [Safe, hnext]
      rw [hsafe, ← kept_copyBack h.kept]
      constructor
      · intro hright
        refine ⟨hright.kept.2 _ _ hasks, hright.back _ _ hasks, fun hclient => ?_⟩
        exact hright.lent _ p (by rw [hlends, if_pos hclient])
      · intro hall
        refine ⟨fun t n' hask => ?_, fun t p' hlend => ?_, ⟨hkept fun p' q' hwork => ?_,
          fun t n' hask => ?_⟩, fun m portId bufferId heq => absurd heq (hop m portId bufferId)⟩
        · rw [hasks] at hask
          cases hask
          exact hall.2.1
        · rw [hlends] at hlend
          split at hlend
          · next hclient =>
            cases hlend
            exact hall.2.2 hclient
          · cases hlend
        · cases hwork
          exact hall.1
        · rw [hasks] at hask
          cases hask
          exact hall.1

/-- A step does right exactly when it is safe, and then keeps the invariant. -/
theorem Inv.step_iff (h : s.Inv) {op : LoanOp} (hadmits : s.Admits g op) :
    s.Right g op ↔ s.Safe g op := by
  cases op with
  | produce p id => exact h.produce_iff hadmits
  | haveOutput n => exact h.haveOutput_iff n
  | needInput m ios =>
    rw [right_iff_kept rfl rfl fun _ _ _ hop => by cases hop]
    exact iff_of_true (h.kept.congr rfl fun _ => rfl) trivial
  | reuseBuffer m portId bufferId => exact h.reuseBuffer_iff m portId bufferId
  | proceed i => exact h.proceed_iff i

theorem Inv.step (h : s.Inv) {op : LoanOp} (hadmits : s.Admits g op) (hright : s.Right g op) :
    (s.step g op).Inv where
  valid p' := by
    cases op with
    | produce p id =>
      show (if _ then _ else s.loans p' spaIdInvalid) = none
      rw [if_neg fun hboth => hadmits.2.1 hboth.2.symm]
      exact h.valid p'
    | haveOutput n => exact h.valid p'
    | needInput m ios => exact h.valid p'
    | reuseBuffer m portId bufferId =>
      show (if _ then Option.map _ (s.loans p' spaIdInvalid) else s.loans p' spaIdInvalid) = none
      rw [h.valid]
      simp
    | proceed i =>
      show (match s.io.next i with | some work => (s.perform g work).loans | none => s.loans) p' _ = none
      cases s.io.next i with
      | none => exact h.valid p'
      | some work => exact valid_perform h.valid work p'
  kept := hright.kept.1

theorem inv_start : start.Inv where
  valid _ := rfl
  kept p id hfinished := by
    obtain ⟨loan, hloan, -⟩ := hfinished
    cases hloan

/-- Two nodes, with one port each that are linked. -/
def exampleGraph (producer : Producer) : NodeGraph where
  producer _ := producer
  outputPorts n := if n = 0 then [0] else []
  inputPorts n := if n = 1 then [0] else []
  outputNode _ := 0
  portId _ := 0
  outputLinks p := if p = 0 then [0] else []
  inputLink q := if q = 0 then some 0 else none
  outputNode_of_mem n p hp := by
    split at hp
    · next hn => exact hn.symm
    · cases hp
  mem_outputLinks p q := by
    by_cases hp : p = 0
    · by_cases hq : q = 0 <;> simp [hp, hq]
    · by_cases hq : q = 0 <;> simp [hp, hq, Ne.symm hp]

end BufferLoans
end Pinos
