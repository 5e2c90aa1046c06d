import Mathlib.Logic.Function.Basic
import Pinos.Lib.Run
import Pinos.Server.WorkQueue

/-
Sequence numbers of client nodes, from the request to the completed item.

A request goes out under the 32-bit counter of the node, and its result keeps
the lower 30 bits of it.  The answer brings back all 32 bits, and these are
compared with the `seq` of the items.
-/

namespace Pinos

/-- A queue, the `seq` counters of the nodes that its items are about, what each
node's requests were sent under, and the request behind each item of the queue. -/
structure AsyncWork where
  queue : WorkQueue
  seq : UInt64 → UInt32
  issued : UInt64 → List UInt32
  request : Nat → Option Nat

/-- A request of a node (a clock update also takes a number); queueing the result
of one; the answer to one; and what else happens to the queue. -/
inductive AsyncEvent where
  | sends (obj : UInt64)
  | defers (obj : UInt64) (n : Nat) (func data : UInt64) (room : Bool)
  | completes (obj : UInt64) (n : Nat) (res : SpaResult)
  | other (e : WorkEvent)

namespace AsyncWork

def start (seq : UInt64 → UInt32) : AsyncWork where
  queue := .new
  seq := seq
  issued _ := []
  request _ := none

/-- The number that the request `n` of a node was sent under. -/
def issuedSeq (s : AsyncWork) (obj : UInt64) (n : Nat) : UInt32 := (s.issued obj).getD n 0

/-- Run the queue, noting the request behind an item that is added. -/
def stepQueue (s : AsyncWork) (e : WorkEvent) (request : Option Nat) : AsyncWork :=
  match e with
  | .add _ _ _ _ room =>
    if s.queue.pass.inLoop || s.queue.noItem room then s
    else
      { s with
        queue := s.queue.step e
        request := Function.update s.request s.queue.nextItem request }
  | _ => { s with queue := s.queue.step e }

def step (s : AsyncWork) : AsyncEvent → AsyncWork
  | .sends obj =>
    { s with
      issued := Function.update s.issued obj (s.issued obj ++ [s.seq obj])
      seq := Function.update s.seq obj (s.seq obj + 1) }
  | .defers obj n func data room =>
    s.stepQueue (.add obj (SpaResult.returnAsync (s.issuedSeq obj n)) func data room) (some n)
  | .completes obj n res => s.stepQueue (.complete obj (s.issuedSeq obj n) res) none
  | .other e => s.stepQueue e none

/-- What can happen: results are queued and answered for requests that were sent,
outside the loop of the queue; other results are not asynchronous. -/
def Admits (s : AsyncWork) : AsyncEvent → Prop
  | .sends _ => True
  | .defers obj n _ _ _ => n < (s.issued obj).length
  | .completes obj n _ => n < (s.issued obj).length ∧ s.queue.pass.inLoop = false
  | .other (.add _ res _ _ _) => res.isAsync = false
  | .other (.complete ..) => False
  | .other _ => True

instance (s : AsyncWork) : (e : AsyncEvent) → Decidable (s.Admits e)
  | .sends _ => inferInstanceAs (Decidable True)
  | .defers obj n _ _ _ => inferInstanceAs (Decidable (n < (s.issued obj).length))
  | .completes obj n _ =>
    inferInstanceAs (Decidable (n < (s.issued obj).length ∧ s.queue.pass.inLoop = false))
  | .other (.add _ res _ _ _) => inferInstanceAs (Decidable (res.isAsync = false))
  | .other (.complete ..) => inferInstanceAs (Decidable False)
  | .other (.cancel ..) | .other .process | .other .visit | .other .return =>
    inferInstanceAs (Decidable True)

/-- The item was added for the request `n` of the node and still waits for its answer. -/
def Awaits (s : AsyncWork) (obj : UInt64) (n : Nat) (a : Nat) : Prop :=
  (s.queue.item a).obj = obj ∧ s.request a = some n ∧ (s.queue.item a).seq ≠ spaIdInvalid

/-- A completion finds the items that wait for it, and no others. -/
def Right (s : AsyncWork) : AsyncEvent → Prop
  | .completes obj n res =>
    ∀ a ∈ s.queue.workList,
      (WorkQueue.completeMatches obj (s.issuedSeq obj n) (s.queue.item a) = true ↔
        s.Awaits obj n a) ∧
      (s.Awaits obj n a → (s.step (.completes obj n res)).queue.item a
        = { s.queue.item a with seq := spaIdInvalid, res := res }) ∧
      (¬ s.Awaits obj n a → (s.step (.completes obj n res)).queue.item a = s.queue.item a)
  | _ => True

/-- The number of the answered request fits into 30 bits if an item waits for it,
no item waits for another request whose number has the same lower 30 bits, and
the number is not that of the items that wait for nothing. -/
def Safe (s : AsyncWork) : AsyncEvent → Prop
  | .completes obj n _ =>
    ∀ a ∈ s.queue.workList, (s.queue.item a).obj = obj →
      if (s.queue.item a).seq = spaIdInvalid then s.issuedSeq obj n ≠ spaIdInvalid
      else if s.request a = some n then (s.issuedSeq obj n).toNat < 2 ^ 30
      else ∀ m ∈ s.request a, (s.issuedSeq obj m).toNat % 2 ^ 30 ≠ (s.issuedSeq obj n).toNat
  | _ => True

/-- The item carries the number of its request, or waits for nothing. -/
def Numbered (s : AsyncWork) (a : Nat) : Prop :=
  (s.queue.item a).seq = spaIdInvalid ∨
    ∃ n, s.request a = some n ∧ n < (s.issued (s.queue.item a).obj).length ∧
      (s.queue.item a).seq.toNat = (s.issuedSeq (s.queue.item a).obj n).toNat % 2 ^ 30

structure Inv (s : AsyncWork) : Prop where
  queue : s.queue.Inv
  numbered : ∀ a ∈ s.queue.workList, s.Numbered a

theorem inv_start (seq : UInt64 → UInt32) : (start seq).Inv where
  queue := WorkQueue.inv_new
  numbered _ h := nomatch h

/-! ## What a completion finds -/

theorem Numbered.matches_iff {s : AsyncWork} {a : Nat} (h : s.Numbered a) (obj : UInt64) (n : Nat) :
    (WorkQueue.completeMatches obj (s.issuedSeq obj n) (s.queue.item a) = true ↔
        s.Awaits obj n a) ↔
      ((s.queue.item a).obj = obj →
        if (s.queue.item a).seq = spaIdInvalid then s.issuedSeq obj n ≠ spaIdInvalid
        else if s.request a = some n then (s.issuedSeq obj n).toNat < 2 ^ 30
        else ∀ m ∈ s.request a, (s.issuedSeq obj m).toNat % 2 ^ 30 ≠ (s.issuedSeq obj n).toNat) := by
  rw [WorkQueue.completeMatches, Bool.and_eq_true, beq_iff_eq, beq_iff_eq, Awaits]
  by_cases hobj : (s.queue.item a).obj = obj
  · simp only [hobj, true_and, true_implies]
    rcases h with hseq | ⟨m, hrequest, -, hseq⟩
    · rw [hseq, if_pos rfl]
      simp [eq_comm]
    have hlt : (s.queue.item a).seq.toNat < 2 ^ 30 := by
      rw [hseq]
      exact Nat.mod_lt _ (by omega)
    have hne : (s.queue.item a).seq ≠ spaIdInvalid := by
      intro hinvalid
      rw [hinvalid] at hlt
      exact absurd hlt (by decide)
    rw [hobj] at hseq
    rw [if_neg hne, hrequest, ← UInt32.toNat_inj, hseq]
    by_cases hm : m = n
    · rw [hm, if_pos rfl]
      simp only [hne, ne_eq, not_false_eq_true, and_self, iff_true]
      exact Nat.mod_eq_iff_lt (by omega)
    · have hm' : some m ≠ some n := fun h => hm (Option.some.inj h)
      simp [hm']
  · simp [hobj]

theorem right_iff_safe_completes {s : AsyncWork} (hinv : s.Inv) {obj : UInt64} {n : Nat}
    {res : SpaResult} (hloop : s.queue.pass.inLoop = false) :
    s.Right (.completes obj n res) ↔ s.Safe (.completes obj n res) := by
  constructor
  · intro hright a ha
    exact ((hinv.numbered a ha).matches_iff obj n).mp (hright a ha).1
  · intro hsafe a ha
    have hiff := ((hinv.numbered a ha).matches_iff obj n).mpr (hsafe a ha)
    have hstep : (s.step (.completes obj n res)).queue
        = (s.queue.complete obj (s.issuedSeq obj n) res).1 := by
      simp [step, stepQueue, WorkQueue.step, hloop]
    rw [hstep]
    exact ⟨hiff, fun hawaits => if_pos ⟨ha, hiff.mpr hawaits⟩,
      fun hnot => if_neg fun hboth => hnot (hiff.mp hboth.2)⟩

/-! ## What every event keeps -/

theorem Numbered.of_issued {s s' : AsyncWork} {a : Nat} (h : s.Numbered a)
    (hitem : s'.queue.item a = s.queue.item a) (hrequest : s'.request a = s.request a)
    (hissued : ∀ obj n, n < (s.issued obj).length →
      n < (s'.issued obj).length ∧ s'.issuedSeq obj n = s.issuedSeq obj n) : s'.Numbered a := by
  rw [Numbered, hitem, hrequest]
  refine h.imp_right fun ⟨n, hn, hlt, hseq⟩ => ?_
  obtain ⟨hlt', hsame⟩ := hissued _ n hlt
  exact ⟨n, hn, hlt', by rw [hsame]; exact hseq⟩

theorem Inv.sends {s : AsyncWork} (hinv : s.Inv) (obj : UInt64) : (s.step (.sends obj)).Inv := by
  refine ⟨hinv.queue, fun a ha => (hinv.numbered a ha).of_issued rfl rfl fun obj' n hn => ?_⟩
  show n < (Function.update s.issued obj _ obj').length ∧
    (Function.update s.issued obj _ obj').getD n 0 = (s.issued obj').getD n 0
  by_cases hobj : obj' = obj
  · subst hobj
    rw [Function.update_self]
    refine ⟨?_, ?_⟩
    · rw [List.length_append]
      omega
    · rw [List.getD_eq_getElem?_getD, List.getD_eq_getElem?_getD, List.getElem?_append_left hn]
  · rw [Function.update_of_ne hobj]
    exact ⟨hn, rfl⟩

/-- An event of the queue that adds nothing. -/
theorem Inv.queueStep {s : AsyncWork} (hinv : s.Inv) {e : WorkEvent} (he : e.isAdd = false) :
    Inv { s with queue := s.queue.step e } := by
  refine ⟨hinv.queue.step e, fun a ha => ?_⟩
  obtain ⟨hmem, hobj, hseq⟩ := WorkQueue.step_keeps he a ha
  rcases hseq with hseq | hseq
  · show ((s.queue.step e).item a).seq = _ ∨ ∃ n, s.request a = some n ∧
      n < (s.issued ((s.queue.step e).item a).obj).length ∧ ((s.queue.step e).item a).seq.toNat
        = (s.issuedSeq ((s.queue.step e).item a).obj n).toNat % 2 ^ 30
    rw [hobj, hseq]
    exact hinv.numbered a hmem
  · exact .inl hseq

theorem Inv.add {s : AsyncWork} (hinv : s.Inv) {obj : UInt64} {res : SpaResult} (func data : UInt64)
    (room : Bool) {request : Option Nat}
    (hres : res.isAsync = false ∨ ∃ n, request = some n ∧ n < (s.issued obj).length ∧
      res = SpaResult.returnAsync (s.issuedSeq obj n)) :
    (s.stepQueue (.add obj res func data room) request).Inv := by
  rw [stepQueue]
  by_cases hskip : s.queue.pass.inLoop || s.queue.noItem room
  · rw [if_pos hskip]
    exact hinv
  rw [if_neg hskip]
  simp only [Bool.or_eq_true, not_or] at hskip
  have hqueue := hinv.queue.step (.add obj res func data room)
  obtain ⟨ha, q, hlist, hitem, -, hadd⟩ :=
    hinv.queue.add_enqueues obj res func data hskip.2
  have hstep : s.queue.step (.add obj res func data room)
      = q.enqueue s.queue.nextItem obj res func data := by
    rw [WorkQueue.step, if_neg hskip.1, hadd]
  rw [hstep] at hqueue ⊢
  refine ⟨hqueue, fun b hb => ?_⟩
  have hb : b ∈ s.queue.workList ++ [s.queue.nextItem] := hlist ▸ hb
  rcases List.mem_append.mp hb with hb | hb
  · have hne : b ≠ s.queue.nextItem := fun h => ha (h ▸ hb)
    refine (hinv.numbered b hb).of_issued ?_ (Function.update_of_ne hne ..) fun _ _ hn => ⟨hn, rfl⟩
    show (q.enqueue s.queue.nextItem obj res func data).item b = _
    rw [WorkQueue.enqueue_item_of_ne hne, hitem]
  · rw [List.mem_singleton.mp hb, Numbered]
    show ((q.enqueue s.queue.nextItem obj res func data).item s.queue.nextItem).seq = _ ∨ ∃ n,
      Function.update s.request s.queue.nextItem request s.queue.nextItem = some n ∧ _
    rw [WorkQueue.enqueue_item_self, Function.update_self]
    rcases hres with hsync | ⟨n, rfl, hn, rfl⟩
    · refine .inl ?_
      show (if res.isAsync then res.asyncSeq else spaIdInvalid) = spaIdInvalid
      rw [hsync]
      rfl
    · refine .inr ⟨n, rfl, hn, ?_⟩
      rw [if_pos (SpaResult.isAsync_returnAsync _)]
      exact SpaResult.asyncSeq_returnAsync _

theorem Inv.step {s : AsyncWork} (hinv : s.Inv) {e : AsyncEvent} (hadmits : s.Admits e) :
    (s.step e).Inv := by
  cases e with
  | sends obj => exact hinv.sends obj
  | defers obj n func data room => exact hinv.add func data room (.inr ⟨n, rfl, hadmits, rfl⟩)
  | completes obj n res => exact hinv.queueStep rfl
  | other e =>
    cases e with
    | add obj res func data room => exact hinv.add func data room (.inl hadmits)
    | complete obj seq res => exact hadmits.elim
    | cancel obj id => exact hinv.queueStep rfl
    | process => exact hinv.queueStep rfl
    | visit => exact hinv.queueStep rfl
    | «return» => exact hinv.queueStep rfl

theorem Inv.right_iff_safe_event {s : AsyncWork} (hinv : s.Inv) {e : AsyncEvent}
    (hadmits : s.Admits e) : s.Right e ↔ s.Safe e := by
  cases e with
  | completes obj n res => exact right_iff_safe_completes hinv hadmits.2
  | sends | defers | other => exact Iff.rfl

/-- Whatever the counters start from: in a run, every completion finds exactly the
items of its request if and only if each is safe in the state it arrives in. -/
theorem run_right_iff (seq : UInt64 → UInt32) {es : List AsyncEvent}
    (hadmits : Run.Along step Admits (start seq) es) :
    Run.Along step Right (start seq) es ↔ Run.Along step Safe (start seq) es :=
  Run.along_iff Inv (fun _ _ h he => h.right_iff_safe_event he) (fun _ _ h he _ => h.step he)
    (inv_start seq) hadmits

/-- Two requests, the second under the last number of 30 bits, with a deferred item
between them; the answers come in the other order. -/
theorem run_right_iff_twoRequests :
    let es : List AsyncEvent := [.sends 8, .defers 8 0 16 0 true, .other (.add 8 0 24 0 true),
      .sends 8, .defers 8 1 32 0 true, .completes 8 1 0, .completes 8 0 0]
    Run.Along step Right (start fun _ => 0x3FFFFFFE) es ↔
      Run.Along step Safe (start fun _ => 0x3FFFFFFE) es :=
  run_right_iff _ (by decide)

/-- The counter has passed 2 ^ 30, and the answer misses its item. -/
theorem not_right_async : ¬ ∀ (seq : UInt64 → UInt32) es, Run.Along step Admits (start seq) es →
    Run.Along step Right (start seq) es := by
  intro h
  have hright := h (fun _ => 0x40000000) [.sends 8, .defers 8 0 16 0 true, .completes 8 0 0]
    (by decide)
  have hfinds := (hright.2.2.1 0 (by decide)).1
  exact absurd (hfinds.mpr ⟨by decide, by decide, by decide⟩) (by decide)

end AsyncWork
end Pinos
