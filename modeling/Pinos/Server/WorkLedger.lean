import Mathlib.Data.List.Basic
import Mathlib.Data.List.Pairwise
import Mathlib.Logic.Function.Basic
import Pinos.Lib.Run
import Pinos.Server.WorkQueue

/-
The work queue seen from outside: a ledger of everything that was added.

An item of the queue is used again and again, so what was added is named by a
ticket, its place in the ledger.  The ledger notes what was cancelled before it
ran, and the calls that were made for each ticket.
-/

namespace Pinos

/-- A call of a function: `func (obj, data, res, id)`. -/
structure WorkCall where
  func : UInt64
  obj : UInt64
  data : UInt64
  id : UInt32
  deriving DecidableEq

def WorkItem.call (item : WorkItem) : WorkCall where
  func := item.func
  obj := item.obj
  data := item.data
  id := item.id

/-- What was added: the call asked for, and what became of it. -/
structure WorkEntry where
  call : WorkCall
  res : SpaResult
  cancelled : Bool
  calls : List WorkCall
  deriving DecidableEq

namespace WorkEntry

def asked (obj : UInt64) (res : SpaResult) (func data : UInt64) (id : UInt32) : WorkEntry where
  call := { func := func, obj := obj, data := data, id := id }
  res := res
  cancelled := false
  calls := []

def cancel (e : WorkEntry) (obj : UInt64) (id : UInt32) : WorkEntry :=
  if e.calls = [] ∧ (id = spaIdInvalid ∨ e.call.id = id) ∧ (obj = 0 ∨ e.call.obj = obj) then
    { e with cancelled := true }
  else e

def take (e : WorkEntry) (item : WorkItem) : WorkEntry :=
  if item.func ≠ 0 then { e with calls := e.calls ++ [item.call] } else e

/-- Called at most once, and not at all after it was cancelled. -/
def Good (e : WorkEntry) : Prop :=
  (e.calls = [] ∨ e.calls = [e.call]) ∧ (e.cancelled → e.calls = [])

end WorkEntry

structure WorkLedger where
  queue : WorkQueue
  ticket : Nat → Nat
  entries : List WorkEntry

theorem mem_tail {l : List Nat} {a : Nat} (ha : a ∈ l) (h : l.head? ≠ some a) : a ∈ l.tail := by
  cases l with
  | nil => cases ha
  | cons b l =>
    have hne : a ≠ b := fun hab => h (congrArg some hab.symm)
    exact List.mem_of_ne_of_mem hne ha

namespace WorkLedger

def new : WorkLedger := { queue := .new, ticket := fun _ => 0, entries := [] }

def record (s : WorkLedger) : WorkEvent → WorkLedger
  | .add obj res func data room =>
    if s.queue.pass.inLoop || s.queue.noItem room then s
    else
      { s with
        ticket := Function.update s.ticket s.queue.nextItem s.entries.length
        entries := s.entries ++ [.asked obj res func data (s.queue.counter + 1)] }
  | .cancel obj id =>
    if s.queue.pass.inLoop then s
    else { s with entries := s.entries.map fun e => e.cancel obj id }
  | .visit =>
    match s.queue.pass with
    | .visits (some a) =>
      if s.queue.Waits a then s
      else { s with entries := s.entries.modify (s.ticket a) fun e => e.take (s.queue.item a) }
    | _ => s
  | _ => s

def step (s : WorkLedger) (e : WorkEvent) : WorkLedger :=
  { s.record e with queue := s.queue.step e }

/-- The bookkeeping of the queue is right. -/
structure Correct (s : WorkLedger) : Prop where
  good : ∀ e ∈ s.entries, e.Good
  disjoint : ∀ a ∈ s.queue.workList, a ∉ s.queue.freeList
  count : s.queue.nQueued = s.queue.workList.length
  ordered : ∀ t e, s.entries[t]? = some e → e.res = SpaResult.waitSync → e.calls ≠ [] →
    ∀ a ∈ s.queue.workList, t < s.ticket a

/-- What was added for the item `a`. -/
def entry (s : WorkLedger) (a : Nat) : Option WorkEntry := s.entries[s.ticket a]?

/-- A completion with the sequence number of items that have none does not change
the result of an item that waits behind others. -/
def Safe (s : WorkLedger) : WorkEvent → Prop
  | .complete obj seq res =>
    seq = spaIdInvalid → res ≠ SpaResult.waitSync → ∀ a ∈ s.queue.workList.tail,
      (s.queue.item a).obj = obj → (s.queue.item a).func ≠ 0 →
        (s.entry a).map (·.res) ≠ some SpaResult.waitSync
  | _ => True

instance (s : WorkLedger) : (e : WorkEvent) → Decidable (s.Safe e)
  | .complete obj seq res => inferInstanceAs (Decidable (seq = spaIdInvalid →
      res ≠ SpaResult.waitSync → ∀ a ∈ s.queue.workList.tail, (s.queue.item a).obj = obj →
        (s.queue.item a).func ≠ 0 → (s.entry a).map (·.res) ≠ some SpaResult.waitSync))
  | .add .. | .cancel .. | .process | .visit | .return => inferInstanceAs (Decidable True)

/-- The item `a` of the work list still is what was added. -/
structure Tracks (s : WorkLedger) (a : Nat) (e : WorkEntry) : Prop where
  entry : s.entry a = some e
  fresh : e.calls = []
  call : (s.queue.item a).call = if e.cancelled then { e.call with func := 0 } else e.call
  sync : e.res = SpaResult.waitSync →
    (s.queue.item a).seq = spaIdInvalid ∧ (s.queue.item a).res = SpaResult.waitSync ∨
      s.queue.workList.head? = some a ∨ (s.queue.item a).func = 0

structure Inv (s : WorkLedger) : Prop where
  queue : s.queue.Inv
  tickets : (s.queue.workList.map s.ticket).Pairwise (· < ·)
  tracks : ∀ a ∈ s.queue.workList, ∃ e, s.Tracks a e
  good : ∀ e ∈ s.entries, e.Good
  ordered : ∀ t e, s.entries[t]? = some e → e.res = SpaResult.waitSync → e.calls ≠ [] →
    ∀ a ∈ s.queue.workList, t < s.ticket a

theorem inv_new : new.Inv where
  queue := WorkQueue.inv_new
  tickets := .nil
  tracks _ h := nomatch h
  good _ h := nomatch h
  ordered _ _ h := nomatch h

theorem Inv.correct {s : WorkLedger} (hinv : s.Inv) : s.Correct where
  good := hinv.good
  disjoint a ha hfree := by
    have hdisj := (List.nodup_append.mp hinv.queue.nodup).2.2
    exact hdisj a ha a (List.mem_append_left _ hfree) rfl
  count := hinv.queue.count
  ordered := hinv.ordered

/-- The call made for an entry is the one that was asked for. -/
theorem Tracks.take_good {s : WorkLedger} {a : Nat} {e : WorkEntry} (h : s.Tracks a e) (he : e.Good) :
    (e.take (s.queue.item a)).Good := by
  rw [WorkEntry.take]
  by_cases hfunc : (s.queue.item a).func ≠ 0
  · rw [if_pos hfunc]
    have hlive : e.cancelled = false := by
      by_contra hcancelled
      have hcall := h.call
      rw [if_pos (by simpa using hcancelled)] at hcall
      exact hfunc (congrArg WorkCall.func hcall)
    have hcall := h.call
    rw [hlive] at hcall
    refine ⟨.inr ?_, fun hcancelled => ?_⟩
    · show e.calls ++ [(s.queue.item a).call] = [e.call]
      rw [h.fresh, hcall]
      rfl
    · rw [hlive] at hcancelled
      cases hcancelled
  · rw [if_neg hfunc]
    exact he

/-- An item that is called and was added to wait is the first of the list. -/
theorem Tracks.head_of_called {s : WorkLedger} {a : Nat} {e : WorkEntry} (h : s.Tracks a e)
    (hruns : ¬ s.queue.Waits a) (hwaits : (e.take (s.queue.item a)).res = SpaResult.waitSync)
    (hcalled : (e.take (s.queue.item a)).calls ≠ []) : s.queue.workList.head? = some a := by
  rw [WorkEntry.take] at hwaits hcalled
  by_cases hfunc : (s.queue.item a).func ≠ 0
  · rw [if_pos hfunc] at hwaits
    rcases h.sync hwaits with ⟨-, hres⟩ | hhead | hnull
    · by_contra hhead
      exact hruns (.inr ⟨hres, hhead⟩)
    · exact hhead
    · exact absurd hnull hfunc
  · rw [if_neg hfunc] at hcalled
    exact absurd h.fresh hcalled

namespace Inv

variable {s s' : WorkLedger} (hinv : s.Inv)
include hinv

theorem ticket_lt {a : Nat} (ha : a ∈ s.queue.workList) : s.ticket a < s.entries.length := by
  obtain ⟨e, htracks⟩ := hinv.tracks a ha
  exact (List.getElem?_eq_some_iff.mp htracks.entry).1

theorem ticket_inj {a b : Nat} (ha : a ∈ s.queue.workList) (hb : b ∈ s.queue.workList)
    (h : s.ticket a = s.ticket b) : a = b := by
  have hnodup : (s.queue.workList.map s.ticket).Nodup :=
    hinv.tickets.imp fun hlt => Nat.ne_of_lt hlt
  exact List.inj_on_of_nodup_map hnodup ha hb h

/-- An event that leaves the work list and the tickets, and each entry with its calls. -/
theorem changed (hqueue : s'.queue.Inv) (hlist : s'.queue.workList = s.queue.workList)
    (hticket : s'.ticket = s.ticket) {f : WorkEntry → WorkEntry}
    (hentries : s'.entries = s.entries.map f)
    (hf : ∀ e : WorkEntry, e.Good → (f e).Good ∧ (f e).res = e.res ∧ (f e).calls = e.calls)
    (htracks : ∀ a ∈ s.queue.workList, ∀ e, s.Tracks a e → s'.Tracks a (f e)) : s'.Inv := by
  refine ⟨hqueue, ?_, ?_, ?_, ?_⟩
  · rw [hlist, hticket]
    exact hinv.tickets
  · intro a ha
    rw [hlist] at ha
    obtain ⟨e, h⟩ := hinv.tracks a ha
    exact ⟨f e, htracks a ha e h⟩
  · intro e he
    rw [hentries] at he
    obtain ⟨e₀, he₀, rfl⟩ := List.mem_map.mp he
    exact (hf e₀ (hinv.good e₀ he₀)).1
  · intro t e he hsync hcalled
    rw [hentries, List.getElem?_map] at he
    obtain ⟨e₀, he₀, rfl⟩ := Option.map_eq_some_iff.mp he
    obtain ⟨-, hres, hcalls⟩ := hf e₀ (hinv.good e₀ (List.mem_of_getElem? he₀))
    rw [hres] at hsync
    rw [hcalls] at hcalled
    rw [hlist, hticket]
    exact hinv.ordered t e₀ he₀ hsync hcalled

/-- An event that touches only the free list, the position and the wakeup. -/
theorem same (hqueue : s'.queue.Inv) (hlist : s'.queue.workList = s.queue.workList)
    (hitem : s'.queue.item = s.queue.item) (hticket : s'.ticket = s.ticket)
    (hentries : s'.entries = s.entries) : s'.Inv := by
  refine hinv.changed (f := id) hqueue hlist hticket (by rw [hentries, List.map_id])
    (fun e he => ⟨he, rfl, rfl⟩) fun a _ e h => ?_
  refine ⟨?_, h.fresh, ?_, ?_⟩
  · rw [entry, hentries, hticket]
    exact h.entry
  · rw [hitem]
    exact h.call
  · rw [hitem, hlist]
    exact h.sync

/-- An item `a` that is not queued is taken for the new entry `e`. -/
theorem added (hqueue : s'.queue.Inv) {a : Nat} {e : WorkEntry} (ha : a ∉ s.queue.workList)
    (hlist : s'.queue.workList = s.queue.workList ++ [a])
    (hitem : ∀ b ≠ a, s'.queue.item b = s.queue.item b)
    (hticket : s'.ticket = Function.update s.ticket a s.entries.length)
    (hentries : s'.entries = s.entries ++ [e]) (hfresh : e.calls = [])
    (hcancelled : e.cancelled = false) (hcall : (s'.queue.item a).call = e.call)
    (hsync : e.res = SpaResult.waitSync →
      (s'.queue.item a).seq = spaIdInvalid ∧ (s'.queue.item a).res = SpaResult.waitSync) :
    s'.Inv := by
  have hnew : s'.ticket a = s.entries.length := by
    rw [hticket, Function.update_self]
  have hne : ∀ {b}, b ∈ s.queue.workList → b ≠ a := fun hb hba => ha (hba ▸ hb)
  have hold : ∀ {b}, b ∈ s.queue.workList → s'.ticket b = s.ticket b := by
    intro b hb
    rw [hticket, Function.update_of_ne (hne hb)]
  refine ⟨hqueue, ?_, ?_, ?_, ?_⟩
  · have hmap : s.queue.workList.map s'.ticket = s.queue.workList.map s.ticket :=
      List.map_congr_left fun b hb => hold hb
    rw [hlist, List.map_append, hmap, List.pairwise_append]
    refine ⟨hinv.tickets, List.pairwise_singleton _ _, fun t ht u hu => ?_⟩
    obtain ⟨b, hb, rfl⟩ := List.mem_map.mp ht
    have hu : u = s.entries.length := by
      rw [← hnew]
      exact List.mem_singleton.mp hu
    rw [hu]
    exact hinv.ticket_lt hb
  · intro b hb
    rw [hlist] at hb
    rcases List.mem_append.mp hb with hb | hb
    · obtain ⟨e₀, h⟩ := hinv.tracks b hb
      refine ⟨e₀, ?_, h.fresh, ?_, fun hwaits => ?_⟩
      · rw [entry, hold hb, hentries, List.getElem?_append_left (hinv.ticket_lt hb)]
        exact h.entry
      · rw [hitem b (hne hb)]
        exact h.call
      · rw [hitem b (hne hb), hlist, List.head?_append_of_ne_nil _ (List.ne_nil_of_mem hb)]
        exact h.sync hwaits
    · rw [List.mem_singleton.mp hb]
      refine ⟨e, ?_, hfresh, ?_, fun hwaits => .inl (hsync hwaits)⟩
      · rw [entry, hnew, hentries, List.getElem?_concat_length]
      · rw [hcall, hcancelled]
        rfl
  · intro e₀ he
    rw [hentries] at he
    rcases List.mem_append.mp he with he | he
    · exact hinv.good e₀ he
    · rw [List.mem_singleton.mp he]
      exact ⟨.inl hfresh, fun _ => hfresh⟩
  · intro t e₀ he hwaits hcalled b hb
    have ht : t < s.entries.length := by
      by_contra hge
      rw [hentries, List.getElem?_append_right (Nat.le_of_not_lt hge)] at he
      have hmem := List.mem_singleton.mp (List.mem_of_getElem? he)
      rw [hmem] at hcalled
      exact hcalled hfresh
    rw [hentries, List.getElem?_append_left ht] at he
    rw [hlist] at hb
    rcases List.mem_append.mp hb with hb | hb
    · rw [hold hb]
      exact hinv.ordered t e₀ he hwaits hcalled b hb
    · rw [List.mem_singleton.mp hb, hnew]
      exact ht

/-- The item at the position of the pass leaves the list. -/
theorem removed (hqueue : s'.queue.Inv) {a : Nat} {pre rest : List Nat}
    (hsplit : s.queue.workList = pre ++ a :: rest) (hlist : s'.queue.workList = pre ++ rest)
    (hitem : s'.queue.item = s.queue.item) (hticket : s'.ticket = s.ticket)
    (hentries : s'.entries = s.entries.modify (s.ticket a) fun e => e.take (s.queue.item a))
    (hruns : ¬ s.queue.Waits a) : s'.Inv := by
  have ha : a ∈ s.queue.workList := by
    rw [hsplit]
    exact List.mem_append_right _ (List.mem_cons_self ..)
  obtain ⟨e₀, htracks⟩ := hinv.tracks a ha
  have hsub : (pre ++ rest).Sublist s.queue.workList := by
    rw [hsplit]
    exact (List.sublist_cons_self a rest).append_left pre
  have hother : ∀ {b}, b ∈ pre ++ rest → s.ticket a ≠ s.ticket b := by
    intro b hb h
    have hnodup := (List.nodup_append.mp hinv.queue.nodup).1
    rw [hsplit, List.nodup_middle, List.nodup_cons] at hnodup
    rw [hinv.ticket_inj ha (hsub.subset hb) h] at hnodup
    exact hnodup.1 hb
  have hget : ∀ t e, s'.entries[t]? = some e →
      s.ticket a ≠ t ∧ s.entries[t]? = some e ∨
        s.ticket a = t ∧ e = e₀.take (s.queue.item a) := by
    intro t e he
    rw [hentries, List.getElem?_modify] at he
    by_cases ht : s.ticket a = t
    · have hentry : s.entries[t]? = some e₀ := ht ▸ htracks.entry
      rw [hentry] at he
      refine .inr ⟨ht, ?_⟩
      simpa [ht, eq_comm] using he
    · refine .inl ⟨ht, ?_⟩
      simpa [ht] using he
  refine ⟨hqueue, ?_, ?_, ?_, ?_⟩
  · rw [hlist, hticket]
    exact hinv.tickets.sublist (hsub.map s.ticket)
  · intro b hb
    rw [hlist] at hb
    obtain ⟨e, h⟩ := hinv.tracks b (hsub.subset hb)
    refine ⟨e, ?_, h.fresh, ?_, fun hwaits => ?_⟩
    · rw [entry, hentries, hticket, List.getElem?_modify_ne _ _ (hother hb)]
      exact h.entry
    · rw [hitem]
      exact h.call
    · rw [hitem, hlist]
      refine (h.sync hwaits).imp_right (Or.imp_left fun hhead => ?_)
      cases pre with
      | nil =>
        rw [hsplit] at hhead
        exact absurd (congrArg s.ticket (Option.some.inj hhead)) (hother hb)
      | cons c pre =>
        rw [hsplit] at hhead
        exact hhead
  · intro e he
    obtain ⟨t, ht⟩ := List.getElem?_of_mem he
    rcases hget t e ht with ⟨-, hold⟩ | ⟨-, rfl⟩
    · exact hinv.good e (List.mem_of_getElem? hold)
    · exact htracks.take_good (hinv.good e₀ (List.mem_of_getElem? htracks.entry))
  · intro t e he hwaits hcalled b hb
    rw [hlist] at hb
    rw [hticket]
    rcases hget t e he with ⟨-, hold⟩ | ⟨rfl, rfl⟩
    · exact hinv.ordered t e hold hwaits hcalled b (hsub.subset hb)
    · have hhead := htracks.head_of_called hruns hwaits hcalled
      cases pre with
      | nil =>
        have htickets := hinv.tickets
        rw [hsplit, List.nil_append, List.map_cons, List.pairwise_cons] at htickets
        exact htickets.1 _ (List.mem_map_of_mem hb)
      | cons c pre =>
        rw [hsplit] at hhead
        exact absurd (congrArg s.ticket (Option.some.inj hhead).symm)
          (hother (List.mem_append_left _ (List.mem_cons_self ..)))

end Inv

/-! ## Each event -/

variable {s : WorkLedger}

theorem Inv.queue_step (hinv : s.Inv) (e : WorkEvent) : (s.step e).queue.Inv :=
  hinv.queue.step e

/-- The queue `q` is that of `s` but for the place the item `a` came from. -/
theorem Inv.enqueued (hinv : s.Inv) {q : WorkQueue} {a : Nat} {obj : UInt64} {res : SpaResult}
    {func data : UInt64} (hqueue : (q.enqueue a obj res func data).Inv)
    (ha : a ∉ s.queue.workList) (hlist : q.workList = s.queue.workList)
    (hitem : q.item = s.queue.item) (hcounter : q.counter = s.queue.counter) :
    Inv { queue := q.enqueue a obj res func data
          ticket := Function.update s.ticket a s.entries.length
          entries := s.entries ++ [.asked obj res func data (s.queue.counter + 1)] } := by
  refine hinv.added hqueue ha ?_ (fun b hb => ?_) rfl rfl rfl rfl ?_ (fun hres => ?_)
  · rw [← hlist]
    rfl
  · show (q.enqueue a obj res func data).item b = s.queue.item b
    rw [WorkQueue.enqueue_item_of_ne hb, hitem]
  · show ((q.enqueue a obj res func data).item a).call = _
    rw [WorkQueue.enqueue_item_self, hcounter]
    rfl
  · have hres : res = SpaResult.waitSync := hres
    show ((q.enqueue a obj res func data).item a).seq = _ ∧ _
    rw [WorkQueue.enqueue_item_self, hres]
    exact ⟨rfl, rfl⟩

theorem Inv.add (hinv : s.Inv) (obj : UInt64) (res : SpaResult) (func data : UInt64)
    (room : Bool) : (s.step (.add obj res func data room)).Inv := by
  have hqueue : (s.step (.add obj res func data room)).queue.Inv := hinv.queue_step _
  by_cases hloop : s.queue.pass.inLoop
  · have hstep : s.step (.add obj res func data room) = s := by
      simp only [step, record.eq_def, WorkQueue.step, hloop, Bool.true_or, if_true]
    rw [hstep]
    exact hinv
  by_cases hnone : s.queue.noItem room
  · have hstep : s.step (.add obj res func data room) = s := by
      simp only [step, record.eq_def, WorkQueue.step, hloop, hnone, WorkQueue.add_noItem hnone, Bool.or_true,
        if_true, ite_self]
    rw [hstep]
    exact hinv
  obtain ⟨ha, q, hlist, hitem, hcounter, hadd⟩ :=
    hinv.queue.add_enqueues obj res func data hnone
  have hstep : s.step (.add obj res func data room) =
      { queue := q.enqueue s.queue.nextItem obj res func data
        ticket := Function.update s.ticket s.queue.nextItem s.entries.length
        entries := s.entries ++ [.asked obj res func data (s.queue.counter + 1)] } := by
    simp only [step, record.eq_def, WorkQueue.step, hloop, hnone, hadd, Bool.or_self, Bool.false_eq_true,
      if_false]
  rw [hstep] at hqueue ⊢
  exact hinv.enqueued hqueue ha hlist hitem hcounter

/-- What was cancelled before it ran is exactly what `cancel` finds in the list. -/
theorem cancel_iff {a : Nat} {e : WorkEntry} (h : s.Tracks a e) (obj : UInt64) (id : UInt32) :
    WorkQueue.cancelMatches obj id (s.queue.item a) = true ↔
      e.calls = [] ∧ (id = spaIdInvalid ∨ e.call.id = id) ∧ (obj = 0 ∨ e.call.obj = obj) := by
  have hid : (s.queue.item a).id = e.call.id ∧ (s.queue.item a).obj = e.call.obj := by
    have hcall := h.call
    split at hcall
    · exact ⟨congrArg WorkCall.id hcall, congrArg WorkCall.obj hcall⟩
    · exact ⟨congrArg WorkCall.id hcall, congrArg WorkCall.obj hcall⟩
  rw [WorkQueue.cancelMatches, hid.1, hid.2]
  simp [h.fresh]

theorem Inv.cancel (hinv : s.Inv) (obj : UInt64) (id : UInt32) :
    (s.step (.cancel obj id)).Inv := by
  have hqueue : (s.step (.cancel obj id)).queue.Inv := hinv.queue_step _
  by_cases hloop : s.queue.pass.inLoop
  · have hstep : s.step (.cancel obj id) = s := by
      simp only [step, record.eq_def, WorkQueue.step, hloop, if_true]
    rw [hstep]
    exact hinv
  have hstep : s.step (.cancel obj id) =
      { queue := s.queue.cancel obj id, ticket := s.ticket
        entries := s.entries.map fun e => e.cancel obj id } := by
    simp only [step, record.eq_def, WorkQueue.step, hloop, Bool.false_eq_true, if_false]
  rw [hstep] at hqueue ⊢
  refine hinv.changed hqueue rfl rfl rfl (fun e he => ?_) (fun a ha e h => ?_)
  · rw [WorkEntry.cancel]
    split
    next hmatch => exact ⟨⟨he.1, fun _ => hmatch.1⟩, rfl, rfl⟩
    next => exact ⟨he, rfl, rfl⟩
  · have hentry : (s.entries.map fun e => e.cancel obj id)[s.ticket a]? = some (e.cancel obj id) := by
      rw [List.getElem?_map]
      exact congrArg _ h.entry
    by_cases hmatch : WorkQueue.cancelMatches obj id (s.queue.item a) = true
    · have hitem : (s.queue.cancel obj id).item a
          = { s.queue.item a with seq := spaIdInvalid, func := 0 } := if_pos ⟨ha, hmatch⟩
      have hcancel : e.cancel obj id = { e with cancelled := true } :=
        if_pos ((cancel_iff h obj id).mp hmatch)
      rw [hcancel] at hentry ⊢
      refine ⟨hentry, h.fresh, ?_, fun _ => .inr (.inr ?_)⟩
      · show ((s.queue.cancel obj id).item a).call = { e.call with func := 0 }
        rw [hitem]
        have hcall := h.call
        split at hcall
        · exact congrArg (fun call : WorkCall => { call with func := 0 }) hcall
        · exact congrArg (fun call : WorkCall => { call with func := 0 }) hcall
      · show ((s.queue.cancel obj id).item a).func = 0
        rw [hitem]
    · have hitem : (s.queue.cancel obj id).item a = s.queue.item a :=
        if_neg fun hboth => hmatch hboth.2
      have hcancel : e.cancel obj id = e := if_neg (mt (cancel_iff h obj id).mpr hmatch)
      rw [hcancel] at hentry ⊢
      refine ⟨hentry, h.fresh, ?_, ?_⟩
      · show ((s.queue.cancel obj id).item a).call = _
        rw [hitem]
        exact h.call
      · show _ → ((s.queue.cancel obj id).item a).seq = _ ∧ _ ∨ _
        rw [hitem]
        exact h.sync

theorem Inv.complete (hinv : s.Inv) {obj : UInt64} {seq : UInt32} {res : SpaResult}
    (hsafe : s.Safe (.complete obj seq res)) : (s.step (.complete obj seq res)).Inv := by
  have hqueue : (s.step (.complete obj seq res)).queue.Inv := hinv.queue_step _
  by_cases hloop : s.queue.pass.inLoop
  · have hstep : s.step (.complete obj seq res) = s := by
      simp only [step, record.eq_def, WorkQueue.step, hloop, if_true]
    rw [hstep]
    exact hinv
  have hstep : s.step (.complete obj seq res) =
      { s with queue := (s.queue.complete obj seq res).1 } := by
    simp only [step, record.eq_def, WorkQueue.step, hloop, Bool.false_eq_true, if_false]
  rw [hstep] at hqueue ⊢
  refine hinv.changed (f := id) hqueue rfl rfl (List.map_id _).symm (fun e he => ⟨he, rfl, rfl⟩)
    (fun a ha e h => ?_)
  by_cases hmatch : WorkQueue.completeMatches obj seq (s.queue.item a) = true
  · have hitem : (s.queue.complete obj seq res).1.item a
        = { s.queue.item a with seq := spaIdInvalid, res := res } := if_pos ⟨ha, hmatch⟩
    refine ⟨h.entry, h.fresh, ?_, fun hwaits => ?_⟩
    · show ((s.queue.complete obj seq res).1.item a).call = _
      rw [hitem]
      exact h.call
    · show ((s.queue.complete obj seq res).1.item a).seq = _ ∧ _ ∨ _
      rw [hitem]
      rcases h.sync hwaits with ⟨hseq, -⟩ | hkept
      · rw [WorkQueue.completeMatches, Bool.and_eq_true, beq_iff_eq, beq_iff_eq] at hmatch
        by_contra hlost
        rw [not_or, not_or] at hlost
        have htail : a ∈ s.queue.workList.tail := mem_tail ha hlost.2.1
        have hentry : (s.entry a).map (·.res) = some SpaResult.waitSync := by
          rw [h.entry]
          exact congrArg some hwaits
        exact hsafe (hmatch.2.symm.trans hseq) (fun hres => hlost.1 ⟨rfl, hres⟩) a htail hmatch.1
          hlost.2.2 hentry
      · exact .inr hkept
  · have hitem : (s.queue.complete obj seq res).1.item a = s.queue.item a :=
      if_neg fun hboth => hmatch hboth.2
    refine ⟨h.entry, h.fresh, ?_, ?_⟩
    · show ((s.queue.complete obj seq res).1.item a).call = _
      rw [hitem]
      exact h.call
    · show _ → ((s.queue.complete obj seq res).1.item a).seq = _ ∧ _ ∨ _
      rw [hitem]
      exact h.sync

theorem Inv.visit (hinv : s.Inv) : (s.step .visit).Inv := by
  have hqueue : (s.step .visit).queue.Inv := hinv.queue_step _
  cases hpass : s.queue.pass with
  | visits pos =>
    cases pos with
    | some a =>
      by_cases hwaits : s.queue.Waits a
      · have hstep : s.step .visit
            = { s with queue := { s.queue with pass := .visits (listNext s.queue.workList a) } } := by
          simp only [step, record.eq_def, WorkQueue.step, hpass, WorkQueue.visit, hwaits, if_true]
        rw [hstep] at hqueue ⊢
        exact hinv.same hqueue rfl rfl rfl rfl
      · obtain ⟨pre, rest, hsplit, ha, -⟩ := hinv.queue.split hpass
        have herase : s.queue.workList.erase a = pre ++ rest := by
          rw [hsplit, List.erase_append_right _ ha, List.erase_cons_head]
        have hstep : s.step .visit =
            { queue := s.queue.visit a, ticket := s.ticket
              entries := s.entries.modify (s.ticket a) fun e => e.take (s.queue.item a) } := by
          simp only [step, record.eq_def, WorkQueue.step, hpass, hwaits, if_false]
        obtain ⟨hlist, hitem⟩ := WorkQueue.visit_of_not_waits hwaits
        rw [hstep] at hqueue ⊢
        exact hinv.removed hqueue hsplit (hlist.trans herase) hitem rfl rfl hwaits
    | none =>
      have hstep : s.step .visit = { s with queue := { s.queue with pass := .idle } } := by
        simp only [step, record.eq_def, WorkQueue.step, hpass]
      rw [hstep] at hqueue ⊢
      exact hinv.same hqueue rfl rfl rfl rfl
  | idle | calls =>
    have hstep : s.step .visit = s := by
      simp only [step, record.eq_def, WorkQueue.step, hpass]
    rw [hstep]
    exact hinv

theorem Inv.step (hinv : s.Inv) {e : WorkEvent} (hsafe : s.Safe e) : (s.step e).Inv := by
  have hqueue : (s.step e).queue.Inv := hinv.queue_step e
  cases e with
  | add obj res func data room => exact hinv.add obj res func data room
  | cancel obj id => exact hinv.cancel obj id
  | complete obj seq res => exact hinv.complete hsafe
  | process =>
    have hlist : (s.step .process).queue.workList = s.queue.workList ∧
        (s.step .process).queue.item = s.queue.item := by
      show WorkQueue.workList (if _ then _ else _) = _ ∧ WorkQueue.item (if _ then _ else _) = _
      split
      · exact ⟨rfl, rfl⟩
      · exact ⟨rfl, rfl⟩
    exact hinv.same hqueue hlist.1 hlist.2 rfl rfl
  | visit => exact hinv.visit
  | «return» =>
    have hlist : (s.step .return).queue.workList = s.queue.workList ∧
        (s.step .return).queue.item = s.queue.item := by
      show WorkQueue.workList (WorkQueue.step _ _) = _ ∧ WorkQueue.item (WorkQueue.step _ _) = _
      rw [WorkQueue.step]
      split
      · exact ⟨rfl, rfl⟩
      · exact ⟨rfl, rfl⟩
    exact hinv.same hqueue hlist.1 hlist.2 rfl rfl

/-- In a run whose completions are safe, the bookkeeping is right in every state. -/
theorem run_correct {es : List WorkEvent} (hsafe : Run.Along step Safe new es) :
    (Run.run step new es).Correct :=
  (Run.run_invariant Inv (fun _ _ h hok => h.step hok) inv_new hsafe).correct

/-- An item cancelled by the function of the one before it, and one that waits
for an asynchronous item. -/
theorem run_correct_reentrant :
    let es : List WorkEvent := [.add 8 0 16 0 true, .add 8 0 24 0 true,
      .add 8 (SpaResult.returnAsync 3) 32 0 true, .add 8 SpaResult.waitSync 40 0 true, .process,
      .visit, .cancel 8 2, .add 8 0 48 0 true, .complete 8 3 0, .return, .visit, .visit, .return,
      .visit, .return]
    (Run.run step new es).Correct :=
  run_correct (by decide)

/-- The item that waits is completed by way of `SPA_ID_INVALID` and runs while the
one before it is still queued. -/
theorem not_correct : ¬ ∀ es, (Run.run step new es).Correct := by
  intro h
  have hcorrect := h [.add 8 (SpaResult.returnAsync 3) 16 0 true,
    .add 8 SpaResult.waitSync 24 0 true, .complete 8 spaIdInvalid 0, .process, .visit, .visit]
  exact absurd (hcorrect.ordered 1 _ rfl rfl (by decide) 0 (by decide)) (by decide)

end WorkLedger
end Pinos
