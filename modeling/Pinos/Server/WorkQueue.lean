import Mathlib.Data.List.Basic
import Mathlib.Data.List.Nodup
import Mathlib.Logic.Function.Basic
import Pinos.Lib.Run
import Pinos.Spa.Defs

/-
`server/work-queue.c`: deferred work of nodes and links.

Items are allocated once and move between the work list and the free list.  A
pass over the work list hands items to their functions, and these may call the
queue again, so a run is a list of events: the calls, the start of a pass, one
turn of its loop, and the return of a function.
-/

namespace Pinos

/-- The contents of an item; pointers are numbers, `NULL` is 0. -/
structure WorkItem where
  id : UInt32
  obj : UInt64
  seq : UInt32
  res : SpaResult
  func : UInt64
  data : UInt64
  deriving DecidableEq

/-- Where `process_work_queue` stands: not running, about to look at a position
of the work list (none is its end), or inside the function of an item with the
next position in `tmp`. -/
inductive Pass where
  | idle
  | visits (pos : Option Nat)
  | calls (item : Nat) (tmp : Option Nat)
  deriving DecidableEq

namespace Pass

/-- The next position of the loop. -/
def cursor : Pass → Option Nat
  | idle => none
  | visits pos => pos
  | calls _ tmp => tmp

/-- The loop itself is at work, and nobody calls the queue. -/
def inLoop : Pass → Bool
  | visits _ => true
  | _ => false

def running : Pass → List Nat
  | calls item _ => [item]
  | _ => []

end Pass

/-- The queue; items are named by their addresses, and `allocated` of them exist. -/
structure WorkQueue where
  item : Nat → WorkItem
  workList : List Nat
  freeList : List Nat
  allocated : Nat
  counter : UInt32
  nQueued : Int
  wakeup : Bool
  pass : Pass

inductive WorkEvent where
  | add (obj : UInt64) (res : SpaResult) (func data : UInt64) (room : Bool)
  | cancel (obj : UInt64) (id : UInt32)
  | complete (obj : UInt64) (seq : UInt32) (res : SpaResult)
  | process
  | visit
  | return
  deriving DecidableEq

def WorkEvent.isAdd : WorkEvent → Bool
  | add .. => true
  | _ => false

/-- The element behind `a` in a list. -/
def listNext (l : List Nat) (a : Nat) : Option Nat := (l.dropWhile (· != a)).tail.head?

theorem listNext_append {pre rest : List Nat} {a : Nat} (h : a ∉ pre) :
    listNext (pre ++ a :: rest) a = rest.head? := by
  have hdrop : (pre ++ a :: rest).dropWhile (· != a) = a :: rest := by
    rw [List.dropWhile_append_of_pos]
    · rw [List.dropWhile_cons_of_neg (by simp)]
    · intro b hb
      exact bne_iff_ne.mpr fun hba => h (hba ▸ hb)
  rw [listNext, hdrop, List.tail_cons]

namespace WorkQueue

def new : WorkQueue where
  item _ := { id := 0, obj := 0, seq := 0, res := 0, func := 0, data := 0 }
  workList := []
  freeList := []
  allocated := 0
  counter := 0
  nQueued := 0
  wakeup := false
  pass := .idle

/-- Fill in the item `a` and put it at the end of the work list. -/
def enqueue (q : WorkQueue) (a : Nat) (obj : UInt64) (res : SpaResult) (func data : UInt64) :
    WorkQueue :=
  { q with
    counter := q.counter + 1
    item := Function.update q.item a
      { id := q.counter + 1, obj := obj, res := res, func := func, data := data
        seq := if res.isAsync then res.asyncSeq else spaIdInvalid }
    workList := q.workList ++ [a]
    nQueued := q.nQueued + 1
    wakeup := q.wakeup || !res.isAsync }

/-- `room` is whether `malloc` finds memory. -/
def add (q : WorkQueue) (obj : UInt64) (res : SpaResult) (func data : UInt64) (room : Bool) :
    WorkQueue × UInt32 :=
  match q.freeList with
  | a :: rest => ({ q with freeList := rest }.enqueue a obj res func data, q.counter + 1)
  | [] =>
    if room then
      ({ q with allocated := q.allocated + 1 }.enqueue q.allocated obj res func data, q.counter + 1)
    else (q, spaIdInvalid)

/-- The item that `add` takes. -/
def nextItem (q : WorkQueue) : Nat := q.freeList.head?.getD q.allocated

/-- `add` finds no item. -/
def noItem (q : WorkQueue) (room : Bool) : Bool := q.freeList.isEmpty && !room

/-- What `cancel` makes of an item. -/
def cancelItem (item : WorkItem) : WorkItem := { item with seq := spaIdInvalid, func := 0 }

/-- What `complete` makes of an item. -/
def completeItem (res : SpaResult) (item : WorkItem) : WorkItem :=
  { item with seq := spaIdInvalid, res := res }

/-- The loop of `cancel` and `complete`: change the items of the work list that
match, and wake up if there are any. -/
def touch (q : WorkQueue) (matching : WorkItem → Bool) (change : WorkItem → WorkItem) : WorkQueue :=
  { q with
    item := fun a => if a ∈ q.workList ∧ matching (q.item a) then change (q.item a) else q.item a
    wakeup := q.wakeup || q.workList.any fun a => matching (q.item a) }

def cancelMatches (obj : UInt64) (id : UInt32) (item : WorkItem) : Bool :=
  (id == spaIdInvalid || item.id == id) && (obj == 0 || item.obj == obj)

def cancel (q : WorkQueue) (obj : UInt64) (id : UInt32) : WorkQueue :=
  q.touch (cancelMatches obj id) cancelItem

def completeMatches (obj : UInt64) (seq : UInt32) (item : WorkItem) : Bool :=
  item.obj == obj && item.seq == seq

def complete (q : WorkQueue) (obj : UInt64) (seq : UInt32) (res : SpaResult) : WorkQueue × Bool :=
  (q.touch (completeMatches obj seq) (completeItem res),
    q.workList.any fun a => completeMatches obj seq (q.item a))

/-- The event is read before `process_work_queue` is called. -/
def process (q : WorkQueue) : WorkQueue :=
  { q with wakeup := false, pass := .visits q.workList.head? }

/-- The item waits for a completion, or to be the first of the list. -/
def Waits (q : WorkQueue) (a : Nat) : Prop :=
  (q.item a).seq ≠ spaIdInvalid ∨
    (q.item a).res = SpaResult.waitSync ∧ q.workList.head? ≠ some a

instance (q : WorkQueue) (a : Nat) : Decidable (q.Waits a) :=
  inferInstanceAs (Decidable (_ ∨ _))

/-- One turn of the loop at the item `a`, up to the call of its function. -/
def visit (q : WorkQueue) (a : Nat) : WorkQueue :=
  let tmp := listNext q.workList a
  if q.Waits a then { q with pass := .visits tmp }
  else
    let q := { q with workList := q.workList.erase a, nQueued := q.nQueued - 1 }
    if (q.item a).func ≠ 0 then { q with pass := .calls a tmp }
    else { q with freeList := q.freeList ++ [a], pass := .visits tmp }

/-- The function of the item `a` returns. -/
def returned (q : WorkQueue) (a : Nat) (tmp : Option Nat) : WorkQueue :=
  { q with freeList := q.freeList ++ [a], pass := .visits tmp }

/-- An event that cannot happen leaves the queue as it is: the loop itself makes
no calls, and a pass starts from a wakeup when none is running. -/
def step (q : WorkQueue) : WorkEvent → WorkQueue
  | .add obj res func data room =>
    if q.pass.inLoop then q else (q.add obj res func data room).1
  | .cancel obj id => if q.pass.inLoop then q else q.cancel obj id
  | .complete obj seq res => if q.pass.inLoop then q else (q.complete obj seq res).1
  | .process => if q.pass = .idle ∧ q.wakeup then q.process else q
  | .visit =>
    match q.pass with
    | .visits (some a) => q.visit a
    | .visits none => { q with pass := .idle }
    | _ => q
  | .return =>
    match q.pass with
    | .calls a tmp => q.returned a tmp
    | _ => q

theorem visit_of_not_waits {q : WorkQueue} {a : Nat} (h : ¬ q.Waits a) :
    (q.visit a).workList = q.workList.erase a ∧ (q.visit a).item = q.item := by
  simp only [visit, if_neg h]
  split
  · exact ⟨rfl, rfl⟩
  · exact ⟨rfl, rfl⟩

theorem touch_keeps (q : WorkQueue) (matching : WorkItem → Bool) (change : WorkItem → WorkItem)
    (hchange : ∀ item, (change item).obj = item.obj ∧ (change item).seq = spaIdInvalid) (a : Nat) :
    ((q.touch matching change).item a).obj = (q.item a).obj ∧
      (((q.touch matching change).item a).seq = (q.item a).seq ∨
        ((q.touch matching change).item a).seq = spaIdInvalid) := by
  by_cases hmatch : a ∈ q.workList ∧ matching (q.item a)
  · have hitem : (q.touch matching change).item a = change (q.item a) := if_pos hmatch
    rw [hitem]
    exact ⟨(hchange _).1, .inr (hchange _).2⟩
  · have hitem : (q.touch matching change).item a = q.item a := if_neg hmatch
    rw [hitem]
    exact ⟨rfl, .inl rfl⟩

/-- Without `add`, the list does not grow, an item keeps its object, and its `seq`
is kept or dropped. -/
theorem step_keeps {q : WorkQueue} {e : WorkEvent} (he : e.isAdd = false) (a : Nat)
    (ha : a ∈ (q.step e).workList) :
    a ∈ q.workList ∧ ((q.step e).item a).obj = (q.item a).obj ∧
      (((q.step e).item a).seq = (q.item a).seq ∨ ((q.step e).item a).seq = spaIdInvalid) := by
  revert ha
  cases e with
  | add => cases he
  | cancel obj id =>
    rw [step]
    split
    · exact fun ha => ⟨ha, rfl, .inl rfl⟩
    · exact fun ha => ⟨ha, q.touch_keeps (cancelMatches obj id) cancelItem (fun _ => ⟨rfl, rfl⟩) a⟩
  | complete obj seq res =>
    rw [step]
    split
    · exact fun ha => ⟨ha, rfl, .inl rfl⟩
    · exact fun ha =>
        ⟨ha, q.touch_keeps (completeMatches obj seq) (completeItem res) (fun _ => ⟨rfl, rfl⟩) a⟩
  | process =>
    rw [step]
    split
    · exact fun ha => ⟨ha, rfl, .inl rfl⟩
    · exact fun ha => ⟨ha, rfl, .inl rfl⟩
  | visit =>
    rw [step]
    split
    next b _ =>
      by_cases hwaits : q.Waits b
      · rw [visit, if_pos hwaits]
        exact fun ha => ⟨ha, rfl, .inl rfl⟩
      · obtain ⟨hlist, hitem⟩ := visit_of_not_waits hwaits
        rw [hlist, hitem]
        exact fun ha => ⟨List.mem_of_mem_erase ha, rfl, .inl rfl⟩
    next => exact fun ha => ⟨ha, rfl, .inl rfl⟩
    next => exact fun ha => ⟨ha, rfl, .inl rfl⟩
  | «return» =>
    rw [step]
    split
    · exact fun ha => ⟨ha, rfl, .inl rfl⟩
    · exact fun ha => ⟨ha, rfl, .inl rfl⟩

/-! ## What holds in every state -/

/-- All items there are: queued, free, or inside their function. -/
def owned (q : WorkQueue) : List Nat := q.workList ++ (q.freeList ++ q.pass.running)

/-- The items in front of the position of the pass wait, unless a wakeup is due. -/
def Passed (q : WorkQueue) : Prop :=
  ∃ pre rest, q.workList = pre ++ rest ∧ rest.head? = q.pass.cursor ∧
    (q.wakeup = false → ∀ a ∈ pre, q.Waits a)

/-- No item is in two places, and the pass leaves nothing behind that can run. -/
structure Inv (q : WorkQueue) : Prop where
  nodup : q.owned.Nodup
  bound : ∀ a ∈ q.owned, a < q.allocated
  count : q.nQueued = q.workList.length
  passed : q.Passed

theorem inv_new : new.Inv where
  nodup := List.nodup_nil
  bound _ h := nomatch h
  count := rfl
  passed := ⟨[], [], rfl, rfl, fun _ _ h => nomatch h⟩

/-! ### Adding an item -/

section Enqueue

variable {q : WorkQueue} {a : Nat} {obj : UInt64} {res : SpaResult} {func data : UInt64}

theorem enqueue_item_self : (q.enqueue a obj res func data).item a =
    { id := q.counter + 1, obj := obj, res := res, func := func, data := data
      seq := if res.isAsync then res.asyncSeq else spaIdInvalid } :=
  Function.update_self ..

theorem enqueue_item_of_ne {b : Nat} (h : b ≠ a) :
    (q.enqueue a obj res func data).item b = q.item b :=
  Function.update_of_ne h ..

/-- A new item that does not wait makes a wakeup due. -/
theorem enqueue_waits (h : (q.enqueue a obj res func data).wakeup = false) :
    q.wakeup = false ∧ (q.enqueue a obj res func data).Waits a := by
  obtain ⟨hwakeup, hasync⟩ := Bool.or_eq_false_iff.mp h
  have hasync : res.isAsync = true := by simpa using hasync
  refine ⟨hwakeup, .inl ?_⟩
  rw [enqueue_item_self]
  show (if res.isAsync then res.asyncSeq else spaIdInvalid) ≠ spaIdInvalid
  rw [if_pos hasync]
  exact SpaResult.asyncSeq_ne res

theorem enqueue_waits_iff {b : Nat} (hb : b ∈ q.workList) (hba : b ≠ a) :
    (q.enqueue a obj res func data).Waits b ↔ q.Waits b := by
  have hhead : (q.workList ++ [a]).head? = q.workList.head? :=
    List.head?_append_of_ne_nil _ (List.ne_nil_of_mem hb)
  rw [Waits, Waits, enqueue_item_of_ne hba]
  show (_ ∨ _ ∧ (q.workList ++ [a]).head? ≠ some b) ↔ _
  rw [hhead]

theorem Passed.enqueue (hpassed : q.Passed) (ha : a ∉ q.workList) :
    (q.enqueue a obj res func data).Passed := by
  obtain ⟨pre, rest, hsplit, hcursor, hwaits⟩ := hpassed
  have hold : (q.enqueue a obj res func data).wakeup = false →
      ∀ b ∈ pre, (q.enqueue a obj res func data).Waits b := by
    intro hwakeup b hb
    have hmem : b ∈ q.workList := hsplit ▸ List.mem_append_left rest hb
    have hba : b ≠ a := fun h => ha (h ▸ hmem)
    rw [enqueue_waits_iff hmem hba]
    exact hwaits (enqueue_waits hwakeup).1 b hb
  show ∃ pre rest, q.workList ++ [a] = pre ++ rest ∧ rest.head? = q.pass.cursor ∧ _
  cases rest with
  | nil =>
    -- the pass is over or has passed the last item, and does not come to the new one
    refine ⟨pre ++ [a], [], ?_, hcursor, fun hwakeup b hb => ?_⟩
    · rw [hsplit, List.append_nil, List.append_nil]
    · rcases List.mem_append.mp hb with hb | hb
      · exact hold hwakeup b hb
      · rw [List.mem_singleton.mp hb]
        exact (enqueue_waits hwakeup).2
  | cons b rest =>
    refine ⟨pre, b :: rest ++ [a], ?_, hcursor, hold⟩
    rw [hsplit, List.append_assoc]

theorem enqueue_inv (hcount : q.nQueued = q.workList.length) (hpassed : q.Passed)
    (hnodup : (q.workList ++ [a] ++ (q.freeList ++ q.pass.running)).Nodup)
    (hbound : ∀ b ∈ q.workList ++ [a] ++ (q.freeList ++ q.pass.running), b < q.allocated) :
    (q.enqueue a obj res func data).Inv := by
  have ha : a ∉ q.workList := by
    intro hmem
    have hdisj := (List.nodup_append.mp (List.nodup_append.mp hnodup).1).2.2
    exact hdisj a hmem a (List.mem_singleton_self a) rfl
  refine ⟨hnodup, hbound, ?_, hpassed.enqueue ha⟩
  show q.nQueued + 1 = (q.workList ++ [a]).length
  rw [hcount, List.length_append]
  rfl

theorem add_reuse {free : List Nat} (h : q.freeList = a :: free) (room : Bool) :
    q.add obj res func data room
      = ({ q with freeList := free }.enqueue a obj res func data, q.counter + 1) := by
  rw [add, h]

theorem add_malloc (h : q.freeList = []) :
    q.add obj res func data true
      = ({ q with allocated := q.allocated + 1 }.enqueue q.allocated obj res func data,
          q.counter + 1) := by
  simp [add, h]

theorem add_noRoom (h : q.freeList = []) :
    q.add obj res func data false = (q, spaIdInvalid) := by
  rw [add, h]
  rfl

theorem Inv.add (hinv : q.Inv) (room : Bool) : (q.add obj res func data room).1.Inv := by
  have hnodup := hinv.nodup
  have hbound := hinv.bound
  rw [owned] at hnodup hbound
  cases hfree : q.freeList with
  | cons a free =>
    rw [add_reuse hfree]
    rw [hfree] at hnodup hbound
    have howned : q.workList ++ (a :: free ++ q.pass.running)
        = q.workList ++ [a] ++ (free ++ q.pass.running) := by simp
    rw [howned] at hnodup hbound
    exact enqueue_inv (q := { q with freeList := free }) hinv.count hinv.passed hnodup hbound
  | nil =>
    cases room with
    | false =>
      rw [add_noRoom hfree]
      exact hinv
    | true =>
      rw [add_malloc hfree]
      have howned : List.Perm (q.workList ++ [q.allocated] ++ (q.freeList ++ q.pass.running))
          (q.allocated :: (q.workList ++ (q.freeList ++ q.pass.running))) := by
        rw [List.append_assoc]
        exact List.perm_middle
      refine enqueue_inv (q := { q with allocated := q.allocated + 1 }) hinv.count hinv.passed ?_ ?_
      · rw [howned.nodup_iff, List.nodup_cons]
        exact ⟨fun h => Nat.lt_irrefl _ (hbound _ h), hnodup⟩
      · intro b hb
        rcases List.mem_cons.mp (howned.mem_iff.mp hb) with hb | hb
        · rw [hb]
          exact Nat.lt_succ_self _
        · exact Nat.lt_succ_of_lt (hbound b hb)

theorem add_noItem {room : Bool} (h : q.noItem room = true) :
    (q.add obj res func data room).1 = q := by
  rw [noItem, Bool.and_eq_true, List.isEmpty_iff] at h
  have hroom : room = false := by simpa using h.2
  rw [hroom, add_noRoom h.1]

/-- Adding is filling in `nextItem`, wherever it comes from. -/
theorem Inv.add_enqueues (hinv : q.Inv) (obj : UInt64) (res : SpaResult) (func data : UInt64)
    {room : Bool} (h : ¬ q.noItem room) :
    q.nextItem ∉ q.workList ∧
      ∃ q' : WorkQueue, q'.workList = q.workList ∧ q'.item = q.item ∧ q'.counter = q.counter ∧
        (q.add obj res func data room).1 = q'.enqueue q.nextItem obj res func data := by
  cases hfree : q.freeList with
  | cons a free =>
    have hnext : q.nextItem = a := by
      rw [nextItem, hfree]
      rfl
    rw [hnext]
    refine ⟨fun hmem => ?_, { q with freeList := free }, rfl, rfl, rfl, ?_⟩
    · have hdisj := (List.nodup_append.mp hinv.nodup).2.2
      exact hdisj a hmem a (hfree ▸ List.mem_append_left _ (List.mem_cons_self ..)) rfl
    · rw [add_reuse hfree]
  | nil =>
    have hnext : q.nextItem = q.allocated := by
      rw [nextItem, hfree]
      rfl
    have hroom : room = true := by simpa [noItem, hfree] using h
    rw [hnext, hroom]
    refine ⟨fun hmem => ?_, { q with allocated := q.allocated + 1 }, rfl, rfl, rfl, ?_⟩
    · exact Nat.lt_irrefl _ (hinv.bound _ (List.mem_append_left _ hmem))
    · rw [add_malloc hfree]

end Enqueue

/-! ### Cancelling and completing -/

theorem Inv.touch {q : WorkQueue} (hinv : q.Inv) (matching : WorkItem → Bool)
    (change : WorkItem → WorkItem) : (q.touch matching change).Inv := by
  refine ⟨hinv.nodup, hinv.bound, hinv.count, ?_⟩
  obtain ⟨pre, rest, hsplit, hcursor, hwaits⟩ := hinv.passed
  refine ⟨pre, rest, hsplit, hcursor, fun hwakeup a ha => ?_⟩
  obtain ⟨hquiet, hnone⟩ := Bool.or_eq_false_iff.mp hwakeup
  have hmem : a ∈ q.workList := hsplit ▸ List.mem_append_left rest ha
  have hsame : (q.touch matching change).item a = q.item a := by
    apply if_neg
    rintro ⟨-, hmatch⟩
    exact List.any_eq_false.mp hnone a hmem hmatch
  rw [Waits, hsame]
  exact hwaits hquiet a ha

/-! ### One turn of the loop -/

theorem Inv.returned {q : WorkQueue} (hinv : q.Inv) {a : Nat} {tmp : Option Nat}
    (hpass : q.pass = .calls a tmp) : (q.returned a tmp).Inv := by
  have howned : (q.returned a tmp).owned = q.owned := by
    show q.workList ++ (q.freeList ++ [a] ++ []) = q.workList ++ (q.freeList ++ q.pass.running)
    rw [hpass, List.append_nil]
    rfl
  refine ⟨howned ▸ hinv.nodup, howned ▸ hinv.bound, hinv.count, ?_⟩
  have hpassed := hinv.passed
  rw [Passed, hpass] at hpassed
  exact hpassed

theorem Inv.split {q : WorkQueue} (hinv : q.Inv) {a : Nat} (hpass : q.pass = .visits (some a)) :
    ∃ pre rest, q.workList = pre ++ a :: rest ∧ a ∉ pre ∧
      (q.wakeup = false → ∀ b ∈ pre, q.Waits b) := by
  obtain ⟨pre, rest, hsplit, hcursor, hwaits⟩ := hinv.passed
  rw [hpass] at hcursor
  cases rest with
  | nil => cases hcursor
  | cons b rest =>
    have hba : b = a := Option.some.inj hcursor
    subst hba
    refine ⟨pre, rest, hsplit, fun hmem => ?_, hwaits⟩
    have hnodup := (List.nodup_append.mp hinv.nodup).1
    rw [hsplit] at hnodup
    exact (List.nodup_append.mp hnodup).2.2 b hmem b (List.mem_cons_self ..) rfl

/-- Taking an item off the list keeps the items in front of it waiting. -/
theorem waits_erase {q q' : WorkQueue} {a b : Nat} {pre rest : List Nat}
    (hsplit : q.workList = pre ++ a :: rest) (hsplit' : q'.workList = pre ++ rest)
    (hitem : q'.item = q.item) (hb : b ∈ pre) (h : q.Waits b) : q'.Waits b := by
  have hne := List.ne_nil_of_mem hb
  have hhead : q'.workList.head? = q.workList.head? := by
    rw [hsplit, hsplit', List.head?_append_of_ne_nil _ hne, List.head?_append_of_ne_nil _ hne]
  rw [Waits, hitem, hhead]
  exact h

theorem Inv.visit {q : WorkQueue} (hinv : q.Inv) {a : Nat} (hpass : q.pass = .visits (some a)) :
    (q.visit a).Inv := by
  obtain ⟨pre, rest, hsplit, ha, hwaits⟩ := hinv.split hpass
  have hnext : listNext q.workList a = rest.head? := by
    rw [hsplit, listNext_append ha]
  have howned : q.owned = pre ++ a :: rest ++ q.freeList := by
    rw [owned, hpass, hsplit]
    show _ ++ (_ ++ []) = _
    rw [List.append_nil]
  rw [WorkQueue.visit, hnext]
  by_cases hstays : q.Waits a
  · rw [if_pos hstays]
    have hsame : ({ q with pass := .visits rest.head? } : WorkQueue).owned = q.owned := by
      rw [owned, owned, hpass]
      rfl
    refine ⟨hsame ▸ hinv.nodup, hsame ▸ hinv.bound, hinv.count, pre ++ [a], rest, ?_, rfl, ?_⟩
    · rw [List.append_assoc]
      exact hsplit
    · intro hwakeup b hb
      rcases List.mem_append.mp hb with hb | hb
      · exact hwaits hwakeup b hb
      · rw [List.mem_singleton.mp hb]
        exact hstays
  · rw [if_neg hstays]
    have herase : q.workList.erase a = pre ++ rest := by
      rw [hsplit, List.erase_append_right _ ha, List.erase_cons_head]
    have hperm : List.Perm (pre ++ rest ++ (q.freeList ++ [a])) q.owned := by
      rw [howned, List.append_assoc, List.append_assoc, ← List.append_assoc rest]
      exact (List.perm_append_singleton a (rest ++ q.freeList)).append_left pre
    have hcount : q.nQueued - 1 = (pre ++ rest).length := by
      rw [hinv.count, hsplit, List.length_append, List.length_append, List.length_cons]
      omega
    have hnodup := hperm.nodup_iff.mpr hinv.nodup
    have hbound : ∀ b ∈ pre ++ rest ++ (q.freeList ++ [a]), b < q.allocated :=
      fun b hb => hinv.bound b (hperm.mem_iff.mp hb)
    rw [herase]
    by_cases hfunc : (q.item a).func ≠ 0
    · show Inv (if (q.item a).func ≠ 0 then _ else _)
      rw [if_pos hfunc]
      refine ⟨hnodup, hbound, hcount, pre, rest, rfl, rfl, fun hwakeup b hb => ?_⟩
      exact waits_erase hsplit rfl rfl hb (hwaits hwakeup b hb)
    · show Inv (if (q.item a).func ≠ 0 then _ else _)
      rw [if_neg hfunc]
      refine ⟨?_, ?_, hcount, pre, rest, rfl, rfl, fun hwakeup b hb => ?_⟩
      · show (pre ++ rest ++ (q.freeList ++ [a] ++ [])).Nodup
        rw [List.append_nil]
        exact hnodup
      · show ∀ b ∈ pre ++ rest ++ (q.freeList ++ [a] ++ []), b < q.allocated
        rw [List.append_nil]
        exact hbound
      · exact waits_erase hsplit rfl rfl hb (hwaits hwakeup b hb)

theorem Inv.process {q : WorkQueue} (hinv : q.Inv) (hpass : q.pass = .idle) : q.process.Inv := by
  have howned : q.process.owned = q.owned := by
    rw [owned, owned, hpass]
    rfl
  exact ⟨howned ▸ hinv.nodup, howned ▸ hinv.bound, hinv.count, [], q.workList, rfl, rfl,
    fun _ _ h => nomatch h⟩

theorem Inv.stop {q : WorkQueue} (hinv : q.Inv) (hpass : q.pass = .visits none) :
    Inv { q with pass := .idle } := by
  have hnodup := hinv.nodup
  have hbound := hinv.bound
  have hpassed := hinv.passed
  rw [owned, hpass] at hnodup hbound
  rw [Passed, hpass] at hpassed
  exact ⟨hnodup, hbound, hinv.count, hpassed⟩

theorem Inv.step {q : WorkQueue} (hinv : q.Inv) (e : WorkEvent) : (q.step e).Inv := by
  cases e with
  | add obj res func data room =>
    rw [WorkQueue.step]
    split
    · exact hinv
    · exact hinv.add room
  | cancel obj id =>
    rw [WorkQueue.step]
    split
    · exact hinv
    · exact hinv.touch ..
  | complete obj seq res =>
    rw [WorkQueue.step]
    split
    · exact hinv
    · exact hinv.touch (completeMatches obj seq) (completeItem res)
  | process =>
    rw [WorkQueue.step]
    by_cases hstart : q.pass = .idle ∧ q.wakeup
    · rw [if_pos hstart]
      exact hinv.process hstart.1
    · rw [if_neg hstart]
      exact hinv
  | visit =>
    rw [WorkQueue.step]
    split
    next a hpass => exact hinv.visit hpass
    next hpass => exact hinv.stop hpass
    next => exact hinv
  | «return» =>
    rw [WorkQueue.step]
    split
    next a tmp hpass => exact hinv.returned hpass
    next => exact hinv

theorem inv_run (es : List WorkEvent) : (Run.run step new es).Inv :=
  Run.run_keeps Inv (fun _ e h => h.step e) inv_new es

/-- With no wakeup due and no pass running, nothing in the work list can run. -/
theorem waits_of_quiet (es : List WorkEvent) (hwakeup : (Run.run step new es).wakeup = false)
    (hidle : (Run.run step new es).pass = .idle) :
    ∀ a ∈ (Run.run step new es).workList,
      ((Run.run step new es).item a).seq = spaIdInvalid →
        ((Run.run step new es).item a).res = SpaResult.waitSync ∧
          (Run.run step new es).workList.head? ≠ some a := by
  intro a ha hseq
  obtain ⟨pre, rest, hsplit, hcursor, hwaits⟩ := (inv_run es).passed
  rw [hidle] at hcursor
  have hrest : rest = [] := List.head?_eq_none_iff.mp hcursor
  rw [hrest, List.append_nil] at hsplit
  exact (hwaits hwakeup a (hsplit ▸ ha)).resolve_left (not_not_intro hseq)

/-- A pass that stops in front of an asynchronous item, with one behind it that
waits for it. -/
theorem waits_of_quiet_blocked :
    let es : List WorkEvent := [.add 8 (SpaResult.returnAsync 5) 16 0 true,
      .add 8 SpaResult.waitSync 24 0 true, .process, .visit, .visit, .visit]
    ∀ a ∈ (Run.run step new es).workList,
      ((Run.run step new es).item a).seq = spaIdInvalid →
        ((Run.run step new es).item a).res = SpaResult.waitSync ∧
          (Run.run step new es).workList.head? ≠ some a :=
  waits_of_quiet _ (by decide) (by decide)

end WorkQueue
end Pinos
