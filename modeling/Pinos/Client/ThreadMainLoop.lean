import Mathlib.Logic.Function.Basic
import Pinos.Lib.Run
import Pinos.Lib.Threads

/-
`client/thread-mainloop.c`: threads that share the lock of a loop, wait for what others change
under it, and signal them.

The loop has the lock while it dispatches, and gives it up between its hooks.  What a thread waits
for is a test of the data; it waits again as long as the test fails.
-/

namespace Pinos

open Threads

/-- `data` is what the threads share, and `wants` the test that each of them waits for.  It has
`changed` when nobody was signalled since. -/
structure PinosThreadMainLoop (σ : Type) where
  lock : Mutex
  cond : CondVar
  acceptCond : CondVar
  nWaiting : Int
  nWaitingForAccept : Int
  data : σ
  wants : Nat → σ → Bool
  changed : Bool

inductive ThreadEvent (σ : Type) where
  /-- `pinos_thread_main_loop_lock` and `post_hook`, when they get the lock. -/
  | lock (t : Nat)
  /-- `pinos_thread_main_loop_unlock` and `pre_hook`. -/
  | unlock (t : Nat)
  | change (t : Nat) (data : σ)
  | signal (t : Nat) (waitForAccept : Bool)
  | waitFor (t : Nat) (wanted : σ → Bool)
  /-- If thread `first` is asleep, it is the one that is woken. -/
  | accept (t : Nat) (first : Nat)
  /-- A thread wakes up without a signal. -/
  | wake (t : Nat)
  /-- A thread that was woken gets the lock. -/
  | resume (t : Nat)

namespace PinosThreadMainLoop

variable {σ : Type}

/-- `pinos_thread_main_loop_new`. -/
def new (data : σ) : PinosThreadMainLoop σ where
  lock := .free
  cond := .empty
  acceptCond := .empty
  nWaiting := 0
  nWaitingForAccept := 0
  data := data
  wants _ _ := false
  changed := false

/-- The test of the loop in `pinos_thread_main_loop_signal`. -/
def awaitAccept (s : PinosThreadMainLoop σ) (t : Nat) : PinosThreadMainLoop σ :=
  if 0 < s.nWaitingForAccept then
    { s with acceptCond := s.acceptCond.wait t, lock := s.lock.unlock }
  else s

/-- `pinos_thread_main_loop_signal`. -/
def signal (s : PinosThreadMainLoop σ) (t : Nat) (waitForAccept : Bool) : PinosThreadMainLoop σ :=
  let s := if 0 < s.nWaiting then { s with cond := s.cond.broadcast } else s
  if waitForAccept then
    awaitAccept { s with nWaitingForAccept := s.nWaitingForAccept + 1 } t
  else s

/-- `pinos_thread_main_loop_wait`, until it sleeps. -/
def wait (s : PinosThreadMainLoop σ) (t : Nat) : PinosThreadMainLoop σ :=
  { s with nWaiting := s.nWaiting + 1, cond := s.cond.wait t, lock := s.lock.unlock }

/-- `pinos_thread_main_loop_wait`, when it has the lock again. -/
def waited (s : PinosThreadMainLoop σ) (t : Nat) : PinosThreadMainLoop σ :=
  { s with lock := s.lock.lock t, cond := s.cond.leave t, nWaiting := s.nWaiting - 1 }

/-- `pinos_thread_main_loop_accept`. -/
def accept (s : PinosThreadMainLoop σ) (first : Nat) : PinosThreadMainLoop σ :=
  { s with
    nWaitingForAccept := s.nWaitingForAccept - 1
    acceptCond := s.acceptCond.wake first }

/-- A thread waits as long as its test fails. -/
def waitFor (s : PinosThreadMainLoop σ) (t : Nat) (wanted : σ → Bool) : PinosThreadMainLoop σ :=
  if wanted s.data then s
  else wait { s with wants := Function.update s.wants t wanted } t

def resume (s : PinosThreadMainLoop σ) (t : Nat) : PinosThreadMainLoop σ :=
  if ¬ s.lock.Lockable t then s
  else if t ∈ s.cond.woken then s.waited t
  else if t ∈ s.acceptCond.woken then
    awaitAccept { s with lock := s.lock.lock t, acceptCond := s.acceptCond.leave t } t
  else s

/-- A thread that waits does nothing else. -/
def Running (s : PinosThreadMainLoop σ) (t : Nat) : Prop :=
  t ∉ s.cond.waiters ∧ t ∉ s.acceptCond.waiters

instance (s : PinosThreadMainLoop σ) (t : Nat) : Decidable (s.Running t) :=
  inferInstanceAs (Decidable (_ ∧ _))

def step (s : PinosThreadMainLoop σ) : ThreadEvent σ → PinosThreadMainLoop σ
  | .lock t => if s.Running t ∧ s.lock.Lockable t then { s with lock := s.lock.lock t } else s
  | .unlock _ => { s with lock := s.lock.unlock }
  | .change _ data => { s with data := data, changed := true }
  | .signal t waitForAccept => signal { s with changed := false } t waitForAccept
  | .waitFor t wanted => s.waitFor t wanted
  | .accept _ first => s.accept first
  | .wake t => { s with cond := s.cond.wake t, acceptCond := s.acceptCond.wake t }
  | .resume t => s.resume t

/-- What is called is called under the lock, by one thread at a time that waits for others to
accept; a thread that gives the lock up, or waits, has signalled its changes, and has locked once
when it waits. -/
def Orderly (s : PinosThreadMainLoop σ) : ThreadEvent σ → Prop
  | .lock _ | .wake _ | .resume _ => True
  | .unlock t => s.lock.owner = some t ∧ s.changed = false
  | .change t _ => s.lock.owner = some t
  | .signal t waitForAccept => s.lock.owner = some t ∧
      (waitForAccept = true → s.acceptCond.waiters = [] ∧ s.lock.depth = 1)
  | .waitFor t _ => s.lock.owner = some t ∧ s.lock.depth = 1 ∧ s.changed = false
  | .accept t first => s.lock.owner = some t ∧ 0 < s.nWaitingForAccept ∧
      (s.acceptCond.asleep ≠ [] → first ∈ s.acceptCond.asleep)

instance (s : PinosThreadMainLoop σ) : (e : ThreadEvent σ) → Decidable (s.Orderly e)
  | .lock _ | .wake _ | .resume _ => inferInstanceAs (Decidable True)
  | .unlock _ | .signal _ _ | .waitFor _ _ | .accept _ _ => inferInstanceAs (Decidable (_ ∧ _))
  | .change t _ => inferInstanceAs (Decidable (s.lock.owner = some t))

/-- The owner of the lock does not wait, and the count is that of the threads that do.  When the
lock is free no thread sleeps whose test succeeds, or that was accepted. -/
structure Sound (s : PinosThreadMainLoop σ) : Prop where
  counted : s.nWaiting = s.cond.waiters.length
  runs : ∀ t, s.lock.owner = some t → s.Running t
  awake : s.lock.owner = none → ∀ t ∈ s.cond.waiters, s.wants t s.data = true → t ∈ s.cond.woken
  accepted : ∀ t ∈ s.acceptCond.waiters, s.nWaitingForAccept ≤ 0 → t ∈ s.acceptCond.woken

/-! ## Between the calls -/

structure Inv (s : PinosThreadMainLoop σ) : Prop where
  counted : s.nWaiting = s.cond.waiters.length
  nodup : s.cond.waiters.Nodup
  whole : s.lock.Whole
  runs : ∀ t, s.lock.owner = some t → s.Running t
  disjoint : ∀ t ∈ s.cond.waiters, t ∉ s.acceptCond.waiters
  quiet : s.lock.owner = none → s.changed = false
  told : s.changed = false → ∀ t ∈ s.cond.asleep, s.wants t s.data = false
  single : s.acceptCond.waiters.length ≤ 1
  offers : s.nWaitingForAccept = 0 ∨ s.nWaitingForAccept = 1 ∧ s.acceptCond.waiters ≠ []
  accepted : s.acceptCond.asleep ≠ [] → 0 < s.nWaitingForAccept

variable {s : PinosThreadMainLoop σ} {t : Nat}

theorem Inv.sound (h : s.Inv) : s.Sound where
  counted := h.counted
  runs := h.runs
  awake hfree u hu hwants := by
    rcases CondVar.mem_waiters.mp hu with hu | hu
    · rw [h.told (h.quiet hfree) u hu] at hwants
      cases hwants
    · exact hu
  accepted u hu hn := by
    rcases CondVar.mem_waiters.mp hu with hu | hu
    · exact absurd (h.accepted (List.ne_nil_of_mem hu)) (Int.not_lt.mpr hn)
    · exact hu

theorem Inv.new (data : σ) : (new data).Inv where
  counted := rfl
  nodup := List.nodup_nil
  whole := Mutex.whole_free
  runs t ht := by cases ht
  disjoint t ht := absurd ht List.not_mem_nil
  quiet _ := rfl
  told _ t ht := absurd ht List.not_mem_nil
  single := Nat.zero_le _
  offers := .inl rfl
  accepted hne := absurd rfl hne

theorem Inv.lock (h : s.Inv) (hrun : s.Running t) : ({ s with lock := s.lock.lock t } :
    PinosThreadMainLoop σ).Inv where
  counted := h.counted
  nodup := h.nodup
  whole := Mutex.whole_lock
  runs u hu := by
    cases hu
    exact hrun
  disjoint := h.disjoint
  quiet hfree := by cases hfree
  told := h.told
  single := h.single
  offers := h.offers
  accepted := h.accepted

theorem Inv.unlock (h : s.Inv) (hquiet : s.changed = false) :
    ({ s with lock := s.lock.unlock } : PinosThreadMainLoop σ).Inv where
  counted := h.counted
  nodup := h.nodup
  whole := h.whole.unlock
  runs u hu := h.runs u (Mutex.owner_unlock hu)
  disjoint := h.disjoint
  quiet _ := hquiet
  told := h.told
  single := h.single
  offers := h.offers
  accepted := h.accepted

/-- A thread that waits for the others to accept gives the lock up. -/
theorem Inv.awaitAccept (h : s.Inv) (hrun : s.Running t) (hquiet : s.changed = false)
    (hnone : s.acceptCond.waiters = []) (hdepth : s.lock.depth = 1) {n : Int}
    (hn : n = 0 ∨ n = 1) :
    (PinosThreadMainLoop.awaitAccept { s with nWaitingForAccept := n } t).Inv := by
  have hasleep : s.acceptCond.asleep = [] := (List.append_eq_nil_iff.mp hnone).1
  have hwaiters : (s.acceptCond.wait t).waiters.Perm [t] := by
    have hperm := CondVar.waiters_wait (c := s.acceptCond) (t := t)
    rwa [hnone] at hperm
  unfold PinosThreadMainLoop.awaitAccept
  split
  · next hpos =>
    have hone : n = 1 := hn.resolve_left (Int.ne_of_gt hpos)
    refine ⟨h.counted, h.nodup, h.whole.unlock, fun u hu => ?_, fun u hu hmem => ?_,
      fun _ => hquiet, h.told, ?_, .inr ⟨hone, fun hnil => ?_⟩, fun _ => hpos⟩
    · rw [Mutex.unlock_of_one hdepth] at hu
      cases hu
    · rw [List.mem_singleton.mp (hwaiters.mem_iff.mp hmem)] at hu
      exact hrun.1 hu
    · exact Nat.le_of_eq hwaiters.length_eq
    · simp only at hnil
      rw [hnil] at hwaiters
      exact absurd hwaiters.length_eq (by simp)
  · next hpos =>
    have hzero : n = 0 := hn.resolve_right fun hone => hpos (by simp [hone])
    exact ⟨h.counted, h.nodup, h.whole, h.runs, h.disjoint, h.quiet, h.told, h.single,
      .inl hzero, fun hne => absurd hasleep hne⟩

/-- Nobody sleeps after a broadcast, and nobody does when the count is zero. -/
theorem Inv.broadcast (h : s.Inv) :
    ((if 0 < s.nWaiting then { s with cond := s.cond.broadcast, changed := false }
      else { s with changed := false }) : PinosThreadMainLoop σ).Inv := by
  split
  · have hperm := CondVar.waiters_broadcast (c := s.cond)
    refine ⟨h.counted.trans (congrArg Int.ofNat hperm.length_eq.symm), hperm.nodup_iff.mpr h.nodup,
      h.whole, fun u hu => ?_, fun u hu => h.disjoint u (hperm.mem_iff.mp hu), fun _ => rfl,
      fun _ u hu => absurd hu List.not_mem_nil, h.single, h.offers, h.accepted⟩
    obtain ⟨hcond, haccept⟩ := h.runs u hu
    exact ⟨fun hmem => hcond (hperm.mem_iff.mp hmem), haccept⟩
  · next hpos =>
    have hnil : s.cond.asleep = [] := by
      have hlen := h.counted
      have hzero : s.cond.waiters.length = 0 := by omega
      exact (List.append_eq_nil_iff.mp (List.eq_nil_of_length_eq_zero hzero)).1
    exact ⟨h.counted, h.nodup, h.whole, h.runs, h.disjoint, fun _ => rfl,
      fun _ u hu => absurd (hnil ▸ hu) List.not_mem_nil, h.single, h.offers, h.accepted⟩

/-- The owner of the lock signals, and asks the others to accept. -/
theorem Inv.offer (h : s.Inv) (howner : s.lock.owner = some t) (hquiet : s.changed = false)
    (hnone : s.acceptCond.waiters = []) (hdepth : s.lock.depth = 1) :
    (PinosThreadMainLoop.awaitAccept
      { s with nWaitingForAccept := s.nWaitingForAccept + 1 } t).Inv := by
  have hn : s.nWaitingForAccept = 0 := h.offers.resolve_right fun hone => hone.2 hnone
  rw [hn]
  exact h.awaitAccept (h.runs t howner) hquiet hnone hdepth (.inr rfl)

theorem Inv.signal (h : s.Inv) {waitForAccept : Bool}
    (ho : s.Orderly (.signal t waitForAccept)) : (s.step (.signal t waitForAccept)).Inv := by
  obtain ⟨howner, haccept⟩ := ho
  have hb := h.broadcast
  simp only [step, PinosThreadMainLoop.signal]
  cases waitForAccept with
  | false => exact hb
  | true =>
    obtain ⟨hnone, hdepth⟩ := haccept rfl
    simp only [if_true]
    split at hb
    · next hpos =>
      simp only [hpos, if_true]
      exact hb.offer howner rfl hnone hdepth
    · next hpos =>
      simp only [hpos, if_false]
      exact hb.offer howner rfl hnone hdepth

theorem Inv.waitFor (h : s.Inv) {wanted : σ → Bool} (ho : s.Orderly (.waitFor t wanted)) :
    (s.waitFor t wanted).Inv := by
  obtain ⟨howner, hdepth, hquiet⟩ := ho
  unfold PinosThreadMainLoop.waitFor
  split
  · exact h
  next hfails =>
  obtain ⟨hcond, haccept⟩ := h.runs t howner
  have hperm := CondVar.waiters_wait (c := s.cond) (t := t)
  have hfree : s.lock.unlock.owner = none := by rw [Mutex.unlock_of_one hdepth]; rfl
  refine ⟨?_, hperm.nodup_iff.mpr (List.nodup_cons.mpr ⟨hcond, h.nodup⟩), h.whole.unlock,
    fun u hu => ?_, fun u hu => ?_, fun _ => hquiet, fun _ u hu => ?_, h.single, h.offers,
    h.accepted⟩
  · have hlen := hperm.length_eq
    have hcounted := h.counted
    simp only [wait, List.length_cons] at hlen ⊢
    omega
  · simp only [wait, hfree] at hu
    cases hu
  · rcases List.mem_cons.mp (hperm.mem_iff.mp hu) with rfl | hu
    · exact haccept
    · exact h.disjoint u hu
  · simp only [wait]
    rcases List.mem_append.mp hu with hu | hu
    · have hne : u ≠ t := fun heq => hcond (heq ▸ CondVar.mem_waiters.mpr (.inl hu))
      rw [Function.update_of_ne hne]
      exact h.told hquiet u hu
    · rw [List.mem_singleton.mp hu, Function.update_self]
      exact Bool.eq_false_iff.mpr hfails

theorem Inv.accept (h : s.Inv) {first : Nat} (ho : s.Orderly (.accept t first)) :
    (s.accept first).Inv := by
  obtain ⟨-, hpos, hfirst⟩ := ho
  have hone : s.nWaitingForAccept = 1 := by
    rcases h.offers with hzero | ⟨hone, -⟩
    · omega
    · exact hone
  have hperm := CondVar.waiters_wake (c := s.acceptCond) (t := first)
  have hasleep : (s.acceptCond.wake first).asleep = [] := by
    by_cases hnil : s.acceptCond.asleep = []
    · exact List.eq_nil_iff_forall_not_mem.mpr fun u hu =>
        absurd (hnil ▸ CondVar.mem_asleep_wake hu) List.not_mem_nil
    · exact CondVar.asleep_wake_of_single h.single (hfirst hnil)
  refine ⟨h.counted, h.nodup, h.whole, fun u hu => ?_, fun u hu hmem => ?_, h.quiet, h.told,
    ?_, .inl ?_, fun hne => absurd hasleep hne⟩
  · obtain ⟨hcond, haccept⟩ := h.runs u hu
    exact ⟨hcond, fun hmem => haccept (hperm.mem_iff.mp hmem)⟩
  · exact h.disjoint u hu (hperm.mem_iff.mp hmem)
  · exact hperm.length_eq.symm ▸ h.single
  · simp only [PinosThreadMainLoop.accept, hone]
    rfl

theorem Inv.wake (h : s.Inv) :
    ({ s with cond := s.cond.wake t, acceptCond := s.acceptCond.wake t } :
      PinosThreadMainLoop σ).Inv := by
  have hcond := CondVar.waiters_wake (c := s.cond) (t := t)
  have haccept := CondVar.waiters_wake (c := s.acceptCond) (t := t)
  refine ⟨h.counted.trans (congrArg Int.ofNat hcond.length_eq.symm),
    hcond.nodup_iff.mpr h.nodup, h.whole, fun u hu => ?_, fun u hu hmem => ?_, h.quiet,
    fun hquiet u hu => h.told hquiet u (CondVar.mem_asleep_wake hu),
    haccept.length_eq.symm ▸ h.single, h.offers.imp_right fun ⟨hone, hne⟩ => ⟨hone, fun hnil => ?_⟩,
    fun hne => ?_⟩
  · obtain ⟨hc, ha⟩ := h.runs u hu
    exact ⟨fun hmem => hc (hcond.mem_iff.mp hmem), fun hmem => ha (haccept.mem_iff.mp hmem)⟩
  · exact h.disjoint u (hcond.mem_iff.mp hu) (haccept.mem_iff.mp hmem)
  · obtain ⟨u, hu⟩ : ∃ u, u ∈ (s.acceptCond.wake t).asleep := List.exists_mem_of_ne_nil _ hne
    exact h.accepted (List.ne_nil_of_mem (CondVar.mem_asleep_wake hu))
  · simp only at hnil
    rw [hnil] at haccept
    exact hne haccept.symm.eq_nil

/-- The lock is free when a thread that waits can have it. -/
theorem Inv.free_of_waits (h : s.Inv) (hlock : s.lock.Lockable t) (hwaits : ¬ s.Running t) :
    s.lock.owner = none :=
  hlock.resolve_right fun howner => hwaits (h.runs t howner)

theorem Inv.waited (h : s.Inv) (hwoken : t ∈ s.cond.woken) : (s.waited t).Inv := by
  have hperm := CondVar.waiters_leave hwoken
  obtain ⟨hleft, hnodup⟩ := List.nodup_cons.mp (hperm.nodup_iff.mpr h.nodup)
  refine ⟨?_, hnodup, Mutex.whole_lock, fun u hu => ?_, fun u hu => ?_,
    fun hfree => absurd hfree (Option.some_ne_none t), h.told, h.single, h.offers, h.accepted⟩
  · have hlen := hperm.length_eq
    have hcounted := h.counted
    simp only [PinosThreadMainLoop.waited, List.length_cons] at hlen ⊢
    omega
  · cases hu
    exact ⟨hleft, h.disjoint t (CondVar.mem_waiters.mpr (.inr hwoken))⟩
  · exact h.disjoint u (hperm.mem_iff.mp (List.mem_cons_of_mem t hu))

/-- A thread that was accepted, or woke up by itself, tests the count again. -/
theorem Inv.resumeAccept (h : s.Inv) (hlock : s.lock.Lockable t)
    (hwoken : t ∈ s.acceptCond.woken) :
    (PinosThreadMainLoop.awaitAccept
      { s with lock := s.lock.lock t, acceptCond := s.acceptCond.leave t } t).Inv := by
  have hmem := CondVar.mem_waiters.mpr (.inr hwoken)
  have hfree := h.free_of_waits hlock fun hrun => hrun.2 hmem
  have hdepth : (s.lock.lock t).depth = 1 := by
    rw [h.whole.lock_of_ne hlock (by simp [hfree])]
  have hcond : t ∉ s.cond.waiters := fun hwaits => h.disjoint t hwaits hmem
  have hnone : (s.acceptCond.leave t).waiters = [] := by
    have hlen := (CondVar.waiters_leave hwoken).length_eq
    have hsingle := h.single
    simp only [List.length_cons] at hlen
    exact List.eq_nil_of_length_eq_zero (by omega)
  have hasleep : s.acceptCond.asleep = [] := (List.append_eq_nil_iff.mp hnone).1
  have hleft : ({ s with
      lock := s.lock.lock t, acceptCond := s.acceptCond.leave t, nWaitingForAccept := 0 } :
      PinosThreadMainLoop σ).Inv := by
    refine ⟨h.counted, h.nodup, Mutex.whole_lock, fun u hu => ?_, fun u _ => ?_,
      fun hfree => absurd hfree (Option.some_ne_none t), h.told, ?_, .inl rfl,
      fun hne => absurd hasleep hne⟩
    · cases hu
      exact ⟨hcond, by simp [hnone]⟩
    · simp [hnone]
    · simp [hnone]
  exact hleft.awaitAccept (hleft.runs t rfl) (h.quiet hfree) hnone hdepth
    (h.offers.imp_right And.left)

theorem Inv.resume (h : s.Inv) : (s.resume t).Inv := by
  unfold PinosThreadMainLoop.resume
  split
  · exact h
  next hlock =>
  split
  · next hwoken => exact h.waited hwoken
  split
  · next hwoken => exact h.resumeAccept (not_not.mp hlock) hwoken
  · exact h

theorem Inv.step (h : s.Inv) {e : ThreadEvent σ} (ho : s.Orderly e) : (s.step e).Inv := by
  cases e with
  | lock t =>
    simp only [PinosThreadMainLoop.step]
    split
    · next hlock => exact h.lock hlock.1
    · exact h
  | unlock t => exact h.unlock ho.2
  | change t data =>
    have howner : s.lock.owner = some t := ho
    refine ⟨h.counted, h.nodup, h.whole, h.runs, h.disjoint, fun hfree => ?_,
      fun hquiet => ?_, h.single, h.offers, h.accepted⟩
    · exact absurd (hfree.symm.trans howner) (by simp)
    · cases hquiet
  | signal t waitForAccept => exact h.signal ho
  | waitFor t wanted => exact h.waitFor ho
  | accept t first => exact h.accept ho
  | wake t => exact h.wake
  | resume t => exact h.resume

/-- Thread 1 waits for a frame, thread 2 brings it and waits for thread 1 to accept it. -/
def handOver : List (ThreadEvent Nat) :=
  [.lock 1, .waitFor 1 (0 < ·), .wake 1, .lock 2, .change 2 1, .signal 2 true, .resume 1,
    .waitFor 1 (0 < ·), .accept 1 2, .unlock 1, .resume 2]

/-- When two threads wait for others to accept, the second `accept` can wake the thread that it
woke before, and the other thread sleeps on. -/
example :
    let s := Run.run step (new 0) [.lock 1, .signal 1 true, .lock 2, .signal 2 true, .lock 3,
      .accept 3 1, .unlock 3, .resume 1, .lock 3, .accept 3 1, .unlock 3, .resume 1]
    s.nWaitingForAccept = 0 ∧ s.acceptCond.asleep = [2] := by decide

end PinosThreadMainLoop
end Pinos
