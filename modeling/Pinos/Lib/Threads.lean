import Mathlib.Data.List.Perm.Basic

/-
Mutexes that their owner can lock again, and condition variables.

A thread that waits sleeps until it is woken, which may happen without a signal, and it needs the
mutex again before it goes on.  Waiting gives up one level of the mutex.
-/

namespace Threads

structure Mutex where
  owner : Option Nat
  depth : Nat
  deriving DecidableEq

namespace Mutex

def free : Mutex := ⟨none, 0⟩

def Lockable (m : Mutex) (t : Nat) : Prop := m.owner = none ∨ m.owner = some t

instance (m : Mutex) (t : Nat) : Decidable (m.Lockable t) := inferInstanceAs (Decidable (_ ∨ _))

def lock (m : Mutex) (t : Nat) : Mutex := ⟨some t, m.depth + 1⟩

def unlock (m : Mutex) : Mutex := if m.depth ≤ 1 then free else { m with depth := m.depth - 1 }

/-- Nobody owns a mutex that is not locked. -/
def Whole (m : Mutex) : Prop := m.owner = none ↔ m.depth = 0

variable {m : Mutex} {t : Nat}

theorem whole_free : free.Whole := iff_of_true rfl rfl

theorem whole_lock : (m.lock t).Whole := iff_of_false (Option.some_ne_none t) (Nat.succ_ne_zero _)

theorem unlock_of_one (h : m.depth = 1) : m.unlock = free := if_pos (Nat.le_of_eq h)

theorem Whole.unlock (h : m.Whole) : m.unlock.Whole := by
  unfold Mutex.unlock
  split
  · exact whole_free
  · next hdepth =>
    refine iff_of_false (fun howner => ?_) (by simp only; omega)
    have hzero := h.mp howner
    omega

/-- A thread that is not the owner gets a mutex that is free. -/
theorem Whole.lock_of_ne (h : m.Whole) (hlock : m.Lockable t) (hne : m.owner ≠ some t) :
    m.lock t = ⟨some t, 1⟩ := by
  unfold lock
  rw [h.mp (hlock.resolve_right hne)]

theorem owner_unlock (h : m.unlock.owner = some t) : m.owner = some t := by
  unfold unlock at h
  split at h
  · cases h
  · exact h

end Mutex

structure CondVar where
  asleep : List Nat
  woken : List Nat
  deriving DecidableEq

namespace CondVar

def empty : CondVar := ⟨[], []⟩

def waiters (c : CondVar) : List Nat := c.asleep ++ c.woken

def wait (c : CondVar) (t : Nat) : CondVar := { c with asleep := c.asleep ++ [t] }

def broadcast (c : CondVar) : CondVar := ⟨[], c.woken ++ c.asleep⟩

def wake (c : CondVar) (t : Nat) : CondVar :=
  if t ∈ c.asleep then ⟨c.asleep.erase t, c.woken ++ [t]⟩ else c

/-- A thread that was woken has the mutex. -/
def leave (c : CondVar) (t : Nat) : CondVar := { c with woken := c.woken.erase t }

variable {c : CondVar} {t u : Nat}

theorem mem_waiters : t ∈ c.waiters ↔ t ∈ c.asleep ∨ t ∈ c.woken := List.mem_append

theorem waiters_wait : (c.wait t).waiters.Perm (t :: c.waiters) := by
  unfold waiters wait
  rw [List.append_assoc]
  exact List.perm_middle

theorem waiters_broadcast : c.broadcast.waiters.Perm c.waiters := by
  show (c.woken ++ c.asleep).Perm (c.asleep ++ c.woken)
  exact List.perm_append_comm

theorem waiters_wake : (c.wake t).waiters.Perm c.waiters := by
  unfold wake
  split
  · next ht =>
    have hlast : (c.asleep.erase t ++ (c.woken ++ [t])).Perm
        (t :: c.asleep.erase t ++ c.woken) := by
      rw [← List.append_assoc]
      exact List.perm_append_singleton t _
    exact hlast.trans ((List.perm_cons_erase ht).symm.append_right c.woken)
  · exact .refl _

theorem waiters_leave (h : t ∈ c.woken) : (t :: (c.leave t).waiters).Perm c.waiters := by
  have hmiddle : (t :: (c.asleep ++ c.woken.erase t)).Perm (c.asleep ++ t :: c.woken.erase t) :=
    List.perm_middle.symm
  exact hmiddle.trans ((List.perm_cons_erase h).symm.append_left c.asleep)

theorem mem_asleep_wake (h : u ∈ (c.wake t).asleep) : u ∈ c.asleep := by
  unfold wake at h
  split at h
  · exact List.mem_of_mem_erase h
  · exact h

/-- The only waiter is awake when it is woken. -/
theorem asleep_wake_of_single (h : c.waiters.length ≤ 1) (ht : t ∈ c.asleep) :
    (c.wake t).asleep = [] := by
  have hlen : c.asleep.length ≤ 1 := by
    have happend : c.waiters.length = c.asleep.length + c.woken.length := List.length_append
    omega
  have herase := List.length_erase_of_mem ht
  unfold wake
  rw [if_pos ht]
  exact List.eq_nil_of_length_eq_zero (by simp only [herase]; omega)

end CondVar
end Threads
