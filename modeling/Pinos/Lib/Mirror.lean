import Mathlib.Data.List.Basic
import Pinos.Lib.Run

/-
A value that others follow.

A follower that comes is sent the whole value, and from then on the part that changes.  It makes
its copy of what it has received, in order.
-/

namespace Mirror

structure Protocol (σ δ μ κ : Type) where
  /-- The copy of a follower that has received nothing. -/
  start : κ
  change : σ → δ → σ
  whole : σ → μ
  /-- What is sent when a value changes, if anything is. -/
  part : σ → δ → Option μ
  receive : κ → μ → Option κ

structure Follower (μ κ : Type) where
  queue : List μ
  copy : κ

/-- `past` has every value that there was, and the one that there is. -/
structure State (σ μ κ : Type) where
  value : σ
  past : List σ
  followers : List (Follower μ κ)
  /-- Something was sent that could not be received. -/
  failed : Bool

inductive Event (δ : Type) where
  | follow
  | leave (i : Nat)
  | change (d : δ)
  | receive (i : Nat)

variable {σ δ μ κ : Type} (P : Protocol σ δ μ κ)

namespace State

def start (value : σ) : State σ μ κ := ⟨value, [value], [], false⟩

def send (m : Option μ) (f : Follower μ κ) : Follower μ κ := { f with queue := f.queue ++ m.toList }

def receive (s : State σ μ κ) (i : Nat) : State σ μ κ :=
  match s.followers[i]? with
  | none => s
  | some ⟨[], _⟩ => s
  | some ⟨m :: queue, copy⟩ =>
    match P.receive copy m with
    | none => { s with failed := true }
    | some copy => { s with followers := s.followers.set i ⟨queue, copy⟩ }

def step (s : State σ μ κ) : Event δ → State σ μ κ
  | .follow => { s with followers := s.followers ++ [⟨[P.whole s.value], P.start⟩] }
  | .leave i => { s with followers := s.followers.eraseIdx i }
  | .change d =>
    { s with
      value := P.change s.value d
      past := P.change s.value d :: s.past
      followers := s.followers.map (send (P.part s.value d)) }
  | .receive i => s.receive P i

end State

variable (Shows : σ → κ → Prop)

/-- A copy of the whole value shows it, and one that shows a value shows the next when it has
received the part that changed. -/
structure Faithful : Prop where
  whole : ∀ v, ∃ c, P.receive P.start (P.whole v) = some c ∧ Shows v c
  part : ∀ {v c}, Shows v c → ∀ d,
    match P.part v d with
    | none => Shows (P.change v d) c
    | some m => ∃ c', P.receive c m = some c' ∧ Shows (P.change v d) c'

/-- Nothing fails, a follower that has received something shows a value that there was, and one
that has received everything shows the value that there is. -/
structure Mirrored (s : State σ μ κ) : Prop where
  received : s.failed = false
  shows_past : ∀ f ∈ s.followers, f.copy = P.start ∨ ∃ v ∈ s.past, Shows v f.copy
  shows_value : ∀ f ∈ s.followers, f.queue = [] → Shows s.value f.copy

/-- Each message of the queue takes the copy to a value that there was, and the last of them to
the value that there is. -/
def Follows (past : List σ) (value : σ) : κ → List μ → Prop
  | c, [] => Shows value c
  | c, m :: queue =>
    ∃ c', P.receive c m = some c' ∧ (∃ v ∈ past, Shows v c') ∧ Follows past value c' queue

structure Inv (s : State σ μ κ) : Prop where
  received : s.failed = false
  present : s.value ∈ s.past
  shows_past : ∀ f ∈ s.followers, f.copy = P.start ∨ ∃ v ∈ s.past, Shows v f.copy
  follows : ∀ f ∈ s.followers, Follows P Shows s.past s.value f.copy f.queue

variable {P Shows} {s : State σ μ κ}

theorem Inv.mirrored (h : Inv P Shows s) : Mirrored P Shows s where
  received := h.received
  shows_past := h.shows_past
  shows_value f hf hqueue := by
    have hfollows := h.follows f hf
    rw [hqueue] at hfollows
    exact hfollows

theorem Inv.start (value : σ) : Inv P Shows (.start value : State σ μ κ) where
  received := rfl
  present := List.mem_singleton_self value
  shows_past _ hf := absurd hf List.not_mem_nil
  follows _ hf := absurd hf List.not_mem_nil

/-- What is sent is behind all that is in the queue. -/
theorem Follows.send {past : List σ} {v : σ} {c : κ} {queue : List μ} (hP : Faithful P Shows)
    (h : Follows P Shows past v c queue) (d : δ) :
    Follows P Shows (P.change v d :: past) (P.change v d) c (queue ++ (P.part v d).toList) := by
  induction queue generalizing c with
  | nil =>
    have hpart := hP.part h d
    cases hm : P.part v d with
    | none =>
      rw [hm] at hpart
      exact hpart
    | some m =>
      rw [hm] at hpart
      obtain ⟨c', hreceive, hshows⟩ := hpart
      exact ⟨c', hreceive, ⟨_, List.mem_cons_self, hshows⟩, hshows⟩
  | cons m queue ih =>
    obtain ⟨c', hreceive, ⟨v', hv', hshows⟩, hrest⟩ := h
    exact ⟨c', hreceive, ⟨v', List.mem_cons_of_mem _ hv', hshows⟩, ih hrest⟩

theorem Inv.follow (h : Inv P Shows s) (hP : Faithful P Shows) :
    Inv P Shows (s.step P .follow) where
  received := h.received
  present := h.present
  shows_past f hf := by
    rcases List.mem_append.mp hf with hf | hf
    · exact h.shows_past f hf
    · rw [List.mem_singleton.mp hf]
      exact .inl rfl
  follows f hf := by
    rcases List.mem_append.mp hf with hf | hf
    · exact h.follows f hf
    · rw [List.mem_singleton.mp hf]
      obtain ⟨c, hreceive, hshows⟩ := hP.whole s.value
      exact ⟨c, hreceive, ⟨s.value, h.present, hshows⟩, hshows⟩

theorem Inv.leave (h : Inv P Shows s) (i : Nat) : Inv P Shows (s.step P (.leave i)) where
  received := h.received
  present := h.present
  shows_past f hf := h.shows_past f (List.mem_of_mem_eraseIdx hf)
  follows f hf := h.follows f (List.mem_of_mem_eraseIdx hf)

theorem Inv.change (h : Inv P Shows s) (hP : Faithful P Shows) (d : δ) :
    Inv P Shows (s.step P (.change d)) where
  received := h.received
  present := List.mem_cons_self
  shows_past f' hf' := by
    obtain ⟨f, hf, rfl⟩ := List.mem_map.mp hf'
    exact (h.shows_past f hf).imp_right fun ⟨v, hv, hshows⟩ =>
      ⟨v, List.mem_cons_of_mem _ hv, hshows⟩
  follows f' hf' := by
    obtain ⟨f, hf, rfl⟩ := List.mem_map.mp hf'
    exact (h.follows f hf).send hP d

theorem Inv.receive (h : Inv P Shows s) (i : Nat) : Inv P Shows (s.receive P i) := by
  unfold State.receive
  split
  · exact h
  · exact h
  · next m queue copy hi =>
    have hmem := List.mem_of_getElem? hi
    obtain ⟨c, hreceive, hshows, hrest⟩ := h.follows _ hmem
    simp only [hreceive]
    refine ⟨h.received, h.present, fun f hf => ?_, fun f hf => ?_⟩
    · rcases List.mem_or_eq_of_mem_set hf with hf | rfl
      · exact h.shows_past f hf
      · exact .inr hshows
    · rcases List.mem_or_eq_of_mem_set hf with hf | rfl
      · exact h.follows f hf
      · exact hrest

theorem Inv.step (h : Inv P Shows s) (hP : Faithful P Shows) (e : Event δ) :
    Inv P Shows (s.step P e) := by
  cases e with
  | follow => exact h.follow hP
  | leave i => exact h.leave i
  | change d => exact h.change hP d
  | receive i => exact h.receive i

/-- Faithful copies stay so, in whatever order things are sent, received and changed. -/
theorem run_mirrored (hP : Faithful P Shows) (value : σ) (es : List (Event δ)) :
    Mirrored P Shows (Run.run (State.step P) (.start value) es) :=
  (Run.run_keeps (Inv P Shows) (fun _ e h => h.step hP e) (Inv.start value) es).mirrored

end Mirror
