import Mathlib.Data.List.Basic

/-
Runs of a total step function along a list of events.

`Along` asks something of every event in the state it happens in, and an
invariant that such events keep holds at the end of the run.  A prefix of a run
is a run, so what is proved of the last state is proved of every state.
-/

namespace Run

variable {σ ε : Type} (step : σ → ε → σ) (ok : σ → ε → Prop)

def run (s : σ) (es : List ε) : σ := es.foldl step s

def Along : σ → List ε → Prop
  | _, [] => True
  | s, e :: es => ok s e ∧ Along (step s e) es

instance [∀ s e, Decidable (ok s e)] : ∀ (s : σ) (es : List ε), Decidable (Along step ok s es)
  | _, [] => inferInstanceAs (Decidable True)
  | s, e :: es =>
    have : Decidable (Along step ok (step s e) es) := instDecidableAlong (step s e) es
    inferInstanceAs (Decidable (ok s e ∧ Along step ok (step s e) es))

variable {step ok} {s : σ}

theorem run_nil (s : σ) : run step s [] = s := rfl

theorem run_cons (s : σ) (e : ε) (es : List ε) : run step s (e :: es) = run step (step s e) es :=
  rfl

theorem run_append (s : σ) (es es' : List ε) :
    run step s (es ++ es') = run step (run step s es) es' :=
  List.foldl_append

/-- What an event keeps, a run keeps. -/
theorem run_invariant (Inv : σ → Prop) (hstep : ∀ s e, Inv s → ok s e → Inv (step s e))
    {es : List ε} (h : Inv s) (hok : Along step ok s es) : Inv (run step s es) := by
  induction es generalizing s with
  | nil => exact h
  | cons e es ih => exact ih (hstep s e h hok.1) hok.2

/-- What every event keeps, whatever the state, every run keeps. -/
theorem run_keeps (Inv : σ → Prop) (hstep : ∀ s e, Inv s → Inv (step s e)) (h : Inv s)
    (es : List ε) : Inv (run step s es) := by
  induction es generalizing s with
  | nil => exact h
  | cons e es ih => exact ih (hstep s e h)

theorem along_append {es es' : List ε} :
    Along step ok s (es ++ es') ↔ Along step ok s es ∧ Along step ok (run step s es) es' := by
  induction es generalizing s with
  | nil => exact (and_iff_right trivial).symm
  | cons e es ih =>
    show ok s e ∧ Along step ok (step s e) (es ++ es') ↔ (ok s e ∧ _) ∧ _
    rw [ih, and_assoc]
    rfl

theorem along_forall_iff {P : ε → Prop} {es : List ε} :
    Along step (fun _ e => P e) s es ↔ ∀ e ∈ es, P e := by
  induction es generalizing s with
  | nil => exact iff_of_true trivial (fun e he => nomatch he)
  | cons e es ih =>
    rw [List.forall_mem_cons, ← ih (s := step s e)]
    exact Iff.rfl

/-- What holds of every event holds along any run. -/
theorem along_of_forall {P : ε → Prop} {es : List ε} (h : ∀ e ∈ es, P e) :
    Along step (fun _ e => P e) s es :=
  along_forall_iff.mpr h

/-- Events that are `ok` where an invariant holds, and keep it, do what is wanted. -/
theorem along_of {wanted : σ → ε → Prop} (Inv : σ → Prop)
    (hstep : ∀ s e, Inv s → ok s e → wanted s e ∧ Inv (step s e)) {es : List ε} (h : Inv s)
    (hok : Along step ok s es) : Along step wanted s es := by
  induction es generalizing s with
  | nil => trivial
  | cons e es ih =>
    obtain ⟨hwanted, hnext⟩ := hstep s e h hok.1
    exact ⟨hwanted, ih hnext hok.2⟩

theorem along_and {admits : σ → ε → Prop} {es : List ε} :
    Along step (fun s e => admits s e ∧ ok s e) s es ↔
      Along step admits s es ∧ Along step ok s es := by
  induction es generalizing s with
  | nil => exact (and_self_iff).symm
  | cons e es ih =>
    show (admits s e ∧ ok s e) ∧ _ ↔ (admits s e ∧ _) ∧ (ok s e ∧ _)
    rw [ih, and_and_and_comm]

/-- Two conditions that agree wherever an invariant holds agree along a run, if
the events that meet them keep it. -/
theorem along_iff {admits wanted : σ → ε → Prop} (Inv : σ → Prop)
    (hiff : ∀ s e, Inv s → admits s e → (wanted s e ↔ ok s e))
    (hstep : ∀ s e, Inv s → admits s e → ok s e → Inv (step s e)) {es : List ε} (h : Inv s)
    (hadmits : Along step admits s es) : Along step wanted s es ↔ Along step ok s es := by
  induction es generalizing s with
  | nil => exact Iff.rfl
  | cons e es ih =>
    have hhead := hiff s e h hadmits.1
    constructor
    · rintro ⟨hwanted, hrest⟩
      have hok := hhead.mp hwanted
      exact ⟨hok, (ih (hstep s e h hadmits.1 hok) hadmits.2).mp hrest⟩
    · rintro ⟨hok, hrest⟩
      exact ⟨hhead.mpr hok, (ih (hstep s e h hadmits.1 hok) hadmits.2).mpr hrest⟩

/-- Where something bad stays and comes exactly from events that are not `ok`, a run is
`ok` as long as nothing bad has come. -/
theorem along_iff_not (bad : σ → Prop) (hkeep : ∀ s e, bad s → bad (step s e))
    (hiff : ∀ s e, ¬ bad s → (bad (step s e) ↔ ¬ ok s e)) (h : ¬ bad s) (es : List ε) :
    Along step ok s es ↔ ¬ bad (run step s es) := by
  induction es generalizing s with
  | nil => exact iff_of_true trivial h
  | cons e es ih =>
    by_cases hbad : bad (step s e)
    · have hrest : bad (run step (step s e) es) := run_keeps bad hkeep hbad es
      exact iff_of_false (fun hok => (hiff s e h).mp hbad hok.1) (fun hnot => hnot hrest)
    · have hok : ok s e := by
        by_contra hnot
        exact hbad ((hiff s e h).mpr hnot)
      rw [run_cons, ← ih hbad]
      exact and_iff_right hok

end Run
