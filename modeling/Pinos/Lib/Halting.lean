import Mathlib.Computability.StateTransition

/-
Machines that halt.

A machine goes from a configuration to the next one, and halts where there is none.  What it
reaches decides whether it halts, and it does not where it comes back to some set of configurations
again and again.
-/

namespace Halting

open Relation StateTransition

variable {σ : Type} {next : σ → Option σ} {c c' : σ}

def Halts (next : σ → Option σ) (c : σ) : Prop := (eval next c).Dom

theorem halts_iff : Halts next c ↔ ∃ b, Reaches next c b ∧ next b = none := by
  rw [Halts, Part.dom_iff_mem]
  exact exists_congr fun b => mem_eval

theorem halts_iff_of_reaches (h : Reaches next c c') : Halts next c ↔ Halts next c' := by
  rw [Halts, Halts, reaches_eval h]

theorem reaches_of_next (h : next c = some c') : Reaches next c c' := ReflTransGen.single h

/-- A run that halts has finitely many steps. -/
theorem Halts.induction {P : σ → Prop} (h : Halts next c) (hnone : ∀ c, next c = none → P c)
    (hnext : ∀ c c', next c = some c' → P c' → P c) : P c := by
  obtain ⟨b, hreach, hb⟩ := halts_iff.mp h
  refine ReflTransGen.head_induction_on hreach (hnone b hb) ?_
  intro a a' haa' _ ih
  exact hnext a a' haa' ih

/-- A set that is reached again from each of its configurations is never left for good. -/
theorem not_halts_of_returns {S : Set σ} (hS : ∀ c ∈ S, ∃ c' ∈ S, Reaches₁ next c c')
    (hc : c ∈ S) : ¬ Halts next c := by
  intro h
  have hnever : ∀ d ∈ S, ¬ Reaches next c d := by
    refine h.induction (P := fun c => ∀ d ∈ S, ¬ Reaches next c d) ?_ ?_
    · intro c hnone d hd hreach
      rcases ReflTransGen.cases_head hreach with rfl | ⟨e, hnext, -⟩
      · obtain ⟨e, -, hreturn⟩ := hS c hd
        obtain ⟨f, hnext, -⟩ := TransGen.head'_iff.mp hreturn
        rw [hnone] at hnext
        cases hnext
      · rw [hnone] at hnext
        cases hnext
    · intro c c' hnext ih d hd hreach
      rcases ReflTransGen.cases_head hreach with rfl | ⟨e, hstep, hrest⟩
      · obtain ⟨e, he, hreturn⟩ := hS c hd
        exact ih e he (reaches₁_fwd hreturn hnext)
      · obtain rfl : c' = e := Option.some.inj (hnext.symm.trans hstep)
        exact ih d hd hrest
  exact hnever c hc ReflTransGen.refl

end Halting
