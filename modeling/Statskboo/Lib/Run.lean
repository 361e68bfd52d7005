import Mathlib.Tactic.Common

/-!
# Runs of a guarded step function

A system is a step function {lit}`σ → α → Option σ`: a label names the step and
{lean}`none` says that the step is not enabled.  A run executes a list of labels.
The rules below turn a fact about one step into a fact about every run, also
when only the runs whose steps all meet a condition are of interest.

Main results:

- Theorem {lit}`run_invariant`: what every step preserves, every run preserves.
- Theorem {lit}`run_invariant_of_everyStep`: the same for the runs whose steps
  all meet a condition on the state before the step.
- Theorem {lit}`run_simulates`: what follows every step follows every run.
-/

namespace Transition

universe u v w

variable {σ : Type u} {α : Type v} {τ : Type w}

/-- Execute the labels in order; the run is stuck at a step that is not enabled. -/
def run (step : σ → α → Option σ) (s : σ) : List α → Option σ
  | [] => some s
  | a :: as => (step s a).bind fun s' => run step s' as

/-- Every step of the run from {lit}`s` meets {lit}`C` in the state before it. -/
def EveryStep (step : σ → α → Option σ) (C : σ → α → Prop) (s : σ) : List α → Prop
  | [] => True
  | a :: as => C s a ∧ ∀ s', step s a = some s' → EveryStep step C s' as

/-- A condition that can be checked at a step can be checked along a run. -/
instance decidableEveryStep (step : σ → α → Option σ) (C : σ → α → Prop)
    [∀ s a, Decidable (C s a)] (s : σ) (as : List α) : Decidable (EveryStep step C s as) :=
  match as with
  | [] => .isTrue trivial
  | a :: as =>
      match h : step s a with
      | none => decidable_of_iff (C s a)
          ⟨fun hC => ⟨hC, fun s' hs' => by simp [h] at hs'⟩, And.left⟩
      | some s' =>
          have := decidableEveryStep step C s' as
          decidable_of_iff (C s a ∧ EveryStep step C s' as)
            (and_congr_right fun _ =>
              ⟨fun hrest t ht => Option.some.inj (h.symm.trans ht) ▸ hrest,
                fun hall => hall s' h⟩)

variable {step : σ → α → Option σ}

@[simp]
theorem run_nil (s : σ) : run step s [] = some s :=
  rfl

theorem run_cons (s : σ) (a : α) (as : List α) :
    run step s (a :: as) = (step s a).bind fun s' => run step s' as :=
  rfl

/-- A run that starts with a step is that step followed by the rest. -/
theorem run_cons_eq_some {s t : σ} {a : α} {as : List α} :
    run step s (a :: as) = some t ↔ ∃ s', step s a = some s' ∧ run step s' as = some t := by
  rw [run_cons, Option.bind_eq_some_iff]

/-- A run that does not get stuck ends in the state that stands for its end. -/
theorem run_eq_some_getD {s : σ} {as : List α} (h : (run step s as).isSome = true) (d : σ) :
    run step s as = some ((run step s as).getD d) :=
  (Option.getD_of_ne_none (Option.isSome_iff_ne_none.mp h) d).symm

/-- Runs compose. -/
theorem run_append (s : σ) (as bs : List α) :
    run step s (as ++ bs) = (run step s as).bind fun s' => run step s' bs := by
  induction as generalizing s with
  | nil => rfl
  | cons a as ih =>
      rw [List.cons_append, run_cons, run_cons, Option.bind_assoc]
      exact congrArg _ (funext ih)

/-- A run that ends with a step is a run up to it and that step. -/
theorem run_concat_eq_some {s t : σ} {as : List α} {a : α} :
    run step s (as ++ [a]) = some t ↔ ∃ s', run step s as = some s' ∧ step s' a = some t := by
  rw [run_append, Option.bind_eq_some_iff]
  refine exists_congr fun s' => and_congr_right fun _ => ?_
  rw [run_cons]
  cases step s' a with
  | none => rfl
  | some s'' => rfl

/-- What every step that meets the condition preserves, every run of such steps
preserves. -/
theorem run_invariant_of_everyStep {C : σ → α → Prop} {P : σ → Prop}
    (hstep : ∀ s a s', P s → C s a → step s a = some s' → P s')
    {s t : σ} {as : List α} (hs : P s) (hall : EveryStep step C s as)
    (hrun : run step s as = some t) : P t := by
  induction as generalizing s with
  | nil =>
      cases hrun
      exact hs
  | cons a as ih =>
      obtain ⟨s', hs', hrest⟩ := run_cons_eq_some.mp hrun
      exact ih (hstep s a s' hs hall.1 hs') (hall.2 s' hs') hrest

/-- The steps of a run meet a condition when those of its first part do, and those of the rest
from where it leads to. -/
theorem everyStep_append {C : σ → α → Prop} {s : σ} {as bs : List α} :
    EveryStep step C s (as ++ bs) ↔ EveryStep step C s as ∧
      ∀ t, run step s as = some t → EveryStep step C t bs := by
  induction as generalizing s with
  | nil => simp [EveryStep]
  | cons a as ih =>
      simp only [List.cons_append, EveryStep, ih, run_cons_eq_some]
      constructor
      · rintro ⟨hC, hrest⟩
        refine ⟨⟨hC, fun s' hs' => (hrest s' hs').1⟩, ?_⟩
        rintro t ⟨s', hs', hrun⟩
        exact (hrest s' hs').2 t hrun
      · rintro ⟨⟨hC, hfirst⟩, hsecond⟩
        exact ⟨hC, fun s' hs' => ⟨hfirst s' hs', fun t hrun => hsecond t ⟨s', hs', hrun⟩⟩⟩

theorem everyStep_true (s : σ) (as : List α) : EveryStep step (fun _ _ => True) s as := by
  induction as generalizing s with
  | nil => trivial
  | cons a as ih => exact ⟨trivial, fun s' _ => ih s'⟩

/-- What every step preserves, every run preserves. -/
theorem run_invariant {P : σ → Prop}
    (hstep : ∀ s a s', P s → step s a = some s' → P s')
    {s t : σ} {as : List α} (hs : P s) (hrun : run step s as = some t) : P t :=
  run_invariant_of_everyStep (fun s a s' hP _ => hstep s a s' hP) hs
    (everyStep_true s as) hrun

/-- A system that a function follows step by step is followed along every run. -/
theorem run_simulates {next : τ → α → τ} {R : σ → τ → Prop}
    (hstep : ∀ s t a s', R s t → step s a = some s' → R s' (next t a))
    {s s' : σ} {t : τ} {as : List α} (hR : R s t) (hrun : run step s as = some s') :
    R s' (as.foldl next t) := by
  induction as generalizing s t with
  | nil =>
      cases hrun
      exact hR
  | cons a as ih =>
      obtain ⟨s₁, hs₁, hrest⟩ := run_cons_eq_some.mp hrun
      exact ih (hstep s t a s₁ hR hs₁) hrest

end Transition
