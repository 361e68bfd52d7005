import Mathlib.Algebra.Order.Ring.Int
import Statskboo.Lib.Run

/-!
# Replicas with a periodic full refresh

A replica copies a source that changes on its own.  Most of its cycles read a part of the
source; a cycle reads all of it when no full cycle is recorded or the recorded one is older
than an interval.  What is recorded is the time at the end of the full cycle, a little later
than the time at which it read the source.

Main results:

- Theorem {lit}`run_inv`: what the record stands for, in every state that is reached.
- Theorem {lit}`run_holds_of_due`: what the source shows from a time on is in the copy once a
  cycle has succeeded that began an interval, and the duration of a cycle, after that time.
-/

namespace Refresh

open Transition

universe u v w

variable {σ : Type u} {τ : Type v} {α : Type w}

/-- A replica: the copy, the record of the last full cycle, and the time. -/
structure Replica (σ : Type u) where
  copy : σ
  recorded : Option Int
  clock : Int

/-- One cycle: when it decides how much to read, when it reads, when it ends, whether it reads all
of the source, and whether it succeeds. -/
structure Cycle where
  decided : Int
  read : Int
  ended : Int
  full : Prop
  succeeded : Prop

/-- A full cycle is due. -/
def Due (interval : Int) (recorded : Option Int) (now : Int) : Prop :=
  ∀ last ∈ recorded, interval ≤ now - last

/-- A cycle comes after what went before, takes its steps in order, and ends soon after it has
read the source. -/
structure Timely (delay : Int) (s : Replica σ) (c : Cycle) : Prop where
  clock_le : s.clock ≤ c.decided
  decided_le : c.decided ≤ c.read
  read_le : c.read ≤ c.ended
  ended_le : c.ended ≤ c.read + delay

/-- What a cycle does, as far as a property of the copy goes that the source warrants from a
time on. -/
structure Cycles (P : σ → Prop) (since interval : Int) (s : Replica σ) (c : Cycle)
    (s' : Replica σ) : Prop where
  clock : s'.clock = c.ended
  due : Due interval s.recorded c.decided → c.full
  keeps : since ≤ c.read → P s.copy → P s'.copy
  copies : c.succeeded → c.full → since ≤ c.read → P s'.copy
  recorded : s'.recorded = s.recorded ∨
    c.succeeded ∧ c.full ∧ s'.recorded = some c.ended

variable {P : σ → Prop} {since interval delay : Int} {s s' : Replica σ} {c : Cycle}

/-- A record is not from the future, and one that is late enough stands for the property. -/
structure Inv (P : σ → Prop) (since delay : Int) (s : Replica σ) : Prop where
  le_clock : ∀ last ∈ s.recorded, last ≤ s.clock
  holds : ∀ last ∈ s.recorded, since + delay ≤ last → P s.copy

/-- A cycle keeps what the record stands for. -/
theorem Inv.cycle (h : Inv P since delay s) (hdelay : 0 ≤ delay) (htimely : Timely delay s c)
    (hcycle : Cycles P since interval s c s') : Inv P since delay s' := by
  have hclock : s.clock ≤ s'.clock := by
    rw [hcycle.clock]
    exact htimely.clock_le.trans (htimely.decided_le.trans htimely.read_le)
  rcases hcycle.recorded with hsame | ⟨hsucceeded, hfull, hnew⟩
  · constructor
    · rw [hsame]
      exact fun last hlast => (h.le_clock last hlast).trans hclock
    · rw [hsame]
      intro last hlast hlate
      have hread : last ≤ c.read :=
        (h.le_clock last hlast).trans (htimely.clock_le.trans htimely.decided_le)
      exact hcycle.keeps (by omega) (h.holds last hlast hlate)
  · constructor
    · rw [hnew]
      rintro last ⟨⟩
      exact hcycle.clock.ge
    · rw [hnew]
      rintro last ⟨⟩ hlate
      have hended := htimely.ended_le
      exact hcycle.copies hsucceeded hfull (by omega)

/-- A cycle that succeeds late enough leaves the property: either it reads all of the source, or
the record is late enough. -/
theorem holds_of_succeeded (h : Inv P since delay s) (hinterval : 0 ≤ interval)
    (hdelay : 0 ≤ delay) (htimely : Timely delay s c) (hcycle : Cycles P since interval s c s')
    (hsucceeded : c.succeeded) (hlate : since + delay + interval ≤ c.decided) : P s'.copy := by
  have hdecided := htimely.decided_le
  have hread : since ≤ c.read := by omega
  by_cases hdue : Due interval s.recorded c.decided
  · exact hcycle.copies hsucceeded (hcycle.due hdue) hread
  · obtain ⟨last, hlast, hyoung⟩ : ∃ last ∈ s.recorded, ¬interval ≤ c.decided - last := by
      unfold Due at hdue
      push Not at hdue
      obtain ⟨last, hlast, hlt⟩ := hdue
      exact ⟨last, hlast, not_le.mpr hlt⟩
    exact hcycle.keeps hread (h.holds last hlast (by omega))

/-- The property stays in the copy. -/
theorem holds_cycle (hP : P s.copy) (hclock : since ≤ s.clock) (htimely : Timely delay s c)
    (hcycle : Cycles P since interval s c s') : P s'.copy ∧ since ≤ s'.clock := by
  have hdecided : since ≤ c.decided := hclock.trans htimely.clock_le
  have hread : since ≤ c.read := hdecided.trans htimely.decided_le
  refine ⟨hcycle.keeps hread hP, ?_⟩
  rw [hcycle.clock]
  exact hread.trans htimely.read_le

/-! ## Runs -/

section Runs

/-- Each step of the system is a cycle of the replica that it has, or leaves the replica
alone. -/
structure Refreshes (P : σ → Prop) (since interval delay : Int) (J : τ → Prop)
    (step : τ → α → Option τ) (C : τ → α → Prop) (replica : τ → Replica σ)
    (cycle : τ → α → Option Cycle) : Prop where
  keeps : ∀ t a t', J t → C t a → step t a = some t' → J t'
  idle : ∀ t a t', J t → C t a → step t a = some t' → cycle t a = none → replica t' = replica t
  cycles : ∀ t a t' c, J t → C t a → step t a = some t' → cycle t a = some c →
    Timely delay (replica t) c ∧ Cycles P since interval (replica t) c (replica t')

variable {J : τ → Prop} {step : τ → α → Option τ} {C : τ → α → Prop} {replica : τ → Replica σ}
  {cycle : τ → α → Option Cycle} {t t' t₁ : τ} {a : α} {as before after : List α}

/-- What the record stands for, in every state that is reached. -/
theorem run_inv (hrefreshes : Refreshes P since interval delay J step C replica cycle)
    (hdelay : 0 ≤ delay) (hJ : J t) (h : Inv P since delay (replica t))
    (hall : EveryStep step C t as) (hrun : run step t as = some t') :
    J t' ∧ Inv P since delay (replica t') := by
  refine run_invariant_of_everyStep (P := fun t => J t ∧ Inv P since delay (replica t))
    ?_ ⟨hJ, h⟩ hall hrun
  rintro t a t' ⟨hJ, hinv⟩ hC hnext
  refine ⟨hrefreshes.keeps t a t' hJ hC hnext, ?_⟩
  cases hcycle : cycle t a with
  | none =>
      rw [hrefreshes.idle t a t' hJ hC hnext hcycle]
      exact hinv
  | some c =>
      obtain ⟨htimely, hcycles⟩ := hrefreshes.cycles t a t' c hJ hC hnext hcycle
      exact hinv.cycle hdelay htimely hcycles

/-- Once the property is in the copy, it is in every later one. -/
theorem run_holds (hrefreshes : Refreshes P since interval delay J step C replica cycle)
    (hJ : J t) (hP : P (replica t).copy) (hclock : since ≤ (replica t).clock)
    (hall : EveryStep step C t as) (hrun : run step t as = some t') : P (replica t').copy := by
  have hinv : J t' ∧ P (replica t').copy ∧ since ≤ (replica t').clock := by
    refine run_invariant_of_everyStep
      (P := fun t => J t ∧ P (replica t).copy ∧ since ≤ (replica t).clock)
      ?_ ⟨hJ, hP, hclock⟩ hall hrun
    rintro t a t' ⟨hJ, hP, hclock⟩ hC hnext
    refine ⟨hrefreshes.keeps t a t' hJ hC hnext, ?_⟩
    cases hcycle : cycle t a with
    | none =>
        rw [hrefreshes.idle t a t' hJ hC hnext hcycle]
        exact ⟨hP, hclock⟩
    | some c =>
        obtain ⟨htimely, hcycles⟩ := hrefreshes.cycles t a t' c hJ hC hnext hcycle
        exact holds_cycle hP hclock htimely hcycles
  exact hinv.2.1

/-- What the source shows from a time on is in the copy once a cycle has succeeded that began an
interval, and the duration of a cycle, after that time; and it stays there. -/
theorem run_holds_of_due (hrefreshes : Refreshes P since interval delay J step C replica cycle)
    (hinterval : 0 ≤ interval) (hdelay : 0 ≤ delay) (hJ : J t)
    (h : Inv P since delay (replica t)) (hall : EveryStep step C t (before ++ a :: after))
    (hbefore : run step t before = some t₁) (hcycle : cycle t₁ a = some c)
    (hsucceeded : c.succeeded) (hlate : since + delay + interval ≤ c.decided)
    (hrun : run step t (before ++ a :: after) = some t') : P (replica t').copy := by
  obtain ⟨hallBefore, hallRest⟩ := everyStep_append.mp hall
  obtain ⟨hC, hallAfter⟩ := hallRest t₁ hbefore
  rw [run_append, hbefore, Option.bind_some] at hrun
  obtain ⟨t₂, hstep, hafter⟩ := run_cons_eq_some.mp hrun
  obtain ⟨hJ₁, hinv⟩ := run_inv hrefreshes hdelay hJ h hallBefore hbefore
  obtain ⟨htimely, hcycles⟩ := hrefreshes.cycles t₁ a t₂ c hJ₁ hC hstep hcycle
  have hP := holds_of_succeeded hinv hinterval hdelay htimely hcycles hsucceeded hlate
  have hclock : since ≤ (replica t₂).clock := by
    have hdecided := htimely.decided_le
    have hread := htimely.read_le
    rw [hcycles.clock]
    omega
  exact run_holds hrefreshes (hrefreshes.keeps t₁ a t₂ hJ₁ hC hstep) hP hclock
    (hallAfter t₂ hstep) hafter

end Runs

end Refresh
