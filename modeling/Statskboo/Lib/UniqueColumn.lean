import Mathlib.Data.List.Nodup
import Mathlib.Logic.Function.Basic
import Mathlib.Tactic.Common

/-!
# A column without repeated values

A table has a column whose values are unique where they are present.  Rows are upserted
one after another; an upsert that brings no value keeps the one that is stored, and an
upsert is rejected when another key holds its value.

Main results:

- Theorem {lit}`unique_coalesce`: an accepted upsert keeps the values unique.
- Theorem {lit}`allAccepted_iff`: which rows are all accepted, said of the rows and of the
  column before them.
-/

namespace UniqueColumn

universe u v

variable {κ : Type u} {σ : Type v}

/-- No two keys hold the same value. -/
def Unique (held : κ → Option σ) : Prop :=
  ∀ k k' s, held k = some s → held k' = some s → k = k'

/-- Each value is given to no earlier key, and whoever else holds it before the first upsert
is given another value by an earlier row. -/
def Free (held : κ → Option σ) (rows : List (κ × Option σ)) : Prop :=
  ∀ before k s after, rows = before ++ (k, some s) :: after →
    (∀ r ∈ before, r.2 ≠ some s) ∧
      ∀ k', k' ≠ k → held k' = some s → ∃ r ∈ before, r.1 = k' ∧ r.2 ≠ none

/-- No other key holds the value that a key is to have. -/
def Accepts (held : κ → Option σ) (k : κ) (given : Option σ) : Prop :=
  ∀ k' s, k' ≠ k → given.or (held k) = some s → held k' ≠ some s

variable [DecidableEq κ]

/-- The column after an upsert. -/
def coalesce (held : κ → Option σ) (k : κ) (given : Option σ) : κ → Option σ :=
  Function.update held k (given.or (held k))

/-- Every one of the upserts is accepted. -/
def AllAccepted : (κ → Option σ) → List (κ × Option σ) → Prop
  | _, [] => True
  | held, r :: rows => Accepts held r.1 r.2 ∧ AllAccepted (coalesce held r.1 r.2) rows

variable {held : κ → Option σ} {k : κ} {given : Option σ} {rows : List (κ × Option σ)}

theorem coalesce_self : coalesce held k given k = given.or (held k) :=
  Function.update_self ..

theorem coalesce_of_ne {k' : κ} (h : k' ≠ k) : coalesce held k given k' = held k' :=
  Function.update_of_ne h ..

/-- An accepted upsert keeps the values unique. -/
theorem unique_coalesce (h : Unique held) (haccepts : Accepts held k given) :
    Unique (coalesce held k given) := by
  intro k₁ k₂ s h₁ h₂
  by_cases hk₁ : k₁ = k
  · by_cases hk₂ : k₂ = k
    · exact hk₁.trans hk₂.symm
    · rw [hk₁, coalesce_self] at h₁
      rw [coalesce_of_ne hk₂] at h₂
      exact absurd h₂ (haccepts k₂ s hk₂ h₁)
  · by_cases hk₂ : k₂ = k
    · rw [hk₂, coalesce_self] at h₂
      rw [coalesce_of_ne hk₁] at h₁
      exact absurd h₁ (haccepts k₁ s hk₁ h₂)
    · rw [coalesce_of_ne hk₁] at h₁
      rw [coalesce_of_ne hk₂] at h₂
      exact h k₁ k₂ s h₁ h₂

omit [DecidableEq κ] in
/-- An upsert without a value is always accepted, since the value that it keeps is unique. -/
theorem accepts_iff (h : Unique held) :
    Accepts held k given ↔ ∀ k' s, k' ≠ k → given = some s → held k' ≠ some s := by
  constructor
  · intro haccepts k' s hk' hs
    exact haccepts k' s hk' (by rw [hs]; rfl)
  · intro hfree k' s hk' hs hheld
    cases given with
    | none => exact hk' (h k' k s hheld hs)
    | some s' =>
        cases hs
        exact hfree k' s hk' rfl hheld

omit [DecidableEq κ] in
/-- A key that the rows do not have is the key of no row of them. -/
theorem ne_of_split {before after : List (κ × Option σ)} {r : κ × Option σ}
    (hk : k ∉ rows.map Prod.fst) (hsplit : rows = before ++ r :: after) :
    k ≠ r.1 ∧ ∀ r' ∈ before, r'.1 ≠ k := by
  subst hsplit
  simp only [List.map_append, List.map_cons, List.mem_append, List.mem_cons, not_or] at hk
  exact ⟨hk.2.1, fun r' hr' heq => hk.1 (heq ▸ List.mem_map_of_mem hr')⟩

omit [DecidableEq κ] in
/-- The first row is accepted. -/
theorem Free.head (hfree : Free held ((k, given) :: rows)) (h : Unique held) :
    Accepts held k given := by
  rw [accepts_iff h]
  intro k' s hk' hs hheld
  subst hs
  obtain ⟨r, hr, -⟩ := (hfree [] k s rows rfl).2 k' hk' hheld
  cases hr

/-- The other rows are free once the first one is written. -/
theorem Free.tail (hfree : Free held ((k, given) :: rows)) (hk : k ∉ rows.map Prod.fst) :
    Free (coalesce held k given) rows := by
  intro before k₁ s after hsplit
  obtain ⟨hne, hkeys⟩ := ne_of_split hk hsplit
  obtain ⟨hgiven, hholders⟩ := hfree ((k, given) :: before) k₁ s after (by rw [hsplit]; rfl)
  refine ⟨fun r hr => hgiven r (List.mem_cons_of_mem _ hr), fun k' hk' hheld => ?_⟩
  by_cases hkk : k' = k
  · -- the row before keeps its value only when it is given none
    exfalso
    rw [hkk, coalesce_self] at hheld
    cases given with
    | some s' => exact hgiven _ List.mem_cons_self hheld
    | none =>
        obtain ⟨r, hr, hkey, hsome⟩ := hholders k hne hheld
        rcases List.mem_cons.mp hr with rfl | hr
        · exact hsome rfl
        · exact hkeys r hr hkey
  · rw [coalesce_of_ne hkk] at hheld
    obtain ⟨r, hr, hkey, hsome⟩ := hholders k' hk' hheld
    rcases List.mem_cons.mp hr with rfl | hr
    · exact absurd hkey.symm hkk
    · exact ⟨r, hr, hkey, hsome⟩

/-- A row that is accepted can stand before rows that are free after it. -/
theorem Free.cons (hfree : Free (coalesce held k given) rows) (h : Unique held)
    (haccepts : Accepts held k given) (hk : k ∉ rows.map Prod.fst) :
    Free held ((k, given) :: rows) := by
  rw [accepts_iff h] at haccepts
  intro before k₁ s after hsplit
  cases before with
  | nil =>
      obtain ⟨hhead, -⟩ := List.cons.inj hsplit
      cases hhead
      exact ⟨fun r hr => (nomatch hr), fun k' hk' hheld => absurd hheld (haccepts k' s hk' rfl)⟩
  | cons r before =>
      obtain ⟨rfl, htail⟩ := List.cons.inj hsplit
      obtain ⟨hne, hkeys⟩ := ne_of_split hk htail
      obtain ⟨hgiven, hholders⟩ := hfree before k₁ s after htail
      -- nothing before may hold the value any more
      have hself : given.or (held k) ≠ some s := by
        intro hheld
        obtain ⟨r, hr, hkey, -⟩ := hholders k hne (coalesce_self.trans hheld)
        exact hkeys r hr hkey
      refine ⟨fun r hr => ?_, fun k' hk' hheld => ?_⟩
      · rcases List.mem_cons.mp hr with rfl | hr
        · rintro rfl
          exact hself rfl
        · exact hgiven r hr
      · by_cases hkk : k' = k
        · refine ⟨(k, given), List.mem_cons_self, hkk.symm, ?_⟩
          rintro rfl
          exact hself (hkk ▸ hheld)
        · obtain ⟨r, hr, hkey, hsome⟩ := hholders k' hk' ((coalesce_of_ne hkk).trans hheld)
          exact ⟨r, List.mem_cons_of_mem _ hr, hkey, hsome⟩

/-- The condition for a row and what follows it. -/
theorem free_cons (h : Unique held) (hk : k ∉ rows.map Prod.fst) :
    Free held ((k, given) :: rows) ↔ Accepts held k given ∧ Free (coalesce held k given) rows := by
  constructor
  · exact fun hfree => ⟨hfree.head h, hfree.tail hk⟩
  · exact fun hsplit => hsplit.2.cons h hsplit.1 hk

/-- Rows of different keys are all accepted exactly when their values are free. -/
theorem allAccepted_iff (h : Unique held) (hnodup : (rows.map Prod.fst).Nodup) :
    AllAccepted held rows ↔ Free held rows := by
  induction rows generalizing held with
  | nil =>
      refine iff_of_true trivial fun before k s after hsplit => ?_
      cases before <;> cases hsplit
  | cons r rows ih =>
      rw [List.map_cons, List.nodup_cons] at hnodup
      rw [free_cons h hnodup.1]
      exact and_congr_right fun haccepts => ih (unique_coalesce h haccepts) hnodup.2

end UniqueColumn
