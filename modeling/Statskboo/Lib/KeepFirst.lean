import Mathlib.Data.List.Basic
import Mathlib.Data.List.Nodup
import Mathlib.Tactic.Common

/-!
# The first entry of each key

A list is passed through from left to right, and an entry is kept unless its key was
seen before.

Main results:

- Theorem {lit}`nodup_map_keepFirst`: no two of the kept entries have the same key.
- Theorem {lit}`mem_keepFirst_iff`: an entry is kept exactly at the first place of its key.
- Theorem {lit}`keepFirst_append`: the second part of a list keeps the keys that are new
  to the first part.
-/

namespace KeepFirst

universe u v

variable {α : Type u} {κ : Type v} [DecidableEq κ]

/-- Keep the entries whose keys are not seen before. -/
def keepFirst (key : α → κ) : List α → List κ → List α
  | [], _ => []
  | a :: l, seen =>
      if key a ∈ seen then keepFirst key l seen else a :: keepFirst key l (key a :: seen)

variable {key : α → κ} {l : List α} {seen seen' : List κ} {a : α}

/-- What is kept is in the order of the list. -/
theorem keepFirst_sublist (l : List α) (seen : List κ) : (keepFirst key l seen).Sublist l := by
  induction l generalizing seen with
  | nil => exact List.Sublist.refl []
  | cons a l ih =>
      rw [keepFirst]
      split_ifs
      · exact (ih seen).cons a
      · exact (ih (key a :: seen)).cons_cons a

/-- An entry is kept exactly at the first place of its key. -/
theorem mem_keepFirst_iff :
    a ∈ keepFirst key l seen ↔
      key a ∉ seen ∧ ∃ pre post, l = pre ++ a :: post ∧ ∀ b ∈ pre, key b ≠ key a := by
  induction l generalizing seen with
  | nil => simp [keepFirst]
  | cons c l ih =>
      constructor
      · intro h
        rw [keepFirst] at h
        split_ifs at h with hc
        · obtain ⟨hnew, pre, post, rfl, hpre⟩ := ih.mp h
          refine ⟨hnew, c :: pre, post, rfl, ?_⟩
          rintro b (_ | ⟨_, hb⟩) heq
          · exact hnew (heq ▸ hc)
          · exact hpre b hb heq
        · rcases List.mem_cons.mp h with rfl | h
          · exact ⟨hc, [], l, rfl, by simp⟩
          · obtain ⟨hnew, pre, post, rfl, hpre⟩ := ih.mp h
            rw [List.mem_cons, not_or] at hnew
            refine ⟨hnew.2, c :: pre, post, rfl, ?_⟩
            rintro b (_ | ⟨_, hb⟩) heq
            · exact hnew.1 heq.symm
            · exact hpre b hb heq
      · rintro ⟨hnew, pre, post, heq, hpre⟩
        rw [keepFirst]
        cases pre with
        | nil =>
            obtain ⟨rfl, -⟩ := List.cons.inj heq
            rw [if_neg hnew]
            exact List.mem_cons_self
        | cons b pre =>
            obtain ⟨rfl, rfl⟩ := List.cons.inj heq
            have hne : key c ≠ key a := hpre c List.mem_cons_self
            have hrest : ∀ b ∈ pre, key b ≠ key a := fun b hb => hpre b (List.mem_cons_of_mem c hb)
            split_ifs
            · exact ih.mpr ⟨hnew, pre, post, rfl, hrest⟩
            · refine List.mem_cons_of_mem c (ih.mpr ⟨?_, pre, post, rfl, hrest⟩)
              rw [List.mem_cons, not_or]
              exact ⟨hne.symm, hnew⟩

/-- No two of the kept entries have the same key. -/
theorem nodup_map_keepFirst (l : List α) (seen : List κ) :
    ((keepFirst key l seen).map key).Nodup := by
  induction l generalizing seen with
  | nil => exact List.nodup_nil
  | cons a l ih =>
      rw [keepFirst]
      split_ifs
      · exact ih seen
      · rw [List.map_cons, List.nodup_cons]
        refine ⟨fun hmem => ?_, ih (key a :: seen)⟩
        obtain ⟨b, hb, heq⟩ := List.mem_map.mp hmem
        exact (mem_keepFirst_iff.mp hb).1 (heq ▸ List.mem_cons_self)

/-- Every key is seen before or kept with its first entry. -/
theorem mem_map_keepFirst {k : κ} :
    k ∈ (keepFirst key l seen).map key ↔ k ∈ l.map key ∧ k ∉ seen := by
  induction l generalizing seen with
  | nil => simp [keepFirst]
  | cons a l ih =>
      rw [keepFirst, List.map_cons, List.mem_cons]
      split_ifs with ha
      · rw [ih]
        constructor
        · exact fun h => ⟨Or.inr h.1, h.2⟩
        · rintro ⟨rfl | h, hnew⟩
          · exact absurd ha hnew
          · exact ⟨h, hnew⟩
      · rw [List.map_cons, List.mem_cons, ih, List.mem_cons, not_or]
        constructor
        · rintro (rfl | ⟨h, -, hnew⟩)
          · exact ⟨Or.inl rfl, ha⟩
          · exact ⟨Or.inr h, hnew⟩
        · rintro ⟨hk, hnew⟩
          by_cases hka : k = key a
          · exact Or.inl hka
          · exact Or.inr ⟨hk.resolve_left hka, hka, hnew⟩

/-- It matters which keys were seen, and not in which order. -/
theorem keepFirst_congr (h : ∀ k, k ∈ seen ↔ k ∈ seen') :
    keepFirst key l seen = keepFirst key l seen' := by
  induction l generalizing seen seen' with
  | nil => rfl
  | cons a l ih =>
      have hcons : ∀ k, k ∈ key a :: seen ↔ k ∈ key a :: seen' := by
        intro k
        rw [List.mem_cons, List.mem_cons, h]
      rw [keepFirst, keepFirst, ih h, ih hcons]
      simp only [h]

/-- The second part of a list keeps the keys that are new to the first part. -/
theorem keepFirst_append (l l' : List α) (seen : List κ) :
    keepFirst key (l ++ l') seen =
      keepFirst key l seen ++ keepFirst key l' (l.map key ++ seen) := by
  induction l generalizing seen with
  | nil => rfl
  | cons a l ih =>
      rw [List.cons_append, keepFirst, keepFirst]
      split_ifs with ha
      · rw [ih]
        congr 1
        refine keepFirst_congr fun k => ?_
        rw [List.map_cons, List.cons_append, List.mem_cons, List.mem_append]
        constructor
        · exact Or.inr
        · rintro (rfl | h)
          · exact Or.inr ha
          · exact h
      · rw [ih, List.cons_append]
        congr 2
        refine keepFirst_congr fun k => ?_
        simp only [List.map_cons, List.cons_append, List.mem_append, List.mem_cons]
        exact or_left_comm

/-- Nothing is kept exactly when all keys were seen. -/
theorem keepFirst_eq_nil_iff : keepFirst key l seen = [] ↔ ∀ a ∈ l, key a ∈ seen := by
  constructor
  · intro h a ha
    by_contra hnew
    have hmem : key a ∈ (keepFirst key l seen).map key :=
      mem_map_keepFirst.mpr ⟨List.mem_map_of_mem ha, hnew⟩
    rw [h] at hmem
    cases hmem
  · intro h
    rw [List.eq_nil_iff_forall_not_mem]
    intro a ha
    exact (mem_keepFirst_iff.mp ha).1 (h a ((keepFirst_sublist l seen).subset ha))

end KeepFirst
