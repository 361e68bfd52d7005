import Mathlib.Algebra.Order.Field.Basic
import Mathlib.Algebra.Order.Field.Rat
import Mathlib.Data.Finset.Card
import Mathlib.Tactic.Linarith
import Mathlib.Tactic.NormNum
import Mathlib.Tactic.Positivity

/-!
# The Jaccard index

The Jaccard index of two finite sets is the share of their union that they have in common,
and zero when one of them is empty.

Main results:

- Theorem {lit}`index_comm`, {lit}`index_nonneg` and {lit}`index_le_one`: it is symmetric and
  lies between zero and one.
- Theorem {lit}`index_eq_one_iff`: it is one exactly for equal sets that are not empty.
- Theorem {lit}`index_le_of_ne_one`: the number of elements keeps the other indices away from one.
- Theorem {lit}`index_image`: renaming the elements does not change it.
-/

namespace Jaccard

universe u v

variable {α : Type u} {β : Type v} [DecidableEq α] [DecidableEq β]

/-- The Jaccard index. -/
def index (A B : Finset α) : ℚ :=
  if A = ∅ ∨ B = ∅ then 0 else ((A ∩ B).card : ℚ) / (A ∪ B).card

variable {A B : Finset α}

theorem index_of_empty (h : A = ∅ ∨ B = ∅) : index A B = 0 :=
  if_pos h

/-- The denominator is not zero. -/
theorem card_union_pos (hA : A ≠ ∅) : 0 < (A ∪ B).card := by
  rw [Finset.card_pos]
  exact (Finset.nonempty_iff_ne_empty.mpr hA).mono Finset.subset_union_left

theorem inter_subset_union : A ∩ B ⊆ A ∪ B :=
  Finset.inter_subset_left.trans Finset.subset_union_left

theorem index_comm (A B : Finset α) : index A B = index B A := by
  unfold index
  rw [Finset.inter_comm, Finset.union_comm, if_congr or_comm rfl rfl]

theorem index_nonneg (A B : Finset α) : 0 ≤ index A B := by
  unfold index
  split_ifs
  · exact le_refl 0
  · exact div_nonneg (Nat.cast_nonneg _) (Nat.cast_nonneg _)

theorem index_le_one (A B : Finset α) : index A B ≤ 1 := by
  unfold index
  split_ifs with hempty
  · exact zero_le_one
  · have hpos : (0 : ℚ) < (A ∪ B).card :=
      Nat.cast_pos.mpr (card_union_pos (not_or.mp hempty).1)
    rw [div_le_one hpos]
    exact Nat.cast_le.mpr (Finset.card_le_card inter_subset_union)

/-- Two sets have as many elements in common as they have in all exactly when they are equal. -/
theorem card_inter_eq_card_union_iff : (A ∩ B).card = (A ∪ B).card ↔ A = B := by
  constructor
  · intro hcard
    have hsame : A ∩ B = A ∪ B :=
      Finset.eq_of_subset_of_card_le inter_subset_union hcard.ge
    apply Finset.Subset.antisymm
    · exact (Finset.subset_union_left.trans hsame.ge).trans Finset.inter_subset_right
    · exact (Finset.subset_union_right.trans hsame.ge).trans Finset.inter_subset_left
  · rintro rfl
    rw [Finset.inter_self, Finset.union_self]

/-- The index is one exactly for equal sets that are not empty. -/
theorem index_eq_one_iff : index A B = 1 ↔ A ≠ ∅ ∧ A = B := by
  by_cases hempty : A = ∅ ∨ B = ∅
  · rw [index_of_empty hempty]
    refine ⟨fun h => absurd h zero_ne_one, fun ⟨hA, heq⟩ => ?_⟩
    exact absurd (hempty.resolve_left hA) (heq ▸ hA)
  · obtain ⟨hA, -⟩ := not_or.mp hempty
    have hpos : ((A ∪ B).card : ℚ) ≠ 0 := Nat.cast_ne_zero.mpr (card_union_pos hA).ne'
    rw [index, if_neg hempty, div_eq_one_iff_eq hpos, Nat.cast_inj,
      card_inter_eq_card_union_iff]
    exact (and_iff_right hA).symm

/-- An index that is not one leaves room for an element that is not common. -/
theorem index_le_of_ne_one {n : Nat} (hcard : (A ∪ B).card ≤ n + 1) (hne : index A B ≠ 1) :
    index A B ≤ n / (n + 1 : ℚ) := by
  by_cases hempty : A = ∅ ∨ B = ∅
  · rw [index_of_empty hempty]
    positivity
  · obtain ⟨hA, -⟩ := not_or.mp hempty
    have hlt : (A ∩ B).card < (A ∪ B).card := by
      refine lt_of_le_of_ne (Finset.card_le_card inter_subset_union) fun hsame => hne ?_
      exact index_eq_one_iff.mpr ⟨hA, card_inter_eq_card_union_iff.mp hsame⟩
    have hpos : (0 : ℚ) < (A ∪ B).card := Nat.cast_pos.mpr (card_union_pos hA)
    have hcross : (A ∩ B).card * (n + 1) ≤ n * (A ∪ B).card := by
      have hmul := Nat.mul_le_mul_right (n + 1) (Nat.succ_le_of_lt hlt)
      nlinarith
    rw [index, if_neg hempty, div_le_div_iff₀ hpos (by positivity)]
    exact_mod_cast hcross

/-- Renaming the elements does not change the index. -/
theorem index_image {f : α → β} (hf : Set.InjOn f ↑(A ∪ B)) :
    index (A.image f) (B.image f) = index A B := by
  have hinter : A.image f ∩ B.image f = (A ∩ B).image f :=
    (Finset.image_inter_of_injOn A B (by rwa [← Finset.coe_union])).symm
  unfold index
  rw [hinter, ← Finset.image_union, Finset.card_image_of_injOn hf,
    Finset.card_image_of_injOn (hf.mono (Finset.coe_subset.mpr inter_subset_union)),
    if_congr (or_congr Finset.image_eq_empty Finset.image_eq_empty) rfl rfl]

end Jaccard
