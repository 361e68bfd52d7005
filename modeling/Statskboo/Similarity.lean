import Statskboo.Canon
import Statskboo.Lib.Jaccard
import Statskboo.Lib.Words

/-!
# What the similarity says

The similarity of two trigram sets is the share of trigrams that they have in common, by one
merge of the two ascending lists.  It is one exactly for equal sets that are not empty; a set is
empty when the name has none of the characters that trigrams are built from.

Main results:

- Theorem {lit}`intersectionLoop_eq`: the merge counts the common elements.
- Theorem {lit}`similarity_eq_index`: the similarity is the Jaccard index of the two sets.
- Theorem {lit}`TrigramSet.similarity_eq_one_iff`: the sets of similarity one are the equal ones.
- Theorem {lit}`trigrams_eq_nil_iff`: which names have no trigrams.
-/

namespace Statskboo
namespace Canon

open Text

/-! ## The merge -/

/-- The merge of two ascending lists counts their common elements. -/
theorem intersectionLoop_eq {fuel : Nat} {a b : List Trigram} (n : Nat) (ha : a.Pairwise (· < ·))
    (hb : b.Pairwise (· < ·)) (hfuel : a.length + b.length ≤ fuel) :
    intersectionLoop fuel a b n = n + (a.filter (· ∈ b)).length := by
  induction fuel generalizing a b n with
  | zero =>
      have hnil : a = [] := List.eq_nil_of_length_eq_zero (by omega)
      rw [hnil]
      rfl
  | succ fuel ih =>
      cases a with
      | nil => rfl
      | cons x xs =>
          cases b with
          | nil => simp [intersectionLoop]
          | cons y ys =>
              rw [List.length_cons, List.length_cons] at hfuel
              obtain ⟨hx, hxs⟩ := List.pairwise_cons.mp ha
              obtain ⟨hy, hys⟩ := List.pairwise_cons.mp hb
              rw [intersectionLoop]
              rcases lt_trichotomy x y with hlt | heq | hgt
              · -- the smaller head is not in the other list
                have hnot : x ∉ y :: ys := by
                  intro hmem
                  rcases List.mem_cons.mp hmem with heq | hmem
                  · exact hlt.ne heq
                  · exact (hlt.trans (hy x hmem)).false
                rw [if_neg hlt.ne, if_pos hlt, ih n hxs hb (by rw [List.length_cons]; omega),
                  List.filter_cons_of_neg (by simpa using hnot)]
              · subst heq
                have hsame : xs.filter (· ∈ x :: ys) = xs.filter (· ∈ ys) := by
                  apply List.filter_congr
                  intro z hz
                  simp [(hx z hz).ne']
                rw [if_pos rfl, ih (n + 1) hxs hys (by omega),
                  List.filter_cons_of_pos (by simp), List.length_cons, hsame]
                omega
              · have hsame : (x :: xs).filter (· ∈ y :: ys) = (x :: xs).filter (· ∈ ys) := by
                  apply List.filter_congr
                  intro z hz
                  have hne : z ≠ y := by
                    rcases List.mem_cons.mp hz with rfl | hz
                    · exact hgt.ne'
                    · exact (hgt.trans (hx z hz)).ne'
                  simp [hne]
                rw [if_neg hgt.ne', if_neg hgt.not_gt,
                  ih n ha hys (by rw [List.length_cons]; omega), hsame]

/-! ## Similarity -/

/-- How many trigrams two sets have in common. -/
def common (a b : TrigramSet) : Nat :=
  (a.grams.filter (· ∈ b.grams)).length

/-- The trigrams of a name as a set. -/
def TrigramSet.toFinset (a : TrigramSet) : Finset Trigram :=
  a.grams.toFinset

theorem nodup_grams (a : TrigramSet) : a.grams.Nodup :=
  a.ascending.imp fun h => h.ne

theorem card_toFinset (a : TrigramSet) : a.toFinset.card = a.grams.length :=
  List.toFinset_card_of_nodup (nodup_grams a)

theorem toFinset_eq_empty_iff {a : TrigramSet} : a.toFinset = ∅ ↔ a.grams = [] :=
  List.toFinset_eq_empty_iff a.grams

theorem card_inter_toFinset (a b : TrigramSet) :
    (a.toFinset ∩ b.toFinset).card = common a b := by
  have hinter : a.toFinset ∩ b.toFinset = (a.grams.filter (· ∈ b.grams)).toFinset := by
    ext x
    simp [TrigramSet.toFinset]
  rw [hinter, List.toFinset_card_of_nodup ((nodup_grams a).filter _)]
  rfl

/-- All the trigrams of two sets, counted as the program counts them. -/
theorem card_union_toFinset (a b : TrigramSet) :
    (a.toFinset ∪ b.toFinset).card = a.grams.length + b.grams.length - common a b := by
  rw [Finset.card_union, card_toFinset, card_toFinset, card_inter_toFinset]

theorem intersectionLoop_eq_common (a b : TrigramSet) :
    intersectionLoop (a.grams.length + b.grams.length) a.grams b.grams 0 = common a b := by
  rw [intersectionLoop_eq 0 a.ascending b.ascending (le_refl _), Nat.zero_add]
  rfl

/-- The similarity of two sets is their Jaccard index. -/
theorem similarity_eq_index (a b : TrigramSet) :
    a.similarity b = Jaccard.index a.toFinset b.toFinset := by
  have hempty : (a.grams.isEmpty || b.grams.isEmpty) = true ↔
      a.toFinset = ∅ ∨ b.toFinset = ∅ := by
    rw [Bool.or_eq_true_iff, List.isEmpty_iff, List.isEmpty_iff, toFinset_eq_empty_iff,
      toFinset_eq_empty_iff]
  rw [TrigramSet.similarity, trigramSimilarity, intersectionLoop_eq_common, Jaccard.index,
    card_inter_toFinset, card_union_toFinset, if_congr hempty rfl rfl]

theorem similarity_of_empty {a : TrigramSet} (ha : a.grams = []) (b : TrigramSet) :
    a.similarity b = 0 := by
  rw [similarity_eq_index]
  exact Jaccard.index_of_empty (Or.inl (toFinset_eq_empty_iff.mpr ha))

/-- Ascending lists of the same trigrams are equal. -/
theorem toFinset_inj {a b : TrigramSet} : a.toFinset = b.toFinset ↔ a = b := by
  refine ⟨fun h => ?_, congrArg TrigramSet.toFinset⟩
  have hperm : a.grams.Perm b.grams :=
    List.perm_of_nodup_nodup_toFinset_eq (nodup_grams a) (nodup_grams b) h
  have hgrams : a.grams = b.grams := by
    apply hperm.eq_of_pairwise _ a.ascending b.ascending
    intro x y _ _ hlt hgt
    exact absurd hgt hlt.not_gt
  cases a
  cases b
  cases hgrams
  rfl

theorem similarity_le_one (a b : TrigramSet) : a.similarity b ≤ 1 := by
  rw [similarity_eq_index]
  exact Jaccard.index_le_one _ _

/-- The similarity of two sets is one exactly when they are equal and not empty. -/
theorem TrigramSet.similarity_eq_one_iff (a b : TrigramSet) :
    a.similarity b = 1 ↔ a.grams ≠ [] ∧ a = b := by
  rw [similarity_eq_index, Jaccard.index_eq_one_iff, ne_eq, toFinset_eq_empty_iff, toFinset_inj]

/-! ## Names without trigrams -/

theorem wordTrigrams_ne_nil (word : List Char) : wordTrigrams word ≠ [] := by
  cases word with
  | nil => exact List.cons_ne_nil _ _
  | cons c word => exact List.cons_ne_nil _ _

theorem sortDedup_eq_nil_iff (grams : List Trigram) : sortDedup grams = [] ↔ grams = [] := by
  rw [sortDedup, List.destutter_eq_nil, ← List.length_eq_zero_iff, List.length_insertionSort,
    List.length_eq_zero_iff]

/-- A name has no trigrams exactly when, in lower case, it has none of their characters. -/
theorem trigrams_eq_nil_iff [UnicodeTables] (s : String) :
    trigrams s = [] ↔
      ∀ c ∈ UnicodeTables.strToLowercase s.toList, isTrigramChar c = false := by
  unfold trigrams
  rw [sortDedup_eq_nil_iff, List.flatMap_eq_nil_iff, ← Words.filter_splitOnP_eq_nil_iff,
    List.eq_nil_iff_forall_not_mem]
  exact forall_congr' fun w => ⟨fun h hw => wordTrigrams_ne_nil w (h hw), fun h hw => absurd hw h⟩

end Canon
end Statskboo
