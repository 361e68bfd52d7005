import Mathlib.Data.Finset.Prod
import Statskboo.Lib.ByteText
import Statskboo.Similarity

/-!
# The trigrams of a name

A name has the trigrams that stand in its words, each word padded with blanks, and the program
keeps them in the order of their bytes.  All characters of a trigram are ASCII, so the
three-character windows of a padded word are its three-byte windows.

Main results:

- Theorem {lit}`mem_trigrams_iff`: the trigrams are the windows of the padded words.
- Theorem {lit}`byteTrigrams_ascending`: they ascend by their bytes.
- Theorem {lit}`similarity_is_jaccard`: the similarity of two names is the Jaccard index of the
  sets of these windows.
-/

namespace Statskboo
namespace Canon

open Text Words

/-! ## Windows -/

/-- The characters of a trigram. -/
def chars (g : Trigram) : List Char :=
  [(ofLex g).1, (ofLex (ofLex g).2).1, (ofLex (ofLex g).2).2]

/-- The trigrams of a list are its windows. -/
theorem mem_windows_iff {g : Trigram} {l : List Char} : g ∈ windows l ↔ chars g <:+: l := by
  fun_induction windows l with
  | case1 a b c rest ih =>
      have hhead : chars g <+: a :: b :: c :: rest ↔ g = toLex (a, toLex (b, c)) := by
        unfold chars
        simp only [List.cons_prefix_cons, List.nil_prefix, and_true]
        constructor
        · rintro ⟨rfl, rfl, rfl⟩
          rfl
        · rintro rfl
          exact ⟨rfl, rfl, rfl⟩
      rw [List.mem_cons, ih, ← hhead]
      exact List.infix_cons_iff.symm
  | case2 l hshort =>
      refine ⟨fun h => absurd h List.not_mem_nil, fun h => ?_⟩
      have hlength : 3 ≤ l.length := h.length_le
      rcases l with _ | ⟨a, _ | ⟨b, _ | ⟨c, rest⟩⟩⟩
      · simp at hlength
      · simp at hlength
      · simp at hlength
      · exact (hshort a b c rest rfl).elim

theorem mem_destutter'_iff {α : Type*} [DecidableEq α] {a b : α} {l : List α} :
    a ∈ l.destutter' (· ≠ ·) b ↔ a = b ∨ a ∈ l := by
  induction l generalizing b with
  | nil => simp
  | cons c l ih =>
      rw [List.destutter'_cons, List.mem_cons]
      split_ifs with hne
      · rw [List.mem_cons, ih]
      · obtain rfl : b = c := not_not.mp hne
        rw [ih]
        tauto

/-- Sorting and dropping repetitions keeps the trigrams that there are. -/
theorem mem_sortDedup_iff {g : Trigram} {grams : List Trigram} :
    g ∈ sortDedup grams ↔ g ∈ grams := by
  unfold sortDedup
  rw [← (List.perm_insertionSort (· ≤ ·) grams).mem_iff]
  cases grams.insertionSort (· ≤ ·) with
  | nil => rfl
  | cons a l => rw [List.destutter_cons', mem_destutter'_iff, List.mem_cons]

/-! ## Words -/

/-- A word between blanks. -/
def padded (word : List Char) : List Char :=
  ' ' :: ' ' :: (word ++ [' '])

theorem ascii_of_isTrigramChar {c : Char} (h : isTrigramChar c = true) : c.toNat < 128 := by
  rcases Bool.or_eq_true_iff.mp h with hlower | hdigit
  · have hrange := isLower_range hlower
    omega
  · have hrange := isDigit_range hdigit
    omega

section Names

variable [UnicodeTables] {s t : String} {g g' : Trigram}

/-- A word of a name in lower case. -/
def IsNameWord (s : String) (word : List Char) : Prop :=
  IsWord isTrigramChar (UnicodeTables.strToLowercase s.toList) word

/-- The trigrams of a name are the windows of its padded words. -/
theorem mem_trigrams_iff :
    g ∈ trigrams s ↔ ∃ word, IsNameWord s word ∧ chars g <:+: padded word := by
  unfold trigrams
  rw [mem_sortDedup_iff, List.mem_flatMap]
  refine exists_congr fun word => and_congr mem_filter_splitOnP_iff ?_
  exact mem_windows_iff

/-! ## Bytes -/

theorem ascii_padded {word : List Char} (h : IsNameWord s word) :
    ∀ c ∈ padded word, c.toNat < 128 := by
  intro c hc
  have hblank : ' '.toNat < 128 := by decide
  rcases List.mem_cons.mp hc with rfl | hc
  · exact hblank
  rcases List.mem_cons.mp hc with rfl | hc
  · exact hblank
  rcases List.mem_append.mp hc with hc | hc
  · exact ascii_of_isTrigramChar (h.letters c hc)
  · rw [List.mem_singleton.mp hc]
    exact hblank

/-- The characters of a trigram are ASCII. -/
theorem ascii_chars (h : g ∈ trigrams s) : ∀ c ∈ chars g, c.toNat < 128 := by
  obtain ⟨word, hword, hwindow⟩ := mem_trigrams_iff.mp h
  exact fun c hc => ascii_padded hword c (hwindow.subset hc)

omit [UnicodeTables] in
/-- ASCII trigrams are ordered like their bytes. -/
theorem bytes_lt (hg' : ∀ c ∈ chars g', c.toNat < 128) (hg : ∀ c ∈ chars g, c.toNat < 128)
    (h : g < g') : ByteText.bytes (chars g) < ByteText.bytes (chars g') := by
  rw [ByteText.bytes_of_ascii hg, ByteText.bytes_of_ascii hg']
  simp only [chars, List.forall_mem_cons] at hg' ⊢
  obtain ⟨ha, hb, hc, -⟩ := hg'
  rcases Prod.Lex.lt_iff.mp h with hlt | ⟨heq, h⟩
  · exact List.Lex.rel (ByteText.toUInt8_lt ha hlt)
  rw [heq]
  refine List.Lex.cons ?_
  rcases Prod.Lex.lt_iff.mp h with hlt | ⟨heq, hlt⟩
  · exact List.Lex.rel (ByteText.toUInt8_lt hb hlt)
  rw [heq]
  exact List.Lex.cons (List.Lex.rel (ByteText.toUInt8_lt hc hlt))

/-- The trigrams of a name as they are stored: three bytes each. -/
def byteTrigrams (s : String) : List (List UInt8) :=
  (trigrams s).map fun g => ByteText.bytes (chars g)

/-- The trigrams ascend by their bytes. -/
theorem byteTrigrams_ascending (s : String) : (byteTrigrams s).Pairwise (· < ·) := by
  refine List.pairwise_map.mpr ((sortDedup_ascending _).imp_of_mem ?_)
  exact fun hg hg' hlt => bytes_lt (ascii_chars hg') (ascii_chars hg) hlt

/-- They are the three-byte windows of the padded words. -/
theorem mem_byteTrigrams_iff {window : List UInt8} :
    window ∈ byteTrigrams s ↔ ∃ word, IsNameWord s word ∧ window.length = 3 ∧
      window <:+: ByteText.bytes (padded word) := by
  unfold byteTrigrams
  rw [List.mem_map]
  constructor
  · rintro ⟨g, hg, rfl⟩
    obtain ⟨word, hword, hwindow⟩ := mem_trigrams_iff.mp hg
    rw [ByteText.bytes_of_ascii (ascii_chars hg)]
    refine ⟨word, hword, rfl, ?_⟩
    rw [ByteText.bytes_of_ascii (ascii_padded hword)]
    exact hwindow.map _
  · rintro ⟨word, hword, hlength, hwindow⟩
    rw [ByteText.bytes_of_ascii (ascii_padded hword)] at hwindow
    obtain ⟨text, htext, rfl⟩ := List.infix_map_iff.mp hwindow
    rw [List.length_map] at hlength
    obtain ⟨a, b, c, rfl⟩ := List.length_eq_three.mp hlength
    have hg : toLex (a, toLex (b, c)) ∈ trigrams s := mem_trigrams_iff.mpr ⟨word, hword, htext⟩
    exact ⟨_, hg, ByteText.bytes_of_ascii (ascii_chars hg)⟩

/-- The windows of a name as a set. -/
def windowSet (s : String) : Finset (List UInt8) :=
  (byteTrigrams s).toFinset

theorem ascii_of_mem_union (hg : g ∈ (TrigramSet.new s).toFinset ∪ (TrigramSet.new t).toFinset) :
    ∀ c ∈ chars g, c.toNat < 128 := by
  rcases Finset.mem_union.mp hg with hg | hg
  · exact ascii_chars (List.mem_toFinset.mp hg)
  · exact ascii_chars (List.mem_toFinset.mp hg)

/-- The codes of the characters of a trigram. -/
def charCodes (g : Trigram) : Nat × Nat × Nat :=
  ((ofLex g).1.toNat, (ofLex (ofLex g).2).1.toNat, (ofLex (ofLex g).2).2.toNat)

omit [UnicodeTables] in
theorem charCodes_injective : Function.Injective charCodes := by
  intro g g' hsame
  simp only [charCodes, Prod.mk.injEq, Char.toNat_inj] at hsame
  exact Prod.ext hsame.1 (Prod.ext hsame.2.1 hsame.2.2)

/-- There are no more trigrams than numbers of 21 bits. -/
theorem card_union_le (s t : String) :
    ((TrigramSet.new s).toFinset ∪ (TrigramSet.new t).toFinset).card ≤ 2 ^ 21 := by
  have hcard : (Finset.range 128 ×ˢ Finset.range 128 ×ˢ Finset.range 128).card = 2 ^ 21 := by
    simp only [Finset.card_product, Finset.card_range]
    rfl
  rw [← hcard]
  apply Finset.card_le_card_of_injOn charCodes
  · intro g hg
    have hascii := ascii_of_mem_union (Finset.mem_coe.mp hg)
    simp only [chars, List.forall_mem_cons] at hascii
    simpa [charCodes] using ⟨hascii.1, hascii.2.1, hascii.2.2.1⟩
  · exact charCodes_injective.injOn

theorem injOn_bytes (s t : String) :
    Set.InjOn (fun g => ByteText.bytes (chars g))
      (((TrigramSet.new s).toFinset ∪ (TrigramSet.new t).toFinset : Finset Trigram) :
        Set Trigram) := by
  intro g hg g' hg' heq
  have hg := ascii_of_mem_union (Finset.mem_coe.mp hg)
  have hg' := ascii_of_mem_union (Finset.mem_coe.mp hg')
  dsimp only at heq
  rcases lt_trichotomy g g' with hlt | rfl | hgt
  · have hbytes := bytes_lt hg' hg hlt
    rw [heq] at hbytes
    exact absurd hbytes (List.lt_irrefl _)
  · rfl
  · have hbytes := bytes_lt hg hg' hgt
    rw [heq] at hbytes
    exact absurd hbytes (List.lt_irrefl _)

/-- The similarity of two names is the Jaccard index of their sets of windows. -/
theorem similarity_eq_index_windowSet (s t : String) :
    (TrigramSet.new s).similarity (TrigramSet.new t) =
      Jaccard.index (windowSet s) (windowSet t) := by
  have himage : ∀ s, windowSet s =
      (TrigramSet.new s).toFinset.image fun g => ByteText.bytes (chars g) := by
    intro s
    ext window
    simp [windowSet, byteTrigrams, TrigramSet.toFinset, TrigramSet.new]
  rw [similarity_eq_index, himage, himage, Jaccard.index_image (injOn_bytes s t)]

/-- The program divides by more than zero: of two names with trigrams, the common ones are
fewer than those of both together. -/
theorem intersectionLoop_lt (hs : trigrams s ≠ []) (t : String) :
    intersectionLoop ((trigrams s).length + (trigrams t).length) (trigrams s) (trigrams t) 0 <
      (trigrams s).length + (trigrams t).length := by
  have hunion := card_union_toFinset (TrigramSet.new s) (TrigramSet.new t)
  have hpos : 0 < ((TrigramSet.new s).toFinset ∪ (TrigramSet.new t).toFinset).card :=
    Jaccard.card_union_pos (mt toFinset_eq_empty_iff.mp hs)
  rw [hunion, ← intersectionLoop_eq_common] at hpos
  exact Nat.lt_of_sub_pos hpos

/-- The trigrams of a name ascend and are the windows of its padded words, and the similarity of
two names is the Jaccard index of the sets of these windows. -/
theorem similarity_is_jaccard (s t : String) :
    (byteTrigrams s).Pairwise (· < ·) ∧
    (∀ window, window ∈ byteTrigrams s ↔ ∃ word, IsNameWord s word ∧ window.length = 3 ∧
      window <:+: ByteText.bytes (padded word)) ∧
    (TrigramSet.new s).similarity (TrigramSet.new t) =
      Jaccard.index (windowSet s) (windowSet t) ∧
    (TrigramSet.new s).similarity (TrigramSet.new t) =
      (TrigramSet.new t).similarity (TrigramSet.new s) ∧
    0 ≤ (TrigramSet.new s).similarity (TrigramSet.new t) ∧
    (TrigramSet.new s).similarity (TrigramSet.new t) ≤ 1 ∧
    ((TrigramSet.new s).similarity (TrigramSet.new t) = 1 ↔
      windowSet s ≠ ∅ ∧ windowSet s = windowSet t) ∧
    (trigrams s ≠ [] → trigrams t ≠ [] →
      intersectionLoop ((trigrams s).length + (trigrams t).length) (trigrams s) (trigrams t) 0 <
        (trigrams s).length + (trigrams t).length) := by
  refine ⟨byteTrigrams_ascending s, fun window => mem_byteTrigrams_iff,
    similarity_eq_index_windowSet s t, ?_, ?_, similarity_le_one _ _, ?_,
    fun hs _ => intersectionLoop_lt hs t⟩
  · rw [similarity_eq_index, similarity_eq_index]
    exact Jaccard.index_comm _ _
  · rw [similarity_eq_index]
    exact Jaccard.index_nonneg _ _
  · rw [similarity_eq_index_windowSet]
    exact Jaccard.index_eq_one_iff

end Names

section Example

attribute [local instance] asciiTables

example : (trigrams "a B!").map (fun g => String.ofList (chars g)) =
    ["  a", "  b", " a ", " b "] := by
  decide +kernel

example : (TrigramSet.new "hello").similarity (TrigramSet.new "hallo") = 1 / 3 := by
  decide +kernel

end Example

end Canon
end Statskboo
