import Mathlib.Data.List.Basic
import Mathlib.Data.List.Induction
import Mathlib.Tactic.Common

/-!
# The words of a list

The letters of a list are told by a test.  Its words are the longest runs of letters: what
stands next to a word on either side, if anything does, is not a letter.

Main results:

- Theorem {lit}`mem_splitOnP_iff`: splitting at what is not a letter gives the pieces between
  such elements.
- Theorem {lit}`mem_filter_splitOnP_iff`: the pieces that are not empty are the words.
-/

namespace Words

universe u

variable {α : Type u} {letter : α → Bool} {l piece word pre post : List α} {c : α}

/-- A piece of a list: letters that nothing but the ends of the list or other elements
confine. -/
structure IsPiece (letter : α → Bool) (l piece : List α) : Prop where
  letters : ∀ x ∈ piece, letter x = true
  confined : ∃ pre post, l = pre ++ (piece ++ post) ∧
    (∀ x ∈ pre.getLast?, letter x = false) ∧ ∀ x ∈ post.head?, letter x = false

/-- A word is a piece that is not empty. -/
structure IsWord (letter : α → Bool) (l word : List α) : Prop extends IsPiece letter l word where
  ne_nil : word ≠ []

/-- A list consists of letters, or there is a first element that is not one. -/
theorem letters_or_exists_first (letter : α → Bool) (l : List α) :
    (∀ x ∈ l, letter x = true) ∨
      ∃ pre c post, l = pre ++ c :: post ∧ (∀ x ∈ pre, letter x = true) ∧ letter c = false := by
  induction l with
  | nil => exact Or.inl fun x hx => absurd hx List.not_mem_nil
  | cons d l ih =>
      cases hd : letter d with
      | false => exact Or.inr ⟨[], d, l, rfl, fun x hx => absurd hx List.not_mem_nil, hd⟩
      | true =>
          rcases ih with hall | ⟨pre, c, post, rfl, hpre, hc⟩
          · exact Or.inl (List.forall_mem_cons.mpr ⟨hd, hall⟩)
          · exact Or.inr ⟨d :: pre, c, post, rfl, List.forall_mem_cons.mpr ⟨hd, hpre⟩, hc⟩

theorem splitOnP_letters (h : ∀ x ∈ piece, letter x = true) :
    piece.splitOnP (fun x => !letter x) = [piece] := by
  apply List.splitOnP_eq_singleton
  intro x hx
  rw [h x hx]
  rfl

theorem splitOnP_append (pre post : List α) (hc : letter c = false) :
    (pre ++ c :: post).splitOnP (fun x => !letter x) =
      pre.splitOnP (fun x => !letter x) ++ post.splitOnP (fun x => !letter x) := by
  apply List.splitOnP_append_cons
  rw [hc]
  rfl

/-- A list of letters is one piece. -/
theorem isPiece_self (h : ∀ x ∈ l, letter x = true) : IsPiece letter l l where
  letters := h
  confined := ⟨[], [], (List.append_nil l).symm, nofun, nofun⟩

/-- The letters before the first other element are a piece. -/
theorem isPiece_first (hpre : ∀ x ∈ pre, letter x = true) (hc : letter c = false) :
    IsPiece letter (pre ++ c :: post) pre where
  letters := hpre
  confined := by
    refine ⟨[], c :: post, rfl, nofun, ?_⟩
    rintro x ⟨⟩
    exact hc

/-- A piece of what follows such an element is a piece of the whole. -/
theorem IsPiece.append (h : IsPiece letter post piece) (hc : letter c = false) (pre : List α) :
    IsPiece letter (pre ++ c :: post) piece where
  letters := h.letters
  confined := by
    obtain ⟨before, after, rfl, hbefore, hafter⟩ := h.confined
    refine ⟨pre ++ c :: before, after, by simp, ?_, hafter⟩
    rw [List.getLast?_append_cons]
    cases before with
    | nil =>
        rintro x ⟨⟩
        exact hc
    | cons d before =>
        rw [List.getLast?_cons_cons]
        exact hbefore

theorem isPiece_of_mem (h : piece ∈ l.splitOnP (fun x => !letter x)) : IsPiece letter l piece := by
  induction hn : l.length using Nat.strongRecOn generalizing l with
  | _ n ih =>
      rcases letters_or_exists_first letter l with hall | ⟨pre, c, post, rfl, hpre, hc⟩
      · rw [splitOnP_letters hall, List.mem_singleton] at h
        subst h
        exact isPiece_self hall
      · rw [splitOnP_append pre post hc, splitOnP_letters hpre, List.singleton_append] at h
        rcases List.mem_cons.mp h with rfl | hpost
        · exact isPiece_first hpre hc
        · have hlt : post.length < n := by
            rw [← hn, List.length_append, List.length_cons]
            omega
          exact (ih post.length hlt hpost rfl).append hc pre

/-- Splitting at what is not a letter gives the pieces. -/
theorem mem_splitOnP_iff :
    piece ∈ l.splitOnP (fun x => !letter x) ↔ IsPiece letter l piece := by
  refine ⟨isPiece_of_mem, fun h => ?_⟩
  obtain ⟨pre, post, rfl, hpre, hpost⟩ := h.confined
  have hrest : piece ∈ (piece ++ post).splitOnP (fun x => !letter x) := by
    cases post with
    | nil => rw [List.append_nil, splitOnP_letters h.letters, List.mem_singleton]
    | cons d post =>
        rw [splitOnP_append piece post (hpost d rfl), splitOnP_letters h.letters]
        exact List.mem_cons_self
  induction pre using List.reverseRecOn with
  | nil => exact hrest
  | append_singleton before c =>
      have hc : letter c = false := hpre c (List.getLast?_concat ..)
      rw [List.append_assoc, List.singleton_append, splitOnP_append before _ hc]
      exact List.mem_append_right _ hrest

/-- The pieces that are not empty are the words. -/
theorem mem_filter_splitOnP_iff :
    word ∈ ((l.splitOnP fun x => !letter x).filter fun w => !w.isEmpty) ↔
      IsWord letter l word := by
  rw [List.mem_filter, mem_splitOnP_iff, Bool.not_eq_true', List.isEmpty_eq_false_iff]
  exact ⟨fun ⟨hpiece, hne⟩ => ⟨hpiece, hne⟩, fun h => ⟨h.toIsPiece, h.ne_nil⟩⟩

/-- There are no words exactly when there are no letters. -/
theorem filter_splitOnP_eq_nil_iff (l : List α) :
    ((l.splitOnP fun x => !letter x).filter fun w => !w.isEmpty) = [] ↔
      ∀ x ∈ l, letter x = false := by
  induction l with
  | nil => simp [List.splitOnP_nil]
  | cons c l ih =>
      rw [List.splitOnP_cons_eq_if_modifyHead, List.forall_mem_cons]
      cases hc : letter c with
      | false =>
          rw [Bool.not_false, if_pos rfl, List.filter_cons_of_neg (by simp), ih]
          exact (and_iff_right rfl).symm
      | true =>
          obtain ⟨w, ws, hsplit⟩ :=
            List.exists_cons_of_ne_nil (List.splitOnP_ne_nil (fun x => !letter x) l)
          rw [Bool.not_true, if_neg Bool.false_ne_true, hsplit, List.modifyHead_cons,
            List.filter_cons_of_pos (by simp)]
          exact ⟨fun h => absurd h (List.cons_ne_nil _ _), fun h => absurd h.1 Bool.noConfusion⟩

end Words
