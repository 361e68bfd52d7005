import Mathlib.Data.String.Basic
import Mathlib.Tactic.Common

/-!
# Text functions of the Rust standard library

The program reads names and spreadsheet cells as Unicode text.  This module
fixes the {lit}`str` and {lit}`char` methods it calls, on lists of characters.
White space is the Unicode {lit}`White_Space` property, written out in full; case
mapping and the alphanumeric test rest on large tables of the standard library
and are a parameter of the development.

Main results:

- Theorem {lit}`afterFirst_append`: the text after a marker is found where the marker is
  written.
- Theorem {lit}`trim_eq_self`: trimming leaves text alone whose ends are not
  white space, and {lit}`trim_append`: it drops what is white space around them.
- Theorem {lit}`splitWhitespace_token_append`: tokens are what stands between white space.
-/

namespace Statskboo
namespace Text

/-- The Unicode tables of the standard library that the program consults. -/
class UnicodeTables where
  /-- {lit}`char::is_alphanumeric`. -/
  isAlphanumeric : Char → Bool
  /-- {lit}`char::to_lowercase`, which may yield several characters. -/
  charToLowercase : Char → List Char
  /-- {lit}`str::to_lowercase`, which also treats a final sigma. -/
  strToLowercase : List Char → List Char

/-- The tables with the uppercase test. -/
class CaseTables extends UnicodeTables where
  /-- {lit}`char::is_uppercase`. -/
  isUppercase : Char → Bool

/-- The tables restricted to ASCII text, where they agree with the Unicode ones. -/
@[reducible]
def asciiTables : UnicodeTables where
  isAlphanumeric c := c.isAlphanum
  charToLowercase c := [c.toLower]
  strToLowercase s := s.map Char.toLower

/-- The case tables restricted to ASCII text. -/
@[reducible]
def asciiCaseTables : CaseTables where
  toUnicodeTables := asciiTables
  isUppercase c := c.isUpper

/-- {lit}`char::is_whitespace`: the Unicode {lit}`White_Space` property. -/
def isWhitespace (c : Char) : Bool :=
  let n := c.toNat
  (9 ≤ n && n ≤ 13) || n == 32 || n == 0x85 || n == 0xA0 || n == 0x1680 ||
    (0x2000 ≤ n && n ≤ 0x200A) || n == 0x2028 || n == 0x2029 || n == 0x202F ||
    n == 0x205F || n == 0x3000

/-! ## ASCII characters -/

theorem isDigit_range {c : Char} (h : c.isDigit = true) : 48 ≤ c.toNat ∧ c.toNat ≤ 57 :=
  Char.isDigit_iff_toNat.mp h

theorem isLower_range {c : Char} (h : c.isLower = true) : 97 ≤ c.toNat ∧ c.toNat ≤ 122 := by
  obtain ⟨hlo, hhi⟩ := Bool.and_eq_true_iff.mp h
  exact ⟨of_decide_eq_true hlo, of_decide_eq_true hhi⟩

theorem isUpper_iff_toNat {c : Char} : c.isUpper = true ↔ 65 ≤ c.toNat ∧ c.toNat ≤ 90 :=
  ⟨fun h => of_decide_eq_true h, fun h => decide_eq_true (p := _ ∧ _) h⟩

theorem isAlpha_range {c : Char} (h : c.isAlpha = true) : 65 ≤ c.toNat ∧ c.toNat ≤ 122 := by
  rcases Bool.or_eq_true_iff.mp h with h | h
  · have hrange := isUpper_iff_toNat.mp h
    omega
  · have hrange := isLower_range h
    omega

theorem isAlphanum_range {c : Char} (h : c.isAlphanum = true) :
    48 ≤ c.toNat ∧ c.toNat ≤ 122 := by
  rcases Bool.or_eq_true_iff.mp h with h | h
  · have hrange := isAlpha_range h
    omega
  · have hrange := isDigit_range h
    omega

theorem isAlphanum_of_isUpper {c : Char} (h : c.isUpper = true) : c.isAlphanum = true :=
  Bool.or_eq_true_iff.mpr (Or.inl (Bool.or_eq_true_iff.mpr (Or.inl h)))

theorem isAlphanum_of_isDigit {c : Char} (h : c.isDigit = true) : c.isAlphanum = true :=
  Bool.or_eq_true_iff.mpr (Or.inr h)

theorem isWhitespace_of_range {c : Char} (h : 33 ≤ c.toNat) (h' : c.toNat ≤ 126) :
    isWhitespace c = false := by
  unfold isWhitespace
  simp only [Bool.or_eq_false_iff, Bool.and_eq_false_iff, decide_eq_false_iff_not,
    beq_eq_false_iff_ne]
  omega

/-! ## Operations -/

/-- {lit}`str::trim`. -/
def trim (s : List Char) : List Char :=
  ((s.dropWhile isWhitespace).reverse.dropWhile isWhitespace).reverse

/-- {lit}`str::split_whitespace`: the maximal runs without white space. -/
def splitWhitespace (s : List Char) : List (List Char) :=
  (s.splitOnP isWhitespace).filter fun w => !w.isEmpty

/-- {lit}`str::to_ascii_uppercase`. -/
def toAsciiUppercase (s : List Char) : List Char :=
  s.map Char.toUpper

/-- {lit}`str::eq_ignore_ascii_case`. -/
def eqIgnoreAsciiCase (s t : List Char) : Bool :=
  s.map Char.toLower == t.map Char.toLower

/-- The text after the first occurrence of a marker. -/
def afterFirst (marker : List Char) : List Char → Option (List Char)
  | [] => if marker.isEmpty then some [] else none
  | c :: s =>
      if marker.isPrefixOf (c :: s) then some ((c :: s).drop marker.length)
      else afterFirst marker s

theorem afterFirst_prefix {marker : List Char} (hmarker : marker ≠ []) (rest : List Char) :
    afterFirst marker (marker ++ rest) = some rest := by
  obtain ⟨c, m, rfl⟩ := List.exists_cons_of_ne_nil hmarker
  have hprefix : (c :: m).isPrefixOf (c :: (m ++ rest)) = true :=
    List.isPrefixOf_iff_prefix.mpr (List.prefix_append (c :: m) rest)
  rw [List.cons_append, afterFirst, if_pos hprefix]
  simp

/-- A marker whose last character stands nowhere else in it does not begin before the place
where it is written. -/
theorem not_prefix_append {stem q : List Char} {last : Char} (hlast : last ∉ stem) (hq : q ≠ [])
    (hmarker : ¬ (stem ++ [last]) <:+: q) (rest : List Char) :
    ¬ (stem ++ [last]) <+: q ++ ((stem ++ [last]) ++ rest) := by
  intro hprefix
  by_cases hlength : (stem ++ [last]).length ≤ q.length
  · exact hmarker (List.prefix_of_prefix_length_le hprefix (List.prefix_append q _) hlength).isInfix
  · rw [List.length_append, List.length_singleton, not_le] at hlength
    have hpos : 0 < q.length := List.length_pos_of_ne_nil hq
    obtain ⟨tail, htail⟩ := hprefix
    have hget : (stem ++ [last] ++ tail)[stem.length]? = some last := by simp
    rw [htail, List.getElem?_append_right (by omega), List.append_assoc,
      List.getElem?_append_left (by omega)] at hget
    exact hlast (List.mem_of_getElem? hget)

/-- The text after a marker whose last character stands nowhere else in it. -/
theorem afterFirst_append {stem pre : List Char} {last : Char} (hlast : last ∉ stem)
    (hpre : ¬ (stem ++ [last]) <:+: pre) (rest : List Char) :
    afterFirst (stem ++ [last]) (pre ++ ((stem ++ [last]) ++ rest)) = some rest := by
  induction pre with
  | nil => exact afterFirst_prefix (by simp) rest
  | cons c pre ih =>
      have hnot := not_prefix_append hlast (List.cons_ne_nil c pre) hpre rest
      rw [List.cons_append] at hnot ⊢
      rw [afterFirst, if_neg fun h => hnot (List.isPrefixOf_iff_prefix.mp h)]
      exact ih fun h => hpre (h.trans (List.infix_cons (List.infix_refl pre)))

/-- Text without white space at either end. -/
def Trimmed (s : List Char) : Prop :=
  (∀ c ∈ s.head?, isWhitespace c = false) ∧ ∀ c ∈ s.getLast?, isWhitespace c = false

instance (s : List Char) : Decidable (Trimmed s) :=
  @instDecidableAnd _ _ s.head?.decidableForallMem s.getLast?.decidableForallMem

private theorem dropWhile_eq_self {p : Char → Bool} {s : List Char}
    (h : ∀ c ∈ s.head?, p c = false) : s.dropWhile p = s := by
  cases s with
  | nil => rfl
  | cons c s => rw [List.dropWhile_cons, h c (by simp), if_neg Bool.false_ne_true]

/-- Trimming leaves text alone whose ends are not white space. -/
theorem trim_eq_self {s : List Char} (h : Trimmed s) : trim s = s := by
  have hlast : ∀ c ∈ s.reverse.head?, isWhitespace c = false := by
    simpa [List.head?_reverse] using h.2
  rw [trim, dropWhile_eq_self h.1, dropWhile_eq_self hlast, List.reverse_reverse]

private theorem head?_dropWhile_isWhitespace (s : List Char) :
    ∀ c ∈ (s.dropWhile isWhitespace).head?, isWhitespace c = false := by
  intro c hc
  have h := List.head?_dropWhile_not isWhitespace s
  rw [Option.mem_def.mp hc] at h
  exact h

/-- There is nothing left to trim from trimmed text. -/
theorem trimmed_trim (s : List Char) : Trimmed (trim s) := by
  constructor
  · intro c hc
    have hprefix : trim s <+: s.dropWhile isWhitespace := by
      have hsuffix := List.dropWhile_suffix (l := (s.dropWhile isWhitespace).reverse) isWhitespace
      rwa [← List.reverse_prefix, List.reverse_reverse] at hsuffix
    obtain ⟨rest, hrest⟩ := hprefix
    apply head?_dropWhile_isWhitespace s
    rw [← hrest, List.head?_append, Option.mem_def.mp hc]
    rfl
  · intro c hc
    apply head?_dropWhile_isWhitespace (s.dropWhile isWhitespace).reverse
    rwa [trim, List.getLast?_reverse] at hc

/-- Trimming drops the white space around text. -/
theorem trim_append {w core w' : List Char} (hw : ∀ c ∈ w, isWhitespace c = true)
    (hw' : ∀ c ∈ w', isWhitespace c = true) (hne : core ≠ []) (hcore : Trimmed core) :
    trim (w ++ (core ++ w')) = core := by
  have hleft : (w ++ (core ++ w')).dropWhile isWhitespace = core ++ w' := by
    rw [List.dropWhile_append_of_pos hw]
    apply dropWhile_eq_self
    rw [List.head?_append_of_ne_nil _ hne]
    exact hcore.1
  have hright : (core ++ w').reverse.dropWhile isWhitespace = core.reverse := by
    rw [List.reverse_append, List.dropWhile_append_of_pos]
    · apply dropWhile_eq_self
      rw [List.head?_reverse]
      exact hcore.2
    · exact fun c hc => hw' c (List.mem_reverse.mp hc)
  rw [trim, hleft, hright, List.reverse_reverse]

/-! ## Tokens -/

/-- Text without white space is one token. -/
theorem splitWhitespace_token {tok : List Char} (hne : tok ≠ [])
    (htok : ∀ c ∈ tok, isWhitespace c = false) : splitWhitespace tok = [tok] := by
  have hnonempty : tok.isEmpty = false := List.isEmpty_eq_false_iff.mpr hne
  rw [splitWhitespace, List.splitOnP_eq_singleton htok, List.filter_cons, hnonempty]
  rfl

theorem splitWhitespace_append_space {w : List Char} (hw : ∀ c ∈ w, isWhitespace c = true)
    (s : List Char) : splitWhitespace (w ++ s) = splitWhitespace s := by
  induction w with
  | nil => rfl
  | cons c w ih =>
      rw [List.forall_mem_cons] at hw
      rw [List.cons_append, splitWhitespace, List.splitOnP_cons_eq_if_modifyHead, if_pos hw.1,
        List.filter_cons]
      exact ih hw.2

/-- The first token of a text ends before white space. -/
theorem splitWhitespace_token_append {tok w : List Char} (hne : tok ≠ [])
    (htok : ∀ c ∈ tok, isWhitespace c = false) (hw : w ≠ [])
    (hspace : ∀ c ∈ w, isWhitespace c = true) (s : List Char) :
    splitWhitespace (tok ++ (w ++ s)) = tok :: splitWhitespace s := by
  have hnonempty : tok.isEmpty = false := List.isEmpty_eq_false_iff.mpr hne
  obtain ⟨c, w, rfl⟩ := List.exists_cons_of_ne_nil hw
  rw [List.forall_mem_cons] at hspace
  rw [List.cons_append, splitWhitespace,
    List.splitOnP_append_cons_of_forall_mem htok c hspace.1, List.filter_cons, hnonempty]
  exact congrArg (tok :: ·) (splitWhitespace_append_space hspace.2 s)

end Text
end Statskboo
