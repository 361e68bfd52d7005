import Mathlib.Data.List.TakeWhile
import Statskboo.Canon

/-!
# Captain markers in player names

A captain is marked by a {lit}`c` in parentheses behind the name.  The canonical form of a
name drops the groups that hold just a {lit}`c`, from the left, up to the first
parenthesis of another kind.

Main results:

- Theorem {lit}`stripCaptainMarkers_append`: what is left of a lowercased name with a marker
  behind it.
- Theorem {lit}`canonicalizeName_marker_iff`: a marker changes nothing exactly when every
  parenthesis of the name opens a captain marker.
-/

namespace Statskboo
namespace Text

/-- What the tables of the standard library are documented to do with white space and with
ASCII text: lowercasing goes on afresh behind white space, which has no case. -/
class LawfulTables [UnicodeTables] : Prop where
  strToLowercase_space : ∀ (s t : List Char) (c : Char), isWhitespace c = true →
    UnicodeTables.strToLowercase (s ++ c :: t) =
      UnicodeTables.strToLowercase s ++ c :: UnicodeTables.strToLowercase t
  strToLowercase_ascii : ∀ s : List Char, (∀ c ∈ s, c.toNat < 128) →
    UnicodeTables.strToLowercase s = s.map Char.toLower
  isAlphanumeric_space : ∀ c, isWhitespace c = true → UnicodeTables.isAlphanumeric c = false
  isAlphanumeric_ascii : ∀ c : Char, c.toNat < 128 →
    UnicodeTables.isAlphanumeric c = c.isAlphanum

section Lowercase

variable [UnicodeTables] [LawfulTables] {w : List Char}

theorem strToLowercase_nil : UnicodeTables.strToLowercase [] = [] :=
  LawfulTables.strToLowercase_ascii [] fun _ h => absurd h List.not_mem_nil

/-- Lowercasing goes on afresh behind white space. -/
theorem strToLowercase_append_space (hw : ∀ c ∈ w, isWhitespace c = true) (s t : List Char)
    {c : Char} (hc : isWhitespace c = true) :
    UnicodeTables.strToLowercase (s ++ (w ++ c :: t)) =
      UnicodeTables.strToLowercase s ++ (w ++ c :: UnicodeTables.strToLowercase t) := by
  induction w generalizing s with
  | nil => exact LawfulTables.strToLowercase_space s t c hc
  | cons d w ih =>
      obtain ⟨hd, hw⟩ := List.forall_mem_cons.mp hw
      have hrest := ih hw []
      rw [strToLowercase_nil, List.nil_append, List.nil_append] at hrest
      rw [List.cons_append, LawfulTables.strToLowercase_space s _ d hd, hrest, List.cons_append]

end Lowercase

/-- A text is what is left of it by trimming among white space. -/
theorem exists_trim (s : List Char) :
    ∃ w w', (∀ c ∈ w, isWhitespace c = true) ∧ (∀ c ∈ w', isWhitespace c = true) ∧
      s = w ++ (trim s ++ w') := by
  have hsplit : ∀ t : List Char, ∃ w, (∀ c ∈ w, isWhitespace c = true) ∧
      t = w ++ t.dropWhile isWhitespace := fun t =>
    ⟨t.takeWhile isWhitespace, fun c hc => List.mem_takeWhile_imp hc,
      (List.takeWhile_append_dropWhile).symm⟩
  obtain ⟨w, hw, hs⟩ := hsplit s
  obtain ⟨w', hw', hrest⟩ := hsplit (s.dropWhile isWhitespace).reverse
  refine ⟨w, w'.reverse, hw, fun c hc => hw' c (List.mem_reverse.mp hc), ?_⟩
  have hreverse := congrArg List.reverse hrest
  rw [List.reverse_reverse, List.reverse_append] at hreverse
  rw [trim, ← hreverse]
  exact hs

end Text

namespace Canon

open Text

/-! ## The groups of a name -/

/-- Whether the text behind a parenthesis closes it and has just a {lit}`c` before that. -/
def HoldsCaptain (s : List Char) : Prop :=
  ')' ∈ s ∧ trim (s.takeWhile (· ≠ ')')) = ['c']

/-- Every parenthesis of the text opens a captain marker. -/
def OnlyMarkers : List Char → Prop
  | [] => True
  | c :: s => (c = '(' → HoldsCaptain s) ∧ OnlyMarkers s

instance (s : List Char) : Decidable (HoldsCaptain s) :=
  inferInstanceAs (Decidable (_ ∧ _))

instance decidableOnlyMarkers (s : List Char) : Decidable (OnlyMarkers s) :=
  match s with
  | [] => .isTrue trivial
  | c :: s =>
      have := decidableOnlyMarkers s
      inferInstanceAs (Decidable ((c = '(' → HoldsCaptain s) ∧ OnlyMarkers s))

variable {s before content rest after : List Char} {fuel : Nat}

theorem onlyMarkers_append (h : '(' ∉ before) :
    OnlyMarkers (before ++ s) ↔ OnlyMarkers s := by
  induction before with
  | nil => rfl
  | cons c before ih =>
      rw [List.mem_cons, not_or] at h
      rw [List.cons_append, OnlyMarkers, ih h.2]
      simp [Ne.symm h.1]

theorem onlyMarkers_of_not_mem (h : '(' ∉ s) : OnlyMarkers s := by
  have happend := onlyMarkers_append (s := []) h
  rw [List.append_nil] at happend
  exact happend.mpr trivial

theorem ne_of_not_mem {c : Char} (h : c ∉ s) : ∀ d ∈ s, decide (d ≠ c) = true := by
  intro d hd
  rw [decide_eq_true_eq]
  rintro rfl
  exact h hd

theorem takeWhile_ne_append {c : Char} (h : c ∉ before) (rest : List Char) :
    (before ++ c :: rest).takeWhile (· ≠ c) = before := by
  rw [List.takeWhile_append_of_pos (ne_of_not_mem h)]
  simp

theorem dropWhile_ne_append {c : Char} (h : c ∉ before) (rest : List Char) :
    (before ++ c :: rest).dropWhile (· ≠ c) = c :: rest := by
  rw [List.dropWhile_append_of_pos (ne_of_not_mem h)]
  simp

theorem dropWhile_ne_of_not_mem {c : Char} (h : c ∉ s) : s.dropWhile (· ≠ c) = [] :=
  List.dropWhile_eq_nil_iff.mpr (ne_of_not_mem h)

theorem holdsCaptain_append (h : ')' ∉ content) (after : List Char) :
    HoldsCaptain (content ++ ')' :: after) ↔ trim content = ['c'] := by
  rw [HoldsCaptain, takeWhile_ne_append h]
  simp

/-- A text that is a {lit}`c` among white space has no parenthesis. -/
theorem not_mem_of_trim_eq (h : trim content = ['c']) {p : Char} (hp : isWhitespace p = false)
    (hne : p ≠ 'c') : p ∉ content := by
  obtain ⟨w, w', hw, hw', hcontent⟩ := exists_trim content
  rw [hcontent, h]
  intro hmem
  rcases List.mem_append.mp hmem with hmem | hmem
  · rw [hw p hmem] at hp
    cases hp
  · rcases List.mem_cons.mp hmem with heq | hmem
    · exact hne heq
    · rw [hw' p hmem] at hp
      cases hp

theorem onlyMarkers_append_open (h : '(' ∉ before) :
    OnlyMarkers (before ++ '(' :: rest) ↔ HoldsCaptain rest ∧ OnlyMarkers rest := by
  rw [onlyMarkers_append h, OnlyMarkers]
  simp

/-- A {lit}`c` and the parenthesis that closes it open no group. -/
theorem onlyMarkers_captain (h : trim content = ['c']) :
    OnlyMarkers (content ++ ')' :: after) ↔ OnlyMarkers after := by
  have hopen : '(' ∉ content := not_mem_of_trim_eq h (by decide) (by decide)
  rw [onlyMarkers_append hopen, OnlyMarkers]
  simp

/-! ## The loop -/

theorem stripCaptainMarkers_of_not_mem (h : '(' ∉ s) : stripCaptainMarkers fuel s = s := by
  cases fuel with
  | zero => rfl
  | succ fuel => rw [stripCaptainMarkers, dropWhile_ne_of_not_mem h]

/-- A parenthesis that is not closed ends the loop. -/
theorem stripCaptainMarkers_open (hbefore : '(' ∉ before) (hrest : ')' ∉ rest) :
    stripCaptainMarkers fuel (before ++ '(' :: rest) = before ++ '(' :: rest := by
  cases fuel with
  | zero => rfl
  | succ fuel =>
      rw [stripCaptainMarkers, dropWhile_ne_append hbefore]
      dsimp only
      rw [dropWhile_ne_of_not_mem hrest]

/-- A round of the loop, at the first group. -/
theorem stripCaptainMarkers_group (hbefore : '(' ∉ before) (hcontent : ')' ∉ content)
    (after : List Char) :
    stripCaptainMarkers (fuel + 1) (before ++ '(' :: (content ++ ')' :: after)) =
      if trim content = ['c'] then stripCaptainMarkers fuel (before ++ after)
      else before ++ '(' :: (content ++ ')' :: after) := by
  rw [stripCaptainMarkers, dropWhile_ne_append hbefore]
  dsimp only
  rw [dropWhile_ne_append hcontent, takeWhile_ne_append hcontent, takeWhile_ne_append hbefore]

/-! ## A marker behind a name -/

/-- The text of a captain marker without its parentheses. -/
def markerContent (i j : Nat) (x : Char) : List Char :=
  List.replicate i ' ' ++ x :: List.replicate j ' '

/-- A captain marker. -/
def marker (i j : Nat) (x : Char) : List Char :=
  '(' :: (markerContent i j x ++ [')'])

variable {w : List Char} {i j : Nat}

theorem trim_markerContent (i j : Nat) : trim (markerContent i j 'c') = ['c'] := by
  have hblank : ∀ n, ∀ c ∈ List.replicate n ' ', isWhitespace c = true := by
    intro n c hc
    rw [List.eq_of_mem_replicate hc]
    rfl
  exact trim_append (hblank i) (hblank j) (List.cons_ne_nil 'c' []) (by decide)

theorem close_not_mem_markerContent (i j : Nat) : ')' ∉ markerContent i j 'c' :=
  not_mem_of_trim_eq (trim_markerContent i j) (by decide) (by decide)

theorem open_not_mem_of_space (hw : ∀ c ∈ w, isWhitespace c = true) : '(' ∉ w := by
  intro hmem
  cases hw '(' hmem

/-- A marker behind a text without parentheses goes. -/
theorem stripCaptainMarkers_marker (hw : ∀ c ∈ w, isWhitespace c = true) (hs : '(' ∉ s) :
    stripCaptainMarkers (fuel + 1) (s ++ (w ++ marker i j 'c')) = s ++ w := by
  have hbefore : '(' ∉ s ++ w := by
    rw [List.mem_append, not_or]
    exact ⟨hs, open_not_mem_of_space hw⟩
  rw [← List.append_assoc, marker, stripCaptainMarkers_group hbefore
    (close_not_mem_markerContent i j), if_pos (trim_markerContent i j), List.append_nil]
  exact stripCaptainMarkers_of_not_mem hbefore

/-- A parenthesis that is not closed takes in the marker behind it, and both stay. -/
theorem stripCaptainMarkers_open_marker (hbefore : '(' ∉ before) (hrest : ')' ∉ rest)
    (hw : ∀ c ∈ w, isWhitespace c = true) :
    stripCaptainMarkers (fuel + 1) (before ++ '(' :: (rest ++ (w ++ marker i j 'c'))) =
      before ++ '(' :: (rest ++ (w ++ marker i j 'c')) := by
  have hclose : ')' ∉ rest ++ (w ++ '(' :: markerContent i j 'c') := by
    have hspace : ')' ∉ w := fun hmem => by cases hw ')' hmem
    simp [hrest, hspace, close_not_mem_markerContent]
  have htext : rest ++ (w ++ marker i j 'c') =
      (rest ++ (w ++ '(' :: markerContent i j 'c')) ++ ')' :: [] := by
    simp [marker]
  have hnot : trim (rest ++ (w ++ '(' :: markerContent i j 'c')) ≠ ['c'] := fun h =>
    not_mem_of_trim_eq h (p := '(') (by decide) (by decide) (by simp)
  rw [htext, stripCaptainMarkers_group hbefore hclose, if_neg hnot]

/-- What is left of a text with a marker behind it: the marker goes when every parenthesis
before it opens a marker, and stays otherwise. -/
theorem stripCaptainMarkers_append (hw : ∀ c ∈ w, isWhitespace c = true) {fuel' : Nat}
    (hfuel : s.length ≤ fuel) (hfuel' : (s ++ (w ++ marker i j 'c')).length ≤ fuel' + 1) :
    stripCaptainMarkers (fuel' + 1) (s ++ (w ++ marker i j 'c')) =
      stripCaptainMarkers fuel s ++ (if OnlyMarkers s then w else w ++ marker i j 'c') := by
  induction fuel generalizing s fuel' with
  | zero =>
      obtain rfl := List.length_eq_zero_iff.mp (Nat.le_zero.mp hfuel)
      rw [stripCaptainMarkers_marker hw List.not_mem_nil]
      rfl
  | succ fuel ih =>
      by_cases hmem : '(' ∈ s
      · obtain ⟨before, rest, rfl, hbefore⟩ := List.eq_append_cons_of_mem hmem
        rw [if_congr (onlyMarkers_append_open hbefore) rfl rfl, List.append_assoc,
          List.cons_append]
        by_cases hclose : ')' ∈ rest
        · obtain ⟨content, after, rfl, hcontent⟩ := List.eq_append_cons_of_mem hclose
          rw [if_congr (and_congr_left' (holdsCaptain_append hcontent after)) rfl rfl,
            List.append_assoc, List.cons_append, stripCaptainMarkers_group hbefore hcontent,
            stripCaptainMarkers_group hbefore hcontent]
          by_cases hcaptain : trim content = ['c']
          · -- both loops drop this group
            have hrest : trim content = ['c'] ∧ OnlyMarkers (content ++ ')' :: after) ↔
                OnlyMarkers (before ++ after) := by
              rw [onlyMarkers_append hbefore, onlyMarkers_captain hcaptain]
              exact and_iff_right hcaptain
            obtain ⟨fuel', rfl⟩ : ∃ n, fuel' = n + 1 := by
              refine ⟨fuel' - 1, ?_⟩
              simp [marker] at hfuel'
              omega
            rw [if_congr hrest rfl rfl, if_pos hcaptain, if_pos hcaptain,
              ← List.append_assoc before, ih]
            · simp at hfuel ⊢
              omega
            · simp at hfuel' ⊢
              omega
          · -- both loops end at this group
            rw [if_neg hcaptain, if_neg hcaptain, if_neg fun h => hcaptain h.1]
            simp
        · -- the parenthesis is not closed before the marker
          rw [stripCaptainMarkers_open_marker hbefore hclose hw,
            stripCaptainMarkers_open hbefore hclose, if_neg fun h => hclose h.1.1]
          simp
      · rw [stripCaptainMarkers_marker hw hmem, stripCaptainMarkers_of_not_mem hmem,
          if_pos (onlyMarkers_of_not_mem hmem)]

/-! ## The canonical name -/

section CanonicalName

variable [UnicodeTables] [LawfulTables] {x : Char}

theorem filter_space (hw : ∀ c ∈ w, isWhitespace c = true) :
    w.filter UnicodeTables.isAlphanumeric = [] := by
  rw [List.filter_eq_nil_iff]
  intro c hc
  rw [LawfulTables.isAlphanumeric_space c (hw c hc)]
  exact Bool.false_ne_true

/-- The one alphanumeric character of a marker. -/
theorem filter_marker (i j : Nat) :
    (marker i j 'c').filter UnicodeTables.isAlphanumeric = ['c'] := by
  have hascii : ∀ c : Char, c.toNat < 128 →
      UnicodeTables.isAlphanumeric c = c.isAlphanum := LawfulTables.isAlphanumeric_ascii
  have hopen := hascii '(' (by decide)
  have hclose := hascii ')' (by decide)
  have hblank := hascii ' ' (by decide)
  have hc := hascii 'c' (by decide)
  simp [marker, markerContent, hopen, hclose, hblank, hc]

/-- Lowercasing a marker gives one with a small letter. -/
theorem strToLowercase_marker (hx : x = 'c' ∨ x = 'C') :
    UnicodeTables.strToLowercase (marker i j x) = marker i j 'c' := by
  have hletter : x.toLower = 'c' ∧ x.toNat < 128 := by
    rcases hx with rfl | rfl <;> decide
  have hascii : ∀ c ∈ marker i j x, c.toNat < 128 := by
    intro c hc
    simp only [marker, markerContent, List.mem_cons, List.mem_append, List.mem_replicate,
      List.not_mem_nil, or_false] at hc
    rcases hc with rfl | (⟨-, rfl⟩ | rfl | ⟨-, rfl⟩) | rfl
    · decide
    · decide
    · exact hletter.2
    · decide
    · decide
  have hblank : ' '.toLower = ' ' := by decide
  have hopen : '('.toLower = '(' := by decide
  have hclose : ')'.toLower = ')' := by decide
  rw [LawfulTables.strToLowercase_ascii _ hascii]
  simp [marker, markerContent, hletter.1, hblank, hopen, hclose]

omit [UnicodeTables] [LawfulTables] in
/-- A text that ends in a marker has nothing to trim behind it. -/
theorem trimmed_append_marker (hs : ∀ c ∈ s.head?, isWhitespace c = false) :
    Trimmed (s ++ marker i j x) := by
  constructor
  · cases s with
    | nil =>
        rintro c ⟨⟩
        decide
    | cons d s => exact hs
  · intro c hc
    have hlast : (s ++ marker i j x).getLast? = some ')' := by
      rw [marker, ← List.cons_append, ← List.append_assoc, List.getLast?_concat]
    rw [hlast] at hc
    cases hc
    decide

/-- The text the loop runs on, with a marker behind the name. -/
theorem exists_lowercase_append (n : List Char) (hx : x = 'c' ∨ x = 'C') :
    ∃ w, (∀ c ∈ w, isWhitespace c = true) ∧
      UnicodeTables.strToLowercase (trim (n ++ ' ' :: marker i j x)) =
        UnicodeTables.strToLowercase (trim n) ++ (w ++ marker i j 'c') := by
  obtain ⟨w, w', hw, hw', hn⟩ := exists_trim n
  have hnone : ∀ c ∈ ([] : List Char), isWhitespace c = true :=
    fun c hc => absurd hc List.not_mem_nil
  have hblank : ∀ c ∈ w' ++ [' '], isWhitespace c = true :=
    List.forall_mem_append.mpr ⟨hw', List.forall_mem_singleton.mpr (by decide)⟩
  by_cases hempty : trim n = []
  · -- of a blank name just the marker is left
    refine ⟨[], hnone, ?_⟩
    have htrim : trim ((w ++ (w' ++ [' '])) ++ (marker i j x ++ [])) = marker i j x :=
      trim_append (List.forall_mem_append.mpr ⟨hw, hblank⟩) hnone (List.cons_ne_nil _ _)
        (trimmed_append_marker (s := []) nofun)
    have htext : n ++ ' ' :: marker i j x = (w ++ (w' ++ [' '])) ++ (marker i j x ++ []) := by
      rw [hempty, List.nil_append] at hn
      simp [hn]
    rw [htext, htrim, hempty, strToLowercase_nil, strToLowercase_marker hx]
    rfl
  · refine ⟨w' ++ [' '], hblank, ?_⟩
    have hhead : ∀ c ∈ (trim n ++ (w' ++ [' '])).head?, isWhitespace c = false := by
      rw [List.head?_append_of_ne_nil _ hempty]
      exact (trimmed_trim n).1
    have htrim := trim_append hw hnone (by simp [hempty])
      (trimmed_append_marker (i := i) (j := j) (x := x) hhead)
    have htext : n ++ ' ' :: marker i j x =
        w ++ (((trim n ++ (w' ++ [' '])) ++ marker i j x) ++ []) := by
      conv_lhs => rw [hn]
      simp
    rw [htext, htrim, List.append_assoc, List.append_assoc, List.singleton_append,
      strToLowercase_append_space hw' _ _ (by decide), strToLowercase_marker hx,
      List.append_assoc, List.singleton_append]

/-- A marker behind a name leaves its canonical form as it is exactly when every parenthesis
of the trimmed, lowercased name opens a captain marker. -/
theorem canonicalizeName_marker_iff (n : String) (i j : Nat) (x : Char)
    (hx : x = 'c' ∨ x = 'C') :
    canonicalizeName (n ++ " " ++ String.ofList (marker i j x)) = canonicalizeName n ↔
      OnlyMarkers (UnicodeTables.strToLowercase (trim n.toList)) := by
  obtain ⟨w, hw, hlower⟩ := exists_lowercase_append (i := i) (j := j) n.toList hx
  have htext : (n ++ " " ++ String.ofList (marker i j x)).toList =
      n.toList ++ ' ' :: marker i j x := by
    simp
  obtain ⟨fuel, hfuel⟩ : ∃ fuel, (UnicodeTables.strToLowercase (trim n.toList) ++
      (w ++ marker i j 'c')).length = fuel + 1 := by
    refine ⟨_, (Nat.succ_pred_eq_of_pos ?_).symm⟩
    simp [marker]
  rw [canonicalizeName, canonicalizeName, htext, hlower, hfuel,
    stripCaptainMarkers_append hw le_rfl hfuel.le, String.ofList_inj, List.filter_append]
  split
  · next honly => simp [filter_space hw, honly]
  · next hnot => simp [filter_space hw, filter_marker, hnot]

end CanonicalName

/-! ## A group before the marker -/

theorem isAlphanum_of_isWhitespace {c : Char} (h : isWhitespace c = true) :
    c.isAlphanum = false := by
  rw [Bool.eq_false_iff]
  intro halphanum
  have hrange := isAlphanum_range halphanum
  rw [isWhitespace_of_range (by omega) (by omega)] at h
  cases h

theorem toLower_of_isWhitespace {c : Char} (h : isWhitespace c = true) : c.toLower = c := by
  unfold Char.toLower
  split
  · next hupper =>
      have halphanum := isAlphanum_of_isUpper (decide_eq_true hupper)
      rw [isAlphanum_of_isWhitespace h] at halphanum
      cases halphanum
  · rfl

section Example

attribute [local instance] asciiTables

instance lawfulTables_ascii : LawfulTables where
  strToLowercase_space s t c hc := by
    change (s ++ c :: t).map Char.toLower = s.map Char.toLower ++ c :: t.map Char.toLower
    rw [List.map_append, List.map_cons, toLower_of_isWhitespace hc]
  strToLowercase_ascii s _ := rfl
  isAlphanumeric_space c hc := isAlphanum_of_isWhitespace hc
  isAlphanumeric_ascii c _ := rfl

theorem canonicalizeName_marker_circuitBreaker :
    canonicalizeName ("Circuit Breaker (c)" ++ " " ++ String.ofList (marker 1 1 'C')) =
      canonicalizeName "Circuit Breaker (c)" :=
  (canonicalizeName_marker_iff "Circuit Breaker (c)" 1 1 'C' (by decide)).mpr (by decide)

/-- The marker stays behind a group of another kind. -/
theorem canonicalizeName_marker_ne :
    canonicalizeName ("Foo (Bar)" ++ " " ++ String.ofList (marker 0 0 'C')) ≠
      canonicalizeName "Foo (Bar)" := by
  decide

end Example

end Canon
end Statskboo
