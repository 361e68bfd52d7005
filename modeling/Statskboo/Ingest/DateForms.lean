import Statskboo.Ingest.GameDate
import Statskboo.Ingest.PenaltySheet

/-!
# The ways to write a date

The IGRF sheet has the date of a game as text in one of six forms, and the name of the file
repeats it.  The forms are read one after another; where day and month can be exchanged, the
name of the file decides.

The day-first reading that the name of the file selects is taken without a look at its year.

Main results:

- Theorem {lit}`parseTextDate_plausible_iff`: a date read from text is plausible unless an
  implausible file name selects its day-first reading.
- Theorem {lit}`parseMonthNameDate_of_words`: a month in words is read before or behind the
  day.
- Theorem {lit}`igrfDate_of_dateCell`: every way to write a date is read back.
-/

namespace Statskboo
namespace Sheet

open Numbers
open Text (isAlpha_range isDigit_range isLower_range isWhitespace_of_range)

/-! ## ASCII characters -/

theorem isAlpha_of_isLower_toLower {c : Char} (h : c.toLower.isLower = true) :
    c.isAlpha = true := by
  apply Bool.or_eq_true_iff.mpr
  unfold Char.toLower at h
  split at h
  · next hupper => exact Or.inl (decide_eq_true hupper)
  · exact Or.inr h

/-- A digit in lower case is the digit. -/
theorem toLower_of_isDigit {c : Char} (h : c.isDigit = true) : c.toLower = c := by
  have hrange := isDigit_range h
  unfold Char.toLower
  split
  · next hupper =>
      have hle : 65 ≤ c.toNat := hupper.1
      omega
  · rfl

/-! ## The Gregorian calendar -/

/-- The days of a month. -/
def daysInMonth (y : Int) (month : Nat) : Nat :=
  if month = 2 then
    if (4 ∣ y ∧ ¬ 100 ∣ y) ∨ 400 ∣ y then 29 else 28
  else if month = 4 ∨ month = 6 ∨ month = 9 ∨ month = 11 then 30
  else 31

/-- The number of a day, where each month takes the place of 31 days. -/
def gregorianFromYmd (y : Int) (month day : Nat) : Option Int :=
  if 1 ≤ month ∧ month ≤ 12 ∧ 1 ≤ day ∧ day ≤ daysInMonth y month then
    some (372 * y + 31 * (month - 1) + (day - 1))
  else none

/-- A numeral of a number of digits at most. -/
def numeral (width : Nat) (s : List Char) : Option Nat :=
  if s ≠ [] ∧ s.length ≤ width ∧ s.all Char.isDigit = true then some (ofDigits s) else none

/-- Three numerals of such widths with a separator between them. -/
def numerals (sep : Char) (width₁ width₂ width₃ : Nat) (text : List Char) :
    Option (Nat × Nat × Nat) :=
  match text.splitOnP (· == sep) with
  | [a, b, c] => do
      let n₁ ← numeral width₁ a
      let n₂ ← numeral width₂ b
      let n₃ ← numeral width₃ c
      some (n₁, n₂, n₃)
  | _ => none

/-- A text in one of the four formats of numbers. -/
def gregorianFromStr (text : List Char) (format : String) : Option Int :=
  if format = "%Y-%m-%d" then
    (numerals '-' 4 2 2 text).bind fun n => gregorianFromYmd n.1 n.2.1 n.2.2
  else if format = "%Y/%m/%d" then
    (numerals '/' 4 2 2 text).bind fun n => gregorianFromYmd n.1 n.2.1 n.2.2
  else if format = "%m/%d/%Y" then
    (numerals '/' 2 2 4 text).bind fun n => gregorianFromYmd n.2.2 n.1 n.2.1
  else if format = "%d/%m/%Y" then
    (numerals '/' 2 2 4 text).bind fun n => gregorianFromYmd n.2.2 n.2.1 n.1
  else none

/-- The Gregorian calendar in a fixed year, for cells that hold no date. -/
@[reducible]
def gregorian : Calendar where
  parseFromStr := gregorianFromStr
  fromYmdOpt := gregorianFromYmd
  year d := d / 372
  asDate _ := none
  currentYear := 2026

/-! ## Plausible dates -/

section Plausible

variable [Calendar]

/-- The readings of a text that are not ambiguous, in order. -/
def unambiguousReadings (text : List Char) : List (Option Int) :=
  [Calendar.parseFromStr text "%Y-%m-%d", Calendar.parseFromStr text "%Y/%m/%d",
    parseMonthNameDate text]

/-- The choice between the month-first and the day-first reading. -/
def slashReading (monthFirst dayFirst fileDate : Option Int) : Option Int :=
  match monthFirst, dayFirst with
  | some mf, some df =>
      if mf ≠ df ∧ fileDate = some df then some df
      else if plausibleDate mf then some mf
      else none
  | some mf, none => if plausibleDate mf then some mf else none
  | none, some df => if plausibleDate df then some df else none
  | none, none => none

/-- The readings of a text, first the unambiguous ones. -/
theorem parseTextDate_eq (text : List Char) (fileDate : Option Int) :
    parseTextDate text fileDate =
      if (Text.trim text).isEmpty then none
      else (firstPlausible (unambiguousReadings (Text.trim text))).orElse fun _ =>
        slashReading (Calendar.parseFromStr (Text.trim text) "%m/%d/%Y")
          (Calendar.parseFromStr (Text.trim text) "%d/%m/%Y") fileDate :=
  rfl

/-- The file name selects a day-first reading of a year that no game has. -/
def SelectsBadYear (monthFirst dayFirst fileDate : Option Int) : Prop :=
  ∃ mf df, monthFirst = some mf ∧ dayFirst = some df ∧ mf ≠ df ∧ fileDate = some df ∧
    plausibleDate df = false

theorem slashReading_eq_of_selects {mf df : Int} (hne : mf ≠ df) :
    slashReading (some mf) (some df) (some df) = some df :=
  if_pos ⟨hne, rfl⟩

/-- Every other reading is looked at. -/
theorem slashReading_plausible_iff (monthFirst dayFirst fileDate : Option Int) :
    (∀ d, slashReading monthFirst dayFirst fileDate = some d → plausibleDate d = true) ↔
      ¬ SelectsBadYear monthFirst dayFirst fileDate := by
  constructor
  · rintro h ⟨mf, df, rfl, rfl, hne, rfl, hbad⟩
    rw [h df (slashReading_eq_of_selects hne)] at hbad
    cases hbad
  · intro h d hd
    cases monthFirst with
    | none =>
        cases dayFirst with
        | none => cases hd
        | some df =>
            simp only [slashReading] at hd
            split_ifs at hd with hinRange
            cases hd
            exact hinRange
    | some mf =>
        cases dayFirst with
        | none =>
            simp only [slashReading] at hd
            split_ifs at hd with hinRange
            cases hd
            exact hinRange
        | some df =>
            simp only [slashReading] at hd
            split_ifs at hd with hselects hinRange
            · cases hd
              by_contra hbad
              exact h ⟨mf, d, rfl, rfl, hselects.1, hselects.2, Bool.eq_false_iff.mpr hbad⟩
            · cases hd
              exact hinRange

theorem plausibleDate_of_firstPlausible {dates : List (Option Int)} {d : Int}
    (h : firstPlausible dates = some d) : plausibleDate d = true :=
  List.find?_some h

theorem plausibleDate_iff {d : Int} :
    plausibleDate d = true ↔
      1990 ≤ Calendar.year d ∧ Calendar.year d ≤ Calendar.currentYear + 1 := by
  rw [plausibleDate, Bool.and_eq_true, decide_eq_true_eq, decide_eq_true_eq]

/-- A date read from text is plausible unless no other reading is and the file name selects a
day-first reading of a year that no game has. -/
theorem parseTextDate_plausible_iff (text : List Char) (fileDate : Option Int) :
    (∀ d, parseTextDate text fileDate = some d →
      1990 ≤ Calendar.year d ∧ Calendar.year d ≤ Calendar.currentYear + 1) ↔
    ¬ (Text.trim text ≠ [] ∧ firstPlausible (unambiguousReadings (Text.trim text)) = none ∧
      SelectsBadYear (Calendar.parseFromStr (Text.trim text) "%m/%d/%Y")
        (Calendar.parseFromStr (Text.trim text) "%d/%m/%Y") fileDate) := by
  simp only [← plausibleDate_iff, parseTextDate_eq]
  by_cases hblank : Text.trim text = []
  · rw [if_pos (List.isEmpty_iff.mpr hblank)]
    exact ⟨fun _ h => h.1 hblank, fun _ d h => (by cases h)⟩
  rw [if_neg fun h => hblank (List.isEmpty_iff.mp h)]
  cases hfirst : firstPlausible (unambiguousReadings (Text.trim text)) with
  | some d =>
      rw [Option.orElse_some]
      refine ⟨fun _ h => (by cases h.2.1), fun _ d' h => ?_⟩
      cases h
      exact plausibleDate_of_firstPlausible hfirst
  | none =>
      rw [Option.orElse_none, slashReading_plausible_iff]
      exact not_congr ⟨fun h => ⟨hblank, rfl, h⟩, fun h => h.2.2⟩

end Plausible

section DayFirst

attribute [local instance] gregorian

/-- The year 24 stands in the text and in the name of the file, and nothing rejects it. -/
theorem not_parseTextDate_plausible :
    ¬ ∀ (text : List Char) (fileDate : Option Int) (d : Int),
      parseTextDate text fileDate = some d →
        1990 ≤ Calendar.year d ∧ Calendar.year d ≤ Calendar.currentYear + 1 := by
  intro h
  have hread : parseTextDate "08/06/24".toList (dateFromFileName "STATS-0024-06-08.xlsx") =
      some 9090 := by
    decide +kernel
  exact absurd (h _ _ _ hread).1 (by decide)

end DayFirst

/-! ## Written dates -/

/-- A number of two digits. -/
def twoDigits (n : Nat) : List Char :=
  [n / 10, n % 10].map Nat.digitChar

/-- A number of four digits. -/
def fourDigits (n : Nat) : List Char :=
  [n / 1000, n / 100 % 10, n / 10 % 10, n % 10].map Nat.digitChar

/-- Three numbers with a separator between them. -/
def separated (sep : Char) (a b c : List Char) : List Char :=
  a ++ sep :: (b ++ sep :: c)

/-- Three tokens and what stands between them. -/
def threeTokens (t₁ w₁ t₂ w₂ t₃ : List Char) : List Char :=
  t₁ ++ (w₁ ++ (t₂ ++ (w₂ ++ t₃)))

/-- The spellings of a month in lower case: its name, the three letters it begins with, and
{lit}`sept`. -/
def monthSpellings (month : Nat) : List (List Char) :=
  match monthNames[month - 1]? with
  | none => []
  | some name =>
      [name.toList, name.toList.take 3] ++ if month = 9 then ["sept".toList] else []

/-- A word is a spelling of the month, in whatever case. -/
def MonthWord (month : Nat) (word : List Char) : Prop :=
  toAsciiLowercase word ∈ monthSpellings month

/-- Points and commas. -/
def Punctuation (p : List Char) : Prop :=
  ∀ c ∈ p, c = '.' ∨ c = ','

/-- White space of any length. -/
def Spaces (w : List Char) : Prop :=
  ∀ c ∈ w, Text.isWhitespace c = true

/-- The forms of a date, without the white space around them. -/
inductive DateText (y month day : Nat) : List Char → Prop
  | iso : DateText y month day (separated '-' (fourDigits y) (twoDigits month) (twoDigits day))
  | yearFirst :
      DateText y month day (separated '/' (fourDigits y) (twoDigits month) (twoDigits day))
  | monthFirst :
      DateText y month day (separated '/' (twoDigits month) (twoDigits day) (fourDigits y))
  | dayFirst :
      DateText y month day (separated '/' (twoDigits day) (twoDigits month) (fourDigits y))
  | monthName {word p₁ w₁ p₂ w₂ p₃ : List Char} (hword : MonthWord month word)
      (hp₁ : Punctuation p₁) (hp₂ : Punctuation p₂) (hp₃ : Punctuation p₃)
      (hw₁ : Spaces w₁) (hw₂ : Spaces w₂) (hne₁ : w₁ ≠ []) (hne₂ : w₂ ≠ []) :
      DateText y month day (threeTokens (word ++ p₁) w₁ (Nat.toDigits 10 day ++ p₂) w₂
        (fourDigits y ++ p₃))
  | dayName {word p₁ w₁ p₂ w₂ p₃ : List Char} (hword : MonthWord month word)
      (hp₁ : Punctuation p₁) (hp₂ : Punctuation p₂) (hp₃ : Punctuation p₃)
      (hw₁ : Spaces w₁) (hw₂ : Spaces w₂) (hne₁ : w₁ ≠ []) (hne₂ : w₂ ≠ []) :
      DateText y month day (threeTokens (Nat.toDigits 10 day ++ p₁) w₁ (word ++ p₂) w₂
        (fourDigits y ++ p₃))

section Documented

variable [Calendar]

/-- What the calendar library documents of the dates that the parser reads, and what the
spreadsheet library does of a cell without a date. -/
structure DocumentedDates : Prop where
  valid : ∀ y month day d, Calendar.fromYmdOpt y month day = some d →
    Calendar.year d = y ∧ 1 ≤ month ∧ month ≤ 12 ∧ 1 ≤ day ∧ day ≤ 31
  iso : ∀ y month day, y < 10000 → month < 100 → day < 100 →
    Calendar.parseFromStr (separated '-' (fourDigits y) (twoDigits month) (twoDigits day))
      "%Y-%m-%d" = Calendar.fromYmdOpt y month day
  yearFirst : ∀ y month day, y < 10000 → month < 100 → day < 100 →
    Calendar.parseFromStr (separated '/' (fourDigits y) (twoDigits month) (twoDigits day))
      "%Y/%m/%d" = Calendar.fromYmdOpt y month day
  monthFirst : ∀ y month day, y < 10000 → month < 100 → day < 100 →
    Calendar.parseFromStr (separated '/' (twoDigits month) (twoDigits day) (fourDigits y))
      "%m/%d/%Y" = Calendar.fromYmdOpt y month day
  dayFirst : ∀ y month day, y < 10000 → month < 100 → day < 100 →
    Calendar.parseFromStr (separated '/' (twoDigits day) (twoDigits month) (fourDigits y))
      "%d/%m/%Y" = Calendar.fromYmdOpt y month day
  -- a literal of the format has to occur, and a day takes two digits at most
  dash : ∀ text, '-' ∉ text → Calendar.parseFromStr text "%Y-%m-%d" = none
  slash : ∀ text, '/' ∉ text → Calendar.parseFromStr text "%Y/%m/%d" = none
  dayWidth : ∀ a b y, a < 100 → b < 100 → y < 10000 → Calendar.parseFromStr
    (separated '/' (twoDigits a) (twoDigits b) (fourDigits y)) "%Y/%m/%d" = none
  text : ∀ s, Calendar.asDate (.string s) = none
  empty : Calendar.asDate .empty = none

/-- No form reads the text as a plausible date. -/
def Unreadable (text : List Char) : Prop :=
  ∀ d, (Calendar.parseFromStr text "%Y-%m-%d" = some d ∨
      Calendar.parseFromStr text "%Y/%m/%d" = some d ∨ parseMonthNameDate text = some d ∨
      Calendar.parseFromStr text "%m/%d/%Y" = some d ∨
      Calendar.parseFromStr text "%d/%m/%Y" = some d) → plausibleDate d = false

/-- The date cell of the IGRF sheet: blank, a text without a date, or a date in one of its
forms with white space around it. -/
inductive DateCell (y month day : Nat) : Option Data → Prop
  | blank {cell : Option Data} (h : NoText cell) : DateCell y month day cell
  | unreadable {s : String} (h : Unreadable (Text.trim s.toList)) :
      DateCell y month day (some (.string s))
  | written {s : String} {w core w' : List Char} (hs : s.toList = w ++ (core ++ w'))
      (hw : Spaces w) (hw' : Spaces w') (hcore : DateText y month day core) :
      DateCell y month day (some (.string s))

end Documented

/-! ## Digits and words -/

section Characters

/-- The characters of numbers below ten are digits. -/
theorem isDigit_of_mem_digits {digits : List Nat} (hlt : ∀ i ∈ digits, i < 10) {c : Char}
    (h : c ∈ digits.map Nat.digitChar) : c.isDigit = true := by
  obtain ⟨i, hi, rfl⟩ := List.mem_map.mp h
  rw [Nat.isDigit_digitChar]
  exact decide_eq_true (hlt i hi)

theorem isDigit_of_mem_fourDigits {n : Nat} (hn : n < 10000) {c : Char} (h : c ∈ fourDigits n) :
    c.isDigit = true := by
  apply isDigit_of_mem_digits _ h
  simp only [List.forall_mem_cons, List.not_mem_nil, false_implies, implies_true, and_true]
  omega

theorem isDigit_of_mem_twoDigits {n : Nat} (hn : n < 100) {c : Char} (h : c ∈ twoDigits n) :
    c.isDigit = true := by
  apply isDigit_of_mem_digits _ h
  simp only [List.forall_mem_cons, List.not_mem_nil, false_implies, implies_true, and_true]
  omega

/-- Four digits denote their number. -/
theorem ofDigits_fourDigits {n : Nat} (hn : n < 10000) : ofDigits (fourDigits n) = n := by
  have hdigit : ∀ i, i < 10 → i.digitChar.toNat - '0'.toNat = i :=
    fun i hi => Nat.toNat_digitChar_sub_48_of_lt_ten hi
  simp only [ofDigits, fourDigits, List.map_cons, List.map_nil, List.foldl_cons, List.foldl_nil]
  rw [hdigit _ (by omega), hdigit _ (by omega), hdigit _ (by omega), hdigit _ (by omega)]
  omega

/-- The month of a word in lower case. -/
def monthOfLower (lower : List Char) : Option Nat :=
  let stem := if lower = "sept".toList then "sep".toList else lower
  ((monthNames.findIdx? fun m => decide (m.toList = lower)).map (· + 1)).orElse fun _ =>
    (monthNames.findIdx? fun m => decide (m.toList.take 3 = stem)).map (· + 1)

theorem monthOf_orElse_abbrOf (word : List Char) :
    ((monthOf word).orElse fun _ => abbrOf word) = monthOfLower (toAsciiLowercase word) :=
  rfl

/-- Every spelling of a month is a word of lower-case letters that stands for the month. -/
theorem monthSpellings_spec :
    ∀ month ∈ List.range' 1 12, ∀ l ∈ monthSpellings month,
      l ≠ [] ∧ (∀ c ∈ l, c.isLower = true) ∧ monthOfLower l = some month := by
  have hall : ∀ month ∈ List.range' 1 12, ∀ l ∈ monthSpellings month,
      l ≠ [] ∧ l.all Char.isLower = true ∧ monthOfLower l = some month := by
    decide +kernel
  simpa only [List.all_eq_true] using hall

section Months

variable {month : Nat} {word : List Char} (hmonth : 1 ≤ month ∧ month ≤ 12)
  (hword : MonthWord month word)
include hmonth hword

theorem monthWord_spec :
    toAsciiLowercase word ≠ [] ∧ (∀ c ∈ toAsciiLowercase word, c.isLower = true) ∧
      monthOfLower (toAsciiLowercase word) = some month := by
  refine monthSpellings_spec month ?_ _ hword
  rw [List.mem_range'_1]
  omega

theorem monthWord_ne_nil : word ≠ [] := by
  rintro rfl
  exact (monthWord_spec hmonth hword).1 rfl

theorem isAlpha_of_monthWord {c : Char} (hc : c ∈ word) : c.isAlpha = true :=
  isAlpha_of_isLower_toLower
    ((monthWord_spec hmonth hword).2.1 c.toLower (List.mem_map_of_mem hc))

end Months

/-- A numeral is not a month. -/
theorem monthOfLower_of_digits {ds : List Char} (hne : ds ≠ [])
    (hds : ∀ c ∈ ds, c.isDigit = true) : monthOfLower (toAsciiLowercase ds) = none := by
  have hlower : toAsciiLowercase ds = ds := by
    rw [toAsciiLowercase, List.map_congr_left fun c hc => toLower_of_isDigit (hds c hc)]
    exact List.map_id ds
  obtain ⟨c, hc⟩ := List.exists_mem_of_ne_nil ds hne
  have hletter : ∀ l : List Char, c ∈ l → ¬ l.all Char.isLower = true := by
    intro l hcl hl
    have hdigit := isDigit_range (hds c hc)
    have hrange := isLower_range (List.all_eq_true.mp hl c hcl)
    omega
  have hnames : ∀ m ∈ monthNames, m.toList.all Char.isLower = true := by decide +kernel
  have hsept : ds ≠ "sept".toList := by
    intro heq
    exact hletter _ (heq ▸ hc) (by decide +kernel)
  have hfull : monthNames.findIdx? (fun m => decide (m.toList = ds)) = none := by
    rw [List.findIdx?_eq_none_iff]
    intro m hm
    rw [decide_eq_false_iff_not]
    rintro rfl
    exact hletter _ hc (hnames m hm)
  have habbr : monthNames.findIdx? (fun m => decide (m.toList.take 3 = ds)) = none := by
    rw [List.findIdx?_eq_none_iff]
    intro m hm
    rw [decide_eq_false_iff_not]
    rintro rfl
    exact hletter _ (List.mem_of_mem_take hc) (hnames m hm)
  rw [hlower, monthOfLower, if_neg hsept, hfull, habbr]
  rfl

/-! ## Tokens -/

/-- The points and commas behind a token are dropped. -/
theorem trimPunctuation_append {tok p : List Char} (hp : Punctuation p)
    (htok : ∀ c ∈ tok.getLast?, c ≠ '.' ∧ c ≠ ',') : trimPunctuation (tok ++ p) = tok := by
  rw [trimPunctuation, List.reverse_append, List.dropWhile_append_of_pos]
  · cases hlast : tok.reverse with
    | nil => simpa using hlast.symm
    | cons c rest =>
        have hc : tok.getLast? = some c := by rw [← List.head?_reverse, hlast]; rfl
        obtain ⟨hpoint, hcomma⟩ := htok c hc
        rw [List.dropWhile_cons, if_neg (by simp [hpoint, hcomma]), ← hlast, List.reverse_reverse]
  · intro c hc
    rcases hp c (List.mem_reverse.mp hc) with rfl | rfl
    · rfl
    · rfl

theorem isWhitespace_of_punctuation {p : List Char} (hp : Punctuation p) {c : Char} (hc : c ∈ p) :
    Text.isWhitespace c = false := by
  rcases hp c hc with rfl | rfl
  · rfl
  · rfl

/-- A token: letters and digits with points and commas behind them. -/
structure IsToken (tok p : List Char) : Prop where
  nonempty : tok ≠ []
  chars : ∀ c ∈ tok, c.isAlpha = true ∨ c.isDigit = true
  punctuation : Punctuation p

variable {tok p : List Char}

theorem IsToken.range (h : IsToken tok p) {c : Char} (hc : c ∈ tok) :
    48 ≤ c.toNat ∧ c.toNat ≤ 122 := by
  rcases h.chars c hc with halpha | hdigit
  · have hrange := isAlpha_range halpha
    omega
  · have hrange := isDigit_range hdigit
    omega

theorem IsToken.isWhitespace (h : IsToken tok p) {c : Char} (hc : c ∈ tok ++ p) :
    Text.isWhitespace c = false := by
  rcases List.mem_append.mp hc with hc | hc
  · have hrange := h.range hc
    exact isWhitespace_of_range (by omega) (by omega)
  · exact isWhitespace_of_punctuation h.punctuation hc

theorem IsToken.trimPunctuation (h : IsToken tok p) : trimPunctuation (tok ++ p) = tok := by
  apply trimPunctuation_append h.punctuation
  intro c hc
  have hrange := h.range (List.mem_of_getLast? hc)
  constructor
  · rintro rfl
    exact absurd hrange.1 (by decide)
  · rintro rfl
    exact absurd hrange.1 (by decide)

theorem IsToken.ne_nil (h : IsToken tok p) : tok ++ p ≠ [] :=
  List.append_ne_nil_of_left_ne_nil h.nonempty p

/-- A text of three tokens is split into them. -/
theorem splitWhitespace_threeTokens {t₁ p₁ w₁ t₂ p₂ w₂ t₃ p₃ : List Char} (h₁ : IsToken t₁ p₁)
    (h₂ : IsToken t₂ p₂) (h₃ : IsToken t₃ p₃) (hw₁ : Spaces w₁) (hw₂ : Spaces w₂)
    (hne₁ : w₁ ≠ []) (hne₂ : w₂ ≠ []) :
    Text.splitWhitespace (threeTokens (t₁ ++ p₁) w₁ (t₂ ++ p₂) w₂ (t₃ ++ p₃)) =
      [t₁ ++ p₁, t₂ ++ p₂, t₃ ++ p₃] := by
  rw [threeTokens,
    Text.splitWhitespace_token_append h₁.ne_nil (fun _ => h₁.isWhitespace) hne₁ hw₁,
    Text.splitWhitespace_token_append h₂.ne_nil (fun _ => h₂.isWhitespace) hne₂ hw₂,
    Text.splitWhitespace_token h₃.ne_nil fun _ => h₃.isWhitespace]

/-- The ends of a text of three tokens are not white space. -/
theorem trimmed_threeTokens {t₁ p₁ w₁ t₂ w₂ t₃ p₃ : List Char} (h₁ : IsToken t₁ p₁)
    (h₃ : IsToken t₃ p₃) : Text.Trimmed (threeTokens (t₁ ++ p₁) w₁ t₂ w₂ (t₃ ++ p₃)) := by
  constructor
  · intro c hc
    rw [threeTokens, List.head?_append_of_ne_nil _ h₁.ne_nil] at hc
    exact h₁.isWhitespace (List.mem_of_head? hc)
  · intro c hc
    have hassoc : threeTokens (t₁ ++ p₁) w₁ t₂ w₂ (t₃ ++ p₃) =
        (t₁ ++ p₁ ++ w₁ ++ t₂ ++ w₂) ++ (t₃ ++ p₃) := by
      simp [threeTokens]
    rw [hassoc, List.getLast?_append_of_ne_nil _ h₃.ne_nil] at hc
    exact h₃.isWhitespace (List.mem_of_getLast? hc)

end Characters

/-! ## Months in words -/

section Words

theorem isToken_toDigits (n : Nat) {p : List Char} (hp : Punctuation p) :
    IsToken (Nat.toDigits 10 n) p where
  nonempty := Nat.toDigits_ne_nil
  chars c hc := Or.inr (Nat.isDigit_of_mem_toDigits (b := 10) (by decide) (by decide) hc)
  punctuation := hp

theorem isToken_fourDigits {n : Nat} (hn : n < 10000) {p : List Char} (hp : Punctuation p) :
    IsToken (fourDigits n) p where
  nonempty := List.cons_ne_nil _ _
  chars _ hc := Or.inr (isDigit_of_mem_fourDigits hn hc)
  punctuation := hp

theorem isToken_monthWord {month : Nat} {word : List Char} (hmonth : 1 ≤ month ∧ month ≤ 12)
    (hword : MonthWord month word) {p : List Char} (hp : Punctuation p) : IsToken word p where
  nonempty := monthWord_ne_nil hmonth hword
  chars _ hc := Or.inl (isAlpha_of_monthWord hmonth hword hc)
  punctuation := hp

theorem parseUnsigned_toDigits {n : Nat} (hn : n < 2 ^ 32) :
    parseUnsigned (2 ^ 32 - 1) (Nat.toDigits 10 n) = some n := by
  have hdigits : ∀ c ∈ Nat.toDigits 10 n, c.isDigit = true := fun c hc =>
    Nat.isDigit_of_mem_toDigits (b := 10) (by decide) (by decide) hc
  have hle : ofDigits (Nat.toDigits 10 n) ≤ 2 ^ 32 - 1 := by
    rw [ofDigits_toDigits]
    omega
  rw [parseUnsigned_of_digits Nat.toDigits_ne_nil hdigits hle, ofDigits_toDigits]

theorem parseSigned_fourDigits {n : Nat} (hn : n < 10000) :
    parseSigned (-2 ^ 31) (2 ^ 31 - 1) (fourDigits n) = some (n : Int) := by
  have hne : fourDigits n ≠ [] := List.cons_ne_nil _ _
  have hdigits : ∀ c ∈ fourDigits n, c.isDigit = true := fun c hc =>
    isDigit_of_mem_fourDigits hn hc
  have hvalue := ofDigits_fourDigits hn
  rw [parseSigned_of_digits hne hdigits (by omega) (by omega), hvalue]

variable [Calendar] {y month day : Nat} {word p₁ w₁ p₂ w₂ p₃ : List Char}

/-- A month in words is read before or behind the day. -/
theorem parseMonthNameDate_of_words (hmonth : 1 ≤ month ∧ month ≤ 12) (hday : day < 2 ^ 32)
    (hy : y < 10000) (hword : MonthWord month word) (hp₁ : Punctuation p₁) (hp₂ : Punctuation p₂)
    (hp₃ : Punctuation p₃) (hw₁ : Spaces w₁) (hw₂ : Spaces w₂) (hne₁ : w₁ ≠ [])
    (hne₂ : w₂ ≠ []) :
    parseMonthNameDate (threeTokens (word ++ p₁) w₁ (Nat.toDigits 10 day ++ p₂) w₂
        (fourDigits y ++ p₃)) = Calendar.fromYmdOpt y month day ∧
      parseMonthNameDate (threeTokens (Nat.toDigits 10 day ++ p₁) w₁ (word ++ p₂) w₂
        (fourDigits y ++ p₃)) = Calendar.fromYmdOpt y month day := by
  have hyear := isToken_fourDigits hy hp₃
  have hisMonth : ((monthOf word).orElse fun _ => abbrOf word) = some month := by
    rw [monthOf_orElse_abbrOf]
    exact (monthWord_spec hmonth hword).2.2
  constructor
  · have hfirst := isToken_monthWord hmonth hword hp₁
    have hsecond := isToken_toDigits day hp₂
    unfold parseMonthNameDate
    rw [splitWhitespace_threeTokens hfirst hsecond hyear hw₁ hw₂ hne₁ hne₂]
    simp only [List.map_cons, List.map_nil, hfirst.trimPunctuation, hsecond.trimPunctuation,
      hyear.trimPunctuation, hisMonth, parseUnsigned_toDigits hday, parseSigned_fourDigits hy,
      Option.bind_eq_bind, Option.bind_some]
  · have hfirst := isToken_toDigits day hp₁
    have hsecond := isToken_monthWord hmonth hword hp₂
    have hnotMonth : ((monthOf (Nat.toDigits 10 day)).orElse fun _ =>
        abbrOf (Nat.toDigits 10 day)) = none := by
      rw [monthOf_orElse_abbrOf]
      exact monthOfLower_of_digits Nat.toDigits_ne_nil fun c hc =>
        Nat.isDigit_of_mem_toDigits (b := 10) (by decide) (by decide) hc
    unfold parseMonthNameDate
    rw [splitWhitespace_threeTokens hfirst hsecond hyear hw₁ hw₂ hne₁ hne₂]
    simp only [List.map_cons, List.map_nil, hfirst.trimPunctuation, hsecond.trimPunctuation,
      hyear.trimPunctuation, hisMonth, hnotMonth, parseUnsigned_toDigits hday,
      parseSigned_fourDigits hy, Option.bind_eq_bind, Option.bind_some]

end Words

/-! ## Numbers with separators -/

section Separated

variable {sep : Char} {a b c : List Char}

theorem mem_separated {x : Char} :
    x ∈ separated sep a b c ↔ x ∈ a ∨ x = sep ∨ x ∈ b ∨ x = sep ∨ x ∈ c := by
  simp only [separated, List.mem_append, List.mem_cons]

variable (ha : ∀ x ∈ a, x.isDigit = true) (hb : ∀ x ∈ b, x.isDigit = true)
  (hc : ∀ x ∈ c, x.isDigit = true)

theorem isWhitespace_of_isDigit {x : Char} (h : x.isDigit = true) :
    Text.isWhitespace x = false := by
  have hrange := isDigit_range h
  exact isWhitespace_of_range (by omega) (by omega)

include ha hb hc in
theorem isWhitespace_separated (hsep : Text.isWhitespace sep = false) :
    ∀ x ∈ separated sep a b c, Text.isWhitespace x = false := by
  intro x hx
  rcases mem_separated.mp hx with hx | rfl | hx | rfl | hx
  · exact isWhitespace_of_isDigit (ha x hx)
  · exact hsep
  · exact isWhitespace_of_isDigit (hb x hx)
  · exact hsep
  · exact isWhitespace_of_isDigit (hc x hx)

include ha hb hc in
/-- Numbers do not contain what separates others. -/
theorem not_mem_separated {x : Char} (hx : x.isDigit = false) (hne : x ≠ sep) :
    x ∉ separated sep a b c := by
  have hdigits : ∀ s : List Char, (∀ z ∈ s, z.isDigit = true) → x ∉ s := by
    intro s hs hmem
    rw [hs x hmem] at hx
    cases hx
  rw [mem_separated]
  rintro (h | h | h | h | h)
  · exact hdigits a ha h
  · exact hne h
  · exact hdigits b hb h
  · exact hne h
  · exact hdigits c hc h

theorem separated_ne_nil : separated sep a b c ≠ [] :=
  List.append_ne_nil_of_right_ne_nil a (List.cons_ne_nil _ _)

theorem trimmed_of_isWhitespace {s : List Char} (h : ∀ x ∈ s, Text.isWhitespace x = false) :
    Text.Trimmed s :=
  ⟨fun x hx => h x (List.mem_of_head? hx), fun x hx => h x (List.mem_of_getLast? hx)⟩

include ha hb hc in
/-- Numbers with separators are one token, and no month. -/
theorem parseMonthNameDate_separated [Calendar] (hsep : Text.isWhitespace sep = false) :
    parseMonthNameDate (separated sep a b c) = none := by
  unfold parseMonthNameDate
  rw [Text.splitWhitespace_token separated_ne_nil (isWhitespace_separated ha hb hc hsep)]
  rfl

end Separated

/-! ## The forms are read back -/

section Forms

variable {y month day : Nat} {core : List Char} (hy : y < 10000)
  (hmonth : 1 ≤ month ∧ month ≤ 12) (hday : day ≤ 31)

theorem isNoneText_of_isDigit {s : List Char} {c : Char} (hc : c ∈ s) (hdigit : c.isDigit = true) :
    isNoneText s = false := by
  rw [Bool.eq_false_iff]
  intro hnone
  have hmap : s.map Char.toLower = "none".toList.map Char.toLower := eq_of_beq hnone
  have hmem : c.toLower ∈ s.map Char.toLower := List.mem_map_of_mem hc
  rw [hmap, toLower_of_isDigit hdigit] at hmem
  have hletters : ∀ x ∈ "none".toList.map Char.toLower, x.isDigit = false := by simp
  rw [hletters c hmem] at hdigit
  cases hdigit

theorem mem_threeTokens {t₁ w₁ t₂ w₂ t₃ : List Char} {x : Char} :
    x ∈ threeTokens t₁ w₁ t₂ w₂ t₃ ↔ x ∈ t₁ ∨ x ∈ w₁ ∨ x ∈ t₂ ∨ x ∈ w₂ ∨ x ∈ t₃ := by
  simp only [threeTokens, List.mem_append]

/-- Every form has the digits of the year. -/
theorem mem_of_dateText (h : DateText y month day core) {c : Char} (hc : c ∈ fourDigits y) :
    c ∈ core := by
  cases h with
  | iso => exact mem_separated.mpr (Or.inl hc)
  | yearFirst => exact mem_separated.mpr (Or.inl hc)
  | monthFirst => exact mem_separated.mpr (by simp only [hc, or_true])
  | dayFirst => exact mem_separated.mpr (by simp only [hc, or_true])
  | monthName => exact mem_threeTokens.mpr (by simp only [List.mem_append, hc, or_true, true_or])
  | dayName => exact mem_threeTokens.mpr (by simp only [List.mem_append, hc, or_true, true_or])

theorem ne_nil_of_dateText (h : DateText y month day core) : core ≠ [] := by
  rintro rfl
  have hfirst : (y / 1000).digitChar ∈ fourDigits y := List.mem_cons_self
  exact List.not_mem_nil (mem_of_dateText h hfirst)

include hy in
theorem isNoneText_of_dateText (h : DateText y month day core) : isNoneText core = false := by
  have hfirst : (y / 1000).digitChar ∈ fourDigits y := List.mem_cons_self
  exact isNoneText_of_isDigit (mem_of_dateText h hfirst) (isDigit_of_mem_fourDigits hy hfirst)

include hy hmonth hday in
/-- The numerals of a date are digits. -/
theorem isDigit_of_mem_numerals :
    (∀ x ∈ fourDigits y, x.isDigit = true) ∧ (∀ x ∈ twoDigits month, x.isDigit = true) ∧
      ∀ x ∈ twoDigits day, x.isDigit = true :=
  ⟨fun _ => isDigit_of_mem_fourDigits hy, fun _ => isDigit_of_mem_twoDigits (by omega),
    fun _ => isDigit_of_mem_twoDigits (by omega)⟩

include hy hmonth hday in
/-- A form begins and ends with a character that is not white space. -/
theorem trimmed_of_dateText (h : DateText y month day core) : Text.Trimmed core := by
  obtain ⟨hyear, hmonths, hdays⟩ := isDigit_of_mem_numerals hy hmonth hday
  cases h with
  | iso => exact trimmed_of_isWhitespace (isWhitespace_separated hyear hmonths hdays (by decide))
  | yearFirst =>
      exact trimmed_of_isWhitespace (isWhitespace_separated hyear hmonths hdays (by decide))
  | monthFirst =>
      exact trimmed_of_isWhitespace (isWhitespace_separated hmonths hdays hyear (by decide))
  | dayFirst =>
      exact trimmed_of_isWhitespace (isWhitespace_separated hdays hmonths hyear (by decide))
  | monthName hword hp₁ _ hp₃ =>
      exact trimmed_threeTokens (isToken_monthWord hmonth hword hp₁) (isToken_fourDigits hy hp₃)
  | dayName _ hp₁ _ hp₃ =>
      exact trimmed_threeTokens (isToken_toDigits day hp₁) (isToken_fourDigits hy hp₃)

/-- A text of three tokens has no dash and no slash. -/
theorem not_mem_threeTokens {t₁ p₁ w₁ t₂ p₂ w₂ t₃ p₃ : List Char} (h₁ : IsToken t₁ p₁)
    (h₂ : IsToken t₂ p₂) (h₃ : IsToken t₃ p₃) (hw₁ : Spaces w₁) (hw₂ : Spaces w₂) {x : Char}
    (hx : x = '-' ∨ x = '/') : x ∉ threeTokens (t₁ ++ p₁) w₁ (t₂ ++ p₂) w₂ (t₃ ++ p₃) := by
  have htoken : ∀ t p, IsToken t p → x ∉ t ++ p := by
    intro t p h hmem
    rcases List.mem_append.mp hmem with hmem | hmem
    · have hrange := (h.range hmem).1
      rcases hx with rfl | rfl
      · exact absurd hrange (by decide)
      · exact absurd hrange (by decide)
    · rcases hx with rfl | rfl
      · exact absurd (h.punctuation _ hmem) (by decide)
      · exact absurd (h.punctuation _ hmem) (by decide)
  have hspaces : ∀ w, Spaces w → x ∉ w := by
    intro w hw hmem
    rcases hx with rfl | rfl
    · exact absurd (hw _ hmem) (by decide)
    · exact absurd (hw _ hmem) (by decide)
  rw [mem_threeTokens]
  rintro (h | h | h | h | h)
  · exact htoken t₁ p₁ h₁ h
  · exact hspaces w₁ hw₁ h
  · exact htoken t₂ p₂ h₂ h
  · exact hspaces w₂ hw₂ h
  · exact htoken t₃ p₃ h₃ h

end Forms

section Readings

variable [Calendar] {y month day : Nat} {core : List Char} {d : Int}

@[simp]
theorem firstPlausible_none (dates : List (Option Int)) :
    firstPlausible (none :: dates) = firstPlausible dates :=
  rfl

theorem firstPlausible_some (hd : plausibleDate d = true) (dates : List (Option Int)) :
    firstPlausible (some d :: dates) = some d :=
  List.find?_cons_of_pos hd

/-- The month-first reading stands when the name of the file has the same date. -/
theorem slashReading_monthFirst (hd : plausibleDate d = true) (dayFirst : Option Int) :
    slashReading (some d) dayFirst (some d) = some d := by
  cases dayFirst with
  | none => exact if_pos hd
  | some df =>
      have hnot : ¬ (d ≠ df ∧ some d = some df) := fun h => h.1 (Option.some.inj h.2)
      rw [slashReading, if_neg hnot, if_pos hd]

/-- The day-first reading is taken when the name of the file has the same date. -/
theorem slashReading_dayFirst (hd : plausibleDate d = true) (monthFirst : Option Int) :
    slashReading monthFirst (some d) (some d) = some d := by
  cases monthFirst with
  | none => exact if_pos hd
  | some mf =>
      by_cases hne : mf = d
      · rw [hne]
        exact slashReading_monthFirst hd (some d)
      · exact slashReading_eq_of_selects hne

/-- A month name and numerals are no date in digits, so their own reading is the first one. -/
theorem firstPlausible_threeTokens (hdoc : DocumentedDates) (hinRange : plausibleDate d = true)
    {t₁ p₁ w₁ t₂ p₂ w₂ t₃ p₃ : List Char} (h₁ : IsToken t₁ p₁) (h₂ : IsToken t₂ p₂)
    (h₃ : IsToken t₃ p₃) (hw₁ : Spaces w₁) (hw₂ : Spaces w₂)
    (hread : parseMonthNameDate (threeTokens (t₁ ++ p₁) w₁ (t₂ ++ p₂) w₂ (t₃ ++ p₃)) = some d) :
    firstPlausible
        (unambiguousReadings (threeTokens (t₁ ++ p₁) w₁ (t₂ ++ p₂) w₂ (t₃ ++ p₃))) = some d := by
  have hdash := not_mem_threeTokens h₁ h₂ h₃ hw₁ hw₂ (x := '-') (Or.inl rfl)
  have hslash := not_mem_threeTokens h₁ h₂ h₃ hw₁ hw₂ (x := '/') (Or.inr rfl)
  rw [unambiguousReadings, hdoc.dash _ hdash, hdoc.slash _ hslash, hread, firstPlausible_none,
    firstPlausible_none]
  exact firstPlausible_some hinRange _

variable (hdoc : DocumentedDates) (hd : Calendar.fromYmdOpt y month day = some d)
  (hinRange : plausibleDate d = true) (hy : y < 10000) (hmonth : 1 ≤ month ∧ month ≤ 12)
  (hday : day ≤ 31)
include hdoc hd hinRange hy hmonth hday

/-- Each form of a date is read when the name of the file has the same date. -/
theorem parseTextDate_of_dateText (h : DateText y month day core) :
    parseTextDate core (some d) = some d := by
  obtain ⟨hyear, hmonths, hdays⟩ := isDigit_of_mem_numerals hy hmonth hday
  rw [parseTextDate_eq, Text.trim_eq_self (trimmed_of_dateText hy hmonth hday h),
    if_neg fun hempty => ne_nil_of_dateText h (List.isEmpty_iff.mp hempty)]
  cases h with
  | iso =>
      rw [unambiguousReadings, hdoc.iso y month day hy (by omega) (by omega), hd,
        firstPlausible_some hinRange]
      rfl
  | yearFirst =>
      rw [unambiguousReadings,
        hdoc.dash _ (not_mem_separated hyear hmonths hdays (by decide) (by decide)),
        hdoc.yearFirst y month day hy (by omega) (by omega), hd, firstPlausible_none,
        firstPlausible_some hinRange]
      rfl
  | monthFirst =>
      rw [unambiguousReadings,
        hdoc.dash _ (not_mem_separated hmonths hdays hyear (by decide) (by decide)),
        hdoc.dayWidth _ _ _ (by omega) (by omega) hy,
        parseMonthNameDate_separated hmonths hdays hyear (by decide),
        hdoc.monthFirst y month day hy (by omega) (by omega), hd]
      exact slashReading_monthFirst hinRange _
  | dayFirst =>
      rw [unambiguousReadings,
        hdoc.dash _ (not_mem_separated hdays hmonths hyear (by decide) (by decide)),
        hdoc.dayWidth _ _ _ (by omega) (by omega) hy,
        parseMonthNameDate_separated hdays hmonths hyear (by decide),
        hdoc.dayFirst y month day hy (by omega) (by omega), hd]
      exact slashReading_dayFirst hinRange _
  | monthName hword hp₁ hp₂ hp₃ hw₁ hw₂ hne₁ hne₂ =>
      have hread := parseMonthNameDate_of_words hmonth (show day < 2 ^ 32 by omega) hy hword hp₁ hp₂
        hp₃ hw₁ hw₂ hne₁ hne₂
      rw [firstPlausible_threeTokens hdoc hinRange (isToken_monthWord hmonth hword hp₁)
        (isToken_toDigits day hp₂) (isToken_fourDigits hy hp₃) hw₁ hw₂ (hread.1.trans hd)]
      rfl
  | dayName hword hp₁ hp₂ hp₃ hw₁ hw₂ hne₁ hne₂ =>
      have hread := parseMonthNameDate_of_words hmonth (show day < 2 ^ 32 by omega) hy hword hp₁ hp₂
        hp₃ hw₁ hw₂ hne₁ hne₂
      rw [firstPlausible_threeTokens hdoc hinRange (isToken_toDigits day hp₁)
        (isToken_monthWord hmonth hword hp₂) (isToken_fourDigits hy hp₃) hw₁ hw₂
        (hread.2.trans hd)]
      rfl

omit hdoc hd hinRange hy hmonth hday in
/-- The date of the ambiguous forms is one of their two readings. -/
theorem reading_of_slashReading {monthFirst dayFirst fileDate : Option Int} {d' : Int}
    (h : slashReading monthFirst dayFirst fileDate = some d') :
    monthFirst = some d' ∨ dayFirst = some d' := by
  cases monthFirst with
  | none =>
      cases dayFirst with
      | none => cases h
      | some df =>
          simp only [slashReading] at h
          split_ifs at h
          exact Or.inr h
  | some mf =>
      cases dayFirst with
      | none =>
          simp only [slashReading] at h
          split_ifs at h
          exact Or.inl h
      | some df =>
          simp only [slashReading] at h
          split_ifs at h
          · exact Or.inr h
          · exact Or.inl h

omit hdoc hd hinRange hy hmonth hday in
/-- A date read from text is one of its readings. -/
theorem reading_of_parseTextDate {text : List Char} {fileDate : Option Int} {d' : Int}
    (h : parseTextDate text fileDate = some d') :
    Calendar.parseFromStr (Text.trim text) "%Y-%m-%d" = some d' ∨
      Calendar.parseFromStr (Text.trim text) "%Y/%m/%d" = some d' ∨
      parseMonthNameDate (Text.trim text) = some d' ∨
      Calendar.parseFromStr (Text.trim text) "%m/%d/%Y" = some d' ∨
      Calendar.parseFromStr (Text.trim text) "%d/%m/%Y" = some d' := by
  rw [parseTextDate_eq] at h
  split_ifs at h
  cases hfirst : firstPlausible (unambiguousReadings (Text.trim text)) with
  | some e =>
      rw [hfirst, Option.orElse_some] at h
      cases h
      have hmem := List.mem_of_find?_eq_some hfirst
      rw [List.mem_filterMap] at hmem
      obtain ⟨reading, hreading, heq⟩ := hmem
      simp only [unambiguousReadings, List.mem_cons, List.not_mem_nil, or_false] at hreading
      rcases hreading with rfl | rfl | rfl
      · exact Or.inl heq
      · exact Or.inr (Or.inl heq)
      · exact Or.inr (Or.inr (Or.inl heq))
  | none =>
      rw [hfirst, Option.orElse_none] at h
      exact Or.inr (Or.inr (Or.inr (reading_of_slashReading h)))

omit hdoc hd hy hmonth hday in
/-- Text that no form reads as a plausible date has no date. -/
theorem parseTextDate_of_unreadable {text : List Char} (h : Unreadable (Text.trim text)) :
    parseTextDate text (some d) = none := by
  have hnotBad : ¬ SelectsBadYear (Calendar.parseFromStr (Text.trim text) "%m/%d/%Y")
      (Calendar.parseFromStr (Text.trim text) "%d/%m/%Y") (some d) := by
    rintro ⟨mf, df, -, -, -, hfile, hbad⟩
    cases hfile
    rw [hinRange] at hbad
    cases hbad
  rw [Option.eq_none_iff_forall_ne_some]
  intro d' hd'
  have hyear :=
    (parseTextDate_plausible_iff text (some d)).mpr (fun hbad => hnotBad hbad.2.2) d' hd'
  have himplausible := h d' (reading_of_parseTextDate hd')
  rw [plausibleDate_iff.mpr hyear] at himplausible
  cases himplausible

end Readings

/-! ## The name of the file -/

section FileName

/-- Characters of one byte are taken one for one. -/
theorem takeBytes_append {s : List Char} (h : ∀ c ∈ s, c.toNat ≤ 127) (rest : List Char) :
    takeBytes s.length (s ++ rest) = some s := by
  induction s with
  | nil => rw [List.length_nil, takeBytes]
  | cons c s ih =>
      rw [List.forall_mem_cons] at h
      have hsize : c.utf8Size = 1 := Char.utf8Size_eq_one_iff.mpr (by exact h.1)
      rw [List.length_cons, List.cons_append, takeBytes, hsize, if_pos (by omega),
        Nat.add_sub_cancel, ih h.2]
      rfl

variable [Calendar] {y month day : Nat} {d : Int} {fileName : String} {pre suffix : List Char}

/-- The date of a file name is read behind its marker. -/
theorem dateFromFileName_of_marker (hdoc : DocumentedDates)
    (hd : Calendar.fromYmdOpt y month day = some d) (hy : y < 10000)
    (hmonth : 1 ≤ month ∧ month ≤ 12) (hday : day ≤ 31)
    (hname : fileName.toList = pre ++ ("STATS-".toList ++
      (separated '-' (fourDigits y) (twoDigits month) (twoDigits day) ++ suffix)))
    (hpre : ¬ "STATS-".toList <:+: pre) : dateFromFileName fileName = some d := by
  have hmarker : "STATS-".toList = "STATS".toList ++ ['-'] := rfl
  have hlast : '-' ∉ "STATS".toList := by decide +kernel
  have hascii : ∀ c ∈ separated '-' (fourDigits y) (twoDigits month) (twoDigits day),
      c.toNat ≤ 127 := by
    have hdigit : ∀ c : Char, c.isDigit = true → c.toNat ≤ 127 := by
      intro c hc
      have hrange := isDigit_range hc
      omega
    intro c hc
    rcases mem_separated.mp hc with hc | rfl | hc | rfl | hc
    · exact hdigit c (isDigit_of_mem_fourDigits hy hc)
    · decide
    · exact hdigit c (isDigit_of_mem_twoDigits (by omega) hc)
    · decide
    · exact hdigit c (isDigit_of_mem_twoDigits (by omega) hc)
  have hrest : Text.afterFirst "STATS-".toList fileName.toList =
      some (separated '-' (fourDigits y) (twoDigits month) (twoDigits day) ++ suffix) := by
    rw [hname, hmarker]
    exact Text.afterFirst_append hlast hpre _
  have htake : takeBytes 10
      (separated '-' (fourDigits y) (twoDigits month) (twoDigits day) ++ suffix) =
      some (separated '-' (fourDigits y) (twoDigits month) (twoDigits day)) :=
    takeBytes_append hascii suffix
  rw [dateFromFileName, hrest, Option.bind_eq_bind, Option.bind_some, htake, Option.bind_some,
    hdoc.iso y month day hy (by omega) (by omega), hd]

/-- Every way to write the date of a game is read back: the cell of the sheet has it in one of
its forms, or has none and the name of the file has it. -/
theorem igrfDate_of_dateCell [CellConversions] (hdoc : DocumentedDates)
    (hd : Calendar.fromYmdOpt y month day = some d)
    (hyear : 1990 ≤ Calendar.year d ∧ Calendar.year d ≤ Calendar.currentYear + 1) (hy : y < 10000)
    (hname : fileName.toList = pre ++ ("STATS-".toList ++
      (separated '-' (fourDigits y) (twoDigits month) (twoDigits day) ++ suffix)))
    (hpre : ¬ "STATS-".toList <:+: pre) {sheet : Range}
    (hcell : DateCell y month day (sheet.getValue 6 1)) :
    igrfDate sheet (some fileName) = some d := by
  obtain ⟨-, hmonth₁, hmonth₂, -, hday⟩ := hdoc.valid y month day d hd
  have hinRange := plausibleDate_iff.mpr hyear
  have hfile := dateFromFileName_of_marker hdoc hd hy ⟨hmonth₁, hmonth₂⟩ hday hname hpre
  have hstring : ∀ s, sheet.getValue 6 1 = some (.string s) →
      (sheet.getValue 6 1).bind Calendar.asDate = none := by
    intro s hs
    rw [hs, Option.bind_some]
    exact hdoc.text s
  generalize hvalue : sheet.getValue 6 1 = cell at hcell
  cases hcell with
  | blank hblank =>
      have hdate : (sheet.getValue 6 1).bind Calendar.asDate = none := by
        rcases hblank with (hnone | hempty) | ⟨s, hs, -⟩
        · rw [hvalue, hnone]
          rfl
        · rw [hvalue, hempty, Option.bind_some]
          exact hdoc.empty
        · exact hstring s (hvalue.trans hs)
      rw [igrfDate_of_no_date hdate, cellStr_of_noText (hvalue ▸ hblank), Option.bind_some, hfile]
      rfl
  | @unreadable s hunreadable =>
      have hread : ((cellStr sheet 6 1).bind fun t => parseTextDate t.toList (some d)) = none := by
        rw [cellStr_of_string hvalue]
        split_ifs
        · rfl
        · rw [Option.bind_some, String.toList_ofList]
          apply parseTextDate_of_unreadable hinRange
          rwa [Text.trim_eq_self (Text.trimmed_trim s.toList)]
      rw [igrfDate_of_no_date (hstring s hvalue), Option.bind_some, hfile, hread]
      rfl
  | @written s w core w' hs hw hw' hcore =>
      have htrim : Text.trim s.toList = core := by
        rw [hs]
        exact Text.trim_append hw hw' (ne_nil_of_dateText hcore)
          (trimmed_of_dateText hy ⟨hmonth₁, hmonth₂⟩ hday hcore)
      have hempty : core.isEmpty = false :=
        List.isEmpty_eq_false_iff.mpr (ne_nil_of_dateText hcore)
      have hcellStr : cellStr sheet 6 1 = some (String.ofList core) := by
        rw [cellStr_of_string hvalue, htrim, hempty, isNoneText_of_dateText hy hcore]
        rfl
      rw [igrfDate_of_no_date (hstring s hvalue), Option.bind_some, hfile, hcellStr,
        Option.bind_some, String.toList_ofList,
        parseTextDate_of_dateText hdoc hd hinRange hy ⟨hmonth₁, hmonth₂⟩ hday hcore]
      rfl

end FileName

/-! ## A calendar that reads the forms -/

section Gregorian

theorem splitOnP_of_not_mem {sep : Char} {s : List Char} (h : sep ∉ s) :
    s.splitOnP (· == sep) = [s] := by
  apply List.splitOnP_eq_singleton
  intro c hc
  exact beq_eq_false_iff_ne.mpr fun heq => h (heq ▸ hc)

theorem numerals_of_not_mem {sep : Char} {text : List Char} (h : sep ∉ text)
    (width₁ width₂ width₃ : Nat) : numerals sep width₁ width₂ width₃ text = none := by
  rw [numerals, splitOnP_of_not_mem h]

/-- Numbers with separators are split at them. -/
theorem splitOnP_separated {sep : Char} {a b c : List Char} (ha : sep ∉ a) (hb : sep ∉ b)
    (hc : sep ∉ c) : (separated sep a b c).splitOnP (· == sep) = [a, b, c] := by
  have hother : ∀ s : List Char, sep ∉ s → ∀ x ∈ s, (x == sep) = false :=
    fun s hs x hx => beq_eq_false_iff_ne.mpr fun heq => hs (heq ▸ hx)
  rw [separated, List.splitOnP_append_cons_of_forall_mem (hother a ha) sep (beq_self_eq_true sep),
    List.splitOnP_append_cons_of_forall_mem (hother b hb) sep (beq_self_eq_true sep),
    splitOnP_of_not_mem hc]

theorem numeral_fourDigits {n : Nat} (hn : n < 10000) : numeral 4 (fourDigits n) = some n := by
  have hdigits : (fourDigits n).all Char.isDigit = true :=
    List.all_eq_true.mpr fun c hc => isDigit_of_mem_fourDigits hn hc
  rw [numeral, if_pos ⟨List.cons_ne_nil _ _, le_refl 4, hdigits⟩, ofDigits_fourDigits hn]

theorem ofDigits_twoDigits {n : Nat} (hn : n < 100) : ofDigits (twoDigits n) = n := by
  have hdigit : ∀ i, i < 10 → i.digitChar.toNat - '0'.toNat = i :=
    fun i hi => Nat.toNat_digitChar_sub_48_of_lt_ten hi
  simp only [ofDigits, twoDigits, List.map_cons, List.map_nil, List.foldl_cons, List.foldl_nil]
  rw [hdigit _ (by omega), hdigit _ (by omega)]
  omega

theorem numeral_twoDigits {n : Nat} (hn : n < 100) : numeral 2 (twoDigits n) = some n := by
  have hdigits : (twoDigits n).all Char.isDigit = true :=
    List.all_eq_true.mpr fun c hc => isDigit_of_mem_twoDigits hn hc
  rw [numeral, if_pos ⟨List.cons_ne_nil _ _, le_refl 2, hdigits⟩, ofDigits_twoDigits hn]

theorem not_mem_fourDigits {n : Nat} (hn : n < 10000) {sep : Char} (hsep : sep.isDigit = false) :
    sep ∉ fourDigits n := by
  intro h
  rw [isDigit_of_mem_fourDigits hn h] at hsep
  cases hsep

theorem not_mem_twoDigits {n : Nat} (hn : n < 100) {sep : Char} (hsep : sep.isDigit = false) :
    sep ∉ twoDigits n := by
  intro h
  rw [isDigit_of_mem_twoDigits hn h] at hsep
  cases hsep

theorem numerals_yearFirst {sep : Char} (hsep : sep.isDigit = false) {y month day : Nat}
    (hy : y < 10000) (hmonth : month < 100) (hday : day < 100) :
    numerals sep 4 2 2 (separated sep (fourDigits y) (twoDigits month) (twoDigits day)) =
      some (y, month, day) := by
  rw [numerals, splitOnP_separated (not_mem_fourDigits hy hsep) (not_mem_twoDigits hmonth hsep)
    (not_mem_twoDigits hday hsep)]
  simp [numeral_fourDigits hy, numeral_twoDigits hmonth, numeral_twoDigits hday]

theorem numerals_yearLast {sep : Char} (hsep : sep.isDigit = false) {y a b : Nat}
    (hy : y < 10000) (ha : a < 100) (hb : b < 100) :
    numerals sep 2 2 4 (separated sep (twoDigits a) (twoDigits b) (fourDigits y)) =
      some (a, b, y) := by
  rw [numerals, splitOnP_separated (not_mem_twoDigits ha hsep) (not_mem_twoDigits hb hsep)
    (not_mem_fourDigits hy hsep)]
  simp [numeral_fourDigits hy, numeral_twoDigits ha, numeral_twoDigits hb]

theorem gregorianFromYmd_spec {y : Int} {month day : Nat} {d : Int}
    (h : gregorianFromYmd y month day = some d) :
    d / 372 = y ∧ 1 ≤ month ∧ month ≤ 12 ∧ 1 ≤ day ∧ day ≤ 31 := by
  have hdays : daysInMonth y month ≤ 31 := by
    unfold daysInMonth
    split_ifs <;> omega
  unfold gregorianFromYmd at h
  split_ifs at h with hvalid
  rw [Option.some.injEq] at h
  omega

attribute [local instance] gregorian

/-- The calendar reads what is written in the forms of numbers. -/
theorem documentedDates_gregorian : DocumentedDates where
  valid _ _ _ _ h := gregorianFromYmd_spec h
  iso y month day hy hmonth hday := by
    change (numerals '-' 4 2 2 _).bind _ = _
    rw [numerals_yearFirst rfl hy hmonth hday]
    rfl
  yearFirst y month day hy hmonth hday := by
    change (numerals '/' 4 2 2 _).bind _ = _
    rw [numerals_yearFirst rfl hy hmonth hday]
    rfl
  monthFirst y month day hy hmonth hday := by
    change (numerals '/' 2 2 4 _).bind _ = _
    rw [numerals_yearLast rfl hy hmonth hday]
    rfl
  dayFirst y month day hy hmonth hday := by
    change (numerals '/' 2 2 4 _).bind _ = _
    rw [numerals_yearLast rfl hy hday hmonth]
    rfl
  dash _ h := congrArg (Option.bind · _) (numerals_of_not_mem h 4 2 2)
  slash _ h := congrArg (Option.bind · _) (numerals_of_not_mem h 4 2 2)
  dayWidth a b y ha hb hy := by
    have hwide : numeral 2 (fourDigits y) = none :=
      if_neg fun h => absurd h.2.1 (by simp [fourDigits])
    change (numerals '/' 4 2 2 _).bind _ = _
    rw [numerals, splitOnP_separated (not_mem_twoDigits ha rfl) (not_mem_twoDigits hb rfl)
      (not_mem_fourDigits hy rfl)]
    simp [hwide]
  text _ := rfl
  empty := rfl

attribute [local instance] truncating

/-- A month in words with punctuation and white space around it. -/
theorem igrfDate_sept :
    igrfDate ⟨6, 1, [[.string " SEPT. 7,  2024 "]]⟩ (some "WFTDASTATS-2024-09-07_a_vs_b.xlsx") =
      some 753182 := by
  have hname : "WFTDASTATS-2024-09-07_a_vs_b.xlsx".toList =
      "WFTDA".toList ++ ("STATS-".toList ++ (separated '-' (fourDigits 2024) (twoDigits 9)
        (twoDigits 7) ++ "_a_vs_b.xlsx".toList)) := by
    decide +kernel
  have hword : MonthWord 9 "SEPT".toList := by
    change toAsciiLowercase "SEPT".toList ∈ monthSpellings 9
    decide +kernel
  have hspace : Spaces [' '] := by simp [Spaces, Text.isWhitespace]
  have hspaces : Spaces [' ', ' '] := by simp [Spaces, Text.isWhitespace]
  have hcore : DateText 2024 9 7 (threeTokens ("SEPT".toList ++ ['.']) [' ']
      (Nat.toDigits 10 7 ++ [',']) [' ', ' '] (fourDigits 2024 ++ [])) :=
    .monthName hword (by simp [Punctuation]) (by simp [Punctuation]) (by simp [Punctuation])
      hspace hspaces (by simp) (by simp)
  have hs : " SEPT. 7,  2024 ".toList = [' '] ++ (threeTokens ("SEPT".toList ++ ['.']) [' ']
      (Nat.toDigits 10 7 ++ [',']) [' ', ' '] (fourDigits 2024 ++ []) ++ [' ']) := by
    decide +kernel
  have hcell : DateCell 2024 9 7 (some (.string " SEPT. 7,  2024 ")) :=
    .written hs hspace hspace hcore
  exact igrfDate_of_dateCell documentedDates_gregorian (by decide) (by decide) (by decide) hname
    (by decide +kernel) hcell

end Gregorian

end Sheet
end Statskboo
