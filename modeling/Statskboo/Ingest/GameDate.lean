import Statskboo.Ingest.Sheet
import Statskboo.Numbers

/-!
# The date of a game

The date stands in one cell of the IGRF sheet: as a date, as text in one of several
forms, or not at all; the name of the file carries it too.  The calendar and the clock
belong to a library and are a parameter; a date is the number of its day.

Main results:

- Theorem {lit}`igrfDate_of_no_date`: what is read when the cell holds no date.
-/

namespace Statskboo

/-- The calendar that the program takes from libraries. -/
class Calendar where
  /-- {lit}`NaiveDate::parse_from_str` for a text and a format. -/
  parseFromStr : List Char → String → Option Int
  /-- {lit}`NaiveDate::from_ymd_opt`. -/
  fromYmdOpt : Int → Nat → Nat → Option Int
  /-- The year of a date. -/
  year : Int → Int
  /-- {lit}`DataType::as_date` of the spreadsheet library. -/
  asDate : Data → Option Int
  /-- The year on the clock. -/
  currentYear : Int

namespace Sheet

open Numbers

/-- {lit}`str::to_ascii_lowercase`. -/
def toAsciiLowercase (s : List Char) : List Char :=
  s.map Char.toLower

/-- The month names in order. -/
def monthNames : List String :=
  ["january", "february", "march", "april", "may", "june", "july", "august", "september",
    "october", "november", "december"]

/-- The month of a name. -/
def monthOf (t : List Char) : Option Nat :=
  (monthNames.findIdx? fun m => decide (m.toList = toAsciiLowercase t)).map (· + 1)

/-- The month of an abbreviation of three letters, or of {lit}`sept`. -/
def abbrOf (t : List Char) : Option Nat :=
  let lower := toAsciiLowercase t
  let stem := if lower = "sept".toList then "sep".toList else lower
  (monthNames.findIdx? fun m => decide (m.toList.take 3 = stem)).map (· + 1)

/-- {lit}`str::trim_end_matches` for points and commas. -/
def trimPunctuation (t : List Char) : List Char :=
  (t.reverse.dropWhile fun c => c = '.' || c = ',').reverse

/-- The first bytes of a text, when a character ends there. -/
def takeBytes : Nat → List Char → Option (List Char)
  | 0, _ => some []
  | _ + 1, [] => none
  | n + 1, c :: s =>
      if c.utf8Size ≤ n + 1 then (takeBytes (n + 1 - c.utf8Size) s).map (c :: ·) else none

variable [Calendar]

/-- A date with the name of its month, as in {lit}`Sept. 7, 2024` or {lit}`7 Sep 2024`. -/
def parseMonthNameDate (text : List Char) : Option Int :=
  match (Text.splitWhitespace text).map trimPunctuation with
  | [first, second, third] =>
      let date (month : Nat) (day year : List Char) : Option Int := do
        let day ← parseUnsigned (2 ^ 32 - 1) day
        let year ← parseSigned (-2 ^ 31) (2 ^ 31 - 1) year
        Calendar.fromYmdOpt year month day
      match (monthOf first).orElse fun _ => abbrOf first with
      | some month => date month second third
      | none =>
          match (monthOf second).orElse fun _ => abbrOf second with
          | some month => date month first third
          | none => none
  | _ => none

/-- No game is older than the nineties or further ahead than the next year. -/
def plausibleDate (d : Int) : Bool :=
  decide (1990 ≤ Calendar.year d) && decide (Calendar.year d ≤ Calendar.currentYear + 1)

/-- The first of some dates that is plausible. -/
def firstPlausible (dates : List (Option Int)) : Option Int :=
  (dates.filterMap id).find? plausibleDate

/-- A date that was typed as text.  Where day and month can be exchanged the date of the
file name decides; otherwise the month comes first. -/
def parseTextDate (text : List Char) (fileDate : Option Int) : Option Int :=
  let text := Text.trim text
  if text.isEmpty then none
  else
    let unambiguous := firstPlausible
      [Calendar.parseFromStr text "%Y-%m-%d", Calendar.parseFromStr text "%Y/%m/%d",
        parseMonthNameDate text]
    unambiguous.orElse fun _ =>
      match Calendar.parseFromStr text "%m/%d/%Y", Calendar.parseFromStr text "%d/%m/%Y" with
      | some mf, some df =>
          if mf ≠ df ∧ fileDate = some df then some df
          else if plausibleDate mf then some mf
          else none
      | some mf, none => if plausibleDate mf then some mf else none
      | none, some df => if plausibleDate df then some df else none
      | none, none => none

/-- The date in the name of a file, after {lit}`STATS-`. -/
def dateFromFileName (fileName : String) : Option Int := do
  let rest ← Text.afterFirst "STATS-".toList fileName.toList
  let dateStr ← takeBytes 10 rest
  Calendar.parseFromStr dateStr "%Y-%m-%d"

/-- The date of the game: the cell as a date, its text, or the file name. -/
def igrfDate [CellConversions] (sheet : Range) (fileName : Option String) : Option Int :=
  match (sheet.getValue 6 1).bind Calendar.asDate with
  | some d => some d
  | none =>
      let fileDate := fileName.bind dateFromFileName
      ((cellStr sheet 6 1).bind fun t => parseTextDate t.toList fileDate).orElse fun _ => fileDate

/-- Without a date in the cell its text is read, then the name of the file. -/
theorem igrfDate_of_no_date [CellConversions] {sheet : Range}
    (h : (sheet.getValue 6 1).bind Calendar.asDate = none) (fileName : Option String) :
    igrfDate sheet fileName =
      ((cellStr sheet 6 1).bind fun t =>
        parseTextDate t.toList (fileName.bind dateFromFileName)).orElse fun _ =>
          fileName.bind dateFromFileName := by
  rw [igrfDate, h]

end Sheet
end Statskboo
