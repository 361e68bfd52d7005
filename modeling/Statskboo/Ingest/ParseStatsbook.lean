import Statskboo.Ingest.GameDate
import Statskboo.Ingest.ParseScores
import Statskboo.Ingest.Summary

/-!
# Parsing a whole statsbook

The parser reads the venue, the rosters, the jams, the penalties, the summary and the
official score from the sheets of a statsbook and puts them together.

Main results:

- Theorem {lit}`parseStatsbookWithDate_ok`: what a parsed statsbook consists of.
-/

namespace Statskboo

open KeyedTable Numbers

/-- What the libraries make of the bytes of a workbook: the saved values and the formulas of
its sheets, and the workbook with its formulas evaluated where that succeeds. -/
structure StatsbookFile where
  wb : Workbook
  formulas : String → Option FormulaRange
  evaluated : Option EvaluatedWorkbook

namespace Sheet

/-- A fallible step that succeeds. -/
theorem except_bind_eq_ok {α β : Type} {x : Except String α} {f : α → Except String β} {b : β}
    (h : (x >>= f) = .ok b) : ∃ a, x = .ok a ∧ f a = .ok b := by
  cases x with
  | error e => cases h
  | ok a => exact ⟨a, rfl, h⟩

/-! ## Counts over the jams -/

/-- The score of a side over all jams. -/
def periodsScore (periods : List Period) (side : Side) : Int :=
  sumI16 ((periods.flatMap Period.jams).map fun j => (j.side side).score)

/-- The players of a side that took part in a jam. -/
def playersInJams (periods : List Period) (side : Side) : List String :=
  (periods.flatMap Period.jams).flatMap fun jam =>
    let js := jam.side side
    js.jammer.toList ++ js.starPassJammer.toList ++ js.lineup.map LineupEntry.number

/-- Count one position of a lineup; the counters are bytes. -/
def JamCounts.add (c : JamCounts) (position : String) : JamCounts where
  jammer := if position = "jammer" then wrapU8 (c.jammer + 1) else c.jammer
  pivot := if position = "pivot" then wrapU8 (c.pivot + 1) else c.pivot
  blocker := if position = "blocker" then wrapU8 (c.blocker + 1) else c.blocker
  total := wrapU8 (c.total + 1)

/-- How many jams each player of a side played in each position. -/
def computeJamCounts (periods : List Period) (side : Side) : Table String JamCounts :=
  ((periods.flatMap Period.jams).flatMap fun jam => (jam.side side).lineup).foldl
    (fun counts entry =>
      counts.upsert entry.number
        (JamCounts.add ((counts.get? entry.number).getD ⟨0, 0, 0, 0⟩) entry.position))
    Table.empty

section Cells

variable [CellConversions]

/-! ## The IGRF sheet -/

/-- The version of the statsbook, from the year on its first page. -/
def parseVersion (wb : Workbook) : String :=
  match (wb.worksheetRange "Read Me").bind fun sheet => cellStr sheet 2 0 with
  | none => "2018"
  | some v =>
      match (Text.splitWhitespace v.toList).find? fun s =>
        decide (s.length = 4) && s.all Char.isDigit with
      | some year => String.ofList year
      | none => v

/-- Where the game was played. -/
def parseVenue (wb : Workbook) : Except String Venue :=
  match wb.worksheetRange "IGRF" with
  | none => .error "no IGRF sheet"
  | some sheet => .ok
      { name := cellStr sheet 2 1, city := cellStr sheet 2 8, state := cellStr sheet 2 10 }

/-- The tournament, the host and the date of the game. -/
def parseIgrfMeta [Calendar] (wb : Workbook) (fileName : Option String) :
    Except String (Option String × Option String × Option Int) :=
  match wb.worksheetRange "IGRF" with
  | none => .error "no IGRF sheet"
  | some sheet => .ok (cellStr sheet 4 1, cellStr sheet 4 8, igrfDate sheet fileName)

/-- The rows of a roster from the first one on, up to a row without a number; a number that
was seen before is left out. -/
def rosterLoop (sheet : Range) (numCol nameCol : Nat) : List Nat → List String → List Skater
  | [], _ => []
  | row :: rows, seen =>
      match cellStr sheet row numCol with
      | none => []
      | some rawNumber =>
          let number := String.ofList
            (rawNumber.toList.reverse.dropWhile fun c => c = '*').reverse
          if number.isEmpty || seen.contains number then rosterLoop sheet numCol nameCol rows seen
          else
            { number, name := (cellStr sheet row nameCol).getD "" } ::
              rosterLoop sheet numCol nameCol rows (number :: seen)

/-- One side of the IGRF sheet; a league without a team stands for both, and the other way
round. -/
def parseTeam (wb : Workbook) (numCol nameCol firstRow maxSkaters : Nat) :
    Except String TeamData :=
  match wb.worksheetRange "IGRF" with
  | none => .error "no IGRF sheet"
  | some sheet =>
      let metaCol := if numCol = 1 then 1 else 8
      let league := cellStr sheet 9 metaCol
      let team := cellStr sheet 10 metaCol
      .ok
        { league := league.orElse fun _ => team
          team := team.orElse fun _ => league
          color := cellStr sheet 11 metaCol
          skaters := rosterLoop sheet numCol nameCol (List.range' firstRow maxSkaters) [] }

/-- The two numbers in the row of the totals, when it is where it belongs and holds two
numbers. -/
def igrfTotals (wb : Workbook) : Option (Int × Int) := do
  let sheet ← wb.worksheetRange "IGRF"
  let label ← cellStr sheet 37 0
  if (Text.afterFirst "TOTAL POINTS".toList label.toList).isNone then none
  else
    let home ← (sheet.getValue 37 2).bind CellConversions.asI64
    let away ← (sheet.getValue 37 9).bind CellConversions.asI64
    return (home, away)

/-- The official final score, cut to 16 bits. -/
def parseIgrfScores (wb : Workbook) : Option (Int × Int) :=
  (igrfTotals wb).map fun (home, away) => (wrapI16 home, wrapI16 away)

/-! ## Penalties -/

/-- The sections of the Penalties sheet: period, side, and the columns of the skater, of the
first penalty and of the foul-out. -/
def penaltySections : List (Nat × String × Nat × Nat × Nat) :=
  [(1, "home", 0, 1, 10), (1, "away", 15, 16, 25), (2, "home", 28, 29, 38),
    (2, "away", 43, 44, 53)]

/-- The penalty of a cell, if there is one, with the jam of the cell below. -/
def penaltyAt (sheet : Range) (number : String) (period : Nat) (side : String) (foulOut : Bool)
    (codeRow col : Nat) : Option Penalty := do
  let code ← cellStr sheet codeRow col
  let jam := cellI16 sheet (codeRow + 1) col
  return { number, side, period, jam := if 0 < jam then some jam.toNat else none, code, foulOut,
           expulsion := false }

/-- The penalties of the skaters of a section, up to a row without a number. -/
def sectionPenalties (sheet : Range) (formulas : Option FormulaRange) (igrf : IgrfCells)
    (period : Nat) (side : String) (skaterCol penCol foCol : Nat) : List Nat → List Penalty
  | [] => []
  | codeRow :: codeRows =>
      match cellStrWithFormula sheet formulas codeRow skaterCol igrf with
      | none => []
      | some skaterNum =>
          let rest :=
            sectionPenalties sheet formulas igrf period side skaterCol penCol foCol codeRows
          if isZeroJamPlayer skaterNum then rest
          else
            (List.range' penCol 9).filterMap (penaltyAt sheet skaterNum period side false codeRow) ++
              (penaltyAt sheet skaterNum period side true codeRow foCol).toList ++ rest

/-- The penalties of one sheet; a workbook without it has none. -/
def parsePenaltiesSheet (file : StatsbookFile) (sheetName : String) (igrf : IgrfCells) :
    List Penalty :=
  match file.wb.worksheetRange sheetName with
  | none => []
  | some sheet =>
      penaltySections.flatMap fun (period, side, skaterCol, penCol, foCol) =>
        sectionPenalties sheet (file.formulas sheetName) igrf period side skaterCol penCol foCol
          ((List.range 20).map fun i => 3 + i * 2)

/-- The penalties, from one of the two sheets that may hold them. -/
def parsePenalties (file : StatsbookFile) (igrf : IgrfCells) : List Penalty :=
  let p := parsePenaltiesSheet file "Penalties" igrf
  if p.isEmpty then parsePenaltiesSheet file "Penalties-Lineups" igrf else p

/-! ## The statsbook -/

/-- The summary of a game with jams: the saved one when it has jams on both sides, and the
evaluated one otherwise. -/
def gameSummaryOf (file : StatsbookFile) (igrf : IgrfCells) (periods : List Period) :
    Option GameSummary :=
  let homePlayers := playersInJams periods .home
  let awayPlayers := playersInJams periods .away
  let totalJams := (periods.map fun p => p.jams.length).sum
  if periods.any fun p => !p.jams.isEmpty then
    let saved :=
      match parseGameSummary file.wb file.formulas igrf homePlayers awayPlayers
        (computeJamCounts periods .home) (computeJamCounts periods .away) totalJams with
      | .error _ => none
      | .ok gs =>
          if 0 < gs.homeTotals.jamsTotal.getD 0 ∧ 0 < gs.awayTotals.jamsTotal.getD 0 then some gs
          else none
    saved.orElse fun _ =>
      parseGameSummaryFormualizer file.evaluated homePlayers awayPlayers
        (file.wb.worksheetRange "Game Summary") totalJams
  else none

/-- The final score of a side: the official one, unless it is zero and the jams have
points. -/
def finalScore (igrfScore jamScore : Int) : Int :=
  if igrfScore = 0 ∧ 0 < jamScore then jamScore else igrfScore

/-- Keep the players of a roster that took part in a jam. -/
def retainPlayers (team : TeamData) (players : List String) : TeamData :=
  { team with skaters := team.skaters.filter fun s => players.contains s.number }

/-- Parse a statsbook; the name of the file is the last resort for the date. -/
def parseStatsbookWithDate [Calendar] (opened : Option StatsbookFile)
    (fileName : Option String) : Except String (GameData × Option Int) :=
  match opened with
  | none => .error "failed to open xlsx workbook"
  | some file => do
      let version := parseVersion file.wb
      let venue ← parseVenue file.wb
      let (tournament, hostLeague, date) ← parseIgrfMeta file.wb fileName
      let home ← parseTeam file.wb 1 2 13 20
      let away ← parseTeam file.wb 8 9 13 20
      let periods ← parsePeriods file.wb
      let igrf ← readIgrfCells file.wb
      let penalties := parsePenalties file igrf
      let gameSummary := gameSummaryOf file igrf periods
      let jamHome := periodsScore periods .home
      let jamAway := periodsScore periods .away
      let (homeScore, awayScore) := (parseIgrfScores file.wb).getD (jamHome, jamAway)
      return ({
        version, venue, tournament, hostLeague
        home := retainPlayers home (playersInJams periods .home)
        away := retainPlayers away (playersInJams periods .away)
        periods, penalties, gameSummary
        homeScore := finalScore homeScore jamHome
        awayScore := finalScore awayScore jamAway }, date)

/-- What a parsed statsbook consists of, as far as its scores go. -/
theorem parseStatsbookWithDate_ok [Calendar] {file : StatsbookFile} {fileName : Option String}
    {game : GameData} {date : Option Int}
    (h : parseStatsbookWithDate (some file) fileName = .ok (game, date)) :
    parsePeriods file.wb = .ok game.periods ∧
      game.homeScore = finalScore
        (((parseIgrfScores file.wb).map Prod.fst).getD (periodsScore game.periods .home))
        (periodsScore game.periods .home) ∧
      game.awayScore = finalScore
        (((parseIgrfScores file.wb).map Prod.snd).getD (periodsScore game.periods .away))
        (periodsScore game.periods .away) := by
  obtain ⟨venue, -, h⟩ := except_bind_eq_ok h
  obtain ⟨⟨tournament, hostLeague, date'⟩, -, h⟩ := except_bind_eq_ok h
  obtain ⟨home, -, h⟩ := except_bind_eq_ok h
  obtain ⟨away, -, h⟩ := except_bind_eq_ok h
  obtain ⟨periods, hperiods, h⟩ := except_bind_eq_ok h
  obtain ⟨igrf, -, h⟩ := except_bind_eq_ok h
  cases h
  refine ⟨hperiods, ?_, ?_⟩ <;> cases parseIgrfScores file.wb <;> rfl

end Cells

end Sheet
end Statskboo
