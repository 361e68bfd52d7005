import Statskboo.Ingest.Sheet
import Statskboo.Models

/-!
# The Score and Lineups sheets

The parser walks the Score sheet row by row: a jam in each row, and after some jams one
star-pass row that belongs to the jam before.  A second walk over the Lineups sheet adds
the lineups to the jams.  The two walks keep a cursor each.

Main results:

- Theorem {lit}`jamsLoop_succ`: the walk over the Score sheet never needs more rounds than
  a period has rows.
- Theorem {lit}`lineupRow_not_starPass`: the walk over the Lineups sheet passes over
  star-pass rows, however many there are.
-/

namespace Statskboo
namespace Sheet

/-! ## Scores -/

/-- A period with its first row and the label columns of both sides. -/
def scoreDefs : List (Nat × Nat × Nat × Nat) :=
  [(1, 3, 0, 19), (2, 45, 0, 19)]

/-- The rows of a period. -/
def periodRows : Nat := 38

/-- The column of each position in a lineup, counted from the jammer. -/
def positions (jammerCol : Nat) : List (Nat × String) :=
  [(jammerCol, "jammer"), (jammerCol + 4, "pivot"), (jammerCol + 8, "blocker"),
    (jammerCol + 12, "blocker"), (jammerCol + 16, "blocker")]

section Parse

variable [CellConversions]

/-- The sum of the trip cells of a side. -/
def tripSum (sheet : Range) (row baseCol : Nat) : Int :=
  sumI16 ((List.range' 7 9).map fun c => cellI16 sheet row (baseCol + c))

/-- One side of the row of a jam. -/
def parseJamSide (sheet : Range) (row baseCol : Nat) : JamSide where
  jammer := cellStr sheet row (baseCol + 1)
  starPassJammer := none
  lost := cellBool sheet row (baseCol + 2)
  lead := cellBool sheet row (baseCol + 3)
  called := cellBool sheet row (baseCol + 4)
  injury := cellBool sheet row (baseCol + 5)
  noPivot := cellBool sheet row (baseCol + 6)
  score := tripSum sheet row baseCol
  lineup := []

/-- Add what the star-pass row says of a side. -/
def addStarPass (sheet : Range) (row baseCol : Nat) (side : JamSide) : JamSide :=
  { side with
    starPassJammer := cellStr sheet row (baseCol + 1)
    score := wrapI16 (side.score + tripSum sheet row baseCol) }

/-- The jams from the {lit}`i`-th row of a period on.  Each round moves on by a row at
least, so as many rounds as the period has rows are enough. -/
def jamsLoop (sheet : Range) (startRow homeCol awayCol : Nat) : Nat → Nat → List Jam
  | 0, _ => []
  | fuel + 1, i =>
      if i < periodRows then
        let row := startRow + i
        if isText sheet row homeCol then jamsLoop sheet startRow homeCol awayCol fuel (i + 1)
        else
          match (sheet.getValue row homeCol).bind CellConversions.asI64 with
          | none => []
          | some n =>
              if n = 0 then []
              else
                let home := parseJamSide sheet row homeCol
                let away := parseJamSide sheet row awayCol
                let spRow := startRow + (i + 1)
                let homeSp := isText sheet spRow homeCol
                let awaySp := isText sheet spRow awayCol
                { number := wrapU16 n
                  home := if homeSp then addStarPass sheet spRow homeCol home else home
                  away := if awaySp then addStarPass sheet spRow awayCol away else away } ::
                  jamsLoop sheet startRow homeCol awayCol fuel
                    (if homeSp || awaySp then i + 2 else i + 1)
      else []

/-- The jams of a period. -/
def parseJams (sheet : Range) (startRow homeCol awayCol : Nat) : List Jam :=
  jamsLoop sheet startRow homeCol awayCol periodRows 0

/-- The periods that have jams. -/
def parseScores (wb : Workbook) : Except String (List Period) :=
  match wb.worksheetRange "Score" with
  | none => .error "no Score sheet"
  | some sheet => .ok <| scoreDefs.filterMap fun (number, startRow, homeCol, awayCol) =>
      let jams := parseJams sheet startRow homeCol awayCol
      if jams.isEmpty then none else some { number, jams }

/-! ## Lineups -/

/-- One side of a lineup; a player that is marked as not having played is left out. -/
def parseLineupSide (sheet : Range) (row noPivotCol : Nat) : List LineupEntry :=
  (positions (noPivotCol + 1)).filterMap fun (col, position) => do
    let number ← cellStr sheet row col
    if isZeroJamPlayer number then none
    else
      return { number, position,
               boxTrips := ((List.range' 1 3).filter fun b =>
                 (cellStr sheet row (col + b)).isSome).length }

/-- Whether the row has the label of a star pass. -/
def starPassLabel (sheet : Range) (row : Nat) : Bool :=
  match sheet.getValue row 0 with
  | some (.string s) => !(Text.trim s.toList).isEmpty && isStarPassRow s
  | _ => false

/-- Pass over star-pass rows. -/
def skipStarPass (sheet : Range) : Nat → Nat → Nat
  | 0, row => row
  | fuel + 1, row =>
      if starPassLabel sheet row then skipStarPass sheet fuel (row + 1) else row

/-- The row of the next lineup; the rows of the sheet bound the search. -/
def lineupRow (sheet : Range) (row : Nat) : Nat :=
  skipStarPass sheet sheet.endRow row

/-- Add the lineups to the jams in order, from a row on. -/
def lineupJams (sheet : Range) (homeNpCol awayNpCol : Nat) : Nat → List Jam → List Jam
  | _, [] => []
  | row, jam :: jams =>
      let row := lineupRow sheet row
      { jam with
        home := { jam.home with lineup := parseLineupSide sheet row homeNpCol }
        away := { jam.away with lineup := parseLineupSide sheet row awayNpCol } } ::
        lineupJams sheet homeNpCol awayNpCol (row + 1) jams

/-- Add the lineups to one period. -/
def mergePeriod (sheet : Range) (startRow homeNpCol awayNpCol : Nat) (period : Period) : Period :=
  { period with jams := lineupJams sheet homeNpCol awayNpCol startRow period.jams }

/-- Add the lineups to the first two periods; a workbook without the sheet has none. -/
def mergeLineups (wb : Workbook) (periods : List Period) : List Period :=
  match wb.worksheetRange "Lineups" with
  | none => periods
  | some sheet =>
      (periods.modify 0 (mergePeriod sheet 3 1 27)).modify 1 (mergePeriod sheet 45 1 27)

/-- The periods of a workbook. -/
def parsePeriods (wb : Workbook) : Except String (List Period) := do
  let periods ← parseScores wb
  return mergeLineups wb periods

/-! ## The walks end -/

/-- More rounds than a period has rows find no more jams. -/
theorem jamsLoop_succ (sheet : Range) (startRow homeCol awayCol : Nat) {fuel i : Nat}
    (h : periodRows ≤ fuel + i) :
    jamsLoop sheet startRow homeCol awayCol (fuel + 1) i =
      jamsLoop sheet startRow homeCol awayCol fuel i := by
  induction fuel generalizing i with
  | zero =>
      rw [jamsLoop, jamsLoop, if_neg (by omega)]
  | succ fuel ih =>
      have hone := ih (i := i + 1) (by omega)
      have hnext : ∀ b : Bool,
          jamsLoop sheet startRow homeCol awayCol (fuel + 1) (if b then i + 2 else i + 1) =
            jamsLoop sheet startRow homeCol awayCol fuel (if b then i + 2 else i + 1) := by
        intro b
        cases b with
        | true => exact ih (by simp only [if_true]; omega)
        | false => exact hone
      conv_lhs => rw [jamsLoop]
      conv_rhs => rw [jamsLoop]
      dsimp only
      rw [hone, hnext]

omit [CellConversions] in
theorem skipStarPass_not_starPass (sheet : Range) {fuel row : Nat}
    (h : sheet.endRow ≤ fuel + row) :
    starPassLabel sheet (skipStarPass sheet fuel row) = false := by
  induction fuel generalizing row with
  | zero =>
      rw [skipStarPass, starPassLabel, Range.getValue_eq_none (by omega)]
  | succ fuel ih =>
      rw [skipStarPass]
      split_ifs with hlabel
      · exact ih (by omega)
      · exact Bool.eq_false_iff.mpr hlabel

omit [CellConversions] in
/-- The row of the next lineup has no star-pass label. -/
theorem lineupRow_not_starPass (sheet : Range) (row : Nat) :
    starPassLabel sheet (lineupRow sheet row) = false :=
  skipStarPass_not_starPass sheet (Nat.le_add_right _ _)

end Parse

end Sheet
end Statskboo
