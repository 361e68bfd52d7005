import Statskboo.Ingest.IgrfCells
import Statskboo.Ingest.ScoreLayout
import Statskboo.Models
import Statskboo.Numbers

/-!
# The Game Summary sheet

The summary of a game is read from the values that the file was saved with.  Where those
are blank, the formulas of the sheet are evaluated by another library and the summary is
read from its values.  Two decoders, with different row and column bases and different
conversions of the cells, fill the same record.

Main results:

- Theorem {lit}`readSummaryTotals_eq` and {lit}`readSummaryPlayer_eq`: the decoders agree
  on a row whose cells have the same values.
- Theorem {lit}`parseGameSummary_agree`: they agree on the whole sheet.
-/

namespace Statskboo

open KeyedTable Numbers

/-- In how many jams a player took each position. -/
structure JamCounts where
  jammer : Nat
  pivot : Nat
  blocker : Nat
  total : Nat
deriving DecidableEq, Repr, Inhabited

/-- The value of a cell after evaluation, as far as the decoder tells them apart. -/
inductive LiteralValue where
  | int (v : Int)
  | number (v : ℚ)
  | text (s : String)
  | boolean (b : Bool)
  | array
  | date
  | dateTime
  | time
  | duration
  | empty
  | pending
  | error
deriving DecidableEq, Repr

/-- A workbook whose formulas have been evaluated; rows and columns count from one. -/
structure EvaluatedWorkbook where
  getValue : String → Nat → Nat → Option LiteralValue

namespace Sheet

/-! ## Derived percentages -/

/-- Derive the jams skated where the sheet has none or a stale zero. -/
def fillJamsPct (totalJams : Nat) (summary : SummaryPlayer) : SummaryPlayer :=
  if totalJams = 0 then summary
  else
    match summary.jamsTotal with
    | none => summary
    | some jamsTotal =>
        if jamsTotal = 0 then summary
        else
          let derived := toF32 (jamsTotal / toF32 totalJams)
          match summary.jamsPct with
          | none => { summary with jamsPct := some derived }
          | some pct => if pct = 0 then { summary with jamsPct := some derived } else summary

/-- Derive the average of the players where the totals row has none or a stale zero. -/
def fillTotalsJamsPct (players : List SummaryPlayer) (totals : SummaryTotals) : SummaryTotals :=
  let needsFill :=
    match totals.jamsPct with
    | none => true
    | some pct => decide (pct = 0)
  if !needsFill then totals
  else
    let pcts := players.filterMap SummaryPlayer.jamsPct
    if pcts.length = 0 then totals
    else
      let sum := pcts.foldl (fun sum pct => toF32 (sum + pct)) 0
      { totals with jamsPct := some (toF32 (sum / toF32 pcts.length)) }

/-- The share of jams with the lead, from the counts. -/
def derivedLeadPct (leadPct : Option ℚ) (jamsJammer starPasses lead : Option Nat) : Option ℚ :=
  match leadPct with
  | some pct => some pct
  | none => do
      let jammerJams ← jamsJammer
      let starPasses := starPasses.getD 0
      if jammerJams ≤ starPasses then none
      else
        let lead ← lead
        return toF32 (lead / (jammerJams - starPasses : Nat))

/-- Derive the lead percentage of a player where the sheet has none. -/
def fillLeadPct (summary : SummaryPlayer) : SummaryPlayer :=
  { summary with
    leadPct := derivedLeadPct summary.leadPct summary.jamsJammer summary.starPasses summary.lead }

@[simp]
theorem number_fillJamsPct (totalJams : Nat) (summary : SummaryPlayer) :
    (fillJamsPct totalJams summary).number = summary.number := by
  unfold fillJamsPct
  split_ifs
  · rfl
  · cases summary.jamsTotal with
    | none => rfl
    | some jamsTotal =>
        dsimp only
        split_ifs
        · rfl
        · cases summary.jamsPct with
          | none => rfl
          | some pct =>
              dsimp only
              split_ifs <;> rfl

@[simp]
theorem number_fillLeadPct (summary : SummaryPlayer) :
    (fillLeadPct summary).number = summary.number :=
  rfl

/-- Derive the lead percentage of the totals row where the sheet has none. -/
def fillTotalsLeadPct (totals : SummaryTotals) : SummaryTotals :=
  { totals with
    leadPct := derivedLeadPct totals.leadPct totals.jamsJammer totals.starPasses totals.lead }

/-! ## The saved values -/

/-- A cell as a number of some type: what the type makes of text, of a float and of an
integer. -/
def cellOpt {α : Type} (ofText : List Char → Option α) (ofFloat : ℚ → α) (ofInt : Int → α)
    (sheet : Range) (row col : Nat) : Option α :=
  match sheet.getValue row col with
  | some (.string s) =>
      let t := Text.trim s.toList
      if isNoneText t then none else ofText t
  | some (.float f) => some (ofFloat f)
  | some (.int i) => some (ofInt i)
  | _ => none

/-- A cell as {lit}`i16`. -/
def cellOptI16 : Range → Nat → Nat → Option Int :=
  cellOpt (parseSigned (-2 ^ 15) (2 ^ 15 - 1))
    (fun f => saturate (-2 ^ 15) (2 ^ 15 - 1) (f64Round f)) wrapI16

/-- A cell as {lit}`u8`. -/
def cellOptU8 : Range → Nat → Nat → Option Nat :=
  cellOpt (parseUnsigned (2 ^ 8 - 1)) (fun f => (saturate 0 (2 ^ 8 - 1) (f64Round f)).toNat) wrapU8

/-- A cell as {lit}`u16`. -/
def cellOptU16 : Range → Nat → Nat → Option Nat :=
  cellOpt (parseUnsigned (2 ^ 16 - 1)) (fun f => (saturate 0 (2 ^ 16 - 1) (f64Round f)).toNat) wrapU16

/-- A cell as {lit}`f32`. -/
def cellOptF32 : Range → Nat → Nat → Option ℚ :=
  cellOpt parseF32 toF32 fun i => toF32 i

/-- The totals row of one side. -/
def parseSummaryTotals (sheet : Range) (row : Nat) : SummaryTotals where
  jamsJammer := cellOptU8 sheet row 2
  jamsPivot := cellOptU8 sheet row 3
  jamsBlocker := cellOptU8 sheet row 4
  jamsTotal := cellOptU16 sheet row 5
  jamsPct := cellOptF32 sheet row 6
  jammerPoints := cellOptI16 sheet row 7
  ppj := cellOptF32 sheet row 8
  lost := cellOptU8 sheet row 9
  lead := cellOptU8 sheet row 10
  called := cellOptU8 sheet row 11
  noInitialTrip := cellOptU8 sheet row 12
  starPasses := cellOptU8 sheet row 13
  leadPct := cellOptF32 sheet row 14
  leadPlusMinus := cellOptI16 sheet row 15
  avgLeadPlusMinus := cellOptF32 sheet row 16
  ptsFor := cellOptF32 sheet row 17
  ptsAgainst := cellOptF32 sheet row 18
  plusMinus := cellOptF32 sheet row 19
  jammerPlusMinus := cellOptF32 sheet row 20
  avgJammerPlusMinus := cellOptF32 sheet row 21
  pivotPlusMinus := cellOptF32 sheet row 22
  avgPivotPlusMinus := cellOptF32 sheet row 23
  blockPlusMinus := cellOptF32 sheet row 24
  avgBlockPlusMinus := cellOptF32 sheet row 25
  packPlusMinus := cellOptF32 sheet row 26
  avgPackPlusMinus := cellOptF32 sheet row 27
  avgPlusMinus := cellOptF32 sheet row 28
  vtarPtsFor := cellOptF32 sheet row 29
  vtarPtsAgainst := cellOptF32 sheet row 30
  vtarTotalPlusMinus := cellOptF32 sheet row 31
  vtarJammerAvgPlusMinus := cellOptF32 sheet row 32
  vtarPivotAvgPlusMinus := cellOptF32 sheet row 33
  vtarBlockerAvgPlusMinus := cellOptF32 sheet row 34
  vtarPackAvgPlusMinus := cellOptF32 sheet row 35
  totalVtarAvgPlusMinus := cellOptF32 sheet row 36
  penaltyCount := cellOptU8 sheet row 37

section Saved

variable [CellConversions]

/-- The row of one player; the counts from the lineups replace blank ones. -/
def parseSummaryPlayer (sheet : Range) (formulas : Option FormulaRange) (row : Nat)
    (igrf : IgrfCells) (jamCounts : Table String JamCounts) (totalJams : Nat) :
    Option SummaryPlayer :=
  match cellStrWithFormula sheet formulas row 0 igrf with
  | none => none
  | some number =>
      if isZeroJamPlayer number then none
      else
        let name := (cellStrWithFormula sheet formulas row 1 igrf).getD ""
        let jc := (jamCounts.get? number).getD ⟨0, 0, 0, 0⟩
        let sheetTotal := cellOptU8 sheet row 5
        let useComputed := decide (sheetTotal.getD 0 = 0) && decide (0 < jc.total)
        let summary : SummaryPlayer := {
          number
          name
          jamsJammer := if useComputed then some jc.jammer else cellOptU8 sheet row 2
          jamsPivot := if useComputed then some jc.pivot else cellOptU8 sheet row 3
          jamsBlocker := if useComputed then some jc.blocker else cellOptU8 sheet row 4
          jamsTotal := if useComputed then some jc.total else sheetTotal
          jamsPct := cellOptF32 sheet row 6
          jammerPoints := cellOptI16 sheet row 7
          ppj := cellOptF32 sheet row 8
          lost := cellOptU8 sheet row 9
          lead := cellOptU8 sheet row 10
          called := cellOptU8 sheet row 11
          noInitialTrip := cellOptU8 sheet row 12
          starPasses := cellOptU8 sheet row 13
          leadPct := cellOptF32 sheet row 14
          leadPlusMinus := cellOptI16 sheet row 15
          avgLeadPlusMinus := cellOptF32 sheet row 16
          ptsFor := cellOptI16 sheet row 17
          ptsAgainst := cellOptI16 sheet row 18
          plusMinus := cellOptI16 sheet row 19
          jammerPlusMinus := cellOptI16 sheet row 20
          avgJammerPlusMinus := cellOptF32 sheet row 21
          pivotPlusMinus := cellOptI16 sheet row 22
          avgPivotPlusMinus := cellOptF32 sheet row 23
          blockPlusMinus := cellOptI16 sheet row 24
          avgBlockPlusMinus := cellOptF32 sheet row 25
          packPlusMinus := cellOptI16 sheet row 26
          avgPackPlusMinus := cellOptF32 sheet row 27
          avgPlusMinus := cellOptF32 sheet row 28
          vtarPtsFor := cellOptF32 sheet row 29
          vtarPtsAgainst := cellOptF32 sheet row 30
          vtarTotalPlusMinus := cellOptF32 sheet row 31
          vtarJammerAvgPlusMinus := cellOptF32 sheet row 32
          vtarPivotAvgPlusMinus := cellOptF32 sheet row 33
          vtarBlockerAvgPlusMinus := cellOptF32 sheet row 34
          vtarPackAvgPlusMinus := cellOptF32 sheet row 35
          totalVtarAvgPlusMinus := cellOptF32 sheet row 36
          penaltyCount := cellOptU8 sheet row 37 }
        let summary := fillLeadPct (fillJamsPct totalJams summary)
        if summary.jamsTotal = some 0 then none else some summary

/-- The Game Summary with the values that the file was saved with. -/
def parseGameSummary (wb : Workbook) (formulas : String → Option FormulaRange) (igrf : IgrfCells)
    (homeNumbers awayNumbers : List String) (homeJamCounts awayJamCounts : Table String JamCounts)
    (totalJams : Nat) : Except String GameSummary :=
  match wb.worksheetRange "Game Summary" with
  | none => .error "no Game Summary sheet"
  | some sheet =>
      let formulas := formulas "Game Summary"
      let homePlayers := ((List.range' 5 20).filterMap fun row =>
        parseSummaryPlayer sheet formulas row igrf homeJamCounts totalJams).filter fun p =>
          homeNumbers.contains p.number
      let awayPlayers := ((List.range' 27 20).filterMap fun row =>
        parseSummaryPlayer sheet formulas row igrf awayJamCounts totalJams).filter fun p =>
          awayNumbers.contains p.number
      .ok {
        homeTotals := fillTotalsLeadPct (fillTotalsJamsPct homePlayers (parseSummaryTotals sheet 25))
        awayTotals := fillTotalsLeadPct (fillTotalsJamsPct awayPlayers (parseSummaryTotals sheet 47))
        homePlayers
        awayPlayers }

end Saved

/-! ## The evaluated formulas -/

/-- A value as a number of some type, with the value of blank text. -/
def lvOpt {α : Type} (blank : α) (ofText : List Char → Option α) (ofNumber : ℚ → α)
    (ofInt : Int → α) : Option LiteralValue → Option α
  | some (.number n) => some (ofNumber n)
  | some (.int i) => some (ofInt i)
  | some (.text s) =>
      let t := Text.trim s.toList
      if t.isEmpty then some blank else ofText t
  | _ => none

/-- A value as {lit}`u8`. -/
def lvU8 : Option LiteralValue → Option Nat :=
  lvOpt 0 (parseUnsigned (2 ^ 8 - 1))
    (fun n => (saturate 0 (2 ^ 8 - 1) (clampI64 (f64Round n))).toNat)
    (fun i => (saturate 0 (2 ^ 8 - 1) i).toNat)

/-- A value as {lit}`u16`. -/
def lvU16 : Option LiteralValue → Option Nat :=
  lvOpt 0 (parseUnsigned (2 ^ 16 - 1))
    (fun n => (saturate 0 (2 ^ 16 - 1) (clampI64 (f64Round n))).toNat)
    (fun i => (saturate 0 (2 ^ 16 - 1) i).toNat)

/-- A value as {lit}`i16`. -/
def lvI16 : Option LiteralValue → Option Int :=
  lvOpt 0 (parseSigned (-2 ^ 15) (2 ^ 15 - 1))
    (fun n => saturate (-2 ^ 15) (2 ^ 15 - 1) (clampI64 (f64Round n)))
    (saturate (-2 ^ 15) (2 ^ 15 - 1))

/-- A value as {lit}`f32`. -/
def lvF32 : Option LiteralValue → Option ℚ :=
  lvOpt 0 parseF32 toF32 fun i => toF32 i

/-- A cell of the evaluated sheet; an error falls back on the saved value. -/
def fvVal (wb : EvaluatedWorkbook) (cached : Option Range) (row col : Nat) :
    Option LiteralValue :=
  match wb.getValue "Game Summary" row col with
  | some .error =>
      match cached.bind fun sheet => sheet.getValue (row - 1) (col - 1) with
      | some (.string s) => some (.text s)
      | some (.float f) => some (.number f)
      | some (.int i) => some (.int i)
      | some (.bool b) => some (.boolean b)
      | _ => none
  | other => other

/-- The totals row of one side of the evaluated sheet. -/
def readSummaryTotals (wb : EvaluatedWorkbook) (cached : Option Range) (row : Nat) :
    SummaryTotals where
  jamsJammer := lvU8 (fvVal wb cached row 3)
  jamsPivot := lvU8 (fvVal wb cached row 4)
  jamsBlocker := lvU8 (fvVal wb cached row 5)
  jamsTotal := lvU16 (fvVal wb cached row 6)
  jamsPct := lvF32 (fvVal wb cached row 7)
  jammerPoints := lvI16 (fvVal wb cached row 8)
  ppj := lvF32 (fvVal wb cached row 9)
  lost := lvU8 (fvVal wb cached row 10)
  lead := lvU8 (fvVal wb cached row 11)
  called := lvU8 (fvVal wb cached row 12)
  noInitialTrip := lvU8 (fvVal wb cached row 13)
  starPasses := lvU8 (fvVal wb cached row 14)
  leadPct := lvF32 (fvVal wb cached row 15)
  leadPlusMinus := lvI16 (fvVal wb cached row 16)
  avgLeadPlusMinus := lvF32 (fvVal wb cached row 17)
  ptsFor := lvF32 (fvVal wb cached row 18)
  ptsAgainst := lvF32 (fvVal wb cached row 19)
  plusMinus := lvF32 (fvVal wb cached row 20)
  jammerPlusMinus := lvF32 (fvVal wb cached row 21)
  avgJammerPlusMinus := lvF32 (fvVal wb cached row 22)
  pivotPlusMinus := lvF32 (fvVal wb cached row 23)
  avgPivotPlusMinus := lvF32 (fvVal wb cached row 24)
  blockPlusMinus := lvF32 (fvVal wb cached row 25)
  avgBlockPlusMinus := lvF32 (fvVal wb cached row 26)
  packPlusMinus := lvF32 (fvVal wb cached row 27)
  avgPackPlusMinus := lvF32 (fvVal wb cached row 28)
  avgPlusMinus := lvF32 (fvVal wb cached row 29)
  vtarPtsFor := lvF32 (fvVal wb cached row 30)
  vtarPtsAgainst := lvF32 (fvVal wb cached row 31)
  vtarTotalPlusMinus := lvF32 (fvVal wb cached row 32)
  vtarJammerAvgPlusMinus := lvF32 (fvVal wb cached row 33)
  vtarPivotAvgPlusMinus := lvF32 (fvVal wb cached row 34)
  vtarBlockerAvgPlusMinus := lvF32 (fvVal wb cached row 35)
  vtarPackAvgPlusMinus := lvF32 (fvVal wb cached row 36)
  totalVtarAvgPlusMinus := lvF32 (fvVal wb cached row 37)
  penaltyCount := lvU8 (fvVal wb cached row 38)

section Evaluated

variable [CellConversions]

/-- A value as text; blank text and {lit}`none` are no text. -/
def lvString : Option LiteralValue → Option String
  | some (.text s) =>
      let t := Text.trim s.toList
      if t.isEmpty || isNoneText t then none else some (String.ofList t)
  | some (.number n) =>
      if n.den = 1 then some (toString (clampI64 n.num))
      else some (CellConversions.floatToString n)
  | some (.int i) => some (toString i)
  | _ => none

/-- The row of one player of the evaluated sheet. -/
def readSummaryPlayer (wb : EvaluatedWorkbook) (cached : Option Range) (row totalJams : Nat) :
    Option SummaryPlayer :=
  match lvString (fvVal wb cached row 1) with
  | none => none
  | some number =>
    let summary : SummaryPlayer := {
      number
      name := (lvString (fvVal wb cached row 2)).getD ""
      jamsJammer := lvU8 (fvVal wb cached row 3)
      jamsPivot := lvU8 (fvVal wb cached row 4)
      jamsBlocker := lvU8 (fvVal wb cached row 5)
      jamsTotal := lvU8 (fvVal wb cached row 6)
      jamsPct := lvF32 (fvVal wb cached row 7)
      jammerPoints := lvI16 (fvVal wb cached row 8)
      ppj := lvF32 (fvVal wb cached row 9)
      lost := lvU8 (fvVal wb cached row 10)
      lead := lvU8 (fvVal wb cached row 11)
      called := lvU8 (fvVal wb cached row 12)
      noInitialTrip := lvU8 (fvVal wb cached row 13)
      starPasses := lvU8 (fvVal wb cached row 14)
      leadPct := lvF32 (fvVal wb cached row 15)
      leadPlusMinus := lvI16 (fvVal wb cached row 16)
      avgLeadPlusMinus := lvF32 (fvVal wb cached row 17)
      ptsFor := lvI16 (fvVal wb cached row 18)
      ptsAgainst := lvI16 (fvVal wb cached row 19)
      plusMinus := lvI16 (fvVal wb cached row 20)
      jammerPlusMinus := lvI16 (fvVal wb cached row 21)
      avgJammerPlusMinus := lvF32 (fvVal wb cached row 22)
      pivotPlusMinus := lvI16 (fvVal wb cached row 23)
      avgPivotPlusMinus := lvF32 (fvVal wb cached row 24)
      blockPlusMinus := lvI16 (fvVal wb cached row 25)
      avgBlockPlusMinus := lvF32 (fvVal wb cached row 26)
      packPlusMinus := lvI16 (fvVal wb cached row 27)
      avgPackPlusMinus := lvF32 (fvVal wb cached row 28)
      avgPlusMinus := lvF32 (fvVal wb cached row 29)
      vtarPtsFor := lvF32 (fvVal wb cached row 30)
      vtarPtsAgainst := lvF32 (fvVal wb cached row 31)
      vtarTotalPlusMinus := lvF32 (fvVal wb cached row 32)
      vtarJammerAvgPlusMinus := lvF32 (fvVal wb cached row 33)
      vtarPivotAvgPlusMinus := lvF32 (fvVal wb cached row 34)
      vtarBlockerAvgPlusMinus := lvF32 (fvVal wb cached row 35)
      vtarPackAvgPlusMinus := lvF32 (fvVal wb cached row 36)
      totalVtarAvgPlusMinus := lvF32 (fvVal wb cached row 37)
      penaltyCount := lvU8 (fvVal wb cached row 38) }
    let summary := fillLeadPct (fillJamsPct totalJams summary)
    if summary.jamsTotal = some 0 then none else some summary

/-- The Game Summary with its formulas evaluated; there is none when the file cannot be
evaluated. -/
def parseGameSummaryFormualizer (evaluated : Option EvaluatedWorkbook)
    (homeNumbers awayNumbers : List String) (gsCached : Option Range) (totalJams : Nat) :
    Option GameSummary :=
  match evaluated with
  | none => none
  | some wb =>
      let homePlayers := ((List.range' 6 20).filterMap fun row =>
        readSummaryPlayer wb gsCached row totalJams).filter fun p =>
          !isZeroJamPlayer p.number && homeNumbers.contains p.number
      let awayPlayers := ((List.range' 28 20).filterMap fun row =>
        readSummaryPlayer wb gsCached row totalJams).filter fun p =>
          !isZeroJamPlayer p.number && awayNumbers.contains p.number
      some {
        homeTotals :=
          fillTotalsLeadPct (fillTotalsJamsPct homePlayers (readSummaryTotals wb gsCached 26))
        awayTotals :=
          fillTotalsLeadPct (fillTotalsJamsPct awayPlayers (readSummaryTotals wb gsCached 48))
        homePlayers
        awayPlayers }

end Evaluated

/-! ## Cells with the same value -/

/-- The saved and the evaluated cell hold the same value. -/
def SameCell : Option Data → Option LiteralValue → Prop
  | some (.int i), some (.int j) => j = i
  | some (.int i), some (.number q) => q = i
  | some (.float q), some (.number p) => p = q
  | some (.float q), some (.int i) => (i : ℚ) = q
  | some (.string s), some (.text t) => t = s
  | some (.bool b), some (.boolean c) => c = b
  | some (.dateTime _), some v | some (.dateTimeIso _), some v | some (.durationIso _), some v =>
      v ∈ [LiteralValue.date, .dateTime, .time, .duration]
  | none, v | some .empty, v => v = none ∨ v = some .empty
  | _, _ => False

/-- The types of the numeric fields. -/
inductive FieldType where
  | u8
  | u16
  | i16
  | f32
deriving DecidableEq, Repr

/-- The range of a type; that of {lit}`f32` lies between its largest finite values. -/
def FieldType.range : FieldType → Int × Int
  | u8 => (0, 2 ^ 8 - 1)
  | u16 => (0, 2 ^ 16 - 1)
  | i16 => (-2 ^ 15, 2 ^ 15 - 1)
  | f32 => (-(2 ^ 24 - 1) * 2 ^ 104, (2 ^ 24 - 1) * 2 ^ 104)

/-- The cell is absent, or an integer in the range of the type. -/
def FieldType.Plain (t : FieldType) : Option Data → Prop
  | none | some .empty => True
  | some (.int n) => t.range.1 ≤ n ∧ n ≤ t.range.2
  | some (.float q) => q.den = 1 ∧ t.range.1 ≤ q.num ∧ q.num ≤ t.range.2
  | _ => False

instance (t : FieldType) (d : Option Data) : Decidable (t.Plain d) :=
  match d with
  | none | some .empty => .isTrue trivial
  | some (.int n) => inferInstanceAs (Decidable (t.range.1 ≤ n ∧ n ≤ t.range.2))
  | some (.float q) =>
      inferInstanceAs (Decidable (q.den = 1 ∧ t.range.1 ≤ q.num ∧ q.num ≤ t.range.2))
  | some (.string _) | some (.bool _) | some (.dateTime _) | some (.dateTimeIso _)
  | some (.durationIso _) | some .error => .isFalse id

/-- Two conversions of numeric cells agree on a plain cell when they agree on the integers of
the type. -/
theorem lvOpt_eq_cellOpt {α : Type} {t : FieldType} {c : Int → α} {blank : α}
    {ofText ofText' : List Char → Option α} {ofFloat ofNumber : ℚ → α} {ofInt ofInt' : Int → α}
    (hc : ∀ n : Int, t.range.1 ≤ n → n ≤ t.range.2 →
      ofFloat n = c n ∧ ofInt n = c n ∧ ofNumber n = c n ∧ ofInt' n = c n)
    {sheet : Range} {row col : Nat} {v : Option LiteralValue}
    (hsame : SameCell (sheet.getValue row col) v) (hplain : t.Plain (sheet.getValue row col)) :
    lvOpt blank ofText' ofNumber ofInt' v = cellOpt ofText ofFloat ofInt sheet row col := by
  unfold cellOpt
  cases hd : sheet.getValue row col with
  | none =>
      rw [hd] at hsame
      rcases hsame with rfl | rfl <;> rfl
  | some d =>
      rw [hd] at hsame hplain
      cases d with
      | empty => rcases hsame with rfl | rfl <;> rfl
      | int n =>
          obtain ⟨hlo, hhi⟩ := hplain
          obtain ⟨-, hint, hnumber, hint'⟩ := hc n hlo hhi
          rcases v with - | v
          · exact hsame.elim
          cases v with
          | int m =>
              rw [show m = n from hsame]
              exact congrArg some (hint'.trans hint.symm)
          | number q =>
              rw [show q = (n : ℚ) from hsame]
              exact congrArg some (hnumber.trans hint.symm)
          | _ => exact hsame.elim
      | float q =>
          obtain ⟨hden, hlo, hhi⟩ := hplain
          obtain ⟨hfloat, -, hnumber, hint'⟩ := hc q.num hlo hhi
          rw [Rat.coe_int_num_of_den_eq_one hden] at hfloat hnumber
          rcases v with - | v
          · exact hsame.elim
          cases v with
          | int m =>
              have hm : m = q.num := by
                rw [← show (m : ℚ) = q from hsame, Rat.num_intCast]
              rw [hm]
              exact congrArg some (hint'.trans hfloat.symm)
          | number p =>
              rw [show p = q from hsame]
              exact congrArg some (hnumber.trans hfloat.symm)
          | _ => exact hsame.elim
      | _ => exact hplain.elim

theorem lvU8_eq {sheet : Range} {row col : Nat} {v : Option LiteralValue}
    (hsame : SameCell (sheet.getValue row col) v)
    (hplain : FieldType.u8.Plain (sheet.getValue row col)) :
    lvU8 v = cellOptU8 sheet row col := by
  refine lvOpt_eq_cellOpt (c := Int.toNat) (fun n hlo hhi => ?_) hsame hplain
  have h₀ : (0 : Int) ≤ n := hlo
  have h₁ : n ≤ 2 ^ 8 - 1 := hhi
  rw [f64Round_intCast, saturate_eq_self h₀ h₁, clampI64_eq_self (by omega) (by omega),
    saturate_eq_self h₀ h₁]
  exact ⟨rfl, by unfold wrapU8; omega, rfl, rfl⟩

theorem lvU16_eq {sheet : Range} {row col : Nat} {v : Option LiteralValue}
    (hsame : SameCell (sheet.getValue row col) v)
    (hplain : FieldType.u16.Plain (sheet.getValue row col)) :
    lvU16 v = cellOptU16 sheet row col := by
  refine lvOpt_eq_cellOpt (c := Int.toNat) (fun n hlo hhi => ?_) hsame hplain
  have h₀ : (0 : Int) ≤ n := hlo
  have h₁ : n ≤ 2 ^ 16 - 1 := hhi
  rw [f64Round_intCast, saturate_eq_self h₀ h₁, clampI64_eq_self (by omega) (by omega),
    saturate_eq_self h₀ h₁]
  exact ⟨rfl, by unfold wrapU16; omega, rfl, rfl⟩

theorem lvI16_eq {sheet : Range} {row col : Nat} {v : Option LiteralValue}
    (hsame : SameCell (sheet.getValue row col) v)
    (hplain : FieldType.i16.Plain (sheet.getValue row col)) :
    lvI16 v = cellOptI16 sheet row col := by
  refine lvOpt_eq_cellOpt (c := id) (fun n hlo hhi => ?_) hsame hplain
  have h₀ : -2 ^ 15 ≤ n := hlo
  have h₁ : n ≤ 2 ^ 15 - 1 := hhi
  rw [f64Round_intCast, saturate_eq_self h₀ h₁, clampI64_eq_self (by omega) (by omega),
    saturate_eq_self h₀ h₁]
  exact ⟨rfl, by unfold wrapI16; rw [Int.bmod_def, id]; omega, rfl, rfl⟩

theorem lvF32_eq {sheet : Range} {row col : Nat} {v : Option LiteralValue}
    (hsame : SameCell (sheet.getValue row col) v)
    (hplain : FieldType.f32.Plain (sheet.getValue row col)) :
    lvF32 v = cellOptF32 sheet row col :=
  lvOpt_eq_cellOpt (c := fun n => toF32 n) (fun _ _ _ => ⟨rfl, rfl, rfl, rfl⟩) hsame hplain

/-- Every evaluated cell of the sheet holds the saved value. -/
def SameValues (sheet : Range) (wb : EvaluatedWorkbook) : Prop :=
  ∀ row col, SameCell (sheet.getValue row col) (wb.getValue "Game Summary" (row + 1) (col + 1))

/-- Without errors the saved values are not consulted. -/
theorem fvVal_eq {sheet : Range} {wb : EvaluatedWorkbook} (h : SameValues sheet wb)
    (cached : Option Range) (row col : Nat) :
    fvVal wb cached (row + 1) (col + 1) = wb.getValue "Game Summary" (row + 1) (col + 1) := by
  have hcell := h row col
  unfold fvVal
  split
  · rename_i herror
    rw [herror] at hcell
    cases hd : sheet.getValue row col with
    | none => simp [hd, SameCell] at hcell
    | some d => cases d <;> simp [hd, SameCell] at hcell
  · rfl

/-- The type of each numeric column of a player's row. -/
def playerField (col : Nat) : FieldType :=
  if col ∈ [2, 3, 4, 5, 9, 10, 11, 12, 13, 37] then .u8
  else if col ∈ [7, 15, 17, 18, 19, 20, 22, 24, 26] then .i16
  else .f32

/-- The type of each numeric column of the totals row. -/
def totalsField (col : Nat) : FieldType :=
  if col = 5 then .u16
  else if col ∈ [2, 3, 4, 9, 10, 11, 12, 13, 37] then .u8
  else if col ∈ [7, 15] then .i16
  else .f32

/-- The conversions of both decoders agree on the columns of a row, each at its type. -/
structure FieldsAgree (field : Nat → FieldType) (sheet : Range) (wb : EvaluatedWorkbook)
    (cached : Option Range) (row : Nat) : Prop where
  u8 : ∀ col ∈ List.range' 2 36, field col = .u8 →
    lvU8 (fvVal wb cached (row + 1) (col + 1)) = cellOptU8 sheet row col
  u16 : ∀ col ∈ List.range' 2 36, field col = .u16 →
    lvU16 (fvVal wb cached (row + 1) (col + 1)) = cellOptU16 sheet row col
  i16 : ∀ col ∈ List.range' 2 36, field col = .i16 →
    lvI16 (fvVal wb cached (row + 1) (col + 1)) = cellOptI16 sheet row col
  f32 : ∀ col ∈ List.range' 2 36, field col = .f32 →
    lvF32 (fvVal wb cached (row + 1) (col + 1)) = cellOptF32 sheet row col

theorem fieldsAgree {field : Nat → FieldType} {sheet : Range} {wb : EvaluatedWorkbook}
    (hsame : SameValues sheet wb) {row : Nat}
    (hplain : ∀ col ∈ List.range' 2 36, (field col).Plain (sheet.getValue row col))
    (cached : Option Range) : FieldsAgree field sheet wb cached row where
  u8 col hcol htype := by
    rw [fvVal_eq hsame]
    exact lvU8_eq (hsame row col) (htype ▸ hplain col hcol)
  u16 col hcol htype := by
    rw [fvVal_eq hsame]
    exact lvU16_eq (hsame row col) (htype ▸ hplain col hcol)
  i16 col hcol htype := by
    rw [fvVal_eq hsame]
    exact lvI16_eq (hsame row col) (htype ▸ hplain col hcol)
  f32 col hcol htype := by
    rw [fvVal_eq hsame]
    exact lvF32_eq (hsame row col) (htype ▸ hplain col hcol)

/-- The two decoders agree on a totals row. -/
theorem readSummaryTotals_eq {sheet : Range} {wb : EvaluatedWorkbook} (hsame : SameValues sheet wb)
    {row : Nat} (hplain : ∀ col ∈ List.range' 2 36, (totalsField col).Plain (sheet.getValue row col))
    (cached : Option Range) :
    readSummaryTotals wb cached (row + 1) = parseSummaryTotals sheet row := by
  have h := fieldsAgree hsame hplain cached
  unfold readSummaryTotals parseSummaryTotals
  simp (disch := decide) only [h.u8, h.u16, h.i16, h.f32]

/-! ## Players -/

section Players

variable [CellConversions]

/-- The two decoders read the same text from a cell of text, and none from one that has
none. -/
theorem lvString_eq {sheet : Range} {row col : Nat} {v : Option LiteralValue}
    (hsame : SameCell (sheet.getValue row col) v)
    (htext : (cellStr sheet row col).isSome = true → isText sheet row col = true) :
    lvString v = cellStr sheet row col := by
  unfold cellStr isText at *
  cases hd : sheet.getValue row col with
  | none =>
      rw [hd] at hsame
      rcases hsame with rfl | rfl <;> rfl
  | some d =>
      rw [hd] at hsame htext
      cases d with
      | empty => rcases hsame with rfl | rfl <;> rfl
      | int n => exact absurd (htext rfl) Bool.false_ne_true
      | float q => exact absurd (htext rfl) Bool.false_ne_true
      | string s =>
          rcases v with - | v
          · exact hsame.elim
          cases v with
          | text t =>
              rw [show t = s from hsame]
              rfl
          | _ => exact hsame.elim
      | error => exact hsame.elim
      | bool b =>
          rcases v with - | v
          · exact hsame.elim
          cases v with
          | boolean c => rfl
          | _ => exact hsame.elim
      | _ =>
          rcases v with - | v
          · exact hsame.elim
          cases v with
          | date | dateTime | time | duration => rfl
          | _ => simp [SameCell] at hsame

/-- What the agreement rests on in the row of a player: a listed number and name are text, a
blank one has no formula that finds a text, the numbers are plain, and a listed player has
jams. -/
structure PlainPlayer (sheet : Range) (formulas : Option FormulaRange) (igrf : IgrfCells)
    (row : Nat) : Prop where
  text : ∀ col ∈ [0, 1], (cellStr sheet row col).isSome = true → isText sheet row col = true
  formula : ∀ col ∈ [0, 1], cellStr sheet row col = none →
    cellStrWithFormula sheet formulas row col igrf = none
  plain : ∀ col ∈ List.range' 2 36, (playerField col).Plain (sheet.getValue row col)
  total : (cellStr sheet row 0).isSome = true → ∃ n ∈ cellOptU8 sheet row 5, 0 < n

/-- The two decoders agree on the row of a player, up to the mark of having played no jam,
which the second one tests later. -/
theorem readSummaryPlayer_eq {sheet : Range} {formulas : Option FormulaRange} {igrf : IgrfCells}
    {wb : EvaluatedWorkbook} (hsame : SameValues sheet wb) {row : Nat}
    (h : PlainPlayer sheet formulas igrf row) (cached : Option Range)
    (jamCounts : Table String JamCounts) (totalJams : Nat) (keep : String → Bool) :
    ((readSummaryPlayer wb cached (row + 1) totalJams).filter fun p =>
        !isZeroJamPlayer p.number && keep p.number) =
      (parseSummaryPlayer sheet formulas row igrf jamCounts totalJams).filter fun p =>
        keep p.number := by
  have hstr : ∀ col ∈ [0, 1],
      lvString (fvVal wb cached (row + 1) (col + 1)) = cellStr sheet row col ∧
        cellStrWithFormula sheet formulas row col igrf = cellStr sheet row col := by
    intro col hcol
    refine ⟨?_, ?_⟩
    · rw [fvVal_eq hsame]
      exact lvString_eq (hsame row col) (h.text col hcol)
    · cases hcell : cellStr sheet row col with
      | none => exact h.formula col hcol hcell
      | some s => exact cellStrWithFormula_of_some hcell
  have hfields := fieldsAgree hsame h.plain cached
  unfold readSummaryPlayer parseSummaryPlayer
  rw [(hstr 0 (by simp)).1, (hstr 1 (by simp)).1, (hstr 0 (by simp)).2, (hstr 1 (by simp)).2]
  cases hnumber : cellStr sheet row 0 with
  | none => rfl
  | some number =>
      obtain ⟨total, htotal, hpos⟩ := h.total (by rw [hnumber]; rfl)
      have hsaved : decide ((cellOptU8 sheet row 5).getD 0 = 0) = false := by
        rw [htotal]
        exact decide_eq_false hpos.ne'
      simp (disch := decide) only [hfields.u8, hfields.i16, hfields.f32, hsaved, Bool.false_and,
        Bool.false_eq_true, if_false]
      cases hzero : isZeroJamPlayer number with
      | true =>
          simp only [if_true, Option.filter_none]
          split_ifs
          · rfl
          · simp [hzero]
      | false =>
          simp only [Bool.false_eq_true, if_false]
          split_ifs
          · rfl
          · simp [Option.filter_some, hzero]

/-- The rows of the players of both sides. -/
def playerRows : List Nat :=
  List.range' 5 20 ++ List.range' 27 20

/-- What the agreement rests on in the whole sheet. -/
structure PlainSummary (sheet : Range) (formulas : Option FormulaRange) (igrf : IgrfCells) :
    Prop where
  players : ∀ row ∈ playerRows, PlainPlayer sheet formulas igrf row
  totals : ∀ row ∈ [25, 47], ∀ col ∈ List.range' 2 36,
    (totalsField col).Plain (sheet.getValue row col)

/-- The two decoders list the same players of a side, in the same order. -/
theorem readSummaryPlayers_eq {sheet : Range} {formulas : Option FormulaRange} {igrf : IgrfCells}
    {wb : EvaluatedWorkbook} (hsame : SameValues sheet wb) {first : Nat}
    (h : ∀ row ∈ List.range' first 20, PlainPlayer sheet formulas igrf row)
    (cached : Option Range) (jamCounts : Table String JamCounts) (totalJams : Nat)
    (keep : String → Bool) :
    (((List.range' (first + 1) 20).filterMap fun row =>
        readSummaryPlayer wb cached row totalJams).filter fun p =>
          !isZeroJamPlayer p.number && keep p.number) =
      ((List.range' first 20).filterMap fun row =>
        parseSummaryPlayer sheet formulas row igrf jamCounts totalJams).filter fun p =>
          keep p.number := by
  have hrows : List.range' (first + 1) 20 = (List.range' first 20).map (· + 1) := by
    simp only [Nat.add_comm _ 1, List.map_add_range']
  rw [List.filter_filterMap, List.filter_filterMap, hrows, List.filterMap_map]
  refine List.filterMap_congr fun row hrow => ?_
  exact readSummaryPlayer_eq hsame (h row hrow) cached jamCounts totalJams keep

/-- The two decoders return the same summary. -/
theorem parseGameSummary_agree {wb : Workbook} {formulas : String → Option FormulaRange}
    {igrf : IgrfCells} {sheet : Range} {evaluated : EvaluatedWorkbook}
    (hsheet : wb.worksheetRange "Game Summary" = some sheet) (hsame : SameValues sheet evaluated)
    (h : PlainSummary sheet (formulas "Game Summary") igrf)
    (homeNumbers awayNumbers : List String) (homeJamCounts awayJamCounts : Table String JamCounts)
    (cached : Option Range) (totalJams : Nat) :
    ∃ summary,
      parseGameSummary wb formulas igrf homeNumbers awayNumbers homeJamCounts awayJamCounts
        totalJams = .ok summary ∧
      parseGameSummaryFormualizer (some evaluated) homeNumbers awayNumbers cached totalJams =
        some summary := by
  have hhome := readSummaryPlayers_eq hsame
    (fun row hrow => h.players row (List.mem_append_left _ hrow)) cached homeJamCounts totalJams
    homeNumbers.contains
  have haway := readSummaryPlayers_eq hsame
    (fun row hrow => h.players row (List.mem_append_right _ hrow)) cached awayJamCounts totalJams
    awayNumbers.contains
  have hhomeTotals := readSummaryTotals_eq hsame (h.totals 25 (by simp)) cached
  have hawayTotals := readSummaryTotals_eq hsame (h.totals 47 (by simp)) cached
  unfold parseGameSummary parseGameSummaryFormualizer
  rw [hsheet]
  refine ⟨_, rfl, congrArg some ?_⟩
  simp only [hhome, haway, hhomeTotals, hawayTotals]

end Players

/-! ## One player on each side -/

section Example

attribute [local instance] truncating

/-- What evaluation makes of a saved value when nothing changes. -/
def literalOf : Data → LiteralValue
  | .int v => .int v
  | .float v => .number v
  | .string s => .text s
  | .bool b => .boolean b
  | .dateTime _ | .dateTimeIso _ => .dateTime
  | .durationIso _ => .duration
  | .error => .error
  | .empty => .empty

/-- The workbook whose formulas evaluate to the saved values. -/
def evaluatedOf (sheet : Range) : EvaluatedWorkbook where
  getValue _ row col := (sheet.getValue (row - 1) (col - 1)).map literalOf

theorem sameValues_evaluatedOf {sheet : Range}
    (h : ∀ cells ∈ sheet.cells, ∀ d ∈ cells, d ≠ Data.error) :
    SameValues sheet (evaluatedOf sheet) := by
  intro row col
  change SameCell (sheet.getValue row col) ((sheet.getValue row col).map literalOf)
  cases hd : sheet.getValue row col with
  | none => exact Or.inl rfl
  | some d =>
      have herror : d ≠ Data.error := by
        unfold Range.getValue at hd
        split_ifs at hd
        obtain ⟨cells, hcells, hcell⟩ := Option.bind_eq_some_iff.mp hd
        exact h cells (List.mem_of_getElem? hcells) d (List.mem_of_getElem? hcell)
      cases d with
      | error => exact absurd rfl herror
      | empty => exact Or.inr rfl
      | _ => simp [SameCell, literalOf]

/-- A row of the summary: the counts, and zeros in the other columns. -/
def summaryCells (number name : String) (jams points : Int) : List Data :=
  [.string number, .string name, .int jams, .int 0, .float 0, .float jams, .empty, .int points] ++
    List.replicate 30 (.int 0)

/-- A summary with one player on each side. -/
def summarySheet : Range where
  startRow := 5
  startCol := 0
  cells :=
    [summaryCells "12" "Ann" 3 17] ++ List.replicate 19 [] ++ [summaryCells "" "" 3 17, []] ++
      [summaryCells "7" "Bea" 3 9] ++ List.replicate 19 [] ++ [summaryCells "" "" 3 9]

/-- The workbook with the summary alone. -/
def summaryWorkbook : Workbook where
  worksheetRange name := if name = "Game Summary" then some summarySheet else none

theorem plainSummary_summarySheet : PlainSummary summarySheet none Table.empty where
  players row hrow := by
    have htext : ∀ row ∈ playerRows, ∀ col ∈ [0, 1],
        (cellStr summarySheet row col).isSome = true → isText summarySheet row col = true := by
      decide +kernel
    have hplain : ∀ row ∈ playerRows, ∀ col ∈ List.range' 2 36,
        (playerField col).Plain (summarySheet.getValue row col) := by decide +kernel
    have htotal : ∀ row ∈ playerRows, (cellStr summarySheet row 0).isSome = true →
        ∃ n ∈ cellOptU8 summarySheet row 5, 0 < n := by decide +kernel
    refine ⟨htext row hrow, fun col _ hcell => ?_, hplain row hrow, htotal row hrow⟩
    rw [cellStrWithFormula, hcell]
    rfl
  totals := by decide +kernel

/-- The players and the totals of the sheet are in the result of both decoders. -/
theorem parseGameSummary_summaryWorkbook :
    ∃ summary,
      parseGameSummary summaryWorkbook (fun _ => none) Table.empty ["12"] ["7", "8"] Table.empty
        Table.empty 3 = .ok summary ∧
      parseGameSummaryFormualizer (some (evaluatedOf summarySheet)) ["12"] ["7", "8"] none 3 =
        some summary :=
  parseGameSummary_agree rfl (sameValues_evaluatedOf (by decide +kernel))
    plainSummary_summarySheet _ _ _ _ _ _

end Example

end Sheet
end Statskboo
