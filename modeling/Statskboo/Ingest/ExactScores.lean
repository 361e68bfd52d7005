import Statskboo.Ingest.ParseStatsbook
import Statskboo.Ingest.SheetRows

/-!
# When scores are exact

The scores of a statsbook are 16-bit numbers: each cell is cut to that width, and so is
every sum.  Since cutting respects addition, a score is the exact one cut once, and it is
exact when the exact one fits.

Main results:

- Theorem {lit}`score_sideAt`: the score of a side of a jam.
- Theorem {lit}`periodsScore_eq`: the score of a side over all jams.
- Theorem {lit}`exactScores_iff`: which statsbooks have exact scores.
-/

namespace Statskboo
namespace Sheet

/-! ## Exact scores -/

/-- The range of {lit}`i16`. -/
def InI16 (n : Int) : Prop :=
  -2 ^ 15 ≤ n ∧ n ≤ 2 ^ 15 - 1

instance (n : Int) : Decidable (InI16 n) :=
  inferInstanceAs (Decidable (_ ∧ _))

/-- The label column of a side on the Score sheet. -/
def labelCol : Side → Nat
  | .home => 0
  | .away => 19

section Exact

variable [CellConversions]

/-- The number in a cell; what is no number counts as zero. -/
def exactCell (sheet : Range) (row col : Nat) : Int :=
  ((sheet.getValue row col).bind CellConversions.asI64).getD 0

/-- The sum of the trip cells of a side. -/
def exactTrips (sheet : Range) (row baseCol : Nat) : Int :=
  ((List.range' 7 9).map fun c => exactCell sheet row (baseCol + c)).sum

/-- The points of a side in the jam of a row, with those of its star-pass row. -/
def exactScore (sheet : Range) (row baseCol : Nat) : Int :=
  exactTrips sheet row baseCol +
    if isText sheet (row + 1) baseCol then exactTrips sheet (row + 1) baseCol else 0

/-- The points of a side in each jam of a period. -/
def exactScores (sheet : Range) (side : Side) (number : Nat) : List Int :=
  (scoreRows sheet number).map fun i => exactScore sheet (blockStart number + i) (labelCol side)

/-- The points of a side in all jams. -/
def exactSum (sheet : Range) (side : Side) : Int :=
  (exactScores sheet side 1).sum + (exactScores sheet side 2).sum

/-- The number of a side in a pair. -/
def ofSide (pair : Int × Int) : Side → Int
  | .home => pair.1
  | .away => pair.2

/-- Whether the parser falls back on the points of the jams: there are no totals, or the one
of the side is read as zero and the points of the jams as more. -/
def UsesJams (wb : Workbook) (sheet : Range) (side : Side) : Prop :=
  ∀ totals ∈ igrfTotals wb, wrapI16 (ofSide totals side) = 0 ∧ 0 < wrapI16 (exactSum sheet side)

instance (wb : Workbook) (sheet : Range) (side : Side) : Decidable (UsesJams wb sheet side) :=
  Option.decidableForallMem _

/-- The exact final score of a side: the total of the IGRF sheet, or the points of the jams
where the parser falls back on them. -/
def exactFinal (wb : Workbook) (sheet : Range) (side : Side) : Int :=
  if UsesJams wb sheet side then exactSum sheet side
  else ((igrfTotals wb).map fun totals => ofSide totals side).getD 0

/-- The final score of a side. -/
def scoreOf (game : GameData) : Side → Int
  | .home => game.homeScore
  | .away => game.awayScore

/-- Every score of a game is exact: those of the jams and the final ones. -/
structure ExactScores (wb : Workbook) (sheet : Range) (game : GameData) : Prop where
  jams : ∀ side, ∀ number ∈ [1, 2],
    ((jamsOf game.periods number).map fun j => (j.side side).score) =
      exactScores sheet side number
  final : ∀ side, scoreOf game side = exactFinal wb sheet side

/-- Every exact score fits. -/
structure FitsI16 (wb : Workbook) (sheet : Range) : Prop where
  jams : ∀ side, ∀ number ∈ [1, 2], ∀ n ∈ exactScores sheet side number, InI16 n
  final : ∀ side, InI16 (exactFinal wb sheet side)

/-! ## A score is the exact one cut once -/

omit [CellConversions] in
theorem map_wrapI16_eq_self_iff {l : List Int} : l.map wrapI16 = l ↔ ∀ n ∈ l, InI16 n := by
  have hid : l.map wrapI16 = l ↔ l.map wrapI16 = l.map id := by rw [List.map_id]
  rw [hid, List.map_inj_left]
  exact forall₂_congr fun n _ => wrapI16_eq_self_iff

theorem tripSum_eq (sheet : Range) (row baseCol : Nat) :
    tripSum sheet row baseCol = wrapI16 (exactTrips sheet row baseCol) := by
  have hcells : ((List.range' 7 9).map fun c => cellI16 sheet row (baseCol + c)) =
      ((List.range' 7 9).map fun c => exactCell sheet row (baseCol + c)).map wrapI16 := by
    rw [List.map_map]
    rfl
  rw [tripSum, hcells, sumI16_map_wrapI16]
  rfl

/-- The score of a side of a jam. -/
theorem score_sideAt (sheet : Range) (row baseCol : Nat) :
    (sideAt sheet row baseCol).score = wrapI16 (exactScore sheet row baseCol) := by
  unfold sideAt exactScore
  split_ifs
  · change wrapI16 (tripSum sheet row baseCol + tripSum sheet (row + 1) baseCol) = _
    rw [tripSum_eq, tripSum_eq, wrapI16_wrapI16_add, wrapI16_add_wrapI16]
  · rw [add_zero]
    exact tripSum_eq sheet row baseCol

/-- The scores of a side in the jams of a period. -/
theorem scores_scoreJams (sheet : Range) (side : Side) (number : Nat) :
    ((scoreJams sheet number).map fun j => (j.side side).score) =
      (exactScores sheet side number).map wrapI16 := by
  unfold scoreJams exactScores scoreRows
  rw [parseJams_eq_map, List.map_map, List.map_map]
  refine List.map_congr_left fun i _ => ?_
  cases side with
  | home => exact score_sideAt sheet _ 0
  | away => exact score_sideAt sheet _ 19

/-! ## Lineups leave the scores alone -/

/-- The number of a period, and the scores of a side in its jams. -/
def periodScores (side : Side) (p : Period) : Nat × List Int :=
  (p.number, p.jams.map fun j => (j.side side).score)

theorem scores_lineupJams (sheet : Range) (homeNpCol awayNpCol row : Nat) (side : Side)
    (jams : List Jam) :
    ((lineupJams sheet homeNpCol awayNpCol row jams).map fun j => (j.side side).score) =
      jams.map fun j => (j.side side).score := by
  induction jams generalizing row with
  | nil => rfl
  | cons jam jams ih =>
      rw [lineupJams, List.map_cons, List.map_cons, ih]
      cases side <;> rfl

theorem periodScores_mergePeriod (sheet : Range) (startRow homeNpCol awayNpCol : Nat) (side : Side)
    (p : Period) :
    periodScores side (mergePeriod sheet startRow homeNpCol awayNpCol p) = periodScores side p := by
  unfold periodScores mergePeriod
  rw [scores_lineupJams]

omit [CellConversions] in
theorem map_modify_of_eq {α β : Type} {f : α → α} {g : α → β} (h : ∀ a, g (f a) = g a) (l : List α)
    (i : Nat) : (l.modify i f).map g = l.map g := by
  induction l generalizing i with
  | nil => simp
  | cons a l ih =>
      cases i with
      | zero => simp [h]
      | succ i => simp [ih]

theorem periodScores_mergeLineups (wb : Workbook) (side : Side) (periods : List Period) :
    (mergeLineups wb periods).map (periodScores side) = periods.map (periodScores side) := by
  unfold mergeLineups
  cases wb.worksheetRange "Lineups" with
  | none => rfl
  | some sheet =>
      dsimp only
      rw [map_modify_of_eq (periodScores_mergePeriod sheet 45 1 27 side),
        map_modify_of_eq (periodScores_mergePeriod sheet 3 1 27 side)]

omit [CellConversions] in
theorem scores_jamsOf (side : Side) (periods : List Period) (number : Nat) :
    ((jamsOf periods number).map fun j => (j.side side).score) =
      ((periods.map (periodScores side)).filter fun p => decide (p.1 = number)).flatMap
        Prod.snd := by
  unfold jamsOf
  rw [List.map_flatMap, List.filter_map, List.flatMap_map]
  rfl

omit [CellConversions] in
theorem scores_flatMap (side : Side) (periods : List Period) :
    ((periods.flatMap Period.jams).map fun j => (j.side side).score) =
      (periods.map (periodScores side)).flatMap Prod.snd := by
  rw [List.map_flatMap, List.flatMap_map]
  rfl

/-- The jams of both periods of a Score sheet. -/
theorem flatMap_scorePeriods (sheet : Range) :
    (scorePeriods sheet).flatMap Period.jams = scoreJams sheet 1 ++ scoreJams sheet 2 := by
  unfold scorePeriods
  cases h₁ : scoreJams sheet 1 <;> cases h₂ : scoreJams sheet 2 <;> simp [h₁, h₂]

/-! ## The scores of a statsbook -/

variable {wb : Workbook} {sheet : Range} {periods : List Period}

/-- The scores of a side in the jams of a period, with the lineups. -/
theorem scores_mergeLineups (side : Side) {number : Nat} (hnumber : number ∈ [1, 2]) :
    ((jamsOf (mergeLineups wb (scorePeriods sheet)) number).map fun j => (j.side side).score) =
      (exactScores sheet side number).map wrapI16 := by
  rw [scores_jamsOf, periodScores_mergeLineups, ← scores_jamsOf, jamsOf_scorePeriods sheet hnumber,
    scores_scoreJams]

/-- The score of a side over all jams. -/
theorem periodsScore_eq (side : Side) :
    periodsScore (mergeLineups wb (scorePeriods sheet)) side = wrapI16 (exactSum sheet side) := by
  unfold periodsScore exactSum
  rw [scores_flatMap, periodScores_mergeLineups, ← scores_flatMap, flatMap_scorePeriods,
    List.map_append, scores_scoreJams, scores_scoreJams, ← List.map_append, sumI16_map_wrapI16,
    List.sum_append]

/-- The final score of a side is the exact one cut once. -/
theorem finalScore_eq (side : Side) :
    finalScore (((igrfTotals wb).map fun totals => wrapI16 (ofSide totals side)).getD
        (wrapI16 (exactSum sheet side))) (wrapI16 (exactSum sheet side)) =
      wrapI16 (exactFinal wb sheet side) := by
  unfold finalScore exactFinal
  cases htotals : igrfTotals wb with
  | none =>
      have huses : UsesJams wb sheet side := by simp [UsesJams, htotals]
      simp [huses]
  | some totals =>
      have huses : UsesJams wb sheet side ↔
          wrapI16 (ofSide totals side) = 0 ∧ 0 < wrapI16 (exactSum sheet side) := by
        simp [UsesJams, htotals]
      simp only [Option.map_some, Option.getD_some]
      by_cases h : UsesJams wb sheet side
      · rw [if_pos h, if_pos (huses.mp h)]
      · rw [if_neg h, if_neg (h ∘ huses.mpr)]

/-- Every score of a parsed statsbook is the exact one cut once. -/
theorem scores_of_parsed [Calendar] {file : StatsbookFile} {fileName : Option String}
    {game : GameData} {date : Option Int}
    (h : parseStatsbookWithDate (some file) fileName = .ok (game, date)) :
    ∃ sheet, file.wb.worksheetRange "Score" = some sheet ∧
      (∀ side, ∀ number ∈ [1, 2],
        ((jamsOf game.periods number).map fun j => (j.side side).score) =
          (exactScores sheet side number).map wrapI16) ∧
      ∀ side, scoreOf game side = wrapI16 (exactFinal file.wb sheet side) := by
  obtain ⟨hperiods, hhome, haway⟩ := parseStatsbookWithDate_ok h
  obtain ⟨periods, hscores, hmerge⟩ := except_bind_eq_ok hperiods
  cases hsheet : file.wb.worksheetRange "Score" with
  | none => simp [parseScores, hsheet] at hscores
  | some sheet =>
      have hgame : game.periods = mergeLineups file.wb (scorePeriods sheet) := by
        rw [parseScores_eq hsheet, Except.ok.injEq] at hscores
        rw [hscores]
        exact (Except.ok.inj hmerge).symm
      refine ⟨sheet, rfl, fun side number hnumber => ?_, fun side => ?_⟩
      · rw [hgame, scores_mergeLineups side hnumber]
      · rw [← finalScore_eq]
        cases side with
        | home =>
            rw [scoreOf, hhome, hgame, periodsScore_eq, parseIgrfScores, Option.map_map]
            rfl
        | away =>
            rw [scoreOf, haway, hgame, periodsScore_eq, parseIgrfScores, Option.map_map]
            rfl

/-- The scores of a parsed statsbook are exact exactly when the exact scores fit. -/
theorem exactScores_iff [Calendar] {file : StatsbookFile} {fileName : Option String}
    {game : GameData} {date : Option Int}
    (h : parseStatsbookWithDate (some file) fileName = .ok (game, date)) :
    ∃ sheet, file.wb.worksheetRange "Score" = some sheet ∧
      (ExactScores file.wb sheet game ↔ FitsI16 file.wb sheet) := by
  obtain ⟨sheet, hsheet, hjams, hfinal⟩ := scores_of_parsed h
  refine ⟨sheet, hsheet, ?_, ?_⟩
  · intro hexact
    constructor
    · intro side number hnumber
      have hside := hexact.jams side number hnumber
      rw [hjams side number hnumber] at hside
      exact map_wrapI16_eq_self_iff.mp hside
    · intro side
      have hside := hexact.final side
      rw [hfinal] at hside
      exact wrapI16_eq_self_iff.mp hside
  · intro hfits
    constructor
    · intro side number hnumber
      rw [hjams side number hnumber, map_wrapI16_eq_self_iff]
      exact hfits.jams side number hnumber
    · intro side
      rw [hfinal]
      exact wrapI16_eq_self_iff.mpr (hfits.final side)

end Exact

/-! ## A score that does not fit -/

section Example

attribute [local instance] truncating

/-- A calendar without dates. -/
@[reducible]
def undated : Calendar where
  parseFromStr _ _ := none
  fromYmdOpt _ _ _ := none
  year _ := 0
  asDate _ := none
  currentYear := 0

attribute [local instance] undated

/-- The totals row of the IGRF sheet. -/
def totalsSheet (home away : Int) : Range where
  startRow := 37
  startCol := 0
  cells :=
    [[.string "TOTAL POINTS", .empty, .int home] ++ List.replicate 6 .empty ++ [.int away]]

/-- A file with a Score sheet and the official totals. -/
def totalsFile (score : Range) (home away : Int) : StatsbookFile where
  wb.worksheetRange name :=
    if name = "Score" then some score
    else if name = "IGRF" then some (totalsSheet home away)
    else none
  formulas _ := none
  evaluated := none

theorem exists_parsed (score : Range) (home away : Int) :
    ∃ game date, parseStatsbookWithDate (some (totalsFile score home away)) none =
      .ok (game, date) :=
  ⟨_, _, rfl⟩

/-- The jams of {lit}`scoreSheet` and its totals fit. -/
theorem exactScores_scoreSheet :
    ∃ game date, parseStatsbookWithDate (some (totalsFile scoreSheet 9 2)) none =
        .ok (game, date) ∧
      ExactScores (totalsFile scoreSheet 9 2).wb scoreSheet game := by
  obtain ⟨game, date, h⟩ := exists_parsed scoreSheet 9 2
  obtain ⟨sheet, hsheet, hiff⟩ := exactScores_iff h
  cases hsheet
  refine ⟨game, date, h, hiff.mpr ⟨?_, ?_⟩⟩
  · intro side
    cases side <;> decide +kernel
  · intro side
    cases side <;> decide +kernel

/-- An official total above the range of {lit}`i16` is reduced modulo {lit}`2 ^ 16`. -/
theorem not_exactScores :
    ¬ ∀ (file : StatsbookFile) (fileName : Option String) (game : GameData) (date : Option Int)
      (sheet : Range), parseStatsbookWithDate (some file) fileName = .ok (game, date) →
      file.wb.worksheetRange "Score" = some sheet → ExactScores file.wb sheet game := by
  intro h
  obtain ⟨game, date, hparsed⟩ := exists_parsed scoreSheet 65538 2
  have hexact := (h _ _ _ _ scoreSheet hparsed rfl).final .home
  obtain ⟨sheet, hsheet, -, hfinal⟩ := scores_of_parsed hparsed
  cases hsheet
  rw [hfinal] at hexact
  revert hexact
  decide +kernel

end Example

end Sheet
end Statskboo
