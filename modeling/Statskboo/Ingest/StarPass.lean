import Statskboo.Ingest.ExactScores
import Statskboo.Ingest.ScoreLayout

/-!
# Which side passed the star

The row below a jam may be a star-pass row.  Both sides share it, and each has a label of
its own: {lit}`SP` for a pass of the side, {lit}`SP*` for one of the other side.  The parser
takes any text for a label.

Main results:

- Theorem {lit}`starPassJammer_sideAt`: when the parser gives a side a star-pass jammer.
- Theorem {lit}`starPasses_iff`: only the side that passed the star has one exactly when no
  other text stands beside a jammer in the rows below the jams.
-/

namespace Statskboo
namespace Sheet

/-- Whether the label of a side in a row is {lit}`SP`, in any case and with white space around
it. -/
def labelledSp (sheet : Range) (row : Nat) (side : Side) : Bool :=
  match sheet.getValue row (labelCol side) with
  | some (.string s) => Text.toAsciiUppercase (Text.trim s.toList) == "SP".toList
  | _ => false

section Parse

variable [CellConversions] {sheet : Range}

/-- A side has a star-pass jammer when the row below has a text for a label and a jammer. -/
theorem starPassJammer_sideAt (sheet : Range) (row baseCol : Nat) :
    (sideAt sheet row baseCol).starPassJammer =
      if isText sheet (row + 1) baseCol then cellStr sheet (row + 1) (baseCol + 1) else none := by
  unfold sideAt
  split_ifs <;> rfl

/-- The jam of a row, side by side. -/
theorem side_jamAt (sheet : Range) (row : Nat) (side : Side) :
    (jamAt sheet 0 19 row).side side = sideAt sheet row (labelCol side) := by
  cases side <;> rfl

/-- In the jams of both periods a side has a star-pass jammer only if the row below labels it
as the side that passed the star, and the points of a row with a label are added to its
side. -/
def StarPasses (sheet : Range) (periods : List Period) : Prop :=
  ∀ number ∈ [1, 2], (jamsOf periods number).length = (scoreRows sheet number).length ∧
    ∀ (k : Nat) (jam : Jam) (i : Nat), (jamsOf periods number)[k]? = some jam →
      (scoreRows sheet number)[k]? = some i →
      ∀ side, ((jam.side side).starPassJammer.isSome = true →
          labelledSp sheet (blockStart number + i + 1) side = true) ∧
        (jam.side side).score =
          wrapI16 (exactScore sheet (blockStart number + i) (labelCol side))

/-- Below the jams, a side with a text for a label and with a jammer has passed the star. -/
def JammersOfPasses (sheet : Range) : Prop :=
  ∀ number ∈ [1, 2], ∀ i ∈ scoreRows sheet number, ∀ side,
    isText sheet (blockStart number + i + 1) (labelCol side) = true →
      (cellStr sheet (blockStart number + i + 1) (labelCol side + 1)).isSome = true →
        labelledSp sheet (blockStart number + i + 1) side = true

/-- Only the side that passed the star has a star-pass jammer exactly when no other text stands
beside a jammer below the jams. -/
theorem starPasses_iff {wb : Workbook} (hsheet : wb.worksheetRange "Score" = some sheet) :
    ∃ periods, parseScores wb = .ok periods ∧ (StarPasses sheet periods ↔ JammersOfPasses sheet) := by
  have hjams : ∀ number ∈ [1, 2], jamsOf (scorePeriods sheet) number =
      (scoreRows sheet number).map fun i => jamAt sheet 0 19 (blockStart number + i) := by
    intro number hnumber
    rw [jamsOf_scorePeriods sheet hnumber, scoreJams, parseJams_eq_map]
    rfl
  refine ⟨scorePeriods sheet, parseScores_eq hsheet, ?_⟩
  constructor
  · intro hpasses number hnumber i hi side htext hjammer
    obtain ⟨k, hk⟩ := List.getElem?_of_mem hi
    have hjam : (jamsOf (scorePeriods sheet) number)[k]? =
        some (jamAt sheet 0 19 (blockStart number + i)) := by
      rw [hjams number hnumber, List.getElem?_map, hk, Option.map_some]
    refine ((hpasses number hnumber).2 k _ i hjam hk side).1 ?_
    rw [side_jamAt, starPassJammer_sideAt, if_pos htext]
    exact hjammer
  · intro hrows number hnumber
    refine ⟨by rw [hjams number hnumber, List.length_map], fun k jam i hjam hk side => ?_⟩
    rw [hjams number hnumber, List.getElem?_map, hk, Option.map_some] at hjam
    obtain rfl := Option.some.inj hjam
    rw [side_jamAt, starPassJammer_sideAt, score_sideAt]
    refine ⟨fun hsome => ?_, rfl⟩
    split_ifs at hsome with htext
    · exact hrows number hnumber i (List.mem_of_getElem? hk) side htext hsome
    · cases hsome

end Parse

section Example

attribute [local instance] truncating

/-- One jam, and below it a home side that did not pass the star with a jammer. -/
def opposingPass : Range where
  startRow := 3
  startCol := 0
  cells := [scoreCells (.int 1) (.string "12") .empty 4,
    scoreCells (.string "SP*") (.string "12") .empty 0]

/-- The workbook with this Score sheet. -/
def opposingWorkbook : Workbook where
  worksheetRange name := if name = "Score" then some opposingPass else none

/-- A pass of the other side leaves a star-pass jammer behind. -/
theorem not_starPasses :
    ¬∀ (wb : Workbook) (sheet : Range) (periods : List Period),
      wb.worksheetRange "Score" = some sheet → parseScores wb = .ok periods →
        StarPasses sheet periods := by
  intro hall
  have hscores : parseScores opposingWorkbook = .ok (scorePeriods opposingPass) :=
    parseScores_eq rfl
  have hpasses := hall opposingWorkbook opposingPass _ rfl hscores
  have hrow : (scoreRows opposingPass 1)[0]? = some 0 := by decide +kernel
  obtain ⟨jam, hjam, hjammer⟩ : ∃ jam, (jamsOf (scorePeriods opposingPass) 1)[0]? = some jam ∧
      (jam.side .home).starPassJammer.isSome = true :=
    ⟨jamAt opposingPass 0 19 3, by decide +kernel, by decide +kernel⟩
  have hlabel := ((hpasses 1 (by decide)).2 0 jam 0 hjam hrow .home).1 hjammer
  exact absurd hlabel (by decide +kernel)

/-- In the workbook with a star pass only the home side has a star-pass jammer. -/
theorem starPasses_passWorkbook :
    ∃ periods, parseScores passWorkbook = .ok periods ∧ StarPasses scoreSheet periods := by
  have hsheet : passWorkbook.worksheetRange "Score" = some scoreSheet := rfl
  obtain ⟨periods, hscores, hiff⟩ := starPasses_iff hsheet
  refine ⟨periods, hscores, hiff.mpr fun number hnumber i hi side => ?_⟩
  have hrows : ∀ side ∈ [Side.home, Side.away], ∀ number ∈ [1, 2],
      ∀ i ∈ scoreRows scoreSheet number,
        isText scoreSheet (blockStart number + i + 1) (labelCol side) = true →
          (cellStr scoreSheet (blockStart number + i + 1) (labelCol side + 1)).isSome = true →
            labelledSp scoreSheet (blockStart number + i + 1) side = true := by decide +kernel
  exact hrows side (by cases side <;> decide) number hnumber i hi

end Example

end Sheet
end Statskboo
