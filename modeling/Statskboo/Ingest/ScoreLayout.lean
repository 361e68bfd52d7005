import Statskboo.Ingest.ParseScores
import Mathlib.Algebra.BigOperators.Ring.Finset

/-!
# How a game is laid out on the Score and Lineups sheets

A period takes one row for each jam and one more for each star pass, on both sheets.  The
types here hold a game as the scorekeepers enter it, and the relations say which cells
stand for it.  Blank cells may be missing or empty, and numbers may be integers or floats.

The walk over the Score sheet stands at the row of a jam before each of its rounds.  The
walk over the Lineups sheet may stand at the star-pass row of the jam before; the label of
that row brings it to the row of the next jam.

Main results:

- Theorem {lit}`parseJams_of_encodes`: the walk over the Score sheet finds the jams it
  encodes.
- Theorem {lit}`lineupJams_of_encodes`: the walk over the Lineups sheet adds the lineup
  of each jam to that jam.
- Theorem {lit}`parsePeriods_of_encodes`: a workbook decodes to the game it encodes.
-/

namespace Statskboo
namespace Sheet

/-! ## The game -/

/-- The number of a skater: trimmed, and none of the texts that the parser drops. -/
structure SkaterNumber where
  text : String
  trimmed : Text.Trimmed text.toList
  nonempty : text.toList ≠ []
  notNone : isNoneText text.toList = false
  played : isZeroJamPlayer text = false

/-- What the side that passes the star enters in the star-pass row. -/
structure StarPass where
  jammer : Option SkaterNumber
  trips : Fin 9 → Nat

/-- A star-pass row; it says {lit}`SP` for a side that passes the star and {lit}`SP*` for
one that does not. -/
structure StarPassRow where
  home : Option StarPass
  away : Option StarPass

/-- A player in a lineup with the marks in the three box cells. -/
structure LineupSlot where
  number : SkaterNumber
  box : Fin 3 → Bool

/-- What a side enters for a jam, without its star pass. -/
structure SheetSide where
  jammer : Option SkaterNumber
  lost : Bool
  lead : Bool
  called : Bool
  injury : Bool
  noPivot : Bool
  trips : Fin 9 → Nat
  lineup : Fin 5 → Option LineupSlot

/-- The points of the trip cells. -/
def points (trips : Fin 9 → Nat) : Nat :=
  (List.ofFn trips).sum

/-- The points of a star pass, if there is one. -/
def starPassPoints (sp : Option StarPass) : Nat :=
  (sp.map fun sp => points sp.trips).getD 0

/-- A jam; its number and the points of each side fit their types. -/
structure SheetJam where
  number : Nat
  home : SheetSide
  away : SheetSide
  starPass : Option StarPassRow
  number_pos : 0 < number
  number_lt : number < 2 ^ 16
  home_fits : points home.trips + starPassPoints (starPass.bind StarPassRow.home) < 2 ^ 15
  away_fits : points away.trips + starPassPoints (starPass.bind StarPassRow.away) < 2 ^ 15

/-- The rows that the jams take. -/
def rowCount : List SheetJam → Nat
  | [] => 0
  | jam :: jams => (if jam.starPass.isSome then 2 else 1) + rowCount jams

/-- A period that has been played and has room on its part of the sheet. -/
structure SheetPeriod where
  jams : List SheetJam
  nonempty : jams ≠ []
  rows_le : rowCount jams ≤ periodRows

/-- The texts of the positions in a lineup. -/
def positionName (p : Fin 5) : String :=
  if p = 0 then "jammer" else if p = 1 then "pivot" else "blocker"

/-- The lineup without the positions that are not filled. -/
def lineupOf (lineup : Fin 5 → Option LineupSlot) : List LineupEntry :=
  (List.finRange 5).filterMap fun p => (lineup p).map fun slot =>
    { number := slot.number.text
      position := positionName p
      boxTrips := ((List.finRange 3).filter fun b => slot.box b).length }

/-- One side of a jam of the game. -/
def sideOf (side : SheetSide) (sp : Option StarPass) : JamSide where
  jammer := side.jammer.map SkaterNumber.text
  starPassJammer := (sp.bind StarPass.jammer).map SkaterNumber.text
  lead := side.lead
  lost := side.lost
  called := side.called
  injury := side.injury
  noPivot := side.noPivot
  score := ((points side.trips + starPassPoints sp : Nat) : Int)
  lineup := lineupOf side.lineup

/-- A jam of the game. -/
def jamOf (jam : SheetJam) : Jam where
  number := jam.number
  home := sideOf jam.home (jam.starPass.bind StarPassRow.home)
  away := sideOf jam.away (jam.starPass.bind StarPassRow.away)

/-! ## Cells that stand for values -/

/-- The cell is blank. -/
def Blank (cell : Option Data) : Prop :=
  cell = none ∨ cell = some .empty

/-- The cell is a number. -/
def EncodesNumber (n : Nat) (cell : Option Data) : Prop :=
  cell = some (.int n) ∨ cell = some (.float n)

instance (cell : Option Data) : Decidable (Blank cell) :=
  inferInstanceAs (Decidable (_ ∨ _))

instance (n : Nat) (cell : Option Data) : Decidable (EncodesNumber n cell) :=
  inferInstanceAs (Decidable (_ ∨ _))

/-- The cell has the number of a skater as text or as a number, or is blank. -/
def EncodesSkater : Option SkaterNumber → Option Data → Prop
  | none, cell => Blank cell
  | some number, cell => cell = some (.string number.text) ∨
      ∃ v : Int, toString v = number.text ∧ -2 ^ 63 ≤ v ∧ v < 2 ^ 63 ∧
        (cell = some (.int v) ∨ cell = some (.float v))

/-- The cell has the points of a trip; no points may be left blank. -/
def EncodesTrip (n : Nat) (cell : Option Data) : Prop :=
  EncodesNumber n cell ∨ (n = 0 ∧ Blank cell)

instance (n : Nat) (cell : Option Data) : Decidable (EncodesTrip n cell) :=
  inferInstanceAs (Decidable (_ ∨ _))

/-- The cell is ticked, or carries some mark, when the flag is set. -/
def EncodesFlag : Bool → Option Data → Prop
  | true, cell => cell = some (.bool true) ∨
      ∃ s, cell = some (.string s) ∧ Text.trim s.toList ≠ []
  | false, cell => cell = some (.bool false) ∨ Blank cell

/-- The box cell carries a mark, or is blank. -/
def EncodesBox : Bool → Option Data → Prop
  | true, cell => ∃ s, cell = some (.string s) ∧ Text.trim s.toList ≠ [] ∧
      isNoneText (Text.trim s.toList) = false
  | false, cell => Blank cell

/-! ## Rows that stand for jams -/

/-- The nine trip cells of a side. -/
def EncodesTrips (sheet : Range) (row baseCol : Nat) (trips : Fin 9 → Nat) : Prop :=
  ∀ c, EncodesTrip (trips c) (sheet.getValue row (baseCol + (7 + c)))

instance (sheet : Range) (row baseCol : Nat) (trips : Fin 9 → Nat) :
    Decidable (EncodesTrips sheet row baseCol trips) :=
  inferInstanceAs (Decidable (∀ _, _))

/-- One side of the row of a jam. -/
structure EncodesSide (sheet : Range) (row baseCol : Nat) (side : SheetSide) : Prop where
  jammer : EncodesSkater side.jammer (sheet.getValue row (baseCol + 1))
  lost : EncodesFlag side.lost (sheet.getValue row (baseCol + 2))
  lead : EncodesFlag side.lead (sheet.getValue row (baseCol + 3))
  called : EncodesFlag side.called (sheet.getValue row (baseCol + 4))
  injury : EncodesFlag side.injury (sheet.getValue row (baseCol + 5))
  noPivot : EncodesFlag side.noPivot (sheet.getValue row (baseCol + 6))
  trips : EncodesTrips sheet row baseCol side.trips

/-- One side of a star-pass row, apart from its label; a side that keeps the star leaves
it blank. -/
def EncodesStarPass (sheet : Range) (row baseCol : Nat) : Option StarPass → Prop
  | some sp => EncodesSkater sp.jammer (sheet.getValue row (baseCol + 1)) ∧
      EncodesTrips sheet row baseCol sp.trips
  | none => Blank (sheet.getValue row (baseCol + 1)) ∧
      ∀ c : Fin 9, Blank (sheet.getValue row (baseCol + (7 + c)))

/-- The label of a side of a star-pass row. -/
def starPassText (sp : Option StarPass) : String :=
  if sp.isSome then "SP" else "SP*"

/-- A star-pass row on the Score sheet; a side that keeps the star may leave the away
label blank. -/
structure EncodesStarPassRow (sheet : Range) (row : Nat) (sp : StarPassRow) : Prop where
  homeLabel : sheet.getValue row 0 = some (.string (starPassText sp.home))
  awayLabel : sheet.getValue row 19 = some (.string (starPassText sp.away)) ∨
    (sp.away = none ∧ Blank (sheet.getValue row 19))
  home : EncodesStarPass sheet row 0 sp.home
  away : EncodesStarPass sheet row 19 sp.away

/-- The row of a jam on the Score sheet; the away label repeats the number or is blank. -/
structure EncodesJamRow (sheet : Range) (row : Nat) (jam : SheetJam) : Prop where
  homeLabel : EncodesNumber jam.number (sheet.getValue row 0)
  awayLabel : EncodesNumber jam.number (sheet.getValue row 19) ∨ Blank (sheet.getValue row 19)
  home : EncodesSide sheet row 0 jam.home
  away : EncodesSide sheet row 19 jam.away

/-- The jams from a row of the Score sheet on; the labels after the last row are blank. -/
def EncodesJams (sheet : Range) : Nat → List SheetJam → Prop
  | row, [] => Blank (sheet.getValue row 0) ∧ Blank (sheet.getValue row 19)
  | row, jam :: jams => EncodesJamRow sheet row jam ∧
      match jam.starPass with
      | none => EncodesJams sheet (row + 1) jams
      | some sp => EncodesStarPassRow sheet (row + 1) sp ∧ EncodesJams sheet (row + 2) jams

/-- One position of a lineup. -/
def EncodesSlot (sheet : Range) (row col : Nat) : Option LineupSlot → Prop
  | none => Blank (sheet.getValue row col)
  | some slot => EncodesSkater (some slot.number) (sheet.getValue row col) ∧
      ∀ b : Fin 3, EncodesBox (slot.box b) (sheet.getValue row (col + (1 + b)))

/-- One side of the row of a jam on the Lineups sheet. -/
def EncodesLineup (sheet : Range) (row noPivotCol : Nat) (lineup : Fin 5 → Option LineupSlot) :
    Prop :=
  ∀ p : Fin 5, EncodesSlot sheet row (noPivotCol + 1 + 4 * p) (lineup p)

/-- The row of a jam on the Lineups sheet. -/
structure EncodesLineupRow (sheet : Range) (row : Nat) (jam : SheetJam) : Prop where
  label : EncodesNumber jam.number (sheet.getValue row 0)
  home : EncodesLineup sheet row 1 jam.home.lineup
  away : EncodesLineup sheet row 27 jam.away.lineup

/-- The jams from a row of the Lineups sheet on; of a star-pass row only the label
matters. -/
def EncodesLineups (sheet : Range) : Nat → List SheetJam → Prop
  | _, [] => True
  | row, jam :: jams => EncodesLineupRow sheet row jam ∧
      match jam.starPass with
      | none => EncodesLineups sheet (row + 1) jams
      | some sp => sheet.getValue (row + 1) 0 = some (.string (starPassText sp.home)) ∧
          EncodesLineups sheet (row + 2) jams

/-- A workbook that encodes the jams of two periods. -/
structure EncodesGame (wb : Workbook) (score lineups : Range) (p₁ p₂ : SheetPeriod) : Prop where
  scoreSheet : wb.worksheetRange "Score" = some score
  lineupsSheet : wb.worksheetRange "Lineups" = some lineups
  scores₁ : EncodesJams score 3 p₁.jams
  scores₂ : EncodesJams score 45 p₂.jams
  lineups₁ : EncodesLineups lineups 3 p₁.jams
  lineups₂ : EncodesLineups lineups 45 p₂.jams

/-- What the spreadsheet library documents of the conversion to an integer. -/
structure Documented [CellConversions] : Prop where
  int : ∀ n : Int, CellConversions.asI64 (.int n) = some n
  float : ∀ n : Int, -2 ^ 63 ≤ n → n < 2 ^ 63 → CellConversions.asI64 (.float n) = some n
  empty : CellConversions.asI64 .empty = none

/-! ## Reading one cell back -/

section Cells

variable {sheet : Range} {row col n : Nat}

theorem isText_of_blank (h : Blank (sheet.getValue row col)) : isText sheet row col = false := by
  unfold isText
  rcases h with h | h
  · rw [h]
  · rw [h]

theorem isText_of_number (h : EncodesNumber n (sheet.getValue row col)) :
    isText sheet row col = false := by
  unfold isText
  rcases h with h | h
  · rw [h]
  · rw [h]

theorem cellBool_of_encodes {flag : Bool} (h : EncodesFlag flag (sheet.getValue row col)) :
    cellBool sheet row col = flag := by
  unfold cellBool
  cases flag with
  | true =>
      rcases h with h | ⟨s, h, hvisible⟩
      · rw [h]
      · rw [h]
        simpa using hvisible
  | false =>
      rcases h with h | h | h
      · rw [h]
      · rw [h]
      · rw [h]

variable [CellConversions]

theorem cellStr_of_blank (h : Blank (sheet.getValue row col)) : cellStr sheet row col = none := by
  unfold cellStr
  rcases h with h | h
  · rw [h]
  · rw [h]

/-- The number of a skater is read back, however it is entered. -/
theorem cellStr_of_encodes {number : Option SkaterNumber}
    (h : EncodesSkater number (sheet.getValue row col)) :
    cellStr sheet row col = number.map SkaterNumber.text := by
  cases number with
  | none => exact cellStr_of_blank h
  | some number =>
      unfold cellStr
      rcases h with h | ⟨v, hv, h₀, h₁, h | h⟩
      · simp [h, Text.trim_eq_self number.trimmed, number.notNone, number.nonempty]
      · rw [h]
        exact congrArg some hv
      · simp [h, floatToIntStr, clampI64_eq_self h₀ h₁, hv]

/-- A box cell counts when it carries a mark. -/
theorem isSome_cellStr_of_encodes {mark : Bool} (h : EncodesBox mark (sheet.getValue row col)) :
    (cellStr sheet row col).isSome = mark := by
  cases mark with
  | true =>
      obtain ⟨s, h, hvisible, hnone⟩ := h
      simp [cellStr, h, hvisible, hnone]
  | false =>
      rw [cellStr_of_blank h]
      rfl

variable (hdoc : Documented)
include hdoc

theorem asI64_of_number (hn : n < 2 ^ 63) (h : EncodesNumber n (sheet.getValue row col)) :
    (sheet.getValue row col).bind CellConversions.asI64 = some (n : Int) := by
  rcases h with h | h
  · rw [h]
    exact hdoc.int n
  · rw [h]
    exact hdoc.float n (by omega) (by omega)

theorem asI64_of_blank (h : Blank (sheet.getValue row col)) :
    (sheet.getValue row col).bind CellConversions.asI64 = none := by
  rcases h with h | h
  · rw [h]
    rfl
  · rw [h]
    exact hdoc.empty

theorem cellI16_of_blank (h : Blank (sheet.getValue row col)) : cellI16 sheet row col = 0 := by
  unfold cellI16
  rw [asI64_of_blank hdoc h]
  rfl

theorem cellI16_of_encodes (hn : n < 2 ^ 15) (h : EncodesTrip n (sheet.getValue row col)) :
    cellI16 sheet row col = n := by
  rcases h with h | ⟨rfl, h⟩
  · unfold cellI16
    rw [asI64_of_number hdoc (by omega) h, Option.getD_some]
    exact wrapI16_eq_self (Int.natCast_nonneg n) (by exact_mod_cast hn)
  · exact cellI16_of_blank hdoc h

/-- The trip cells add up to the points, which fit. -/
theorem tripSum_of_encodes {trips : Fin 9 → Nat} (hfits : points trips < 2 ^ 15)
    (h : EncodesTrips sheet row col trips) : tripSum sheet row col = points trips := by
  have hcells : (List.range' 7 9).map (fun c => cellI16 sheet row (col + c)) =
      (List.ofFn trips).map fun n : Nat => (n : Int) := by
    have hrange : (List.range' 7 9).map (fun c => cellI16 sheet row (col + c)) =
        List.ofFn fun c : Fin 9 => cellI16 sheet row (col + (7 + c)) := rfl
    rw [hrange, List.map_ofFn]
    congr 1
    funext c
    have hle : trips c ≤ points trips := List.le_sum_of_mem (List.mem_ofFn.mpr ⟨c, rfl⟩)
    exact cellI16_of_encodes hdoc (by omega) (h c)
  have hsum : ((List.ofFn trips).map fun n : Nat => (n : Int)).sum = points trips :=
    (Nat.cast_list_sum _).symm
  unfold tripSum
  rw [hcells, sumI16_eq_sum, hsum]
  · intro x hx
    obtain ⟨n, -, rfl⟩ := List.mem_map.mp hx
    exact Int.natCast_nonneg n
  · rw [hsum]
    exact_mod_cast hfits

theorem tripSum_of_blank (h : ∀ c : Fin 9, Blank (sheet.getValue row (col + (7 + c)))) :
    tripSum sheet row col = 0 := by
  have hnone : EncodesTrips sheet row col fun _ => 0 := fun c => Or.inr ⟨rfl, h c⟩
  rw [tripSum_of_encodes hdoc (by decide) hnone]
  rfl

end Cells

/-! ## The walk over the Score sheet -/

/-- A side before its lineup is known. -/
def withoutLineup (side : JamSide) : JamSide :=
  { side with lineup := [] }

/-- A jam before its lineups are known. -/
def scoreJamOf (jam : SheetJam) : Jam where
  number := jam.number
  home := withoutLineup (jamOf jam).home
  away := withoutLineup (jamOf jam).away

/-- The first row of the rest of a period has no text in its label cells. -/
theorem isText_of_encodesJams {sheet : Range} {row : Nat} {jams : List SheetJam}
    (h : EncodesJams sheet row jams) :
    isText sheet row 0 = false ∧ isText sheet row 19 = false := by
  cases jams with
  | nil => exact ⟨isText_of_blank h.1, isText_of_blank h.2⟩
  | cons jam jams =>
      refine ⟨isText_of_number h.1.homeLabel, ?_⟩
      rcases h.1.awayLabel with haway | haway
      · exact isText_of_number haway
      · exact isText_of_blank haway

theorem isText_of_encodesStarPassRow {sheet : Range} {row : Nat} {sp : StarPassRow}
    (h : EncodesStarPassRow sheet row sp) : isText sheet row 0 = true := by
  unfold isText
  rw [h.homeLabel]

section Scores

variable [CellConversions] {sheet : Range} {row col : Nat} {side : SheetSide}
variable (hdoc : Documented)
include hdoc

theorem parseJamSide_of_encodes (hfits : points side.trips < 2 ^ 15)
    (h : EncodesSide sheet row col side) :
    parseJamSide sheet row col = withoutLineup (sideOf side none) := by
  unfold parseJamSide
  rw [cellStr_of_encodes h.jammer, cellBool_of_encodes h.lost, cellBool_of_encodes h.lead,
    cellBool_of_encodes h.called, cellBool_of_encodes h.injury, cellBool_of_encodes h.noPivot,
    tripSum_of_encodes hdoc hfits h.trips]
  rfl

/-- The star-pass row adds what the side enters there, which may be nothing. -/
theorem addStarPass_of_encodes {sp : Option StarPass}
    (hfits : points side.trips + starPassPoints sp < 2 ^ 15)
    (h : EncodesStarPass sheet row col sp) :
    addStarPass sheet row col (withoutLineup (sideOf side none)) =
      withoutLineup (sideOf side sp) := by
  have hread : cellStr sheet row (col + 1) = (sp.bind StarPass.jammer).map SkaterNumber.text ∧
      tripSum sheet row col = starPassPoints sp := by
    cases sp with
    | none => exact ⟨cellStr_of_blank h.1, tripSum_of_blank hdoc h.2⟩
    | some sp =>
        have hpoints : points sp.trips < 2 ^ 15 := (Nat.le_add_left _ _).trans_lt hfits
        exact ⟨cellStr_of_encodes h.1, tripSum_of_encodes hdoc hpoints h.2⟩
  have hscore : wrapI16 ((withoutLineup (sideOf side none)).score + starPassPoints sp) =
      (sideOf side sp).score := by
    have hown : (withoutLineup (sideOf side none)).score = points side.trips := rfl
    have hboth : (sideOf side sp).score =
        ((points side.trips + starPassPoints sp : Nat) : Int) := rfl
    rw [hown, hboth, wrapI16_eq_self]
    · exact (Nat.cast_add _ _).symm
    · omega
    · exact_mod_cast hfits
  unfold addStarPass
  rw [hread.1, hread.2, hscore]
  rfl

/-- The away side passes the star when its label cell has text that says so; a blank label
leaves the side as it was. -/
theorem awayStarPass_of_encodes {sp : StarPassRow}
    (hfits : points side.trips + starPassPoints sp.away < 2 ^ 15)
    (h : EncodesStarPassRow sheet row sp) :
    (if isText sheet row 19 then addStarPass sheet row 19 (withoutLineup (sideOf side none))
      else withoutLineup (sideOf side none)) = withoutLineup (sideOf side sp.away) := by
  rcases h.awayLabel with htext | ⟨hnone, hblank⟩
  · have haway : isText sheet row 19 = true := by
      unfold isText
      rw [htext]
    rw [if_pos haway]
    exact addStarPass_of_encodes hdoc hfits h.away
  · rw [isText_of_blank hblank, hnone]
    rfl

/-- The walk stands at the row of the next jam before each round, and finds the jams that
the rest of the period encodes. -/
theorem jamsLoop_of_encodes {startRow : Nat} {jams : List SheetJam} {fuel i : Nat}
    (h : EncodesJams sheet (startRow + i) jams) (hrows : i + rowCount jams ≤ periodRows)
    (hfuel : periodRows ≤ fuel + i) :
    jamsLoop sheet startRow 0 19 fuel i = jams.map scoreJamOf := by
  induction jams generalizing fuel i with
  | nil =>
      cases fuel with
      | zero => rfl
      | succ fuel =>
          rw [jamsLoop]
          by_cases hi : i < periodRows
          · -- the label after the last row ends the period
            simp [isText_of_blank h.1, asI64_of_blank hdoc h.1]
          · rw [if_neg hi]
            rfl
  | cons jam jams ih =>
      obtain ⟨hrow, hrest⟩ := h
      have hcount : rowCount (jam :: jams) =
          (if jam.starPass.isSome then 2 else 1) + rowCount jams := rfl
      have hi : i < periodRows := by
        split_ifs at hcount <;> omega
      obtain ⟨fuel, rfl⟩ : ∃ k, fuel = k + 1 := ⟨fuel - 1, by omega⟩
      have hlabel := asI64_of_number hdoc (by have := jam.number_lt; omega) hrow.homeLabel
      have hnumber : (jam.number : Int) ≠ 0 := by
        have := jam.number_pos
        omega
      have hhome := parseJamSide_of_encodes hdoc
        ((Nat.le_add_right _ _).trans_lt jam.home_fits) hrow.home
      have haway := parseJamSide_of_encodes hdoc
        ((Nat.le_add_right _ _).trans_lt jam.away_fits) hrow.away
      rw [jamsLoop, if_pos hi]
      simp only [isText_of_number hrow.homeLabel, hlabel, if_neg hnumber, hhome, haway,
        wrapU16_natCast jam.number_lt, Bool.false_eq_true, if_false, List.map_cons]
      cases hsp : jam.starPass with
      | none =>
          rw [hsp] at hrest
          obtain ⟨htext, htext'⟩ := isText_of_encodesJams hrest
          rw [Nat.add_assoc] at hrest htext htext'
          rw [hsp] at hcount
          have htail := @ih fuel _ hrest (by simp at hcount; omega) (by omega)
          simp [htext, htext', htail, scoreJamOf, jamOf, hsp]
      | some sp =>
          rw [hsp] at hrest
          obtain ⟨hspRow, hrest⟩ := hrest
          rw [Nat.add_assoc] at hspRow hrest
          rw [hsp] at hcount
          have htail := @ih fuel _ hrest (by simp at hcount; omega) (by omega)
          have hhomeFits := jam.home_fits
          have hawayFits := jam.away_fits
          rw [hsp, Option.bind_some] at hhomeFits hawayFits
          simp only [isText_of_encodesStarPassRow hspRow, if_true, Bool.true_or,
            addStarPass_of_encodes hdoc hhomeFits hspRow.home,
            awayStarPass_of_encodes hdoc hawayFits hspRow, htail]
          simp [scoreJamOf, jamOf, hsp]

/-- The walk over the Score sheet finds the jams that a period encodes. -/
theorem parseJams_of_encodes {startRow : Nat} (p : SheetPeriod)
    (h : EncodesJams sheet startRow p.jams) :
    parseJams sheet startRow 0 19 = p.jams.map scoreJamOf :=
  jamsLoop_of_encodes hdoc h (by rw [Nat.zero_add]; exact p.rows_le) le_rfl

end Scores

/-! ## The walk over the Lineups sheet -/

theorem starPassLabel_of_number {sheet : Range} {row n : Nat}
    (h : EncodesNumber n (sheet.getValue row 0)) : starPassLabel sheet row = false := by
  unfold starPassLabel
  rcases h with h | h
  · rw [h]
  · rw [h]

theorem starPassLabel_of_text {sheet : Range} {row : Nat} {sp : Option StarPass}
    (h : sheet.getValue row 0 = some (.string (starPassText sp))) :
    starPassLabel sheet row = true := by
  have htexts : ∀ s ∈ ["SP", "SP*"],
      (!(Text.trim s.toList).isEmpty && isStarPassRow s) = true := by
    decide
  unfold starPassLabel
  rw [h]
  apply htexts
  unfold starPassText
  split_ifs <;> simp

theorem skipStarPass_of_false {sheet : Range} {row : Nat} (h : starPassLabel sheet row = false)
    (fuel : Nat) : skipStarPass sheet fuel row = row := by
  cases fuel with
  | zero => rfl
  | succ fuel => rw [skipStarPass, h, if_neg Bool.false_ne_true]

/-- The walk passes over one star-pass row. -/
theorem lineupRow_of_starPass {sheet : Range} {row : Nat} (h : starPassLabel sheet row = true)
    (hnext : starPassLabel sheet (row + 1) = false) : lineupRow sheet row = row + 1 := by
  unfold lineupRow
  cases hend : sheet.endRow with
  | zero =>
      rw [starPassLabel, Range.getValue_eq_none (by omega)] at h
      cases h
  | succ fuel => rw [skipStarPass, if_pos h, skipStarPass_of_false hnext]

section Lineups

variable [CellConversions] {sheet : Range} {row col : Nat}

/-- A box cell counts once when it carries a mark. -/
theorem boxTrips_of_encodes {box : Fin 3 → Bool}
    (h : ∀ b : Fin 3, EncodesBox (box b) (sheet.getValue row (col + (1 + b)))) :
    ((List.range' 1 3).filter fun b => (cellStr sheet row (col + b)).isSome).length =
      ((List.finRange 3).filter fun b => box b).length := by
  have hrange : List.range' 1 3 = (List.finRange 3).map fun b : Fin 3 => 1 + (b : Nat) := rfl
  rw [hrange, List.filter_map, List.length_map]
  exact congrArg List.length
    (List.filter_congr fun b _ => isSome_cellStr_of_encodes (h b))

/-- A side of the row of a jam is read back as its lineup. -/
theorem parseLineupSide_of_encodes {lineup : Fin 5 → Option LineupSlot}
    (h : EncodesLineup sheet row col lineup) :
    parseLineupSide sheet row col = lineupOf lineup := by
  have hpositions : positions (col + 1) =
      (List.finRange 5).map fun p : Fin 5 => (col + 1 + 4 * (p : Nat), positionName p) := rfl
  unfold parseLineupSide lineupOf
  rw [hpositions, List.filterMap_map]
  apply List.filterMap_congr
  intro p _
  have hslot := h p
  dsimp only [Function.comp_apply]
  cases hlineup : lineup p with
  | none =>
      rw [hlineup] at hslot
      rw [cellStr_of_blank hslot]
      rfl
  | some slot =>
      rw [hlineup] at hslot
      obtain ⟨hnumber, hbox⟩ := hslot
      rw [cellStr_of_encodes hnumber, boxTrips_of_encodes hbox]
      simp [slot.number.played]

/-- The walk finds the row of the next jam, if there is one, from the row after the jam
before it, and adds to each jam its own lineups. -/
theorem lineupJams_of_encodes {jams : List SheetJam} {start : Nat}
    (h : EncodesLineups sheet row jams) (hstart : jams ≠ [] → lineupRow sheet start = row) :
    lineupJams sheet 1 27 start (jams.map scoreJamOf) = jams.map jamOf := by
  induction jams generalizing row start with
  | nil => rfl
  | cons jam jams ih =>
      obtain ⟨hrow, hrest⟩ := h
      have hnumber : ∀ {row : Nat}, EncodesLineups sheet row jams → jams ≠ [] →
          starPassLabel sheet row = false := by
        intro row hrest hne
        cases jams with
        | nil => exact absurd rfl hne
        | cons jam' jams => exact starPassLabel_of_number hrest.1.label
      have htail : lineupJams sheet 1 27 (row + 1) (jams.map scoreJamOf) = jams.map jamOf := by
        cases hsp : jam.starPass with
        | none =>
            rw [hsp] at hrest
            exact ih hrest fun hne => skipStarPass_of_false (hnumber hrest hne) _
        | some sp =>
            rw [hsp] at hrest
            obtain ⟨hlabel, hrest⟩ := hrest
            exact ih hrest fun hne =>
              lineupRow_of_starPass (starPassLabel_of_text hlabel) (hnumber hrest hne)
      rw [List.map_cons, lineupJams, hstart (List.cons_ne_nil jam jams),
        parseLineupSide_of_encodes hrow.home, parseLineupSide_of_encodes hrow.away, htail]
      rfl

/-- The walk over the Lineups sheet adds the lineups of a period. -/
theorem mergePeriod_of_encodes {number : Nat} (p : SheetPeriod)
    (h : EncodesLineups sheet row p.jams) :
    mergePeriod sheet row 1 27 { number, jams := p.jams.map scoreJamOf } =
      { number, jams := p.jams.map jamOf } := by
  have hfirst : p.jams ≠ [] → lineupRow sheet row = row := by
    intro hne
    cases hjams : p.jams with
    | nil => exact absurd hjams hne
    | cons jam jams =>
        rw [hjams] at h
        exact skipStarPass_of_false (starPassLabel_of_number h.1.label) _
  unfold mergePeriod
  rw [lineupJams_of_encodes h hfirst]

end Lineups

/-! ## The round trip -/

/-- A workbook decodes to the game that its two sheets encode. -/
theorem parsePeriods_of_encodes [CellConversions] (hdoc : Documented) {wb : Workbook}
    {score lineups : Range} {p₁ p₂ : SheetPeriod} (h : EncodesGame wb score lineups p₁ p₂) :
    parsePeriods wb =
      .ok [{ number := 1, jams := p₁.jams.map jamOf },
        { number := 2, jams := p₂.jams.map jamOf }] := by
  have hscores : parseScores wb = .ok [{ number := 1, jams := p₁.jams.map scoreJamOf },
      { number := 2, jams := p₂.jams.map scoreJamOf }] := by
    simp [parseScores, h.scoreSheet, scoreDefs, parseJams_of_encodes hdoc p₁ h.scores₁,
      parseJams_of_encodes hdoc p₂ h.scores₂, p₁.nonempty, p₂.nonempty]
  have hmerge : ∀ a b : Period, mergeLineups wb [a, b] =
      [mergePeriod lineups 3 1 27 a, mergePeriod lineups 45 1 27 b] := by
    intro a b
    rw [mergeLineups, h.lineupsSheet]
    rfl
  rw [parsePeriods, hscores]
  change Except.ok (mergeLineups wb _) = _
  rw [hmerge, mergePeriod_of_encodes p₁ h.lineups₁, mergePeriod_of_encodes p₂ h.lineups₂]

section Example

/-- The conversion to an integer, where a float is cut to its integer part. -/
@[reducible]
def truncating : CellConversions where
  asI64
    | .int v => some v
    | .float v => some (clampI64 (v.num.tdiv v.den))
    | .bool b => some (if b then 1 else 0)
    | .string s => s.toInt?
    | _ => none
  floatToString v := toString v.num ++ "/" ++ toString v.den

attribute [local instance] truncating

theorem documented_truncating : Documented where
  int _ := rfl
  float n h₀ h := by
    change some (clampI64 ((n : ℚ).num.tdiv ((n : ℚ).den : Int))) = some n
    simp [clampI64_eq_self h₀ h]
  empty := rfl

/-- The jammer of the home side. -/
def skater12 : SkaterNumber := ⟨"12", by decide, by decide, by decide, by decide⟩

/-- The pivot to whom the home side passes the star. -/
def skater34 : SkaterNumber := ⟨"34", by decide, by decide, by decide, by decide⟩

/-- A side with one trip, the lead, and its jammer alone in the lineup. -/
def oneTrip (jammer : SkaterNumber) (n : Nat) : SheetSide where
  jammer := some jammer
  lost := false
  lead := true
  called := false
  injury := false
  noPivot := false
  trips c := if c = 0 then n else 0
  lineup p := if p = 0 then some ⟨jammer, fun _ => false⟩ else none

/-- The home side scores four points, passes the star, and scores three more. -/
def passedStar : SheetJam where
  number := 1
  home := oneTrip skater12 4
  away := oneTrip skater12 2
  starPass := some ⟨some ⟨some skater34, fun c => if c = 0 then 3 else 0⟩, none⟩
  number_pos := by decide
  number_lt := by decide
  home_fits := by decide
  away_fits := by decide

/-- The star stays where it is. -/
def keptStar : SheetJam where
  number := 1
  home := oneTrip skater12 1
  away := oneTrip skater34 0
  starPass := none
  number_pos := by decide
  number_lt := by decide
  home_fits := by decide
  away_fits := by decide

/-- A first period with a star pass between two jams. -/
def passPeriod : SheetPeriod where
  jams := [passedStar, keptStar]
  nonempty := by decide
  rows_le := by decide

/-- A second period of one jam. -/
def keptPeriod : SheetPeriod where
  jams := [keptStar]
  nonempty := by decide
  rows_le := by decide

/-- The cells of one side of a row of the Score sheet. -/
def scoreCells (label jammer : Data) (lead : Data) (n : Nat) : List Data :=
  [label, jammer, .empty, lead, .empty, .empty, .empty, .int n] ++ List.replicate 11 .empty

/-- The cells of a row of the Lineups sheet with a jammer on each side. -/
def lineupCells (n : Nat) (home away : String) : List Data :=
  [.int n, .empty, .string home] ++ List.replicate 25 .empty ++ [.string away]

/-- The Score sheet of the two periods. -/
def scoreSheet : Range where
  startRow := 3
  startCol := 0
  cells :=
    [scoreCells (.int 1) (.string "12") (.bool true) 4 ++
        scoreCells (.int 1) (.string "12") (.bool true) 2,
      scoreCells (.string "SP") (.string "34") .empty 3 ++ [.string "SP*"],
      scoreCells (.int 1) (.int 12) (.string "X") 1 ++
        scoreCells (.float 1) (.float 34) (.bool true) 0] ++
    List.replicate 39 [] ++
    [scoreCells (.int 1) (.string "12") (.bool true) 1 ++
      scoreCells .empty (.string "34") (.bool true) 0]

/-- The Lineups sheet of the two periods. -/
def lineupsSheet : Range where
  startRow := 3
  startCol := 0
  cells :=
    [lineupCells 1 "12" "12", [.string "SP"], lineupCells 1 "12" "34"] ++
      List.replicate 39 [] ++ [lineupCells 1 "12" "34"]

/-- The workbook with the two sheets. -/
def passWorkbook : Workbook where
  worksheetRange name :=
    if name = "Score" then some scoreSheet
    else if name = "Lineups" then some lineupsSheet
    else none

theorem encodesSide_oneTrip {sheet : Range} {row col n : Nat} {jammer : SkaterNumber}
    (hjammer : EncodesSkater (some jammer) (sheet.getValue row (col + 1)))
    (hblank : ∀ c ∈ [2, 4, 5, 6], Blank (sheet.getValue row (col + c)))
    (hlead : EncodesFlag true (sheet.getValue row (col + 3)))
    (htrips : EncodesTrips sheet row col (oneTrip jammer n).trips) :
    EncodesSide sheet row col (oneTrip jammer n) where
  jammer := hjammer
  lost := Or.inr (hblank 2 (by decide))
  lead := hlead
  called := Or.inr (hblank 4 (by decide))
  injury := Or.inr (hblank 5 (by decide))
  noPivot := Or.inr (hblank 6 (by decide))
  trips := htrips

theorem encodesLineup_oneTrip {sheet : Range} {row col : Nat} {jammer : SkaterNumber} (n : Nat)
    (hjammer : sheet.getValue row (col + 1) = some (.string jammer.text))
    (hblank : ∀ c < 20, Blank (sheet.getValue row (col + 2 + c))) :
    EncodesLineup sheet row col (oneTrip jammer n).lineup := by
  intro p
  unfold oneTrip
  dsimp only
  split_ifs with hp
  · subst hp
    refine ⟨Or.inl hjammer, ?_⟩
    intro b
    have hcell := hblank b (by omega)
    have hcol : col + 1 + 4 * ((0 : Fin 5) : Nat) + (1 + b) = col + 2 + b := by
      simp only [Fin.val_zero]
      omega
    rw [hcol]
    exact hcell
  · have hpos : 0 < (p : Nat) := Fin.pos_iff_ne_zero.mpr hp
    have hcell := hblank (4 * (p : Nat) - 1) (by omega)
    have hcol : col + 1 + 4 * (p : Nat) = col + 2 + (4 * (p : Nat) - 1) := by omega
    rw [hcol]
    exact hcell

theorem encodes_passWorkbook :
    EncodesGame passWorkbook scoreSheet lineupsSheet passPeriod keptPeriod where
  scoreSheet := rfl
  lineupsSheet := rfl
  scores₁ := by
    refine ⟨⟨Or.inl rfl, Or.inl (Or.inl rfl), ?_, ?_⟩,
      ⟨rfl, Or.inl rfl, ⟨Or.inl rfl, by decide +kernel⟩, ⟨by decide +kernel, by decide +kernel⟩⟩,
      ⟨Or.inl rfl, Or.inl (Or.inr rfl), ?_, ?_⟩, by decide +kernel, by decide +kernel⟩
    · exact encodesSide_oneTrip (Or.inl rfl) (by decide +kernel) (Or.inl rfl) (by decide +kernel)
    · exact encodesSide_oneTrip (Or.inl rfl) (by decide +kernel) (Or.inl rfl) (by decide +kernel)
    · exact encodesSide_oneTrip (Or.inr ⟨12, by decide, by decide, by decide, Or.inl rfl⟩)
        (by decide +kernel) (Or.inr ⟨"X", rfl, by decide⟩) (by decide +kernel)
    · exact encodesSide_oneTrip (Or.inr ⟨34, by decide, by decide, by decide, Or.inr rfl⟩)
        (by decide +kernel) (Or.inl rfl) (by decide +kernel)
  scores₂ := by
    refine ⟨⟨Or.inl rfl, Or.inr (Or.inr rfl), ?_, ?_⟩, by decide +kernel, by decide +kernel⟩
    · exact encodesSide_oneTrip (Or.inl rfl) (by decide +kernel) (Or.inl rfl) (by decide +kernel)
    · exact encodesSide_oneTrip (Or.inl rfl) (by decide +kernel) (Or.inl rfl) (by decide +kernel)
  lineups₁ := by
    refine ⟨⟨Or.inl rfl, ?_, ?_⟩, rfl, ⟨Or.inl rfl, ?_, ?_⟩, trivial⟩
    · exact encodesLineup_oneTrip 4 rfl (by decide +kernel)
    · exact encodesLineup_oneTrip 2 rfl (by decide +kernel)
    · exact encodesLineup_oneTrip 1 rfl (by decide +kernel)
    · exact encodesLineup_oneTrip 0 rfl (by decide +kernel)
  lineups₂ := by
    refine ⟨⟨Or.inl rfl, ?_, ?_⟩, trivial⟩
    · exact encodesLineup_oneTrip 1 rfl (by decide +kernel)
    · exact encodesLineup_oneTrip 0 rfl (by decide +kernel)

/-- The points and the jammer of the star pass are in the jam before it. -/
theorem parsePeriods_passWorkbook :
    parsePeriods passWorkbook =
        .ok [{ number := 1, jams := passPeriod.jams.map jamOf },
          { number := 2, jams := keptPeriod.jams.map jamOf }] ∧
      (jamOf passedStar).home.score = 7 ∧ (jamOf passedStar).home.starPassJammer = some "34" :=
  ⟨parsePeriods_of_encodes documented_truncating encodes_passWorkbook, rfl, rfl⟩

end Example

end Sheet
end Statskboo
