import Statskboo.Ingest.ParseScores

/-!
# The rows that the walks read

Which rows of a block the walk over the Score sheet reads as jams depends on the label
cells alone.  Which rows of the Lineups sheet the second walk reads depends on its home
label cells alone.  This module has the rows of both walks and reads the periods off them.

Main results:

- Theorem {lit}`parseJams_eq_map`: the jams of a period are those of the rows that the walk
  over its labels finds.
- Theorem {lit}`walk_congr`: the walk depends on the labels of its own block only.
- Theorem {lit}`mergePeriod_eq`: the lineups of a period are those of the rows that the walk
  over the Lineups sheet finds.
- Theorems {lit}`lineupRows_lt_iff` and {lit}`eq_lineupRows_iff`: those rows are the first
  ones without a star-pass label.
-/

namespace Statskboo
namespace Sheet

/-! ## The walk over the labels -/

/-- What the label cells of a row of the Score sheet say: whether the home label is text,
whether it is the number of a jam, and whether the away label is text. -/
structure RowLabel where
  homeText : Bool
  jam : Bool
  awayText : Bool
deriving DecidableEq, Repr

/-- Whether the row is a star-pass row if it follows a jam. -/
def RowLabel.starPass (l : RowLabel) : Bool :=
  l.homeText || l.awayText

/-- Where the cursor goes after the jam of a row. -/
def nextRow (label : Nat → RowLabel) (i : Nat) : Nat :=
  if (label (i + 1)).starPass then i + 2 else i + 1

/-- The rows of a block that the walk over the Score sheet reads as jams. -/
def walk (label : Nat → RowLabel) (rows : Nat) : Nat → Nat → List Nat
  | 0, _ => []
  | fuel + 1, i =>
      if i < rows then
        if (label i).homeText then walk label rows fuel (i + 1)
        else if (label i).jam then
          i :: walk label rows fuel (nextRow label i)
        else []
      else []

section Walk

variable {label label' : Nat → RowLabel} {rows fuel i j : Nat}

theorem walk_of_le (h : rows ≤ i) : walk label rows fuel i = [] := by
  cases fuel with
  | zero => rfl
  | succ fuel => rw [walk, if_neg (by omega)]

/-- The cursor leaves the row of a jam. -/
theorem lt_nextRow (label : Nat → RowLabel) (i : Nat) : i < nextRow label i := by
  unfold nextRow
  split_ifs <;> omega

/-- A row that is read as a jam lies in the block, and its home label is a number. -/
theorem mem_walk (h : j ∈ walk label rows fuel i) :
    i ≤ j ∧ j < rows ∧ (label j).homeText = false ∧ (label j).jam = true := by
  induction fuel generalizing i with
  | zero => cases h
  | succ fuel ih =>
      rw [walk] at h
      split_ifs at h with hi htext hjam
      · obtain ⟨hle, hrest⟩ := ih h
        exact ⟨by omega, hrest⟩
      · rcases List.mem_cons.mp h with rfl | h
        · exact ⟨le_rfl, hi, Bool.eq_false_iff.mpr htext, hjam⟩
        · obtain ⟨hle, hrest⟩ := ih h
          have hnext := lt_nextRow label i
          exact ⟨by omega, hrest⟩
      · cases h
      · cases h

/-- The walk reads its rows from top to bottom. -/
theorem pairwise_walk : (walk label rows fuel i).Pairwise (· < ·) := by
  induction fuel generalizing i with
  | zero => exact List.Pairwise.nil
  | succ fuel ih =>
      rw [walk]
      split_ifs with hi htext hjam
      · exact ih
      · refine List.pairwise_cons.mpr ⟨fun j hj => ?_, ih⟩
        have hle := (mem_walk hj).1
        have hnext := lt_nextRow label i
        omega
      · exact List.Pairwise.nil
      · exact List.Pairwise.nil

/-- The walk depends on the labels of its own block only.  The label below the last row
decides where the cursor goes, but there is nothing left to read. -/
theorem walk_congr (h : ∀ j < rows, label j = label' j) :
    walk label rows fuel i = walk label' rows fuel i := by
  induction fuel generalizing i with
  | zero => rfl
  | succ fuel ih =>
      rw [walk, walk]
      by_cases hi : i < rows
      · rw [if_pos hi, if_pos hi, h i hi]
        by_cases hlast : i + 1 < rows
        · rw [nextRow, nextRow, h (i + 1) hlast, ih, ih]
        · have hend : ∀ l : Nat → RowLabel, walk l rows fuel (nextRow l i) = [] := by
            intro l
            have hnext := lt_nextRow l i
            exact walk_of_le (by omega)
          rw [hend, hend, ih]
      · rw [if_neg hi, if_neg hi]

end Walk

/-! ## The jams of a period -/

section Jams

variable [CellConversions]

/-- The number in the home label of a row; there is none in a row that ends the walk. -/
def jamNumber (sheet : Range) (row homeCol : Nat) : Int :=
  ((sheet.getValue row homeCol).bind CellConversions.asI64).getD 0

/-- The labels of a row of a block. -/
def rowLabel (sheet : Range) (startRow homeCol awayCol i : Nat) : RowLabel where
  homeText := isText sheet (startRow + i) homeCol
  jam := decide (jamNumber sheet (startRow + i) homeCol ≠ 0)
  awayText := isText sheet (startRow + i) awayCol

/-- One side of the jam of a row, with the star pass of the row below. -/
def sideAt (sheet : Range) (row baseCol : Nat) : JamSide :=
  if isText sheet (row + 1) baseCol then
    addStarPass sheet (row + 1) baseCol (parseJamSide sheet row baseCol)
  else parseJamSide sheet row baseCol

/-- The jam of a row. -/
def jamAt (sheet : Range) (homeCol awayCol row : Nat) : Jam where
  number := wrapU16 (jamNumber sheet row homeCol)
  home := sideAt sheet row homeCol
  away := sideAt sheet row awayCol

/-- The rows of a block that are read as jams, counted from the top of the block. -/
def jamRows (sheet : Range) (startRow homeCol awayCol : Nat) : List Nat :=
  walk (rowLabel sheet startRow homeCol awayCol) periodRows periodRows 0

theorem jamsLoop_eq_map (sheet : Range) (startRow homeCol awayCol fuel i : Nat) :
    jamsLoop sheet startRow homeCol awayCol fuel i =
      (walk (rowLabel sheet startRow homeCol awayCol) periodRows fuel i).map fun i =>
        jamAt sheet homeCol awayCol (startRow + i) := by
  induction fuel generalizing i with
  | zero => rfl
  | succ fuel ih =>
      rw [jamsLoop, walk]
      by_cases hi : i < periodRows
      · rw [if_pos hi, if_pos hi]
        dsimp only
        by_cases htext : isText sheet (startRow + i) homeCol = true
        · have hlabel : (rowLabel sheet startRow homeCol awayCol i).homeText = true := htext
          rw [if_pos htext, if_pos hlabel, ih]
        · have hlabel : ¬ (rowLabel sheet startRow homeCol awayCol i).homeText = true := htext
          rw [if_neg htext, if_neg hlabel]
          cases hcell : (sheet.getValue (startRow + i) homeCol).bind CellConversions.asI64 with
          | none =>
              have hjam : (rowLabel sheet startRow homeCol awayCol i).jam = false := by
                simp [rowLabel, jamNumber, hcell]
              rw [hjam]
              rfl
          | some n =>
              have hjam : (rowLabel sheet startRow homeCol awayCol i).jam = decide (n ≠ 0) := by
                simp [rowLabel, jamNumber, hcell]
              rw [hjam]
              dsimp only
              by_cases hn : n = 0
              · rw [if_pos hn, if_neg (by simpa using hn)]
                rfl
              · have hjamAt : jamAt sheet homeCol awayCol (startRow + i) =
                    { number := wrapU16 n
                      home := sideAt sheet (startRow + i) homeCol
                      away := sideAt sheet (startRow + i) awayCol } := by
                  rw [jamAt, jamNumber, hcell, Option.getD_some]
                have hnumber : decide (n ≠ 0) = true := decide_eq_true hn
                rw [if_neg hn, if_pos hnumber, ih, List.map_cons, hjamAt]
                rfl
      · rw [if_neg hi, if_neg hi]
        rfl

/-- The jams of a period are those of the rows that the walk over its labels finds. -/
theorem parseJams_eq_map (sheet : Range) (startRow homeCol awayCol : Nat) :
    parseJams sheet startRow homeCol awayCol =
      (jamRows sheet startRow homeCol awayCol).map fun i =>
        jamAt sheet homeCol awayCol (startRow + i) :=
  jamsLoop_eq_map sheet startRow homeCol awayCol periodRows 0

/-! ## The periods of a Score sheet -/

/-- The first row of the block of a period, the same on the Score and the Lineups sheet. -/
def blockStart (number : Nat) : Nat :=
  if number = 1 then 3 else 45

omit [CellConversions] in
/-- The rows of the two blocks, and the row below each of them, are distinct. -/
theorem blockRow_injective {number number' i j : Nat} (hnumber : number ∈ [1, 2])
    (hnumber' : number' ∈ [1, 2]) (hi : i ≤ periodRows) (hj : j ≤ periodRows)
    (h : blockStart number + i = blockStart number' + j) : number = number' ∧ i = j := by
  have hfirst : blockStart 1 = 3 := rfl
  have hsecond : blockStart 2 = 45 := rfl
  have hrows : periodRows = 38 := rfl
  rcases List.mem_pair.mp hnumber with rfl | rfl <;>
    rcases List.mem_pair.mp hnumber' with rfl | rfl <;> omega

/-- The jams that the Score sheet has for a period. -/
def scoreJams (sheet : Range) (number : Nat) : List Jam :=
  parseJams sheet (blockStart number) 0 19

/-- The rows of the block of a period that are read as jams. -/
def scoreRows (sheet : Range) (number : Nat) : List Nat :=
  jamRows sheet (blockStart number) 0 19

/-- A period has a jam for each row that is read as a jam. -/
theorem length_scoreJams (sheet : Range) (number : Nat) :
    (scoreJams sheet number).length = (scoreRows sheet number).length := by
  rw [scoreJams, parseJams_eq_map, List.length_map]
  rfl

theorem scoreJams_eq_nil_iff {sheet : Range} (number : Nat) :
    scoreJams sheet number = [] ↔ scoreRows sheet number = [] := by
  rw [← List.length_eq_zero_iff, length_scoreJams, List.length_eq_zero_iff]

/-- The periods of a Score sheet. -/
def scorePeriods (sheet : Range) : List Period :=
  [1, 2].filterMap fun number =>
    let jams := scoreJams sheet number
    if jams.isEmpty then none else some { number, jams }

/-- The workbook with one sheet replaced. -/
def withSheet (wb : Workbook) (name : String) (sheet : Range) : Workbook where
  worksheetRange n := if n = name then some sheet else wb.worksheetRange n

theorem parseScores_eq {wb : Workbook} {sheet : Range}
    (h : wb.worksheetRange "Score" = some sheet) :
    parseScores wb = .ok (scorePeriods sheet) := by
  unfold parseScores
  rw [h]
  rfl

theorem parseScores_withSheet (wb : Workbook) (sheet : Range) :
    parseScores (withSheet wb "Score" sheet) = .ok (scorePeriods sheet) :=
  parseScores_eq rfl

/-- The jams of a period in a list of periods. -/
def jamsOf (periods : List Period) (number : Nat) : List Jam :=
  (periods.filter fun p => decide (p.number = number)).flatMap Period.jams

/-- The periods determine the jams of both blocks. -/
theorem jamsOf_scorePeriods (sheet : Range) {number : Nat} (h : number ∈ [1, 2]) :
    jamsOf (scorePeriods sheet) number = scoreJams sheet number := by
  unfold scorePeriods jamsOf
  cases h₁ : scoreJams sheet 1 <;> cases h₂ : scoreJams sheet 2 <;>
    rcases List.mem_pair.mp h with rfl | rfl <;> simp [h₁, h₂]

/-- Two Score sheets have the same periods when they have the same jams in both blocks. -/
theorem scorePeriods_eq_iff {sheet sheet' : Range} :
    scorePeriods sheet = scorePeriods sheet' ↔
      ∀ number ∈ [1, 2], scoreJams sheet number = scoreJams sheet' number := by
  constructor
  · intro h number hnumber
    rw [← jamsOf_scorePeriods sheet hnumber, h, jamsOf_scorePeriods sheet' hnumber]
  · intro h
    unfold scorePeriods
    refine List.filterMap_congr fun number hnumber => ?_
    dsimp only
    rw [h number hnumber]

end Jams

/-! ## The lineups of a period -/

/-- The rows of the Lineups sheet from which so many lineups are read. -/
def lineupRows (sheet : Range) : Nat → Nat → List Nat
  | _, 0 => []
  | row, n + 1 => lineupRow sheet row :: lineupRows sheet (lineupRow sheet row + 1) n

section Lineups

variable {sheet : Range} {row n b : Nat}

theorem skipStarPass_spec (sheet : Range) (fuel row : Nat) :
    row ≤ skipStarPass sheet fuel row ∧
      ∀ r, row ≤ r → r < skipStarPass sheet fuel row → starPassLabel sheet r = true := by
  induction fuel generalizing row with
  | zero => exact ⟨le_rfl, fun r hle hlt => absurd hlt (not_lt.mpr hle)⟩
  | succ fuel ih =>
      rw [skipStarPass]
      split_ifs with hlabel
      · obtain ⟨hle, hskipped⟩ := ih (row + 1)
        refine ⟨by omega, fun r hr hlt => ?_⟩
        rcases eq_or_lt_of_le hr with rfl | hr
        · exact hlabel
        · exact hskipped r hr hlt
      · exact ⟨le_rfl, fun r hle hlt => absurd hlt (not_lt.mpr hle)⟩

/-- The next lineup is not above the cursor. -/
theorem le_lineupRow (sheet : Range) (row : Nat) : row ≤ lineupRow sheet row :=
  (skipStarPass_spec sheet _ row).1

/-- The rows above the next lineup have star-pass labels. -/
theorem starPassLabel_of_lt_lineupRow {r : Nat} (h : row ≤ r) (hlt : r < lineupRow sheet row) :
    starPassLabel sheet r = true :=
  (skipStarPass_spec sheet _ row).2 r h hlt

/-- The next lineup stands in the first row without a star-pass label. -/
theorem lineupRow_le {r : Nat} (h : row ≤ r) (hlabel : starPassLabel sheet r = false) :
    lineupRow sheet row ≤ r := by
  by_contra hlt
  rw [starPassLabel_of_lt_lineupRow h (not_le.mp hlt)] at hlabel
  cases hlabel

/-- The number of rows without a star-pass label from a row on and above a bound. -/
def lineupSlots (sheet : Range) (row b : Nat) : Nat :=
  (List.range' row (b - row)).countP fun r => !starPassLabel sheet r

theorem lineupSlots_of_le (h : b ≤ row) : lineupSlots sheet row b = 0 := by
  rw [lineupSlots, Nat.sub_eq_zero_of_le h]
  rfl

theorem lineupSlots_of_lt (h : row < b) :
    lineupSlots sheet row b =
      lineupSlots sheet (row + 1) b + if starPassLabel sheet row then 0 else 1 := by
  obtain ⟨k, rfl⟩ : ∃ k, b = row + 1 + k := ⟨b - (row + 1), by omega⟩
  unfold lineupSlots
  rw [show row + 1 + k - row = k + 1 by omega, show row + 1 + k - (row + 1) = k by omega,
    List.range'_succ, List.countP_cons]
  cases starPassLabel sheet row <;> rfl

/-- Star-pass rows hold no lineup. -/
theorem lineupSlots_eq_of_le {row' : Nat} (hle : row ≤ row')
    (h : ∀ r, row ≤ r → r < row' → starPassLabel sheet r = true) :
    lineupSlots sheet row b = lineupSlots sheet row' b := by
  induction row', hle using Nat.le_induction with
  | base => rfl
  | succ row' hle ih =>
      rw [ih fun r hr hlt => h r hr (by omega)]
      by_cases hb : row' < b
      · rw [lineupSlots_of_lt hb, h row' hle (by omega)]
        rfl
      · rw [lineupSlots_of_le (by omega), lineupSlots_of_le (by omega)]

/-- The lineups are read above a bound exactly when there are as many rows without a
star-pass label. -/
theorem lineupRows_lt_iff :
    (∀ r ∈ lineupRows sheet row n, r < b) ↔ n ≤ lineupSlots sheet row b := by
  induction n generalizing row with
  | zero => simp [lineupRows]
  | succ n ih =>
      have hslots : lineupSlots sheet row b = lineupSlots sheet (lineupRow sheet row) b :=
        lineupSlots_eq_of_le (le_lineupRow sheet row) fun r => starPassLabel_of_lt_lineupRow
      rw [lineupRows, List.forall_mem_cons, ih, hslots]
      by_cases hb : lineupRow sheet row < b
      · rw [lineupSlots_of_lt hb, lineupRow_not_starPass]
        simp [hb]
      · rw [lineupSlots_of_le (not_lt.mp hb)]
        simp [hb]

theorem le_of_mem_lineupRows {r : Nat} (h : r ∈ lineupRows sheet row n) : row ≤ r := by
  induction n generalizing row with
  | zero => cases h
  | succ n ih =>
      have hle := le_lineupRow sheet row
      rcases List.mem_cons.mp h with rfl | h
      · exact hle
      · have hrest := ih h
        omega

/-- The row that is read is the first one without a star-pass label. -/
theorem eq_lineupRow_iff {r : Nat} (hr : row ≤ r) :
    r = lineupRow sheet row ↔
      starPassLabel sheet r = false ∧ ∀ r', row ≤ r' → r' < r → starPassLabel sheet r' = true := by
  constructor
  · rintro rfl
    exact ⟨lineupRow_not_starPass sheet row, fun _ hr' hlt => starPassLabel_of_lt_lineupRow hr' hlt⟩
  · rintro ⟨hlabel, habove⟩
    refine le_antisymm ?_ (lineupRow_le hr hlabel)
    by_contra hnot
    have hstarPass := habove (lineupRow sheet row) (le_lineupRow sheet row) (not_le.mp hnot)
    rw [lineupRow_not_starPass] at hstarPass
    cases hstarPass

/-- Rows in ascending order are the rows of the lineups exactly when none of them has a
star-pass label and only star-pass rows are left out above them. -/
theorem eq_lineupRows_iff {l : List Nat} (hsorted : l.Pairwise (· < ·))
    (hle : ∀ r ∈ l, row ≤ r) :
    l = lineupRows sheet row l.length ↔
      (∀ r ∈ l, starPassLabel sheet r = false) ∧
        ∀ r, row ≤ r → r ∉ l → (∃ r' ∈ l, r < r') → starPassLabel sheet r = true := by
  induction l generalizing row with
  | nil => simp [lineupRows]
  | cons s l ih =>
      obtain ⟨hlt, hsorted⟩ := List.pairwise_cons.mp hsorted
      have ih : l = lineupRows sheet (s + 1) l.length ↔ _ := ih hsorted hlt
      rw [List.length_cons, lineupRows, List.cons_eq_cons,
        eq_lineupRow_iff (hle s List.mem_cons_self)]
      constructor
      · rintro ⟨⟨hlabel, habove⟩, hrest⟩
        rw [← (eq_lineupRow_iff (hle s List.mem_cons_self)).mpr ⟨hlabel, habove⟩] at hrest
        obtain ⟨hlabels, hleft⟩ := ih.mp hrest
        refine ⟨List.forall_mem_cons.mpr ⟨hlabel, hlabels⟩, fun r hr hnot hbelow => ?_⟩
        rcases lt_trichotomy r s with hrs | rfl | hrs
        · exact habove r hr hrs
        · exact absurd List.mem_cons_self hnot
        · obtain ⟨r', hr', hrr'⟩ := hbelow
          rcases List.mem_cons.mp hr' with rfl | hr'
          · omega
          · exact hleft r hrs (fun hmem => hnot (List.mem_cons_of_mem s hmem)) ⟨r', hr', hrr'⟩
      · rintro ⟨hlabels, hleft⟩
        obtain ⟨hlabel, hlabels⟩ := List.forall_mem_cons.mp hlabels
        have habove : ∀ r, row ≤ r → r < s → starPassLabel sheet r = true := by
          refine fun r hr hrs => hleft r hr (fun hmem => ?_) ⟨s, List.mem_cons_self, hrs⟩
          rcases List.mem_cons.mp hmem with rfl | hmem
          · exact lt_irrefl _ hrs
          · exact lt_asymm hrs (hlt r hmem)
        refine ⟨⟨hlabel, habove⟩, ?_⟩
        rw [← (eq_lineupRow_iff (hle s List.mem_cons_self)).mpr ⟨hlabel, habove⟩]
        refine ih.mpr ⟨hlabels, fun r hr hnot hbelow => hleft r ?_ ?_ ?_⟩
        · have hrow := hle s List.mem_cons_self
          omega
        · intro hmem
          rcases List.mem_cons.mp hmem with heq | hmem
          · omega
          · exact hnot hmem
        · obtain ⟨r', hr', hrr'⟩ := hbelow
          exact ⟨r', List.mem_cons_of_mem s hr', hrr'⟩

end Lineups

section Merge

variable [CellConversions]

/-- The jam with the lineups of a row of the Lineups sheet. -/
def withLineups (sheet : Range) (homeNpCol awayNpCol : Nat) (jam : Jam) (row : Nat) : Jam :=
  { jam with
    home := { jam.home with lineup := parseLineupSide sheet row homeNpCol }
    away := { jam.away with lineup := parseLineupSide sheet row awayNpCol } }

theorem lineupJams_eq (sheet : Range) (homeNpCol awayNpCol row : Nat) (jams : List Jam) :
    lineupJams sheet homeNpCol awayNpCol row jams =
      List.zipWith (withLineups sheet homeNpCol awayNpCol) jams
        (lineupRows sheet row jams.length) := by
  induction jams generalizing row with
  | nil => rfl
  | cons jam jams ih =>
      rw [lineupJams, ih]
      rfl

/-- The lineups of a period are those of the rows that the walk over the Lineups sheet
finds. -/
theorem mergePeriod_eq (sheet : Range) (startRow homeNpCol awayNpCol : Nat) (period : Period) :
    mergePeriod sheet startRow homeNpCol awayNpCol period =
      { period with
        jams := List.zipWith (withLineups sheet homeNpCol awayNpCol) period.jams
          (lineupRows sheet startRow period.jams.length) } := by
  rw [mergePeriod, lineupJams_eq]

end Merge

end Sheet
end Statskboo
