import Statskboo.Ingest.ScoreLayout
import Statskboo.Ingest.SheetRows

/-!
# The blocks of the Lineups sheet

Both sheets keep a period in a block of 38 rows.  The walk over the Lineups sheet takes the
block of a period from its place among the periods that have jams, passes over the rows
whose home label says {lit}`SP`, and does not stop at the end of the block.  The walk over
the Score sheet also passes over rows with other texts in the home label, and over a row
with text in the away label alone.

Main results:

- Theorem {lit}`ownBlock_iff`: when the lineups of each period come from its own block.
- Theorem {lit}`aligned_iff`: when each jam has the lineups of the same row of the block.
-/

namespace Statskboo
namespace Sheet

/-- The row at which the walk over the Lineups sheet starts, by the place of the period in
the list. -/
def mergeStart : Nat → Nat
  | 0 => 3
  | _ => 45

/-- A row of the block of a period. -/
def InBlock (number row : Nat) : Prop :=
  blockStart number ≤ row ∧ row < blockStart number + periodRows

instance (number row : Nat) : Decidable (InBlock number row) :=
  inferInstanceAs (Decidable (_ ∧ _))

section Blocks

variable [CellConversions] {scores lineups : Range}

/-- The workbook with a Score sheet and a Lineups sheet. -/
def withSheets (wb : Workbook) (scores lineups : Range) : Workbook :=
  withSheet (withSheet wb "Score" scores) "Lineups" lineups

/-- The periods of the Score sheet, each jam with the lineups of the row of the Lineups sheet that
is read for it. -/
def readPeriods (scores lineups : Range) : List Period :=
  (scorePeriods scores).mapIdx fun k period =>
    { period with
      jams := List.zipWith (withLineups lineups 1 27) period.jams
        (lineupRows lineups (mergeStart k) period.jams.length) }

/-- The periods are merged in the order in which they stand in the list. -/
theorem parsePeriods_withSheets (wb : Workbook) (scores lineups : Range) :
    parsePeriods (withSheets wb scores lineups) = .ok (readPeriods scores lineups) := by
  have hmerge : mergeLineups (withSheets wb scores lineups) (scorePeriods scores) =
      readPeriods scores lineups := by
    have hlineups : (withSheets wb scores lineups).worksheetRange "Lineups" = some lineups := rfl
    unfold mergeLineups scorePeriods readPeriods
    rw [hlineups]
    simp only [← mergePeriod_eq]
    cases h₁ : scoreJams scores 1 <;> cases h₂ : scoreJams scores 2 <;>
      simp [scorePeriods, h₁, h₂, mergeStart]
  have hscores : parseScores (withSheets wb scores lineups) = .ok (scorePeriods scores) :=
    parseScores_eq rfl
  unfold parsePeriods
  rw [hscores]
  exact congrArg Except.ok hmerge

/-- A statement about the periods of a sheet that has jams in both of them. -/
theorem forall_scorePeriods_iff {P : Nat → Period → Prop} (h₁ : scoreJams scores 1 ≠ [])
    (h₂ : scoreJams scores 2 ≠ []) :
    (∀ k period, (scorePeriods scores)[k]? = some period → P k period) ↔
      P 0 { number := 1, jams := scoreJams scores 1 } ∧
        P 1 { number := 2, jams := scoreJams scores 2 } := by
  have hperiods : scorePeriods scores =
      [{ number := 1, jams := scoreJams scores 1 }, { number := 2, jams := scoreJams scores 2 }] := by
    simp [scorePeriods, h₁, h₂]
  rw [hperiods]
  constructor
  · intro h
    exact ⟨h 0 _ rfl, h 1 _ rfl⟩
  · rintro ⟨hone, htwo⟩ k period hk
    match k with
    | 0 => cases hk; exact hone
    | 1 => cases hk; exact htwo
    | k + 2 => cases hk

/-! ## Lineups from the block of the period -/

/-- The lineups of each period are read from rows of its own block. -/
def OwnBlock (scores lineups : Range) : Prop :=
  ∀ k period, (scorePeriods scores)[k]? = some period →
    ∀ r ∈ lineupRows lineups (mergeStart k) period.jams.length, InBlock period.number r

omit [CellConversions] in
/-- Star-pass rows above the first lineup make no difference. -/
theorem lineupRows_eq_of_starPass {row row' n : Nat} (hle : row ≤ row')
    (h : ∀ r, row ≤ r → r < row' → starPassLabel lineups r = true) :
    lineupRows lineups row n = lineupRows lineups row' n := by
  have hfirst : lineupRow lineups row = lineupRow lineups row' := by
    refine le_antisymm ?_ ?_
    · exact lineupRow_le (hle.trans (le_lineupRow lineups row')) (lineupRow_not_starPass lineups row')
    · refine lineupRow_le ?_ (lineupRow_not_starPass lineups row)
      by_contra hlt
      have hlabel := h _ (le_lineupRow lineups row) (not_le.mp hlt)
      rw [lineupRow_not_starPass] at hlabel
      cases hlabel
  cases n with
  | zero => rfl
  | succ n => rw [lineupRows, lineupRows, hfirst]

omit [CellConversions] in
/-- Lineups that start in the block of the period stay in it when it has room for them. -/
theorem lineupRows_inBlock_iff (lineups : Range) (number n : Nat) :
    (∀ r ∈ lineupRows lineups (blockStart number) n, InBlock number r) ↔
      n ≤ lineupSlots lineups (blockStart number) (blockStart number + periodRows) := by
  rw [← lineupRows_lt_iff]
  exact forall₂_congr fun r hr => and_iff_right (le_of_mem_lineupRows hr)

omit [CellConversions] in
/-- Lineups that start in the first block come from the second one when there are
star-pass rows only before it. -/
theorem lineupRows_inSecondBlock_iff (lineups : Range) {n : Nat} (hn : n ≠ 0) :
    (∀ r ∈ lineupRows lineups 3 n, InBlock 2 r) ↔
      (∀ r, 3 ≤ r → r < 45 → starPassLabel lineups r = true) ∧
        n ≤ lineupSlots lineups (blockStart 2) (blockStart 2 + periodRows) := by
  constructor
  · intro h
    have hskipped : ∀ r, 3 ≤ r → r < 45 → starPassLabel lineups r = true := by
      obtain ⟨n, rfl⟩ := Nat.exists_eq_succ_of_ne_zero hn
      have hfirst : 45 ≤ lineupRow lineups 3 := (h _ List.mem_cons_self).1
      exact fun r hr hlt => starPassLabel_of_lt_lineupRow hr (by omega)
    refine ⟨hskipped, (lineupRows_inBlock_iff lineups 2 n).mp ?_⟩
    rw [lineupRows_eq_of_starPass (by omega) hskipped] at h
    exact h
  · rintro ⟨hskipped, hroom⟩
    rw [lineupRows_eq_of_starPass (by omega) hskipped]
    exact (lineupRows_inBlock_iff lineups 2 n).mpr hroom

/-- The lineups of the parsed periods are read from these rows; and those of each period come
from its own block exactly when the first period has jams (or the second has none, or the
rows above its block are all star-pass rows), and each block has a row without a star-pass
label for each jam. -/
theorem ownBlock_iff (scores lineups : Range) :
    (∀ wb, parsePeriods (withSheets wb scores lineups) = .ok (readPeriods scores lineups)) ∧
      (OwnBlock scores lineups ↔
        (scoreRows scores 1 ≠ [] ∨ scoreRows scores 2 = [] ∨
          ∀ r, 3 ≤ r → r < 45 → starPassLabel lineups r = true) ∧
        ∀ number ∈ [1, 2], (scoreRows scores number).length ≤
          lineupSlots lineups (blockStart number) (blockStart number + periodRows)) := by
  refine ⟨fun wb => parsePeriods_withSheets wb scores lineups, ?_⟩
  simp only [← scoreJams_eq_nil_iff, ← length_scoreJams, ne_eq]
  have hfirst := lineupRows_inBlock_iff lineups 1 (scoreJams scores 1).length
  have hsecond := lineupRows_inBlock_iff lineups 2 (scoreJams scores 2).length
  unfold OwnBlock
  by_cases h₁ : scoreJams scores 1 = []
  · by_cases h₂ : scoreJams scores 2 = []
    · simp [scorePeriods, h₁, h₂]
    · have hmoved := lineupRows_inSecondBlock_iff lineups
        (mt List.length_eq_zero_iff.mp h₂)
      have hperiods : scorePeriods scores = [{ number := 2, jams := scoreJams scores 2 }] := by
        simp [scorePeriods, h₁, h₂]
      rw [hperiods]
      simpa [List.getElem?_singleton, h₁, h₂, mergeStart] using hmoved
  · by_cases h₂ : scoreJams scores 2 = []
    · have hperiods : scorePeriods scores = [{ number := 1, jams := scoreJams scores 1 }] := by
        simp [scorePeriods, h₁, h₂]
      rw [hperiods]
      simpa [List.getElem?_singleton, h₁, h₂, mergeStart, blockStart] using hfirst
    · rw [forall_scorePeriods_iff h₁ h₂]
      change ((∀ r ∈ lineupRows lineups (blockStart 1) _, InBlock 1 r) ∧
        ∀ r ∈ lineupRows lineups (blockStart 2) _, InBlock 2 r) ↔ _
      rw [hfirst, hsecond]
      simp [h₁]

/-! ## Lineups from the row of the jam -/

/-- The Lineups sheet repeats the labels of both blocks of the Score sheet. -/
def SameLabels (scores lineups : Range) : Prop :=
  ∀ number ∈ [1, 2], ∀ i < periodRows,
    lineups.getValue (blockStart number + i) 0 = scores.getValue (blockStart number + i) 0 ∧
      lineups.getValue (blockStart number + i) 26 = scores.getValue (blockStart number + i) 19

instance (scores lineups : Range) : Decidable (SameLabels scores lineups) :=
  inferInstanceAs (Decidable (∀ number ∈ [1, 2], ∀ i < periodRows, _))

/-- The lineups of each jam are read from the row of the block from which the jam was
read. -/
def Aligned (scores lineups : Range) : Prop :=
  ∀ k period, (scorePeriods scores)[k]? = some period →
    lineupRows lineups (mergeStart k) period.jams.length =
      (scoreRows scores period.number).map fun i => blockStart period.number + i

/-- Above the last jam of a period, every row that is not read as a jam has a home label
that says {lit}`SP`. -/
def OnlyStarPassBetween (scores : Range) (number : Nat) : Prop :=
  ∀ i j, i < j → j ∈ scoreRows scores number → i ∉ scoreRows scores number →
    starPassLabel scores (blockStart number + i) = true

omit [CellConversions] in
theorem starPassLabel_of_sameLabels (h : SameLabels scores lineups) {number i : Nat}
    (hnumber : number ∈ [1, 2]) (hi : i < periodRows) :
    starPassLabel lineups (blockStart number + i) =
      starPassLabel scores (blockStart number + i) := by
  unfold starPassLabel
  rw [(h number hnumber i hi).1]

/-- The home label of a jam is no star-pass label. -/
theorem starPassLabel_of_mem_scoreRows {number i : Nat} (h : i ∈ scoreRows scores number) :
    starPassLabel scores (blockStart number + i) = false := by
  have htext : isText scores (blockStart number + i) 0 = false := (mem_walk h).2.2.1
  unfold isText at htext
  unfold starPassLabel
  split
  · next s hcell => simp [hcell] at htext
  · rfl

/-- The lineups of a period are read from the rows of its jams exactly when only rows that
say {lit}`SP` stand between them. -/
theorem lineupRows_eq_scoreRows_iff (h : SameLabels scores lineups) {number : Nat}
    (hnumber : number ∈ [1, 2]) :
    lineupRows lineups (blockStart number) (scoreJams scores number).length =
        (scoreRows scores number).map (fun i => blockStart number + i) ↔
      OnlyStarPassBetween scores number := by
  have hlength : (scoreJams scores number).length =
      ((scoreRows scores number).map fun i => blockStart number + i).length := by
    rw [List.length_map, length_scoreJams]
  have hsorted : ((scoreRows scores number).map fun i => blockStart number + i).Pairwise
      (· < ·) := by
    rw [List.pairwise_map]
    exact pairwise_walk.imp fun h => Nat.add_lt_add_left h _
  rw [hlength, eq_comm, eq_lineupRows_iff hsorted (by simp)]
  have hin : ∀ i ∈ scoreRows scores number, i < periodRows := fun i hi => (mem_walk hi).2.1
  constructor
  · rintro ⟨-, hleft⟩ i j hij hj hi
    have hlabel := hleft (blockStart number + i) (Nat.le_add_right _ _) (by simpa using hi)
      ⟨blockStart number + j, List.mem_map_of_mem hj, by omega⟩
    rwa [starPassLabel_of_sameLabels h hnumber (hij.trans (hin j hj))] at hlabel
  · intro hbetween
    constructor
    · intro r hr
      obtain ⟨i, hi, rfl⟩ := List.mem_map.mp hr
      rw [starPassLabel_of_sameLabels h hnumber (hin i hi)]
      exact starPassLabel_of_mem_scoreRows hi
    · rintro r hr hnot ⟨r', hr', hlt⟩
      obtain ⟨j, hj, rfl⟩ := List.mem_map.mp hr'
      obtain ⟨i, rfl⟩ := Nat.exists_eq_add_of_le hr
      have hij : i < j := by omega
      rw [starPassLabel_of_sameLabels h hnumber (hij.trans (hin j hj))]
      exact hbetween i j hij hj fun hi => hnot (List.mem_map_of_mem hi)

/-- The jams and the lineups of the parsed periods are read from these rows; and on sheets with
the same labels and jams in both periods, each jam has the lineups of its own row exactly
when, above the last jam of each period, only rows that say {lit}`SP` in the home label are
not read as jams. -/
theorem aligned_iff (h : SameLabels scores lineups) (h₁ : scoreJams scores 1 ≠ [])
    (h₂ : scoreJams scores 2 ≠ []) :
    ((∀ wb, parsePeriods (withSheets wb scores lineups) = .ok (readPeriods scores lineups)) ∧
        ∀ number, scoreJams scores number =
          (scoreRows scores number).map fun i => jamAt scores 0 19 (blockStart number + i)) ∧
      (Aligned scores lineups ↔ ∀ number ∈ [1, 2], OnlyStarPassBetween scores number) := by
  refine ⟨⟨fun wb => parsePeriods_withSheets wb scores lineups, fun number =>
    parseJams_eq_map scores (blockStart number) 0 19⟩, ?_⟩
  have hnumbers : (∀ number ∈ [1, 2], OnlyStarPassBetween scores number) ↔
      OnlyStarPassBetween scores 1 ∧ OnlyStarPassBetween scores 2 := by
    simp
  rw [hnumbers, ← lineupRows_eq_scoreRows_iff h (by decide),
    ← lineupRows_eq_scoreRows_iff h (by decide)]
  exact forall_scorePeriods_iff h₁ h₂

end Blocks

/-! ## Blocks that are mixed up -/

section Example

attribute [local instance] truncating

/-- A Score sheet whose only jam is in the second period. -/
def secondOnlyScores : Range where
  startRow := 45
  startCol := 0
  cells := [[.int 1]]

/-- A Lineups sheet with the jammer 11 in the first block and 21 in the second. -/
def bothBlocks : Range where
  startRow := 3
  startCol := 0
  cells := [lineupCells 1 "11" "12"] ++ List.replicate 41 [] ++ [lineupCells 1 "21" "22"]

/-- The jam of the second period gets the lineups of the first block. -/
theorem not_ownBlock : ¬ ∀ scores lineups : Range, OwnBlock scores lineups := by
  intro h
  have hperiod : (scorePeriods secondOnlyScores)[0]? =
      some { number := 2, jams := scoreJams secondOnlyScores 2 } := by decide +kernel
  have hrow : 3 ∈ lineupRows bothBlocks 3 (scoreJams secondOnlyScores 2).length := by
    decide +kernel
  have hblock := h secondOnlyScores bothBlocks 0 _ hperiod 3 hrow
  exact absurd hblock (by decide)

example :
    (mergeLineups
      { worksheetRange := fun name => if name = "Lineups" then some bothBlocks else none }
      (scorePeriods secondOnlyScores)).map (fun p => p.jams.map fun jam => jam.home.lineup) =
      [[[{ number := "11", position := "jammer", boxTrips := 0 }]]] := by
  decide +kernel

/-- A Score sheet with a row between its first two jams that has the label of a star pass
on the away side. -/
def awayStarPassScores (homeLabel : Data) : Range where
  startRow := 3
  startCol := 0
  cells :=
    [scoreCells (.int 1) .empty .empty 0 ++ [.int 1],
      scoreCells homeLabel .empty .empty 0 ++ [.string "SP"],
      scoreCells (.int 2) .empty .empty 0 ++ [.int 2]] ++
    List.replicate 39 [] ++ [scoreCells (.int 1) .empty .empty 0 ++ [.int 1]]

/-- The cells of a row of the Lineups sheet with both labels and a jammer on the home
side. -/
def labelledCells (homeLabel : Data) (jammer : Data) (awayLabel : Data) : List Data :=
  [homeLabel, .empty, jammer] ++ List.replicate 23 .empty ++ [awayLabel]

/-- The Lineups sheet with the same labels. -/
def awayStarPassLineups (homeLabel : Data) : Range where
  startRow := 3
  startCol := 0
  cells :=
    [labelledCells (.int 1) (.string "11") (.int 1),
      labelledCells homeLabel .empty (.string "SP"),
      labelledCells (.int 2) (.string "12") (.int 2)] ++
    List.replicate 39 [] ++ [labelledCells (.int 1) (.string "13") (.int 1)]

/-- The second jam gets the lineup of the star-pass row, which is empty. -/
theorem not_aligned :
    ¬ ∀ scores lineups : Range, SameLabels scores lineups → scoreJams scores 1 ≠ [] →
      scoreJams scores 2 ≠ [] → Aligned scores lineups := by
  intro h
  have haligned := h (awayStarPassScores .empty) (awayStarPassLineups .empty)
    (by decide +kernel) (by decide +kernel) (by decide +kernel)
  have hperiod : (scorePeriods (awayStarPassScores .empty))[0]? =
      some { number := 1, jams := scoreJams (awayStarPassScores .empty) 1 } := by decide +kernel
  have hrows := haligned 0 _ hperiod
  revert hrows
  decide +kernel

/-- With the label {lit}`SP` on the home side too, every jam has its own lineups. -/
theorem aligned_homeStarPass :
    Aligned (awayStarPassScores (.string "SP")) (awayStarPassLineups (.string "SP")) ↔
      ∀ number ∈ [1, 2], OnlyStarPassBetween (awayStarPassScores (.string "SP")) number :=
  (aligned_iff (by decide +kernel) (by decide +kernel) (by decide +kernel)).2

end Example

end Sheet
end Statskboo
