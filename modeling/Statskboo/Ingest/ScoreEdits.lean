import Statskboo.Ingest.ScoreLayout
import Statskboo.Ingest.SheetRows

/-!
# Changed Score sheets

What happens to the periods when cells of the Score sheet change.  A period has a block of
38 rows, but the row below its last row is read when that row is a jam.  A jam whose number
is typed as text is taken for a star-pass row.

Main results:

- Theorem {lit}`onlyOwnRows_iff`: when the periods depend on their own rows alone.
- Theorem {lit}`unchanged_retype_iff`: when jam numbers may be typed as text.
-/

namespace Statskboo

namespace Range

/-- A sheet with one row replaced, or added below the last one. -/
def setRow (r : Range) (row : Nat) (cells : List Data) : Range :=
  { r with
    cells := r.cells.take (row - r.startRow) ++ [cells] ++ r.cells.drop (row - r.startRow + 1) }

/-- A sheet with every cell rewritten. -/
def mapCells (r : Range) (f : Nat → Nat → Data → Data) : Range :=
  { r with
    cells := r.cells.mapIdx fun i cells => cells.mapIdx fun j d =>
      f (r.startRow + i) (r.startCol + j) d }

/-- A cell lies in the used part of its sheet. -/
theorem bounds_of_getValue {r : Range} {row col : Nat} {d : Data}
    (h : r.getValue row col = some d) : r.startRow ≤ row ∧ r.startCol ≤ col ∧ row < r.endRow := by
  have hend : row < r.endRow := by
    by_contra hle
    rw [getValue_eq_none (not_lt.mp hle)] at h
    cases h
  unfold getValue at h
  split_ifs at h with hstart
  exact ⟨hstart.1, hstart.2, hend⟩

theorem getValue_setRow {r : Range} {row : Nat} (cells : List Data) (h₀ : r.startRow ≤ row)
    (h₁ : row ≤ r.endRow) (row' col : Nat) :
    (r.setRow row cells).getValue row' col =
      if row' = row then if r.startCol ≤ col then cells[col - r.startCol]? else none
      else r.getValue row' col := by
  unfold endRow at h₁
  have hlength : (r.cells.take (row - r.startRow)).length = row - r.startRow := by
    rw [List.length_take]
    omega
  unfold setRow getValue
  dsimp only
  by_cases hrow : row' = row
  · subst hrow
    rw [if_pos rfl, List.append_assoc, List.getElem?_append_right (by omega), hlength]
    by_cases hcol : r.startCol ≤ col
    · simp [h₀, hcol]
    · simp [hcol]
  · rw [if_neg hrow]
    by_cases hstart : r.startRow ≤ row' ∧ r.startCol ≤ col
    · rw [if_pos hstart, if_pos hstart]
      congr 1
      by_cases hlt : row' < row
      · rw [List.append_assoc, List.getElem?_append_left (by omega), List.getElem?_take_of_lt]
        omega
      · rw [List.getElem?_append_right (by simp; omega), List.getElem?_drop]
        congr 1
        simp only [List.length_append, hlength, List.length_singleton]
        omega
    · rw [if_neg hstart, if_neg hstart]

theorem getValue_mapCells (r : Range) (f : Nat → Nat → Data → Data) (row col : Nat) :
    (r.mapCells f).getValue row col = (r.getValue row col).map (f row col) := by
  unfold mapCells getValue
  dsimp only
  by_cases hstart : r.startRow ≤ row ∧ r.startCol ≤ col
  · rw [if_pos hstart, if_pos hstart, List.getElem?_mapIdx, Nat.add_sub_cancel' hstart.1]
    cases r.cells[row - r.startRow]? with
    | none => rfl
    | some cells =>
        simp only [Option.map_some, Option.bind_eq_bind, Option.bind_some, List.getElem?_mapIdx,
          Nat.add_sub_cancel' hstart.2]
  · rw [if_neg hstart, if_neg hstart]
    rfl

end Range

namespace Sheet

section Edits

variable [CellConversions] {s s' : Range} {number : Nat}

/-! ## What a period depends on -/

/-- Two sheets have the same cells in a row. -/
def SameRow (s s' : Range) (row : Nat) : Prop :=
  ∀ col, s'.getValue row col = s.getValue row col

theorem rowLabel_congr {startRow homeCol awayCol i : Nat} (h : SameRow s s' (startRow + i)) :
    rowLabel s' startRow homeCol awayCol i = rowLabel s startRow homeCol awayCol i := by
  have hhome := h homeCol
  have haway := h awayCol
  unfold rowLabel isText jamNumber
  rw [hhome, haway]

theorem sideAt_congr {row baseCol : Nat} (h : SameRow s s' row) (hbelow : SameRow s s' (row + 1)) :
    sideAt s' row baseCol = sideAt s row baseCol := by
  have hrow : parseJamSide s' row baseCol = parseJamSide s row baseCol := by
    simp only [parseJamSide, tripSum, cellStr, cellBool, cellI16, h _]
  have hstarPass : addStarPass s' (row + 1) baseCol = addStarPass s (row + 1) baseCol := by
    funext side
    simp only [addStarPass, tripSum, cellStr, cellI16, hbelow _]
  have htext : isText s' (row + 1) baseCol = isText s (row + 1) baseCol := by
    simp only [isText, hbelow _]
  unfold sideAt
  rw [hrow, hstarPass, htext]

theorem jamAt_congr {homeCol awayCol row : Nat} (h : SameRow s s' row)
    (hbelow : SameRow s s' (row + 1)) :
    jamAt s' homeCol awayCol row = jamAt s homeCol awayCol row := by
  simp only [jamAt, jamNumber, h _, sideAt_congr h hbelow]

/-- The rows that are read as jams depend on the rows of the block. -/
theorem scoreRows_congr (h : ∀ i < periodRows, SameRow s s' (blockStart number + i)) :
    scoreRows s' number = scoreRows s number :=
  walk_congr fun i hi => rowLabel_congr (h i hi)

/-- The jams of a period depend on the rows of its block, and on the row below when the last
row is a jam. -/
theorem scoreJams_congr (h : ∀ i < periodRows, SameRow s s' (blockStart number + i))
    (hlast : periodRows - 1 ∈ scoreRows s number →
      SameRow s s' (blockStart number + periodRows)) :
    scoreJams s' number = scoreJams s number := by
  have hrows := scoreRows_congr h
  unfold scoreRows at hrows hlast
  unfold scoreJams
  rw [parseJams_eq_map, parseJams_eq_map, hrows]
  refine List.map_congr_left fun i hi => ?_
  have hi' : i < periodRows := (mem_walk hi).2.1
  refine jamAt_congr (h i hi') ?_
  by_cases hend : i + 1 < periodRows
  · exact h (i + 1) hend
  · have heq : i = periodRows - 1 := by omega
    rw [heq] at hi
    have hbelow := hlast hi
    rw [heq]
    exact hbelow

/-! ## Rows outside of the blocks -/

/-- Two sheets agree on the blocks of both periods. -/
def AgreeOnBlocks (s s' : Range) : Prop :=
  ∀ number ∈ [1, 2], ∀ i < periodRows, SameRow s s' (blockStart number + i)

/-- Whatever stands outside of the blocks, the periods are the same. -/
def OnlyOwnRows (s : Range) : Prop :=
  ∀ (wb : Workbook) (s' : Range), AgreeOnBlocks s s' →
    parseScores (withSheet wb "Score" s') = parseScores (withSheet wb "Score" s)

omit [CellConversions] in
/-- The row below a block belongs to no block. -/
theorem agreeOnBlocks_setRow (hnumber : number ∈ [1, 2]) (cells : List Data)
    (h₀ : s.startRow ≤ blockStart number + periodRows)
    (h₁ : blockStart number + periodRows ≤ s.endRow) :
    AgreeOnBlocks s (s.setRow (blockStart number + periodRows) cells) := by
  intro number' hnumber' i hi col
  rw [Range.getValue_setRow cells h₀ h₁, if_neg]
  intro heq
  have hrow := (blockRow_injective hnumber' hnumber hi.le le_rfl heq).2
  omega

/-- The cell of a jam number is there. -/
theorem bounds_of_mem_scoreRows {i : Nat} (h : i ∈ scoreRows s number) :
    s.startRow ≤ blockStart number + i ∧ s.startCol = 0 ∧ blockStart number + i < s.endRow := by
  have hjam : (rowLabel s (blockStart number) 0 19 i).jam = true := (mem_walk h).2.2.2
  cases hcell : s.getValue (blockStart number + i) 0 with
  | none => simp [rowLabel, jamNumber, hcell] at hjam
  | some d =>
      obtain ⟨hrow, hcol, hend⟩ := Range.bounds_of_getValue hcell
      exact ⟨hrow, Nat.le_zero.mp hcol, hend⟩

/-- A text below a last row that is a jam is read as the jammer of a star pass. -/
theorem starPassJammer_setRow (hlast : periodRows - 1 ∈ scoreRows s number) (jammer : String)
    (hjammer : cellStr (s.setRow (blockStart number + periodRows) [.string "SP", .string jammer])
      (blockStart number + periodRows) 1 = some jammer) :
    ((jamAt (s.setRow (blockStart number + periodRows) [.string "SP", .string jammer]) 0 19
      (blockStart number + (periodRows - 1))).home).starPassJammer = some jammer := by
  obtain ⟨h₀, hcol, h₁⟩ := bounds_of_mem_scoreRows hlast
  have htext : isText (s.setRow (blockStart number + periodRows) [.string "SP", .string jammer])
      (blockStart number + periodRows) 0 = true := by
    unfold isText
    rw [Range.getValue_setRow _ (by omega) (by omega), if_pos rfl, if_pos (by omega), hcol]
    rfl
  have hrow : blockStart number + (periodRows - 1) + 1 = blockStart number + periodRows := rfl
  simp only [jamAt, sideAt, hrow, htext, if_true, addStarPass]
  exact hjammer

/-- The periods depend on their own rows alone exactly when in neither block the last row is
read as a jam. -/
theorem onlyOwnRows_iff (s : Range) :
    OnlyOwnRows s ↔ ∀ number ∈ [1, 2], periodRows - 1 ∉ scoreRows s number := by
  constructor
  · intro h number hnumber hlast
    obtain ⟨h₀, hcol, h₁⟩ := bounds_of_mem_scoreRows hlast
    have hrows : 0 < periodRows := by decide
    -- whatever jammer the row below names is the jammer of the star pass
    have hjammer : ∀ jammer : String, Text.Trimmed jammer.toList → jammer.toList ≠ [] →
        isNoneText jammer.toList = false →
        ((jamAt s 0 19 (blockStart number + (periodRows - 1))).home).starPassJammer =
          some jammer := by
      intro jammer htrimmed hnonempty hnone
      let s' := s.setRow (blockStart number + periodRows) [.string "SP", .string jammer]
      have hagree : AgreeOnBlocks s s' := agreeOnBlocks_setRow hnumber _ (by omega) (by omega)
      have hperiods : scorePeriods s' = scorePeriods s := by
        have hparse := h { worksheetRange := fun _ => none } s' hagree
        rw [parseScores_withSheet, parseScores_withSheet] at hparse
        exact Except.ok.inj hparse
      have hjams := scorePeriods_eq_iff.mp hperiods number hnumber
      have hsameRows := scoreRows_congr (hagree number hnumber)
      unfold scoreJams at hjams
      unfold scoreRows at hsameRows hlast
      rw [parseJams_eq_map, parseJams_eq_map, hsameRows] at hjams
      have hjam := List.map_inj_left.mp hjams _ hlast
      rw [← hjam]
      refine starPassJammer_setRow hlast jammer ?_
      have hcell : s'.getValue (blockStart number + periodRows) 1 = some (.string jammer) := by
        rw [Range.getValue_setRow _ (by omega) (by omega), if_pos rfl, if_pos (by omega), hcol]
        rfl
      simp [cellStr, s', hcell, Text.trim_eq_self htrimmed, hnonempty, hnone]
    have htwo := hjammer "1" (by decide) (by decide) (by decide)
    rw [hjammer "2" (by decide) (by decide) (by decide)] at htwo
    exact absurd htwo (by decide)
  · intro h wb s' hagree
    rw [parseScores_withSheet, parseScores_withSheet]
    refine congrArg Except.ok (scorePeriods_eq_iff.mpr fun number hnumber => ?_)
    exact scoreJams_congr (hagree number hnumber) fun hlast => absurd hlast (h number hnumber)

/-! ## Jam numbers typed as text -/

/-- The number that a cell holds as a number. -/
def numericLabel : Data → Option Int
  | .int n => some n
  | .float v => if v.den = 1 then some v.num else none
  | _ => none

/-- A jam number as text. -/
def textLabel (d : Data) : Data :=
  match numericLabel d with
  | some n => if 1 ≤ n then .string (toString n) else d
  | none => d

/-- The sheet with the jam numbers of some rows typed as text. -/
def retype (s : Range) (rows : List Nat) : Range :=
  s.mapCells fun row col d => if col = 0 ∧ row ∈ rows then textLabel d else d

/-- A row that is read as a jam and has its number as a number. -/
def IsJamRow (s : Range) (row : Nat) : Prop :=
  ∃ number ∈ [1, 2], ∃ i ∈ scoreRows s number, row = blockStart number + i ∧
    ∃ d n, s.getValue row 0 = some d ∧ numericLabel d = some n ∧ 1 ≤ n

/-- Retyping changes no period, and every row that was read as a jam still is. -/
def Unchanged (s : Range) (rows : List Nat) : Prop :=
  (∀ wb : Workbook, parseScores (withSheet wb "Score" (retype s rows)) =
    parseScores (withSheet wb "Score" s)) ∧
  ∀ number ∈ [1, 2], ∀ i ∈ scoreRows s number, i ∈ scoreRows (retype s rows) number

/-- In the blocks, the away label is text only where the home label is. -/
def NoAwayOnlyLabel (s : Range) : Prop :=
  ∀ number ∈ [1, 2], ∀ i < periodRows, isText s (blockStart number + i) 19 = true →
    isText s (blockStart number + i) 0 = true

omit [CellConversions] in
theorem getValue_retype (s : Range) (rows : List Nat) (row col : Nat) :
    (retype s rows).getValue row col =
      (s.getValue row col).map fun d => if col = 0 ∧ row ∈ rows then textLabel d else d :=
  Range.getValue_mapCells s _ row col

omit [CellConversions] in
/-- A row that is not retyped keeps its cells. -/
theorem sameRow_retype {rows : List Nat} {row : Nat} (h : row ∉ rows) :
    SameRow s (retype s rows) row := by
  intro col
  rw [getValue_retype]
  simp [h]

/-- The home label of a retyped jam is text. -/
theorem isText_retype {rows : List Nat} {row : Nat} (hmem : row ∈ rows) (h : IsJamRow s row) :
    isText (retype s rows) row 0 = true := by
  obtain ⟨number, -, i, -, -, d, n, hcell, hlabel, hn⟩ := h
  unfold isText
  rw [getValue_retype, hcell]
  simp [hmem, textLabel, hlabel, hn]

/-- A retyped row is no longer read as a jam. -/
theorem not_mem_scoreRows_retype {rows : List Nat} {i : Nat}
    (hmem : blockStart number + i ∈ rows) (h : IsJamRow s (blockStart number + i)) :
    i ∉ scoreRows (retype s rows) number := by
  intro hi
  have htext : isText (retype s rows) (blockStart number + i) 0 = false := (mem_walk hi).2.2.1
  rw [isText_retype hmem h] at htext
  cases htext

/-! ## Sheets without a text in the away label alone -/

/-- The rows that are read as jams, from the home labels alone: the numbers among the rows
above the first row that has neither a number nor text. -/
def homeWalk (label : Nat → RowLabel) (rows i : Nat) : List Nat :=
  ((List.range' i (rows - i)).takeWhile fun j => (label j).homeText || (label j).jam).filter
    fun j => !(label j).homeText

omit [CellConversions] in
theorem homeWalk_of_le {label : Nat → RowLabel} {rows i : Nat} (h : rows ≤ i) :
    homeWalk label rows i = [] := by
  unfold homeWalk
  rw [Nat.sub_eq_zero_of_le h]
  rfl

omit [CellConversions] in
theorem homeWalk_of_lt {label : Nat → RowLabel} {rows i : Nat} (h : i < rows) :
    homeWalk label rows i =
      if (label i).homeText then homeWalk label rows (i + 1)
      else if (label i).jam then i :: homeWalk label rows (i + 1)
      else [] := by
  obtain ⟨k, rfl⟩ : ∃ k, rows = i + 1 + k := ⟨rows - (i + 1), by omega⟩
  unfold homeWalk
  rw [show i + 1 + k - i = k + 1 by omega, show i + 1 + k - (i + 1) = k by omega,
    List.range'_succ, List.takeWhile_cons]
  cases htext : (label i).homeText <;> cases hjam : (label i).jam <;> simp [htext]

omit [CellConversions] in
/-- Where the away label is text only beside a text in the home label, the walk goes by the
home labels. -/
theorem walk_eq_homeWalk {label : Nat → RowLabel} {rows fuel i : Nat}
    (h : ∀ j < rows, (label j).awayText = true → (label j).homeText = true)
    (hfuel : rows ≤ fuel + i) : walk label rows fuel i = homeWalk label rows i := by
  induction fuel generalizing i with
  | zero => rw [homeWalk_of_le (by omega), walk]
  | succ fuel ih =>
      rw [walk]
      by_cases hi : i < rows
      · rw [if_pos hi, homeWalk_of_lt hi, ih (by omega)]
        have hnext : walk label rows fuel (nextRow label i) = homeWalk label rows (i + 1) := by
          have hlt := lt_nextRow label i
          rw [ih (by omega)]
          by_cases hlast : i + 1 < rows
          · unfold nextRow
            split_ifs with hstarPass
            · -- the row below has a text on the home side, which the walk passes over
              have htext : (label (i + 1)).homeText = true := by
                rcases Bool.or_eq_true_iff.mp hstarPass with htext | htext
                · exact htext
                · exact h (i + 1) hlast htext
              rw [homeWalk_of_lt hlast, if_pos htext]
            · rfl
          · rw [homeWalk_of_le (by omega), homeWalk_of_le (by omega)]
        rw [hnext]
      · rw [if_neg hi, homeWalk_of_le (not_lt.mp hi)]

omit [CellConversions] in
theorem takeWhile_congr {p q : Nat → Bool} {l : List Nat} (h : ∀ j ∈ l, p j = q j) :
    l.takeWhile p = l.takeWhile q := by
  induction l with
  | nil => rfl
  | cons j l ih =>
      rw [List.takeWhile_cons, List.takeWhile_cons, h j List.mem_cons_self,
        ih fun k hk => h k (List.mem_cons_of_mem j hk)]

omit [CellConversions] in
/-- Some jam is lost when the numbers of jams are replaced by texts. -/
theorem length_homeWalk_lt {label label' : Nat → RowLabel} {rows i : Nat}
    (htext : ∀ j < rows, (label j).homeText = true → (label' j).homeText = true)
    (hsame : ∀ j < rows, (label' j).homeText = (label j).homeText → label' j = label j)
    (hretyped : ∀ j < rows, (label' j).homeText ≠ (label j).homeText → (label j).jam = true)
    (hsome : ∃ j ∈ homeWalk label rows i, (label' j).homeText = true) :
    (homeWalk label' rows i).length < (homeWalk label rows i).length := by
  have hmem : ∀ j ∈ List.range' i (rows - i), j < rows := by
    intro j hj
    rw [List.mem_range'_1] at hj
    omega
  have htake : ((List.range' i (rows - i)).takeWhile fun j =>
      (label' j).homeText || (label' j).jam) =
      (List.range' i (rows - i)).takeWhile fun j => (label j).homeText || (label j).jam := by
    refine takeWhile_congr fun j hj => ?_
    by_cases heq : (label' j).homeText = (label j).homeText
    · rw [hsame j (hmem j hj) heq]
    · have hjam := hretyped j (hmem j hj) heq
      cases hnumber : (label j).homeText with
      | true => exact absurd ((htext j (hmem j hj) hnumber).trans hnumber.symm) heq
      | false =>
          have htext' : (label' j).homeText = true := by
            rw [hnumber] at heq
            exact Bool.eq_true_of_not_eq_false heq
          rw [htext', hjam]
          rfl
  have hfilter : homeWalk label' rows i =
      (homeWalk label rows i).filter fun j => !(label' j).homeText := by
    unfold homeWalk
    rw [htake, List.filter_filter]
    refine List.filter_congr fun j hj => ?_
    have hj' := hmem j (List.takeWhile_subset _ hj)
    cases htext' : (label j).homeText with
    | false => simp
    | true => simp [htext j hj' htext']
  rw [hfilter]
  obtain ⟨j, hj, htext'⟩ := hsome
  exact List.length_filter_lt_length_iff_exists.mpr ⟨j, hj, by simp [htext']⟩

/-- A jam row in a block is read as a jam of that block. -/
theorem mem_scoreRows_of_isJamRow (hnumber : number ∈ [1, 2]) {j : Nat} (hj : j < periodRows)
    (h : IsJamRow s (blockStart number + j)) : j ∈ scoreRows s number := by
  obtain ⟨number', hnumber', i', hi', hrow, -⟩ := h
  obtain ⟨rfl, rfl⟩ := blockRow_injective hnumber hnumber' hj.le (mem_walk hi').2.1.le hrow
  exact hi'

/-- Only home labels are retyped. -/
theorem awayText_retype (rows : List Nat) (startRow j : Nat) :
    (rowLabel (retype s rows) startRow 0 19 j).awayText = (rowLabel s startRow 0 19 j).awayText := by
  have hcell : (retype s rows).getValue (startRow + j) 19 = s.getValue (startRow + j) 19 := by
    rw [getValue_retype]
    simp
  simp only [rowLabel, isText, hcell]

/-- Where the away label is text only beside a text in the home label, a period has fewer jams
after one of them has been retyped. -/
theorem length_scoreRows_retype_lt {rows : List Nat} (hrows : ∀ row ∈ rows, IsJamRow s row)
    (haway : NoAwayOnlyLabel s) (hnumber : number ∈ [1, 2]) {i : Nat}
    (hi : i ∈ scoreRows s number) (hmem : blockStart number + i ∈ rows) :
    (scoreRows (retype s rows) number).length < (scoreRows s number).length := by
  let label := rowLabel s (blockStart number) 0 19
  let label' := rowLabel (retype s rows) (blockStart number) 0 19
  have hkept : ∀ j, blockStart number + j ∉ rows → label' j = label j :=
    fun j hj => rowLabel_congr (sameRow_retype hj)
  have htyped : ∀ j, blockStart number + j ∈ rows → (label' j).homeText = true :=
    fun j hj => isText_retype hj (hrows _ hj)
  have hwalk : scoreRows s number = homeWalk label periodRows 0 :=
    walk_eq_homeWalk (haway number hnumber) le_rfl
  have haway' : ∀ j < periodRows, (label' j).awayText = true → (label' j).homeText = true := by
    intro j hj htext
    rw [awayText_retype] at htext
    by_cases hmem : blockStart number + j ∈ rows
    · exact htyped j hmem
    · rw [hkept j hmem]
      exact haway number hnumber j hj htext
  have hwalk' : scoreRows (retype s rows) number = homeWalk label' periodRows 0 :=
    walk_eq_homeWalk haway' le_rfl
  have hlost : ∀ j < periodRows, blockStart number + j ∈ rows →
      (label j).homeText = false ∧ (label j).jam = true :=
    fun j hj hmem => (mem_walk (mem_scoreRows_of_isJamRow hnumber hj (hrows _ hmem))).2.2
  rw [hwalk] at hi
  rw [hwalk, hwalk']
  refine length_homeWalk_lt ?_ ?_ ?_ ⟨i, hi, htyped i hmem⟩
  · intro j hj htext
    by_cases hmem : blockStart number + j ∈ rows
    · exact htyped j hmem
    · rwa [hkept j hmem]
  · intro j hj heq
    refine hkept j fun hmem => ?_
    rw [htyped j hmem, (hlost j hj hmem).1] at heq
    cases heq
  · intro j hj hne
    by_cases hmem : blockStart number + j ∈ rows
    · exact (hlost j hj hmem).2
    · rw [hkept j hmem] at hne
      exact absurd rfl hne

/-- Retyping the numbers of some jams leaves the periods and the rows of the jams alone
exactly when there are none of them; and where the away label is text only beside a text
in the home label, it leaves the periods alone only then. -/
theorem unchanged_retype_iff {rows : List Nat} (hrows : ∀ row ∈ rows, IsJamRow s row) :
    (Unchanged s rows ↔ rows = []) ∧
      (NoAwayOnlyLabel s →
        ((∀ wb : Workbook, parseScores (withSheet wb "Score" (retype s rows)) =
          parseScores (withSheet wb "Score" s)) ↔ rows = [])) := by
  have hnothing : rows = [] → ∀ wb : Workbook,
      parseScores (withSheet wb "Score" (retype s rows)) =
        parseScores (withSheet wb "Score" s) := by
    rintro rfl wb
    rw [parseScores_withSheet, parseScores_withSheet]
    refine congrArg Except.ok (scorePeriods_eq_iff.mpr fun number _ => ?_)
    exact scoreJams_congr (fun i _ => sameRow_retype List.not_mem_nil)
      fun _ => sameRow_retype List.not_mem_nil
  constructor
  · constructor
    · rintro ⟨-, hread⟩
      refine List.eq_nil_iff_forall_not_mem.mpr fun row hrow => ?_
      have hjamRow := hrows row hrow
      obtain ⟨number, hnumber, i, hi, rfl, -⟩ := hrows row hrow
      exact not_mem_scoreRows_retype hrow hjamRow (hread number hnumber i hi)
    · rintro rfl
      refine ⟨hnothing rfl, fun number _ i hi => ?_⟩
      rw [scoreRows_congr fun i _ => sameRow_retype List.not_mem_nil]
      exact hi
  · intro haway
    refine ⟨fun h => List.eq_nil_iff_forall_not_mem.mpr fun row hrow => ?_, hnothing⟩
    obtain ⟨number, hnumber, i, hi, rfl, -⟩ := hrows row hrow
    have hparse := h { worksheetRange := fun _ => none }
    rw [parseScores_withSheet, parseScores_withSheet] at hparse
    have hjams := scorePeriods_eq_iff.mp (Except.ok.inj hparse) number hnumber
    have hlength := congrArg List.length hjams
    rw [length_scoreJams, length_scoreJams] at hlength
    have hlt := length_scoreRows_retype_lt hrows haway hnumber hi hrow
    omega

end Edits

/-! ## Sheets on which a change matters -/

section Example

attribute [local instance] truncating

/-- A Score sheet whose first period fills its block. -/
def fullScores : Range where
  startRow := 3
  startCol := 0
  cells := (List.range periodRows).map fun i => scoreCells (.int (i + 1)) .empty .empty 1

/-- A row of totals directly below the block gives its points to the last jam. -/
theorem not_onlyOwnRows :
    ¬ ∀ (wb : Workbook) (s s' : Range), AgreeOnBlocks s s' →
      parseScores (withSheet wb "Score" s') = parseScores (withSheet wb "Score" s) := by
  intro h
  have hagree : AgreeOnBlocks fullScores
      (fullScores.setRow (blockStart 1 + periodRows)
        (scoreCells (.string "TOTAL") .empty .empty 38)) :=
    agreeOnBlocks_setRow (by decide) _ (by decide) (by decide +kernel)
  have hparse := h { worksheetRange := fun _ => none } _ _ hagree
  rw [parseScores_withSheet, parseScores_withSheet] at hparse
  have hjams := scorePeriods_eq_iff.mp (Except.ok.inj hparse) 1 (by decide)
  revert hjams
  decide +kernel

/-- A Score sheet with two jams. -/
def twoJams : Range where
  startRow := 3
  startCol := 0
  cells := [scoreCells (.int 1) (.string "12") .empty 4, scoreCells (.int 2) (.string "34") .empty 3]

theorem isJamRow_twoJams : ∀ row ∈ [4], IsJamRow twoJams row := by
  intro row hrow
  obtain rfl := List.mem_singleton.mp hrow
  exact ⟨1, by decide, 1, by decide +kernel, rfl, .int 2, 2, rfl, rfl, by decide⟩

/-- With the number of the second jam as text, its points and its jammer are taken for a
star pass of the first. -/
theorem not_unchanged_retype :
    ¬ ∀ (wb : Workbook) (s : Range) (rows : List Nat), (∀ row ∈ rows, IsJamRow s row) →
      parseScores (withSheet wb "Score" (retype s rows)) =
        parseScores (withSheet wb "Score" s) := by
  intro h
  have hparse := h { worksheetRange := fun _ => none } twoJams [4] isJamRow_twoJams
  rw [parseScores_withSheet, parseScores_withSheet] at hparse
  have hjams := scorePeriods_eq_iff.mp (Except.ok.inj hparse) 1 (by decide)
  revert hjams
  decide +kernel

example : (scorePeriods (retype twoJams [4])).map (fun p => p.jams.map fun jam =>
    (jam.number, jam.home.jammer, jam.home.starPassJammer, jam.home.score)) =
    [[(1, some "12", some "34", 7)]] := by
  decide +kernel

theorem unchanged_retype_twoJams :
    (Unchanged twoJams [4] ↔ [4] = []) ∧
      (NoAwayOnlyLabel twoJams →
        ((∀ wb : Workbook, parseScores (withSheet wb "Score" (retype twoJams [4])) =
          parseScores (withSheet wb "Score" twoJams)) ↔ [4] = [])) :=
  unchanged_retype_iff isJamRow_twoJams

end Example

end Sheet
end Statskboo
