import Statskboo.Ingest.ParseStatsbook
import Statskboo.Ingest.ScoreLayout

/-!
# How penalties are laid out on the Penalties sheet

A section of the sheet takes two rows for each skater: the number and the codes stand in the
first row, and the jams below the codes.  The number is written there, or the cell is blank
and its formula repeats a cell of the IGRF sheet.  The types here hold the penalties as they
are entered, and the relations say which cells stand for them.

Main results:

- Theorem {lit}`resolveIgrfFormula_of_refersTo`: a formula is resolved to the cell that it
  refers to.
- Theorem {lit}`sectionPenalties_of_encodes`: a section decodes to the penalties of its
  skaters, in order.
- Theorem {lit}`parsePenalties_of_encodes`: the Penalties sheet decodes to the penalties it
  encodes, and the Penalties-Lineups sheet stands in for it.
-/

namespace Statskboo
namespace Sheet

open KeyedTable

/-! ## The penalties -/

/-- The code of a penalty: trimmed, and none of the texts that the parser drops. -/
structure PenaltyCode where
  text : String
  trimmed : Text.Trimmed text.toList
  nonempty : text.toList ≠ []
  notNone : isNoneText text.toList = false

/-- A penalty with its jam, if that is entered; the jam fits its type. -/
structure SheetPenalty where
  code : PenaltyCode
  jam : Option Nat
  jam_fits : ∀ n ∈ jam, 0 < n ∧ n < 2 ^ 15

/-- A skater of a section with the nine slots and the foul-out. -/
structure PenaltyRow where
  number : SkaterNumber
  slots : Fin 9 → Option SheetPenalty
  foulOut : Option SheetPenalty

/-- The skaters of the four sections. -/
structure PenaltySheet where
  home₁ : List PenaltyRow
  away₁ : List PenaltyRow
  home₂ : List PenaltyRow
  away₂ : List PenaltyRow

/-- A penalty of the game. -/
def penaltyOf (period : Nat) (side : String) (number : SkaterNumber) (foulOut : Bool)
    (p : SheetPenalty) : Penalty where
  number := number.text
  side := side
  period := period
  jam := p.jam
  code := p.code.text
  foulOut := foulOut
  expulsion := false

/-- The penalties of a skater, slot by slot, and the foul-out. -/
def rowPenalties (period : Nat) (side : String) (row : PenaltyRow) : List Penalty :=
  (List.finRange 9).filterMap (fun c =>
    (row.slots c).map (penaltyOf period side row.number false)) ++
  (row.foulOut.map (penaltyOf period side row.number true)).toList

/-- The penalties of the game, section by section. -/
def penaltiesOf (p : PenaltySheet) : List Penalty :=
  p.home₁.flatMap (rowPenalties 1 "home") ++ p.away₁.flatMap (rowPenalties 1 "away") ++
    p.home₂.flatMap (rowPenalties 2 "home") ++ p.away₂.flatMap (rowPenalties 2 "away")

/-! ## Cells that stand for penalties -/

/-- The cell is blank, or has a text of nothing but white space. -/
def NoText (cell : Option Data) : Prop :=
  Blank cell ∨ ∃ s, cell = some (.string s) ∧ Text.trim s.toList = []

/-- The first reference to the IGRF sheet in a formula, without its dollar signs. -/
def RefersTo (formula ref : String) : Prop :=
  ∃ pre written post : List Char,
    formula.toList = pre ++ ("IGRF!".toList ++ (written ++ post)) ∧
      ¬ "IGRF!".toList <:+: pre ∧
      written.filter (fun c => c != '$') = ref.toList ∧
      (∀ c ∈ ref.toList, c.isAlphanum = true) ∧ ref.toList ≠ [] ∧
      ∀ c ∈ post.head?, c ≠ '$' ∧ c.isAlphanum = false

/-- The number stands in the cell, or the cell is blank and its formula refers to the IGRF
cell that has the number. -/
def EncodesNumberCell (sheet : Range) (formulas : Option FormulaRange) (igrf : IgrfCells)
    (row col : Nat) (number : SkaterNumber) : Prop :=
  EncodesSkater (some number) (sheet.getValue row col) ∨
    (NoText (sheet.getValue row col) ∧ ∃ formula ref,
      (formulas.bind fun fms => fms.getValue row col) = some formula ∧ RefersTo formula ref ∧
        igrf.get? ref = some number.text)

/-- The cell has no number: it is blank, and its formula leads to no text. -/
def NoNumberCell (sheet : Range) (formulas : Option FormulaRange) (igrf : IgrfCells)
    (row col : Nat) : Prop :=
  NoText (sheet.getValue row col) ∧
    ∀ formula ∈ formulas.bind fun fms => fms.getValue row col,
      resolveIgrfFormula formula igrf = none

/-- A slot of a skater: the code, and the jam below it. -/
def EncodesPenalty (sheet : Range) (codeRow col : Nat) : Option SheetPenalty → Prop
  | none => NoText (sheet.getValue codeRow col)
  | some p => sheet.getValue codeRow col = some (.string p.code.text) ∧
      match p.jam with
      | none => Blank (sheet.getValue (codeRow + 1) col)
      | some n => EncodesNumber n (sheet.getValue (codeRow + 1) col)

/-- The two rows of a skater. -/
structure EncodesPenaltyRow (sheet : Range) (formulas : Option FormulaRange) (igrf : IgrfCells)
    (skaterCol penCol foCol codeRow : Nat) (row : PenaltyRow) : Prop where
  number : EncodesNumberCell sheet formulas igrf codeRow skaterCol row.number
  slots : ∀ c : Fin 9, EncodesPenalty sheet codeRow (penCol + c) (row.slots c)
  foulOut : EncodesPenalty sheet codeRow foCol row.foulOut

/-- The skaters of a section on the given rows, one after another; the row after the last one
has no number. -/
def EncodesSection (sheet : Range) (formulas : Option FormulaRange) (igrf : IgrfCells)
    (skaterCol penCol foCol : Nat) : List Nat → List PenaltyRow → Prop
  | [], [] => True
  | [], _ :: _ => False
  | codeRow :: _, [] => NoNumberCell sheet formulas igrf codeRow skaterCol
  | codeRow :: codeRows, row :: rows =>
      EncodesPenaltyRow sheet formulas igrf skaterCol penCol foCol codeRow row ∧
        EncodesSection sheet formulas igrf skaterCol penCol foCol codeRows rows

/-- The code rows of the twenty skaters that a section has room for. -/
def codeRows : List Nat :=
  (List.range 20).map fun i => 3 + i * 2

/-- A sheet of a file that encodes penalties in its four sections. -/
structure EncodesPenalties (file : StatsbookFile) (sheetName : String) (igrf : IgrfCells)
    (sheet : Range) (p : PenaltySheet) : Prop where
  found : file.wb.worksheetRange sheetName = some sheet
  home₁ : EncodesSection sheet (file.formulas sheetName) igrf 0 1 10 codeRows p.home₁
  away₁ : EncodesSection sheet (file.formulas sheetName) igrf 15 16 25 codeRows p.away₁
  home₂ : EncodesSection sheet (file.formulas sheetName) igrf 28 29 38 codeRows p.home₂
  away₂ : EncodesSection sheet (file.formulas sheetName) igrf 43 44 53 codeRows p.away₂

/-- A section lists no more skaters than it has rows for codes. -/
theorem length_le_of_encodesSection {sheet : Range} {formulas : Option FormulaRange}
    {igrf : IgrfCells} {skaterCol penCol foCol : Nat} {codeRows : List Nat}
    {rows : List PenaltyRow}
    (h : EncodesSection sheet formulas igrf skaterCol penCol foCol codeRows rows) :
    rows.length ≤ codeRows.length := by
  induction codeRows generalizing rows with
  | nil =>
      cases rows with
      | nil => exact le_rfl
      | cons row rows => exact absurd h not_false
  | cons codeRow codeRows ih =>
      cases rows with
      | nil => exact Nat.zero_le _
      | cons row rows => exact Nat.succ_le_succ (ih h.2)

/-! ## Reading the cells back -/

section Cells

variable [CellConversions] {sheet : Range} {formulas : Option FormulaRange} {igrf : IgrfCells}
  {row col codeRow skaterCol penCol foCol period : Nat} {side : String}

theorem cellStr_of_noText (h : NoText (sheet.getValue row col)) : cellStr sheet row col = none := by
  rcases h with h | ⟨s, h, hblank⟩
  · exact cellStr_of_blank h
  · unfold cellStr
    rw [h]
    simp [hblank]

omit [CellConversions] in
/-- The characters of a reference are read up to what follows it. -/
theorem takeWhile_written {written post ref : List Char}
    (hwritten : written.filter (fun c => c != '$') = ref)
    (href : ∀ c ∈ ref, c.isAlphanum = true)
    (hpost : ∀ c ∈ post.head?, c ≠ '$' ∧ c.isAlphanum = false) :
    ((written ++ post).filter fun c => c != '$').takeWhile Char.isAlphanum = ref := by
  rw [List.filter_append, hwritten, List.takeWhile_append_of_pos href]
  cases post with
  | nil => simp
  | cons c post =>
      obtain ⟨hdollar, hend⟩ := hpost c rfl
      rw [List.filter_cons, if_pos (bne_iff_ne.mpr hdollar), List.takeWhile_cons, hend]
      exact List.append_nil ref

omit [CellConversions] in
/-- A formula is resolved to the cell that it refers to. -/
theorem resolveIgrfFormula_of_refersTo {formula ref : String} (h : RefersTo formula ref) :
    resolveIgrfFormula formula igrf = igrf.get? ref := by
  obtain ⟨pre, written, post, hformula, hfirst, hwritten, href, hne, hpost⟩ := h
  have hafter : Text.afterFirst "IGRF!".toList formula.toList = some (written ++ post) := by
    rw [hformula]
    exact Text.afterFirst_append (show '!' ∉ "IGRF".toList by decide) hfirst _
  have hread := takeWhile_written hwritten href hpost
  unfold resolveIgrfFormula
  simp only [hafter, Option.bind_eq_bind, Option.bind_some, hread, List.isEmpty_iff, hne,
    if_false, String.ofList_toList]

/-- The number of a skater is read, from the cell or through its formula. -/
theorem cellStrWithFormula_of_encodes {number : SkaterNumber}
    (h : EncodesNumberCell sheet formulas igrf row col number) :
    cellStrWithFormula sheet formulas row col igrf = some number.text := by
  rcases h with h | ⟨hblank, formula, ref, hformula, href, hcell⟩
  · exact cellStrWithFormula_of_some (cellStr_of_encodes h)
  · have hne : formula.isEmpty = false := by
      obtain ⟨pre, written, post, hchars, -⟩ := href
      rw [Bool.eq_false_iff]
      intro hempty
      rw [String.isEmpty_iff.mp hempty] at hchars
      simp at hchars
    rw [cellStrWithFormula, cellStr_of_noText hblank, hformula]
    simp [hne, resolveIgrfFormula_of_refersTo href, hcell]

/-- A blank cell encodes a number when its formula refers to a cell of the IGRF sheet that has
it, within the size of that sheet. -/
theorem encodesNumberCell_of_igrf {wb : Workbook} {igrfSheet : Range} {number : SkaterNumber}
    {formula : String} {igrfRow igrfCol : Nat}
    (hsheet : wb.worksheetRange "IGRF" = some igrfSheet) (hcells : readIgrfCells wb = .ok igrf)
    (hrow : igrfRow < (getSize igrfSheet).1) (hcol : igrfCol < (getSize igrfSheet).2)
    (hnumber : EncodesSkater (some number) (igrfSheet.getValue igrfRow igrfCol))
    (hblank : NoText (sheet.getValue row col))
    (hformula : (formulas.bind fun fms => fms.getValue row col) = some formula)
    (href : RefersTo formula (colRowToExcel igrfCol igrfRow)) :
    EncodesNumberCell sheet formulas igrf row col number := by
  refine Or.inr ⟨hblank, formula, _, hformula, href, ?_⟩
  rw [get?_readIgrfCells hsheet hcells hrow hcol, cellStr_of_encodes hnumber, Option.map_some]

theorem cellStrWithFormula_of_noNumber (h : NoNumberCell sheet formulas igrf row col) :
    cellStrWithFormula sheet formulas row col igrf = none := by
  rw [cellStrWithFormula, cellStr_of_noText h.1]
  cases hformula : formulas.bind fun fms => fms.getValue row col with
  | none => rfl
  | some formula =>
      simp [h.2 formula hformula]

variable (hdoc : Documented)

include hdoc in
/-- The jam below a code is read, and there is none where it is blank. -/
theorem jam_of_encodes {p : SheetPenalty}
    (h : match p.jam with
      | none => Blank (sheet.getValue row col)
      | some n => EncodesNumber n (sheet.getValue row col)) :
    (if 0 < cellI16 sheet row col then some (cellI16 sheet row col).toNat else none) = p.jam := by
  cases hjam : p.jam with
  | none =>
      rw [hjam] at h
      have hzero : cellI16 sheet row col = 0 := cellI16_of_blank hdoc h
      rw [hzero]
      rfl
  | some n =>
      rw [hjam] at h
      obtain ⟨hpos, hlt⟩ := p.jam_fits n hjam
      have hn : cellI16 sheet row col = n := cellI16_of_encodes hdoc hlt (Or.inl h)
      rw [hn, if_pos (by omega), Int.toNat_natCast]

include hdoc in
/-- A slot is read back. -/
theorem penaltyAt_of_encodes (number : SkaterNumber) (foulOut : Bool) {p : Option SheetPenalty}
    (h : EncodesPenalty sheet codeRow col p) :
    penaltyAt sheet number.text period side foulOut codeRow col =
      p.map (penaltyOf period side number foulOut) := by
  unfold penaltyAt
  cases p with
  | none => rw [cellStr_of_noText h]; rfl
  | some p =>
      obtain ⟨hcode, hjam⟩ := h
      have hstr : cellStr sheet codeRow col = some p.code.text := by
        unfold cellStr
        simp [hcode, Text.trim_eq_self p.code.trimmed, p.code.notNone, p.code.nonempty]
      rw [hstr]
      exact congrArg (fun jam => some (Penalty.mk number.text side period jam p.code.text foulOut
        false)) (jam_of_encodes hdoc hjam)

include hdoc in
/-- The rows of a skater are read back. -/
theorem rowPenalties_of_encodes {row : PenaltyRow}
    (h : EncodesPenaltyRow sheet formulas igrf skaterCol penCol foCol codeRow row) :
    (List.range' penCol 9).filterMap
          (penaltyAt sheet row.number.text period side false codeRow) ++
        (penaltyAt sheet row.number.text period side true codeRow foCol).toList =
      rowPenalties period side row := by
  have hcols : List.range' penCol 9 = (List.finRange 9).map fun c : Fin 9 => penCol + c := rfl
  have hslots : ∀ c : Fin 9,
      penaltyAt sheet row.number.text period side false codeRow (penCol + c) =
        (row.slots c).map (penaltyOf period side row.number false) :=
    fun c => penaltyAt_of_encodes hdoc row.number false (h.slots c)
  rw [hcols, List.filterMap_map, rowPenalties, penaltyAt_of_encodes hdoc row.number true h.foulOut]
  congr 2
  funext c
  exact hslots c

include hdoc in
/-- A section decodes to the penalties of its skaters, in order. -/
theorem sectionPenalties_of_encodes {codeRows : List Nat} {rows : List PenaltyRow}
    (h : EncodesSection sheet formulas igrf skaterCol penCol foCol codeRows rows) :
    sectionPenalties sheet formulas igrf period side skaterCol penCol foCol codeRows =
      rows.flatMap (rowPenalties period side) := by
  induction codeRows generalizing rows with
  | nil =>
      cases rows with
      | nil => rfl
      | cons row rows => exact absurd h not_false
  | cons codeRow codeRows ih =>
      rw [sectionPenalties]
      cases rows with
      | nil =>
          rw [cellStrWithFormula_of_noNumber h]
          rfl
      | cons row rows =>
          obtain ⟨hrow, hrest⟩ := h
          rw [cellStrWithFormula_of_encodes hrow.number]
          dsimp only
          rw [row.number.played, if_neg Bool.false_ne_true, ih hrest,
            rowPenalties_of_encodes hdoc hrow, List.flatMap_cons]

include hdoc in
/-- A sheet decodes to the penalties that it encodes. -/
theorem parsePenaltiesSheet_of_encodes {file : StatsbookFile} {sheetName : String}
    {p : PenaltySheet} (h : EncodesPenalties file sheetName igrf sheet p) :
    parsePenaltiesSheet file sheetName igrf = penaltiesOf p := by
  unfold parsePenaltiesSheet
  rw [h.found]
  change sectionPenalties sheet (file.formulas sheetName) igrf 1 "home" 0 1 10 codeRows ++
    (sectionPenalties sheet (file.formulas sheetName) igrf 1 "away" 15 16 25 codeRows ++
      (sectionPenalties sheet (file.formulas sheetName) igrf 2 "home" 28 29 38 codeRows ++
        (sectionPenalties sheet (file.formulas sheetName) igrf 2 "away" 43 44 53 codeRows ++
          []))) = penaltiesOf p
  rw [sectionPenalties_of_encodes hdoc h.home₁, sectionPenalties_of_encodes hdoc h.away₁,
    sectionPenalties_of_encodes hdoc h.home₂, sectionPenalties_of_encodes hdoc h.away₂,
    List.append_nil, penaltiesOf, List.append_assoc, List.append_assoc]

/-- The Penalties sheet decodes to the penalties that it encodes; where it is missing or
yields nothing, the Penalties-Lineups sheet decodes to those that it encodes. -/
theorem parsePenalties_of_encodes (hdoc : Documented) (file : StatsbookFile) (igrf : IgrfCells)
    (sheet : Range) (p : PenaltySheet) :
    (EncodesPenalties file "Penalties" igrf sheet p → penaltiesOf p ≠ [] →
      parsePenalties file igrf = penaltiesOf p) ∧
    (file.wb.worksheetRange "Penalties" = none ∨
        parsePenaltiesSheet file "Penalties" igrf = [] →
      EncodesPenalties file "Penalties-Lineups" igrf sheet p →
      parsePenalties file igrf = penaltiesOf p) := by
  constructor
  · intro h hne
    rw [parsePenalties, parsePenaltiesSheet_of_encodes hdoc h]
    exact if_neg fun hempty => hne (List.isEmpty_iff.mp hempty)
  · intro hnothing h
    have hempty : parsePenaltiesSheet file "Penalties" igrf = [] := by
      rcases hnothing with hmissing | hempty
      · rw [parsePenaltiesSheet, hmissing]
      · exact hempty
    rw [parsePenalties, hempty, ← parsePenaltiesSheet_of_encodes hdoc h]
    rfl

end Cells

/-! ## A sheet with a formula -/

section Example

attribute [local instance] truncating

/-- A number that a skater may have. -/
def numberSeven : SkaterNumber where
  text := "7"
  trimmed := by decide
  nonempty := by decide
  notNone := by decide
  played := by decide

/-- A block, with or without its jam. -/
def blockPenalty (jam : Option Nat) (h : ∀ n ∈ jam, 0 < n ∧ n < 2 ^ 15) : SheetPenalty where
  code := ⟨"B", by decide, by decide, by decide⟩
  jam := jam
  jam_fits := h

/-- Two skaters in the first section: the first has a penalty in jam 4, the second has one
without a jam and a foul-out in jam 7. -/
def twoPenalized : PenaltySheet where
  home₁ :=
    [⟨skater12, fun c => if c.val = 0 then some (blockPenalty (some 4) (by decide)) else none,
        none⟩,
      ⟨numberSeven, fun c => if c.val = 1 then some (blockPenalty none (by decide)) else none,
        some (blockPenalty (some 7) (by decide))⟩]
  away₁ := []
  home₂ := []
  away₂ := []

/-- The sheet of the two skaters; the number of the second is not saved. -/
def twoPenalizedSheet : Range where
  startRow := 3
  startCol := 0
  cells :=
    [[.string "12", .string "B"], [.empty, .int 4],
      [.empty, .empty, .string "B"] ++ List.replicate 7 .empty ++ [.string "B"],
      List.replicate 10 .empty ++ [.float 7]]

/-- A file whose penalties stand on the given sheet. -/
def penaltyFile (sheetName : String) : StatsbookFile where
  wb.worksheetRange name := if name = sheetName then some twoPenalizedSheet else none
  formulas _ := some
    { getValue := fun row col =>
        if row = 5 ∧ col = 0 then some "IF(ISBLANK(IGRF!$B15),\"\",IGRF!$B15)" else none }
  evaluated := none

/-- The IGRF sheet has the number of the second skater. -/
def sevenInIgrf : IgrfCells :=
  Table.empty.upsert "B15" "7"

theorem refersTo_B15 : RefersTo "IF(ISBLANK(IGRF!$B15),\"\",IGRF!$B15)" "B15" :=
  ⟨"IF(ISBLANK(".toList, "$B15".toList, "),\"\",IGRF!$B15)".toList, by decide +kernel,
    by decide +kernel, by decide +kernel, List.all_eq_true.mp (by decide +kernel),
    by decide +kernel, by simp⟩

theorem encodesPenalties_penaltyFile (sheetName : String) :
    EncodesPenalties (penaltyFile sheetName) sheetName sevenInIgrf twoPenalizedSheet
      twoPenalized where
  found := if_pos rfl
  home₁ := by
    refine ⟨⟨Or.inl (Or.inl rfl), fun c => ?_, Or.inl (Or.inl rfl)⟩,
      ⟨Or.inr ⟨Or.inl (Or.inr rfl), _, "B15", rfl, refersTo_B15, by decide +kernel⟩,
        fun c => ?_, ⟨rfl, Or.inr rfl⟩⟩, Or.inl (Or.inl rfl), fun formula h => (by cases h)⟩
    · by_cases hc : c.val = 0
      · obtain rfl : c = 0 := Fin.ext hc
        exact ⟨rfl, Or.inl rfl⟩
      · change EncodesPenalty _ _ _ (if c.val = 0 then _ else none)
        rw [if_neg hc]
        exact Or.inl (by revert c; decide +kernel)
    · by_cases hc : c.val = 1
      · obtain rfl : c = 1 := Fin.ext hc
        exact ⟨rfl, Or.inr rfl⟩
      · change EncodesPenalty _ _ _ (if c.val = 1 then _ else none)
        rw [if_neg hc]
        exact Or.inl (by revert c; decide +kernel)
  away₁ := ⟨Or.inl (Or.inl rfl), fun formula h => (by cases h)⟩
  home₂ := ⟨Or.inl (Or.inl rfl), fun formula h => (by cases h)⟩
  away₂ := ⟨Or.inl (Or.inl rfl), fun formula h => (by cases h)⟩

theorem parsePenalties_penaltyFile :
    (parsePenalties (penaltyFile "Penalties") sevenInIgrf).map (fun p => (p.number, p.jam)) =
        [("12", some 4), ("7", none), ("7", some 7)] ∧
      parsePenalties (penaltyFile "Penalties-Lineups") sevenInIgrf =
        parsePenalties (penaltyFile "Penalties") sevenInIgrf := by
  have hmain := (parsePenalties_of_encodes documented_truncating _ _ _ _).1
    (encodesPenalties_penaltyFile "Penalties") (by decide)
  have hsecond := (parsePenalties_of_encodes documented_truncating _ _ _ _).2
    (Or.inl rfl) (encodesPenalties_penaltyFile "Penalties-Lineups")
  rw [hmain, hsecond]
  exact ⟨by decide, rfl⟩

end Example

end Sheet
end Statskboo
