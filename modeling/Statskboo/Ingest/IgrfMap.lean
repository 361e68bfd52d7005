import Statskboo.Ingest.IgrfCells
import Statskboo.Ingest.ScoreLayout
import Statskboo.Lib.BijectiveBase

/-!
# What the IGRF map holds and how formulas find it

The map of the IGRF sheet stands between two loops that write references and formulas
that repeat them.  The writer counts rows and columns from the first cell of the sheet up
to the size of the part in use, which need not start there.

Main results:

- Theorem {lit}`igrf_map_complete_iff`: the map holds the cells of the sheet exactly when
  each cell with a text lies within the size of the part in use.
- Theorem {lit}`cell_reference_round_trip`: a reference is the name of the column in
  bijective base 26 with the number of the row, no two cells share one, and a formula that
  repeats a reference is read as the entry under it.
-/

namespace Statskboo
namespace Sheet

open KeyedTable
open Text (isAlphanum_of_isDigit isAlphanum_of_isUpper isUpper_iff_toNat)

/-! ## Completeness of the map -/

section Complete

variable [CellConversions]

/-- The map has the text of each cell of a sheet that has one, and nothing else. -/
def Complete (igrf : IgrfCells) (sheet : Range) : Prop :=
  ∀ key val, igrf.get? key = some val ↔
    ∃ row col, key = colRowToExcel col row ∧ cellStr sheet row col = some val

/-- Each cell with a text has a row below the number of rows in use and a column below the
number of columns in use. -/
def TextWithinSize (sheet : Range) : Prop :=
  ∀ row col, (cellStr sheet row col).isSome = true →
    row < (getSize sheet).1 ∧ col < (getSize sheet).2

/-- The map is complete exactly when each text lies within the size of the part in use. -/
theorem igrf_map_complete_iff {wb : Workbook} {sheet : Range}
    (hsheet : wb.worksheetRange "IGRF" = some sheet) :
    ∃ igrf, readIgrfCells wb = .ok igrf ∧ (Complete igrf sheet ↔ TextWithinSize sheet) := by
  refine ⟨_, readIgrfCells_eq hsheet, ?_⟩
  constructor
  · intro hcomplete row col hsome
    obtain ⟨val, hval⟩ := Option.isSome_iff_exists.mp hsome
    have hget := (hcomplete (colRowToExcel col row) val).mpr ⟨row, col, rfl, hval⟩
    obtain ⟨row', col', hsize, hkey, -⟩ :=
      exists_of_get?_readIgrfCells hsheet (readIgrfCells_eq hsheet) hget
    obtain ⟨rfl, rfl⟩ := colRowToExcel_injective hkey
    exact hsize
  · intro hsize key val
    constructor
    · intro hget
      obtain ⟨row, col, -, hkey, hval⟩ :=
        exists_of_get?_readIgrfCells hsheet (readIgrfCells_eq hsheet) hget
      exact ⟨row, col, hkey, hval⟩
    · rintro ⟨row, col, rfl, hval⟩
      obtain ⟨hrow, hcol⟩ := hsize row col (Option.isSome_iff_exists.mpr ⟨val, hval⟩)
      rw [get?_readIgrfCells hsheet (readIgrfCells_eq hsheet) hrow hcol, hval]

end Complete

/-- A cell with a text is a cell of the sheet. -/
theorem isSome_getValue_of_cellStr [CellConversions] {sheet : Range} {row col : Nat}
    (h : (cellStr sheet row col).isSome = true) : (sheet.getValue row col).isSome = true := by
  unfold cellStr at h
  cases hvalue : sheet.getValue row col with
  | none =>
      rw [hvalue] at h
      exact h
  | some d => rfl

/-- A rectangle of cells that starts at the first cell of the sheet holds its texts within
its size. -/
theorem textWithinSize_of_start [CellConversions] {sheet : Range} (hrow : sheet.startRow = 0)
    (hcol : sheet.startCol = 0) (hrect : ∀ cells ∈ sheet.cells, cells.length = (getSize sheet).2) :
    TextWithinSize sheet := by
  intro row col hsome
  obtain ⟨d, hd⟩ := Option.isSome_iff_exists.mp (isSome_getValue_of_cellStr hsome)
  rw [Range.getValue, hrow, hcol, if_pos ⟨Nat.zero_le _, Nat.zero_le _⟩] at hd
  obtain ⟨cells, hcells, hget⟩ := Option.bind_eq_some_iff.mp hd
  obtain ⟨hlt, hmem⟩ := List.getElem?_eq_some_iff.mp hcells
  obtain ⟨hlt', -⟩ := List.getElem?_eq_some_iff.mp hget
  rw [hrect cells (hmem ▸ List.getElem_mem hlt)] at hlt'
  exact ⟨hlt, hlt'⟩

section Example

attribute [local instance] truncating

/-- The workbook whose only sheet is the IGRF sheet. -/
def igrfWorkbook (sheet : Range) : Workbook where
  worksheetRange name := if name = "IGRF" then some sheet else none

/-- A sheet with a text in the cell {lit}`B3` alone. -/
def offsetSheet : Range := ⟨2, 1, [[.string "Bravo"]]⟩

/-- Two rows and two columns from the first cell on. -/
def cornerSheet : Range := ⟨0, 0, [[.string "Alpha", .int 7], [.empty, .string "none"]]⟩

/-- The map of a sheet that does not start at its first cell lacks the texts behind its
size. -/
theorem not_complete_offsetSheet :
    ¬∀ (wb : Workbook) (sheet : Range) (igrf : IgrfCells),
      wb.worksheetRange "IGRF" = some sheet → readIgrfCells wb = .ok igrf →
        Complete igrf sheet := by
  intro hall
  obtain ⟨igrf, higrf⟩ : ∃ igrf, readIgrfCells (igrfWorkbook offsetSheet) = .ok igrf :=
    ⟨_, readIgrfCells_eq rfl⟩
  have hcomplete := hall (igrfWorkbook offsetSheet) offsetSheet igrf rfl higrf
  have hget := (hcomplete (colRowToExcel 1 2) "Bravo").mpr ⟨2, 1, rfl, by decide⟩
  obtain ⟨row, col, hsize, hkey, -⟩ := exists_of_get?_readIgrfCells rfl higrf hget
  obtain ⟨rfl, rfl⟩ := colRowToExcel_injective hkey
  exact absurd hsize (by decide)

/-- The map of a sheet that starts at its first cell is complete. -/
theorem complete_cornerSheet :
    ∃ igrf, readIgrfCells (igrfWorkbook cornerSheet) = .ok igrf ∧ Complete igrf cornerSheet := by
  have hsheet : (igrfWorkbook cornerSheet).worksheetRange "IGRF" = some cornerSheet := rfl
  obtain ⟨igrf, higrf, hiff⟩ := igrf_map_complete_iff hsheet
  exact ⟨igrf, higrf, hiff.mpr (textWithinSize_of_start rfl rfl (by decide))⟩

end Example

/-! ## References in formulas -/

/-- Capital letters name a column in bijective base 26, where the first column is one. -/
def NamesColumn (letters : List Char) (col : Nat) : Prop :=
  (∀ l ∈ letters, l.isUpper = true) ∧ columnNumber letters = col + 1

/-- A reference with or without a {lit}`$` before its column and before its row. -/
def reference (fixedCol fixedRow : Bool) (col row : Nat) : String :=
  (if fixedCol then "$" else "") ++ String.ofList (columnLetters (col + 1) col []) ++
    (if fixedRow then "$" else "") ++ toString (row + 1)

theorem isUpper_of_mem_columnLetters {fuel c : Nat} {l : Char}
    (h : l ∈ columnLetters fuel c []) : l.isUpper = true := by
  obtain ⟨i, rfl⟩ := exists_of_mem_columnLetters h
  have hlt := Nat.mod_lt i (show 0 < 26 by decide)
  rw [isUpper_iff_toNat, toNat_columnLetter]
  omega

/-- Capital letters have the digits of bijective base 26. -/
theorem digits_of_isUpper {letters : List Char} (h : ∀ l ∈ letters, l.isUpper = true) :
    BijectiveBase.Digits 26 (fun l : Char => l.toNat - 'A'.toNat) letters := by
  intro l hl
  obtain ⟨hle, hlt⟩ := isUpper_iff_toNat.mp (h l hl)
  have hA : 'A'.toNat = 65 := rfl
  change l.toNat - 'A'.toNat < 26
  omega

/-- A column has one name. -/
theorem namesColumn_iff {letters : List Char} {col : Nat} :
    NamesColumn letters col ↔ letters = columnLetters (col + 1) col [] := by
  have hname : NamesColumn (columnLetters (col + 1) col []) col :=
    ⟨fun l hl => isUpper_of_mem_columnLetters hl, columnNumber_columnLetters (Nat.lt_succ_self _)⟩
  constructor
  · rintro ⟨hupper, hnumber⟩
    refine BijectiveBase.value_injective (k := 26) ?_ (digits_of_isUpper hupper)
      (digits_of_isUpper hname.1) (hnumber.trans hname.2.symm)
    intro l hl l' hl' hdigit
    have hle := (isUpper_iff_toNat.mp (hupper l hl)).1
    have hle' := (isUpper_iff_toNat.mp (hname.1 l' hl')).1
    have hA : 'A'.toNat = 65 := rfl
    have hval : l.toNat = l'.toNat := by omega
    exact Char.toNat_inj.mp hval
  · rintro rfl
    exact hname

/-- A reference is written with letters and digits. -/
theorem isAlphanum_of_mem_colRowToExcel {col row : Nat} {c : Char}
    (h : c ∈ (colRowToExcel col row).toList) : c.isAlphanum = true := by
  rw [toList_colRowToExcel] at h
  rcases List.mem_append.mp h with hletter | hdigit
  · exact isAlphanum_of_isUpper (isUpper_of_mem_columnLetters hletter)
  · exact isAlphanum_of_isDigit
      (Nat.isDigit_of_mem_toDigits (b := 10) (by decide) (by decide) hdigit)

/-- Without its signs, each form of a reference is the reference of the map. -/
theorem filter_reference (fixedCol fixedRow : Bool) (col row : Nat) :
    (reference fixedCol fixedRow col row).toList.filter (fun c => c != '$') =
      (colRowToExcel col row).toList := by
  have hplain : ∀ c ∈ (colRowToExcel col row).toList, (c != '$') = true := by
    intro c hc
    have halnum := isAlphanum_of_mem_colRowToExcel hc
    refine bne_iff_ne.mpr ?_
    rintro rfl
    exact absurd halnum (by decide)
  have hsign : ∀ fixed : Bool,
      (if fixed then "$" else "").toList.filter (fun c => c != '$') = [] := by decide
  rw [toList_colRowToExcel, List.forall_mem_append] at hplain
  rw [reference, String.toList_append, String.toList_append, String.toList_append,
    List.filter_append, List.filter_append, List.filter_append, hsign, hsign,
    String.toList_ofList, toList_colRowToExcel]
  have hrow : (toString (row + 1)).toList = Nat.toDigits 10 (row + 1) := Nat.toList_repr
  rw [hrow, List.filter_eq_self.mpr hplain.1, List.filter_eq_self.mpr hplain.2]
  simp

/-- A formula that repeats a reference is read as the entry of the map under it. -/
theorem resolveIgrfFormula_reference {pre suffix : String}
    (hpre : ¬"IGRF!".toList <:+: pre.toList)
    (hsuffix : ∀ c ∈ suffix.toList.head?, c ≠ '$' ∧ c.isAlphanum = false)
    (fixedCol fixedRow : Bool) (col row : Nat) (igrf : IgrfCells) :
    resolveIgrfFormula (pre ++ "IGRF!" ++ reference fixedCol fixedRow col row ++ suffix) igrf =
      igrf.get? (colRowToExcel col row) := by
  have hformula : (pre ++ "IGRF!" ++ reference fixedCol fixedRow col row ++ suffix).toList =
      pre.toList ++ (("IGRF".toList ++ ['!']) ++
        ((reference fixedCol fixedRow col row).toList ++ suffix.toList)) := by
    simp
  have hafter : Text.afterFirst ("IGRF".toList ++ ['!']) (pre.toList ++ (("IGRF".toList ++ ['!']) ++
      ((reference fixedCol fixedRow col row).toList ++ suffix.toList))) =
      some ((reference fixedCol fixedRow col row).toList ++ suffix.toList) :=
    Text.afterFirst_append (by decide) hpre _
  have hend : (suffix.toList.filter fun c => c != '$').takeWhile Char.isAlphanum = [] := by
    cases hchars : suffix.toList with
    | nil => rfl
    | cons c cs =>
        obtain ⟨hsign, hnot⟩ := hsuffix c (by rw [hchars]; exact rfl)
        have hkeep : (c != '$') = true := bne_iff_ne.mpr hsign
        rw [List.filter_cons, hkeep, if_pos rfl, List.takeWhile_cons, hnot]
        rfl
  have hstripped : (((reference fixedCol fixedRow col row).toList ++ suffix.toList).filter
      fun c => c != '$').takeWhile Char.isAlphanum = (colRowToExcel col row).toList := by
    rw [List.filter_append, filter_reference,
      List.takeWhile_append_of_pos fun c hc => isAlphanum_of_mem_colRowToExcel hc, hend,
      List.append_nil]
  have hne : (colRowToExcel col row).toList.isEmpty = false := by
    rw [toList_colRowToExcel, List.isEmpty_eq_false_iff]
    exact List.append_ne_nil_of_right_ne_nil _ Nat.toDigits_ne_nil
  unfold resolveIgrfFormula
  rw [hformula]
  change (Text.afterFirst ("IGRF".toList ++ ['!']) _).bind _ = _
  rw [hafter, Option.bind_some, hstripped]
  dsimp only
  rw [hne, if_neg Bool.false_ne_true, String.ofList_toList]

/-- References are the bijective base 26 names of the columns with the numbers of the rows,
distinct cells have distinct references, and each form of a reference in a formula is read as
the entry of the map under it. -/
theorem cell_reference_round_trip :
    (∀ col row, ∃ letters, (∀ letters', NamesColumn letters' col ↔ letters' = letters) ∧
      colRowToExcel col row = String.ofList letters ++ toString (row + 1)) ∧
    (∀ col row col' row', colRowToExcel col row = colRowToExcel col' row' →
      col = col' ∧ row = row') ∧
    ∀ (pre suffix : String) (fixedCol fixedRow : Bool) (col row : Nat) (igrf : IgrfCells),
      ¬"IGRF!".toList <:+: pre.toList →
      (∀ c ∈ suffix.toList.head?, c ≠ '$' ∧ c.isAlphanum = false) →
      resolveIgrfFormula (pre ++ "IGRF!" ++ reference fixedCol fixedRow col row ++ suffix) igrf =
        igrf.get? (colRowToExcel col row) := by
  refine ⟨fun col row => ⟨_, fun letters' => namesColumn_iff, rfl⟩, ?_, ?_⟩
  · exact fun col row col' row' h => colRowToExcel_injective h
  · intro pre suffix fixedCol fixedRow col row igrf hpre hsuffix
    exact resolveIgrfFormula_reference hpre hsuffix fixedCol fixedRow col row igrf

/-- The name of the first team, looked up through a formula. -/
theorem resolveIgrfFormula_b14 :
    resolveIgrfFormula ("IF(ISBLANK(" ++ "IGRF!" ++ reference true false 1 13 ++
      "),\"\",IGRF!$B14)") (Table.empty.upsert "B14" "Alpha") = some "Alpha" := by
  obtain ⟨-, -, hresolve⟩ := cell_reference_round_trip
  have hhead : "),\"\",IGRF!$B14)".toList.head? = some ')' := by simp
  have hsuffix : ∀ c ∈ "),\"\",IGRF!$B14)".toList.head?, c ≠ '$' ∧ c.isAlphanum = false := by
    rw [hhead]
    rintro c ⟨⟩
    decide
  rw [hresolve _ _ true false 1 13 _ (by decide) hsuffix]
  have hkey : colRowToExcel 1 13 = "B14" := by decide +kernel
  rw [hkey, Table.get?_upsert_self]

end Sheet
end Statskboo
