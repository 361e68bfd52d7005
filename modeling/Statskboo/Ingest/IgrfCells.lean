import Statskboo.Ingest.Sheet
import Statskboo.Lib.KeyedTable
import Statskboo.Numbers

/-!
# Cells that repeat the IGRF sheet

Many cells of a statsbook hold a formula that repeats a cell of the IGRF sheet.  A file
that was saved without calculating has no value there, so the parser reads the formula
and looks the cell up itself.

Main results:

- Theorem {lit}`colRowToExcel_injective`: distinct cells have distinct references.
- Theorem {lit}`get?_readIgrfCells`: each cell within the size of the sheet stands under its
  reference.
- Theorem {lit}`cellStrWithFormula_of_some`: a cell with a text of its own is read as it
  is.
-/

namespace Statskboo

open KeyedTable

/-- The formulas of a sheet at absolute positions. -/
structure FormulaRange where
  getValue : Nat → Nat → Option String

namespace Sheet

/-- The text of each cell of the IGRF sheet under its Excel reference. -/
abbrev IgrfCells := Table String String

/-- The column letters of a reference; a column has at most as many letters as rounds. -/
def columnLetters : Nat → Nat → List Char → List Char
  | 0, _, acc => acc
  | fuel + 1, c, acc =>
      let acc := Char.ofNat (c % 26 + 'A'.toNat) :: acc
      if c / 26 = 0 then acc else columnLetters fuel (c / 26 - 1) acc

/-- The Excel reference of a cell. -/
def colRowToExcel (col row : Nat) : String :=
  String.ofList (columnLetters (col + 1) col []) ++ toString (row + 1)

/-- The size of the used part of a sheet. -/
def getSize (r : Range) : Nat × Nat :=
  (r.cells.length, (r.cells.head?.map List.length).getD 0)

/-- Look up the first reference to the IGRF sheet in a formula. -/
def resolveIgrfFormula (formula : String) (igrf : IgrfCells) : Option String := do
  let refStr ← Text.afterFirst "IGRF!".toList formula.toList
  let stripped := (refStr.filter fun c => c != '$').takeWhile Char.isAlphanum
  if stripped.isEmpty then none
  else igrf.get? (String.ofList stripped)

/-! ## References -/

theorem columnLetters_append (fuel c : Nat) (acc : List Char) :
    columnLetters fuel c acc = columnLetters fuel c [] ++ acc := by
  induction fuel generalizing c acc with
  | zero => rfl
  | succ fuel ih =>
      rw [columnLetters, columnLetters]
      split_ifs
      · rfl
      · rw [ih _ (_ :: acc), ih _ [_], List.append_assoc]
        rfl

/-- A letter of a column reference. -/
def columnLetter (i : Nat) : Char :=
  Char.ofNat (i % 26 + 'A'.toNat)

/-- The last letter of a column, behind the letters of the column that the others name. -/
theorem columnLetters_succ (fuel c : Nat) :
    columnLetters (fuel + 1) c [] =
      (if c / 26 = 0 then [] else columnLetters fuel (c / 26 - 1) []) ++ [columnLetter c] := by
  rw [columnLetters]
  split_ifs
  · rfl
  · rw [columnLetters_append]
    rfl

/-- The number of the column that letters name, counted from one. -/
def columnNumber (letters : List Char) : Nat :=
  letters.foldl (fun n l => 26 * n + (l.toNat - 'A'.toNat + 1)) 0

theorem toNat_columnLetter (c : Nat) : (columnLetter c).toNat = c % 26 + 65 := by
  have hletters : ∀ i < 26, (Char.ofNat (i + 'A'.toNat)).toNat = i + 65 := by decide
  exact hletters _ (Nat.mod_lt c (by decide))

/-- The letters of a column name it. -/
theorem columnNumber_columnLetters {fuel c : Nat} (h : c < fuel) :
    columnNumber (columnLetters fuel c []) = c + 1 := by
  induction fuel generalizing c with
  | zero => exact absurd h (Nat.not_lt_zero c)
  | succ fuel ih =>
      have hlast : ∀ letters, columnNumber (letters ++ [columnLetter c]) =
          26 * columnNumber letters + (c % 26 + 1) := by
        intro letters
        have hA : 'A'.toNat = 65 := rfl
        rw [columnNumber, List.foldl_append]
        change 26 * columnNumber letters + ((columnLetter c).toNat - 'A'.toNat + 1) = _
        rw [toNat_columnLetter, hA, Nat.add_sub_cancel]
      rw [columnLetters_succ, hlast]
      split_ifs with hfirst
      · change 26 * 0 + _ = _
        omega
      · rw [ih (by omega)]
        omega

theorem exists_of_mem_columnLetters {fuel c : Nat} {l : Char}
    (h : l ∈ columnLetters fuel c []) : ∃ i, l = columnLetter i := by
  induction fuel generalizing c with
  | zero => cases h
  | succ fuel ih =>
      rw [columnLetters_succ] at h
      rcases List.mem_append.mp h with hothers | hlast
      · split_ifs at hothers
        · cases hothers
        · exact ih hothers
      · exact ⟨c, List.mem_singleton.mp hlast⟩

/-- No letter of a column is a digit. -/
theorem isDigit_of_mem_columnLetters {fuel c : Nat} {l : Char}
    (h : l ∈ columnLetters fuel c []) : l.isDigit = false := by
  obtain ⟨i, rfl⟩ := exists_of_mem_columnLetters h
  have hval := toNat_columnLetter i
  rw [Bool.eq_false_iff]
  intro hdigit
  have hle : (columnLetter i).toNat ≤ 57 := (Char.isDigit_iff_toNat.mp hdigit).2
  omega

/-- The characters of a reference. -/
theorem toList_colRowToExcel (col row : Nat) :
    (colRowToExcel col row).toList =
      columnLetters (col + 1) col [] ++ Nat.toDigits 10 (row + 1) := by
  rw [colRowToExcel, String.toList_append, String.toList_ofList]
  exact congrArg _ Nat.toList_repr

/-- Distinct cells have distinct references. -/
theorem colRowToExcel_injective {col row col' row' : Nat}
    (h : colRowToExcel col row = colRowToExcel col' row') : col = col' ∧ row = row' := by
  have hletters : ∀ col row, (colRowToExcel col row).toList.takeWhile (fun l => !l.isDigit) =
      columnLetters (col + 1) col [] := by
    intro col row
    rw [toList_colRowToExcel, List.takeWhile_append_of_pos]
    · cases hdigits : Nat.toDigits 10 (row + 1) with
      | nil => exact absurd hdigits Nat.toDigits_ne_nil
      | cons d ds =>
          have hd : d.isDigit = true := by
            refine Nat.isDigit_of_mem_toDigits (b := 10) (n := row + 1) (by decide) (by decide) ?_
            rw [hdigits]
            exact List.mem_cons_self
          rw [List.takeWhile_cons, hd]
          exact List.append_nil _
    · intro l hl
      rw [isDigit_of_mem_columnLetters hl]
      rfl
  have hcols := hletters col row
  rw [h, hletters] at hcols
  have hcol : col = col' := by
    have hnumbers := congrArg columnNumber hcols
    rw [columnNumber_columnLetters (Nat.lt_succ_self _),
      columnNumber_columnLetters (Nat.lt_succ_self _)] at hnumbers
    omega
  refine ⟨hcol, ?_⟩
  have hrows := congrArg String.toList h
  rw [toList_colRowToExcel, toList_colRowToExcel, hcol, List.append_cancel_left_eq] at hrows
  have hrow := congrArg Numbers.ofDigits hrows
  rw [Numbers.ofDigits_toDigits, Numbers.ofDigits_toDigits] at hrow
  omega

/-! ## Cells and their formulas -/

/-- The positions that the loops over the IGRF sheet visit. -/
def igrfPositions (sheet : Range) : List (Nat × Nat) :=
  (List.range (getSize sheet).1).flatMap fun row =>
    (List.range (getSize sheet).2).map fun col => (row, col)

theorem mem_igrfPositions {sheet : Range} {row col : Nat} :
    (row, col) ∈ igrfPositions sheet ↔ row < (getSize sheet).1 ∧ col < (getSize sheet).2 := by
  simp [igrfPositions]

section Cells

variable [CellConversions]

/-- The cells of the IGRF sheet that have a text. -/
def readIgrfCells (wb : Workbook) : Except String IgrfCells :=
  match wb.worksheetRange "IGRF" with
  | none => .error "no IGRF sheet"
  | some sheet =>
      let (nrows, ncols) := getSize sheet
      .ok <| (List.range nrows).foldl (fun map row =>
        (List.range ncols).foldl (fun map col =>
          match cellStr sheet row col with
          | some val => map.upsert (colRowToExcel col row) val
          | none => map) map) Table.empty

/-- The text of a cell, or of the IGRF cell that its formula refers to. -/
def cellStrWithFormula (data : Range) (formulas : Option FormulaRange) (row col : Nat)
    (igrf : IgrfCells) : Option String :=
  match cellStr data row col with
  | some val => some val
  | none =>
      match formulas.bind fun fms => fms.getValue row col with
      | some fm => if fm.isEmpty then none else resolveIgrfFormula fm igrf
      | none => none

/-- A cell with a text of its own is read as it is. -/
theorem cellStrWithFormula_of_some {data : Range} {formulas : Option FormulaRange} {row col : Nat}
    {igrf : IgrfCells} {s : String} (h : cellStr data row col = some s) :
    cellStrWithFormula data formulas row col igrf = some s := by
  rw [cellStrWithFormula, h]

/-- The two loops over the IGRF sheet are one loop over the positions. -/
theorem readIgrfCells_eq {wb : Workbook} {sheet : Range}
    (hsheet : wb.worksheetRange "IGRF" = some sheet) :
    readIgrfCells wb = .ok ((igrfPositions sheet).foldl (fun map p =>
      (cellStr sheet p.1 p.2).elim map (map.upsert (colRowToExcel p.2 p.1))) Table.empty) := by
  unfold readIgrfCells
  rw [hsheet, igrfPositions, List.foldl_flatMap]
  simp only [List.foldl_map]
  refine congrArg (fun f => Except.ok (List.foldl f Table.empty _)) ?_
  funext map row
  refine congrArg (fun f => List.foldl f map _) ?_
  funext map col
  cases cellStr sheet row col with
  | none => rfl
  | some val => rfl

/-- The text of a cell stands under its reference, for the cells within the size of the
sheet. -/
theorem get?_readIgrfCells {wb : Workbook} {sheet : Range} {igrf : IgrfCells}
    (hsheet : wb.worksheetRange "IGRF" = some sheet) (h : readIgrfCells wb = .ok igrf)
    {row col : Nat} (hrow : row < (getSize sheet).1) (hcol : col < (getSize sheet).2) :
    igrf.get? (colRowToExcel col row) = cellStr sheet row col := by
  have hkey : Function.Injective fun p : Nat × Nat => colRowToExcel p.2 p.1 := by
    intro p q hpq
    obtain ⟨hcol, hrow⟩ := colRowToExcel_injective hpq
    exact Prod.ext hrow hcol
  have hloop := Table.get?_foldl_upsert hkey (fun p : Nat × Nat => cellStr sheet p.1 p.2)
    (igrfPositions sheet) (row, col)
  rw [if_pos (mem_igrfPositions.mpr ⟨hrow, hcol⟩)] at hloop
  rw [readIgrfCells_eq hsheet] at h
  cases h
  exact hloop

/-- What stands in the map is the text of a cell within the size of the sheet, under its
reference. -/
theorem exists_of_get?_readIgrfCells {wb : Workbook} {sheet : Range} {igrf : IgrfCells}
    (hsheet : wb.worksheetRange "IGRF" = some sheet) (h : readIgrfCells wb = .ok igrf)
    {key val : String} (hkey : igrf.get? key = some val) :
    ∃ row col, (row < (getSize sheet).1 ∧ col < (getSize sheet).2) ∧ key = colRowToExcel col row ∧
      cellStr sheet row col = some val := by
  rw [readIgrfCells_eq hsheet] at h
  cases h
  obtain ⟨p, hp, hpkey, hval⟩ := Table.exists_of_get?_foldl_upsert hkey
  exact ⟨p.1, p.2, mem_igrfPositions.mp hp, hpkey.symm, hval⟩

end Cells

example : colRowToExcel 1 13 = "B14" := by decide +kernel

example : colRowToExcel 27 0 = "AB1" := by decide +kernel

end Sheet
end Statskboo
