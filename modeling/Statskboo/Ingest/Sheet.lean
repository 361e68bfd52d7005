import Statskboo.Text
import Mathlib.Algebra.Order.BigOperators.Group.List
import Mathlib.Algebra.Order.Field.Rat
import Mathlib.Data.Int.Basic
import Mathlib.Data.List.Induction

/-!
# Spreadsheet cells

The parser reads a workbook through typed cells at absolute positions.  This module has
the cell values, the sheets and the functions that read one cell as text, as a flag or as
a 16-bit number.  A finite floating-point value stands as the fraction it denotes.  What
the spreadsheet library makes of a cell as an integer is a parameter.

Main results:

- Theorem {lit}`sumI16_eq_sum`: a sum of 16-bit numbers without a sign is exact when it
  fits.
- Theorem {lit}`getValue_eq_none`: there is nothing below the last row of a sheet.
-/

namespace Statskboo

/-- The value of a cell. -/
inductive Data where
  | int (v : Int)
  | float (v : ℚ)
  | string (s : String)
  | bool (b : Bool)
  | dateTime (serial : ℚ)
  | dateTimeIso (s : String)
  | durationIso (s : String)
  | error
  | empty
deriving DecidableEq, Repr

/-- The conversions that the program leaves to libraries. -/
class CellConversions where
  /-- {lit}`DataType::as_i64` of the spreadsheet library. -/
  asI64 : Data → Option Int
  /-- {lit}`f64::to_string` of a value with a fractional part. -/
  floatToString : ℚ → String

/-- The used part of a sheet: its top left position, and its rows. -/
structure Range where
  startRow : Nat
  startCol : Nat
  cells : List (List Data)
deriving DecidableEq, Repr

/-- The sheets of a workbook under their names. -/
structure Workbook where
  worksheetRange : String → Option Range

namespace Range

/-- The row after the last one. -/
def endRow (r : Range) : Nat :=
  r.startRow + r.cells.length

/-- The cell at an absolute position; outside of the used part there is none. -/
def getValue (r : Range) (row col : Nat) : Option Data :=
  if r.startRow ≤ row ∧ r.startCol ≤ col then do
    let cells ← r.cells[row - r.startRow]?
    cells[col - r.startCol]?
  else none

/-- There is nothing below the last row. -/
theorem getValue_eq_none {r : Range} {row : Nat} (h : r.endRow ≤ row) (col : Nat) :
    r.getValue row col = none := by
  unfold getValue
  split_ifs with hstart
  · have hlength : r.cells[row - r.startRow]? = none := by
      rw [List.getElem?_eq_none_iff]
      unfold endRow at h
      omega
    rw [hlength]
    rfl
  · rfl

end Range

namespace Sheet

/-! ## Machine integers -/

/-- The value in the range of {lit}`i16` that {lit}`as i16` yields. -/
def wrapI16 (n : Int) : Int :=
  n.bmod (2 ^ 16)

/-- The value that {lit}`as u16` yields. -/
def wrapU16 (n : Int) : Nat :=
  (n % 2 ^ 16).toNat

/-- The value that {lit}`as i64` yields for a float without a fractional part. -/
def clampI64 (n : Int) : Int :=
  max (-2 ^ 63) (min n (2 ^ 63 - 1))

/-- The sum of 16-bit numbers. -/
def sumI16 (l : List Int) : Int :=
  l.foldl (fun a x => wrapI16 (a + x)) 0

theorem wrapI16_eq_self {n : Int} (h₀ : 0 ≤ n) (h : n < 2 ^ 15) : wrapI16 n = n := by
  unfold wrapI16
  rw [Int.bmod_def]
  omega

theorem wrapU16_natCast {n : Nat} (h : n < 2 ^ 16) : wrapU16 n = n := by
  unfold wrapU16
  omega

theorem clampI64_eq_self {n : Int} (h₀ : -2 ^ 63 ≤ n) (h : n < 2 ^ 63) : clampI64 n = n := by
  unfold clampI64
  omega

/-- A number is left alone exactly when it is in the range of {lit}`i16`. -/
theorem wrapI16_eq_self_iff {n : Int} : wrapI16 n = n ↔ -2 ^ 15 ≤ n ∧ n ≤ 2 ^ 15 - 1 := by
  unfold wrapI16
  rw [Int.bmod_def]
  omega

@[simp]
theorem wrapI16_wrapI16_add (m n : Int) : wrapI16 (wrapI16 m + n) = wrapI16 (m + n) :=
  Int.bmod_add_bmod

@[simp]
theorem wrapI16_add_wrapI16 (m n : Int) : wrapI16 (m + wrapI16 n) = wrapI16 (m + n) :=
  Int.add_bmod_bmod

/-- A sum of 16-bit numbers is cut once. -/
theorem sumI16_eq_wrapI16 (l : List Int) : sumI16 l = wrapI16 l.sum := by
  unfold sumI16
  induction l using List.reverseRecOn with
  | nil => rfl
  | append_singleton l x ih =>
      rw [List.foldl_append, ih, List.sum_append]
      simp

/-- It does not matter where the numbers of a sum are cut. -/
theorem sumI16_map_wrapI16 (l : List Int) : sumI16 (l.map wrapI16) = wrapI16 l.sum := by
  rw [sumI16_eq_wrapI16]
  induction l with
  | nil => rfl
  | cons x l ih =>
      rw [List.map_cons, List.sum_cons, List.sum_cons, wrapI16_wrapI16_add,
        ← wrapI16_add_wrapI16, ih, wrapI16_add_wrapI16]

/-- A sum of numbers without a sign is exact when it fits. -/
theorem sumI16_eq_sum {l : List Int} (h₀ : ∀ x ∈ l, 0 ≤ x) (h : l.sum < 2 ^ 15) :
    sumI16 l = l.sum := by
  rw [sumI16_eq_wrapI16, wrapI16_eq_self (List.sum_nonneg h₀) h]

/-! ## Reading one cell -/

/-- Whether the cell is text. -/
def isText (r : Range) (row col : Nat) : Bool :=
  match r.getValue row col with
  | some (.string _) => true
  | _ => false

/-- Whether a player number is marked as having played no jam. -/
def isZeroJamPlayer (number : String) : Bool :=
  decide (number.toList.getLast? = some '*')

/-- Whether a label is that of a star-pass row. -/
def isStarPassRow (value : String) : Bool :=
  "SP".toList.isPrefixOf (Text.toAsciiUppercase (Text.trim value.toList))

/-- The cell as a flag. -/
def cellBool (r : Range) (row col : Nat) : Bool :=
  match r.getValue row col with
  | some (.bool b) => b
  | some (.string s) => !(Text.trim s.toList).isEmpty
  | _ => false

/-- Whether the text is {lit}`none` in some case. -/
def isNoneText (t : List Char) : Bool :=
  Text.eqIgnoreAsciiCase t "none".toList

section Cells

variable [CellConversions]

/-- A float as the text of an integer where it is one. -/
def floatToIntStr (v : ℚ) : String :=
  if v.den = 1 then toString (clampI64 v.num) else CellConversions.floatToString v

/-- The cell as text; blank text and {lit}`none` are no text. -/
def cellStr (r : Range) (row col : Nat) : Option String :=
  match r.getValue row col with
  | some (.string s) =>
      let t := Text.trim s.toList
      if t.isEmpty || isNoneText t then none
      else some (String.ofList t)
  | some (.int v) => some (toString v)
  | some (.float v) => some (floatToIntStr v)
  | _ => none

theorem cellStr_of_string {r : Range} {row col : Nat} {s : String}
    (h : r.getValue row col = some (.string s)) :
    cellStr r row col =
      if (Text.trim s.toList).isEmpty || isNoneText (Text.trim s.toList) then none
      else some (String.ofList (Text.trim s.toList)) := by
  unfold cellStr
  rw [h]

/-- The cell as a 16-bit number; what is no number counts as zero. -/
def cellI16 (r : Range) (row col : Nat) : Int :=
  wrapI16 (((r.getValue row col).bind CellConversions.asI64).getD 0)

end Cells

end Sheet
end Statskboo
