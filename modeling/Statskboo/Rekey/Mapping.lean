import Mathlib.Data.List.Forall2
import Mathlib.Data.List.TakeWhile
import Statskboo.Numbers
import Statskboo.Rekey.Cache

/-!
# The mapping file of the re-key

The mapping of the re-key can come from a file: a line for each row, with the Drive file id, the
canonical id and perhaps a parser version between commas.  Blank lines and comments are passed
over, and the first other line may be a header.  The first line that is no row stops the loading,
and the error names it.

Main results:

- Theorem {lit}`loadCsv_mappingText`: a mapping that is written out is loaded again.
- Theorem {lit}`loadCsv_iff`: which files are loaded, to which rows, and which line is at fault in
  the others.
-/

namespace Statskboo
namespace Rekey

open Numbers Text

/-! ## Loading -/

/-- What is wrong with a mapping file, with the number of the line. -/
inductive CsvError where
  | unreadable
  | expected (lineno : Nat)
  | invalidVersion (lineno : Nat) (value : List Char)
deriving DecidableEq, Repr

/-- The line of a file that an error is about. -/
def CsvError.place (path : String) (lineno : Nat) : String :=
  "mapping CSV " ++ path ++ ":" ++ toString lineno

/-- The text of an error for the path of the file, without that of its cause; {lit}`debug` is the
{lit}`Debug` text of a value. -/
def CsvError.message (debug : List Char → String) (path : String) : CsvError → String
  | unreadable => "reading mapping CSV " ++ path
  | expected lineno => place path lineno ++ ": expected drive_file_id,canonical_id[,parser_version]"
  | invalidVersion lineno value =>
      place path lineno ++ ": invalid parser_version " ++ debug value

/-- A line without the return before its end. -/
def dropReturn (line : List Char) : List Char :=
  if line.getLast? = some '\r' then line.dropLast else line

/-- {lit}`str::lines`: what follows the last line feed is a line only when it is not empty. -/
def lines (text : List Char) : List (List Char) :=
  let pieces := text.splitOn '\n'
  pieces.dropLast.map dropReturn ++ pieces.getLast?.toList.filter fun line => !line.isEmpty

/-- A blank line or a comment. -/
def isSkipped (raw : List Char) : Bool :=
  (trim raw).isEmpty || decide ((trim raw).head? = some '#')

/-- The trimmed fields of a line. -/
def fieldsOf (raw : List Char) : List (List Char) :=
  ((trim raw).splitOn ',').map trim

/-- The first field names its column. -/
def isHeader (fields : List (List Char)) : Bool :=
  fields.head?.any fun field => eqIgnoreAsciiCase field "drive_file_id".toList

/-- {lit}`str::parse` for {lit}`i64`. -/
def parseI64 (value : List Char) : Option Int :=
  parseSigned (-2 ^ 63) (2 ^ 63 - 1) value

/-- The parser version among the fields after the ids. -/
def versionOf (lineno : Nat) : List (List Char) → Except CsvError Int
  | [] => .ok 0
  | value :: _ =>
      if value.isEmpty then .ok 0
      else
        match parseI64 value with
        | none => .error (.invalidVersion lineno value)
        | some parserVersion => .ok parserVersion

/-- The row of a line from its fields. -/
def rowOf (lineno : Nat) : List (List Char) → Except CsvError MappingRow
  | driveFileId :: canonicalId :: more =>
      if driveFileId.isEmpty || canonicalId.isEmpty then .error (.expected lineno)
      else
        (versionOf lineno more).map fun parserVersion =>
          ⟨String.ofList driveFileId, String.ofList canonicalId, parserVersion⟩
  | _ => .error (.expected lineno)

/-- The loop over the lines. -/
def csvLoop (first : Bool) (i : Nat) (rows : List MappingRow) :
    List (List Char) → Except CsvError (List MappingRow)
  | [] => .ok rows
  | raw :: rest =>
      if isSkipped raw then csvLoop first (i + 1) rows rest
      else if first && isHeader (fieldsOf raw) then csvLoop false (i + 1) rows rest
      else
        match rowOf (i + 1) (fieldsOf raw) with
        | .error e => .error e
        | .ok row => csvLoop false (i + 1) (rows ++ [row]) rest

/-- The rows of a mapping file; there is no text when the file cannot be read. -/
def loadCsv (text : Option (List Char)) : Except CsvError (List MappingRow) :=
  match text with
  | none => .error .unreadable
  | some text => csvLoop true 0 [] (lines text)

/-! ## How a mapping is written -/

/-- Text with white space around it. -/
def Padded (core s : List Char) : Prop :=
  Trimmed core ∧ ∃ w w', (∀ c ∈ w, isWhitespace c = true) ∧ (∀ c ∈ w', isWhitespace c = true) ∧
    s = w ++ (core ++ w')

/-- Cells with commas between them. -/
def Separated (cells : List (List Char)) (s : List Char) : Prop :=
  cells ≠ [] ∧ (∀ cell ∈ cells, ',' ∉ cell) ∧ s = [','].intercalate cells

/-- A blank line, or a comment. -/
def Skipped (raw : List Char) : Prop :=
  ∃ line, Padded line raw ∧ (line = [] ∨ ∃ rest, line = '#' :: rest)

/-- A line that has these fields. -/
def HasFields (fields : List (List Char)) (raw : List Char) : Prop :=
  ∃ line cells, Padded line raw ∧ Separated cells line ∧ List.Forall₂ Padded fields cells

/-- A parser version; it is zero when it is left out. -/
def WritesVersion (parserVersion : Int) : List (List Char) → Prop
  | [] => parserVersion = 0
  | value :: _ => (value = [] ∧ parserVersion = 0) ∨
      parseI64 value = some parserVersion

/-- A line with a row of the mapping; more fields than three are ignored. -/
def WritesRow (row : MappingRow) (raw : List Char) : Prop :=
  row.driveFileId ≠ "" ∧ row.canonicalId ≠ "" ∧ ∃ more, WritesVersion row.parserVersion more ∧
    HasFields (row.driveFileId.toList :: row.canonicalId.toList :: more) raw

/-- A line that names the first column first. -/
def Heading (raw : List Char) : Prop :=
  ∃ field fields, HasFields (field :: fields) raw ∧
    eqIgnoreAsciiCase field "drive_file_id".toList = true

/-- The lines of a mapping: a heading counts as one only before all rows. -/
inductive Writes : Bool → List MappingRow → List (List Char) → Prop
  | done {first : Bool} : Writes first [] []
  | skipped {first : Bool} {rows : List MappingRow} {raw : List Char} {raws : List (List Char)} :
      Skipped raw → Writes first rows raws → Writes first rows (raw :: raws)
  | heading {rows : List MappingRow} {raw : List Char} {raws : List (List Char)} :
      ¬ Skipped raw → Heading raw → Writes false rows raws → Writes true rows (raw :: raws)
  | row {first : Bool} {row : MappingRow} {rows : List MappingRow} {raw : List Char}
      {raws : List (List Char)} :
      ¬ Skipped raw → (first = true → ¬ Heading raw) → WritesRow row raw →
        Writes false rows raws → Writes first (row :: rows) (raw :: raws)

/-- A line that is no row, and why. -/
def Faulty (raw : List Char) (lineno : Nat) : CsvError → Prop
  | .unreadable => False
  | .expected n => n = lineno ∧ ∃ fields, HasFields fields raw ∧
      (fields.length < 2 ∨ [] ∈ fields.take 2)
  | .invalidVersion n value => n = lineno ∧ value ≠ [] ∧
      parseI64 value = none ∧
      ∃ driveFileId canonicalId more, driveFileId ≠ [] ∧ canonicalId ≠ [] ∧
        HasFields (driveFileId :: canonicalId :: value :: more) raw

/-- The first line that is no row stands after lines of a mapping; {lit}`i` is the number of the
line before them all. -/
def FaultIn (first : Bool) (i : Nat) (raws : List (List Char)) (e : CsvError) : Prop :=
  ∃ before raw after rows, raws = before ++ raw :: after ∧ Writes first rows before ∧
    ¬ Skipped raw ∧ (first = true → Heading raw → ∃ line ∈ before, ¬ Skipped line) ∧
    Faulty raw (i + before.length + 1) e

section Format

variable {core s raw : List Char} {cells fields : List (List Char)} {row : MappingRow}

theorem padded_iff : Padded core s ↔ trim s = core := by
  constructor
  · rintro ⟨hcore, w, w', hw, hw', rfl⟩
    by_cases hne : core = []
    · subst hne
      have hall : (w ++ ([] ++ w')).dropWhile isWhitespace = [] :=
        List.dropWhile_eq_nil_iff.mpr fun c hc => (List.mem_append.mp hc).elim (hw c) (hw' c)
      rw [trim, hall]
      rfl
    · exact trim_append hw hw' hne hcore
  · rintro rfl
    have hleft := List.takeWhile_append_dropWhile (p := isWhitespace) (l := s)
    have hright := List.takeWhile_append_dropWhile (p := isWhitespace)
      (l := (s.dropWhile isWhitespace).reverse)
    refine ⟨trimmed_trim s, s.takeWhile isWhitespace,
      ((s.dropWhile isWhitespace).reverse.takeWhile isWhitespace).reverse, ?_, ?_, ?_⟩
    · exact fun c hc => List.mem_takeWhile_imp hc
    · exact fun c hc => List.mem_takeWhile_imp (List.mem_reverse.mp hc)
    · rw [trim, ← List.reverse_append, hright, List.reverse_reverse, hleft]

theorem not_mem_of_mem_splitOn {sep : Char} {cell : List Char} (h : cell ∈ s.splitOn sep) :
    sep ∉ cell := by
  induction s generalizing cell with
  | nil =>
      rw [List.splitOn_nil, List.mem_singleton] at h
      rw [h]
      exact List.not_mem_nil
  | cons c s ih =>
      rw [List.splitOn_cons_eq_if_modifyHead] at h
      obtain ⟨head, tail, hsplit⟩ := List.exists_cons_of_ne_nil (List.splitOn_ne_nil sep s)
      rw [hsplit] at h ih
      split_ifs at h with hc
      · rcases List.mem_cons.mp h with rfl | h
        · exact List.not_mem_nil
        · exact ih h
      · rw [List.modifyHead_cons] at h
        rcases List.mem_cons.mp h with rfl | h
        · rw [List.mem_cons, not_or]
          exact ⟨fun heq => hc (beq_iff_eq.mpr heq.symm), ih List.mem_cons_self⟩
        · exact ih (List.mem_cons_of_mem head h)

theorem separated_iff : Separated cells s ↔ s.splitOn ',' = cells := by
  constructor
  · rintro ⟨hne, hcells, rfl⟩
    exact List.splitOn_intercalate ',' hcells hne
  · rintro rfl
    exact ⟨List.splitOn_ne_nil ',' s, fun cell hcell => not_mem_of_mem_splitOn hcell,
      (List.intercalate_splitOn ',').symm⟩

theorem skipped_iff : Skipped raw ↔ isSkipped raw = true := by
  unfold Skipped isSkipped
  simp only [padded_iff, exists_eq_left', Bool.or_eq_true, List.isEmpty_iff, decide_eq_true_eq]
  cases trim raw <;> simp

theorem forall₂_padded_iff : List.Forall₂ Padded fields cells ↔ cells.map trim = fields := by
  have hpadded : Padded = fun core s => core = trim s :=
    funext₂ fun _ _ => propext (padded_iff.trans eq_comm)
  rw [hpadded, ← List.forall₂_map_right_iff, List.forall₂_eq_eq_eq, eq_comm]

/-- A line has just one list of fields. -/
theorem hasFields_iff : HasFields fields raw ↔ fieldsOf raw = fields := by
  unfold HasFields fieldsOf
  simp only [padded_iff, separated_iff, forall₂_padded_iff]
  constructor
  · rintro ⟨line, cells, rfl, rfl, rfl⟩
    rfl
  · rintro rfl
    exact ⟨_, _, rfl, rfl, rfl⟩

theorem heading_iff : Heading raw ↔ isHeader (fieldsOf raw) = true := by
  unfold Heading isHeader
  simp only [hasFields_iff]
  cases hfields : fieldsOf raw with
  | nil => simp
  | cons field fields => simp

theorem writesVersion_iff {parserVersion : Int} {more : List (List Char)} (lineno : Nat) :
    WritesVersion parserVersion more ↔ versionOf lineno more = .ok parserVersion := by
  cases more with
  | nil => simp [WritesVersion, versionOf, eq_comm]
  | cons value more =>
      cases value with
      | nil => simp [WritesVersion, versionOf, eq_comm, parseI64, parseSigned, signed, takeSign]
      | cons c value =>
          cases hversion : parseI64 (c :: value) <;> simp [WritesVersion, versionOf, hversion]

theorem versionOf_eq_error_iff {more : List (List Char)} {lineno : Nat} {e : CsvError} :
    versionOf lineno more = .error e ↔ ∃ value more', more = value :: more' ∧ value ≠ [] ∧
      parseI64 value = none ∧ e = .invalidVersion lineno value := by
  cases more with
  | nil => simp [versionOf]
  | cons value more =>
      cases value with
      | nil => simp [versionOf]
      | cons c value =>
          cases hversion : parseI64 (c :: value) <;> simp [versionOf, hversion, eq_comm]

/-- When some fields are a row. -/
theorem rowOf_eq_ok_iff {lineno : Nat} :
    rowOf lineno fields = .ok row ↔ row.driveFileId ≠ "" ∧ row.canonicalId ≠ "" ∧
      ∃ more, versionOf lineno more = .ok row.parserVersion ∧
        fields = row.driveFileId.toList :: row.canonicalId.toList :: more := by
  match fields with
  | [] => simp [rowOf]
  | [driveFileId] => simp [rowOf]
  | driveFileId :: canonicalId :: more =>
      rw [rowOf]
      constructor
      · intro h
        split_ifs at h with hempty
        obtain ⟨hid, hcanonical⟩ : driveFileId ≠ [] ∧ canonicalId ≠ [] := by simpa using hempty
        cases hversion : versionOf lineno more with
        | error e =>
            rw [hversion] at h
            cases h
        | ok parserVersion =>
            rw [hversion] at h
            cases h
            exact ⟨by simpa using hid, by simpa using hcanonical, more, hversion, by simp⟩
      · rintro ⟨hid, hcanonical, more', hversion, hfields⟩
        cases hfields
        rw [hversion]
        simp [hid, hcanonical, Except.map]

/-- Why some fields are no row. -/
theorem rowOf_eq_error_iff {lineno : Nat} {e : CsvError} :
    rowOf lineno fields = .error e ↔
      (e = .expected lineno ∧ (fields.length < 2 ∨ [] ∈ fields.take 2)) ∨
      ∃ driveFileId canonicalId more, fields = driveFileId :: canonicalId :: more ∧
        driveFileId ≠ [] ∧ canonicalId ≠ [] ∧ versionOf lineno more = .error e := by
  match fields with
  | [] => simp [rowOf, eq_comm]
  | [driveFileId] => simp [rowOf, eq_comm]
  | driveFileId :: canonicalId :: more =>
      rw [rowOf]
      cases hversion : versionOf lineno more <;>
        rcases driveFileId with _ | ⟨c, driveFileId⟩ <;>
        rcases canonicalId with _ | ⟨d, canonicalId⟩ <;>
        simp [Except.map, hversion, eq_comm]

theorem writesRow_iff (lineno : Nat) :
    WritesRow row raw ↔ rowOf lineno (fieldsOf raw) = .ok row := by
  unfold WritesRow
  simp only [hasFields_iff, writesVersion_iff lineno, rowOf_eq_ok_iff]

theorem faulty_iff {lineno : Nat} {e : CsvError} :
    Faulty raw lineno e ↔ rowOf lineno (fieldsOf raw) = .error e := by
  rw [rowOf_eq_error_iff]
  simp only [versionOf_eq_error_iff]
  cases e with
  | unreadable => simp [Faulty]
  | expected n => simp [Faulty, hasFields_iff]
  | invalidVersion n value =>
      constructor
      · rintro ⟨rfl, hvalue, hparse, driveFileId, canonicalId, more, hid, hcanonical, hfields⟩
        exact .inr ⟨driveFileId, canonicalId, value :: more, hasFields_iff.mp hfields, hid,
          hcanonical, value, more, rfl, hvalue, hparse, rfl⟩
      · rintro (⟨heq, -⟩ | ⟨driveFileId, canonicalId, _, hfields, hid, hcanonical, _, more, rfl,
          hvalue, hparse, heq⟩)
        · cases heq
        · cases heq
          exact ⟨rfl, hvalue, hparse, driveFileId, canonicalId, more, hid, hcanonical,
            hasFields_iff.mpr hfields⟩

end Format

/-! ## What the loop reads -/

section Loop

variable {first : Bool} {i : Nat} {raw : List Char} {raws : List (List Char)}
  {rows rows' : List MappingRow} {e : CsvError}

theorem writes_nil_iff : Writes first rows [] ↔ rows = [] := by
  constructor
  · intro h
    cases h
    rfl
  · rintro rfl
    exact .done

theorem writes_cons_of_skipped (hskip : Skipped raw) :
    Writes first rows (raw :: raws) ↔ Writes first rows raws := by
  constructor
  · intro h
    cases h with
    | skipped _ h => exact h
    | heading hnot _ _ => exact absurd hskip hnot
    | row hnot _ _ _ => exact absurd hskip hnot
  · exact .skipped hskip

theorem writes_cons_of_heading (hskip : ¬ Skipped raw) (hheading : Heading raw) :
    Writes true rows (raw :: raws) ↔ Writes false rows raws := by
  constructor
  · intro h
    cases h with
    | skipped hskipped _ => exact absurd hskipped hskip
    | heading _ _ h => exact h
    | row _ hnot _ _ => exact absurd hheading (hnot rfl)
  · exact .heading hskip hheading

theorem writes_cons_of_row (hskip : ¬ Skipped raw) (hheading : first = true → ¬ Heading raw) :
    Writes first rows (raw :: raws) ↔
      ∃ row rest, rows = row :: rest ∧ WritesRow row raw ∧ Writes false rest raws := by
  constructor
  · intro h
    cases h with
    | skipped hskipped _ => exact absurd hskipped hskip
    | heading _ hraw _ => exact absurd hraw (hheading rfl)
    | row _ _ hrow h => exact ⟨_, _, rfl, hrow, h⟩
  · rintro ⟨row, rest, rfl, hrow, h⟩
    exact .row hskip hheading hrow h

/-- The loop gives the rows that the lines write, after those it has. -/
theorem csvLoop_eq_ok_iff :
    csvLoop first i rows raws = .ok rows' ↔ ∃ more, rows' = rows ++ more ∧
      Writes first more raws := by
  induction raws generalizing first i rows with
  | nil => simp [csvLoop, writes_nil_iff, eq_comm]
  | cons raw raws ih =>
      rw [csvLoop]
      split_ifs with hskip hheading
      · simp only [ih, writes_cons_of_skipped (skipped_iff.mpr hskip)]
      · obtain ⟨rfl, hheading⟩ : first = true ∧ isHeader (fieldsOf raw) = true := by
          simpa using hheading
        simp only [ih, writes_cons_of_heading (mt skipped_iff.mp hskip)
          (heading_iff.mpr hheading)]
      · have hnot : first = true → ¬ Heading raw := by
          rintro rfl
          rw [heading_iff]
          simpa using hheading
        simp only [writes_cons_of_row (mt skipped_iff.mp hskip) hnot]
        cases hrow : rowOf (i + 1) (fieldsOf raw) with
        | error e =>
            simp only [writesRow_iff (i + 1), hrow]
            simp
        | ok row =>
            simp only [ih, writesRow_iff (i + 1), hrow, Except.ok.injEq]
            constructor
            · rintro ⟨more, rfl, hmore⟩
              exact ⟨row :: more, by simp, row, more, rfl, rfl, hmore⟩
            · rintro ⟨_, rfl, _, more, rfl, rfl, hmore⟩
              exact ⟨more, by simp, hmore⟩

/-- A first line that is passed over or read leaves the fault to the others. -/
theorem faultIn_cons_iff {first' : Bool}
    (hwrites : ∀ before, (∃ rows, Writes first rows (raw :: before)) ↔
      ∃ rows, Writes first' rows before)
    (hheading : first' = true ↔ first = true ∧ Skipped raw)
    (hraw : Skipped raw ∨ (first = true ∧ Heading raw) ∨ ¬ Faulty raw (i + 1) e) :
    FaultIn first i (raw :: raws) e ↔ FaultIn first' (i + 1) raws e := by
  have hlength (before : List (List Char)) :
      i + (raw :: before).length + 1 = i + 1 + before.length + 1 := by
    rw [List.length_cons]
    omega
  constructor
  · rintro ⟨_ | ⟨_, before⟩, line, after, rows, hraws, hrows, hskip, hhead, hfaulty⟩
    · obtain ⟨rfl, rfl⟩ := List.cons.inj hraws
      rcases hraw with hskipped | ⟨rfl, hraw⟩ | hnot
      · exact absurd hskipped hskip
      · obtain ⟨line, hline, -⟩ := hhead rfl hraw
        cases hline
      · exact absurd hfaulty hnot
    · obtain ⟨rfl, rfl⟩ := List.cons.inj hraws
      obtain ⟨rows', hrows'⟩ := (hwrites before).mp ⟨rows, hrows⟩
      refine ⟨before, line, after, rows', rfl, hrows', hskip, fun hfirst hline => ?_, ?_⟩
      · obtain ⟨hfirst, hskipped⟩ := hheading.mp hfirst
        obtain ⟨other, hother, hnot⟩ := hhead hfirst hline
        rcases List.mem_cons.mp hother with rfl | hother
        · exact absurd hskipped hnot
        · exact ⟨other, hother, hnot⟩
      · rwa [hlength] at hfaulty
  · rintro ⟨before, line, after, rows, rfl, hrows, hskip, hhead, hfaulty⟩
    obtain ⟨rows', hrows'⟩ := (hwrites before).mpr ⟨rows, hrows⟩
    refine ⟨raw :: before, line, after, rows', rfl, hrows', hskip, fun hfirst hline => ?_, ?_⟩
    · by_cases hskipped : Skipped raw
      · obtain ⟨other, hother, hnot⟩ := hhead (hheading.mpr ⟨hfirst, hskipped⟩) hline
        exact ⟨other, List.mem_cons_of_mem raw hother, hnot⟩
      · exact ⟨raw, List.mem_cons_self, hskipped⟩
    · rwa [hlength]

/-- The loop stops at the first line that is no row. -/
theorem csvLoop_eq_error_iff :
    csvLoop first i rows raws = .error e ↔ FaultIn first i raws e := by
  induction raws generalizing first i rows with
  | nil => simp [csvLoop, FaultIn]
  | cons raw raws ih =>
      rw [csvLoop]
      split_ifs with hskip hheading
      · have hskip := skipped_iff.mpr hskip
        exact ih.trans (faultIn_cons_iff
          (fun before => by simp only [writes_cons_of_skipped hskip])
          (by simp [hskip]) (.inl hskip)).symm
      · obtain ⟨rfl, hheading⟩ : first = true ∧ isHeader (fieldsOf raw) = true := by
          simpa using hheading
        have hskip := mt skipped_iff.mp hskip
        have hheading := heading_iff.mpr hheading
        exact ih.trans (faultIn_cons_iff
          (fun before => by simp only [writes_cons_of_heading hskip hheading])
          (by simp [hskip]) (.inr (.inl ⟨rfl, hheading⟩))).symm
      · have hskip := mt skipped_iff.mp hskip
        have hnot : first = true → ¬ Heading raw := by
          rintro rfl
          rw [heading_iff]
          simpa using hheading
        cases hrow : rowOf (i + 1) (fieldsOf raw) with
        | error e' =>
            constructor
            · rintro ⟨⟩
              refine ⟨[], raw, raws, [], rfl, .done, hskip, fun hfirst h => ?_, ?_⟩
              · exact absurd h (hnot hfirst)
              · exact faulty_iff.mpr hrow
            · rintro ⟨_ | ⟨_, before⟩, line, after, rows, hraws, hrows, -, -, hfaulty⟩
              · obtain ⟨rfl, rfl⟩ := List.cons.inj hraws
                rw [faulty_iff, List.length_nil, Nat.add_zero, hrow] at hfaulty
                cases hfaulty
                rfl
              · obtain ⟨rfl, rfl⟩ := List.cons.inj hraws
                obtain ⟨row, rest, -, hok, -⟩ := (writes_cons_of_row hskip hnot).mp hrows
                rw [writesRow_iff (i + 1), hrow] at hok
                cases hok
        | ok row =>
            have hok : WritesRow row raw := (writesRow_iff (i + 1)).mpr hrow
            refine ih.trans (faultIn_cons_iff (fun before => ?_) (by simp [hskip])
              (.inr (.inr fun hfaulty => ?_))).symm
            · simp only [writes_cons_of_row hskip hnot]
              constructor
              · rintro ⟨_, _, rest, -, -, hrest⟩
                exact ⟨rest, hrest⟩
              · rintro ⟨rest, hrest⟩
                exact ⟨row :: rest, row, rest, rfl, hok, hrest⟩
            · rw [faulty_iff, hrow] at hfaulty
              cases hfaulty

theorem loadCsv_eq_ok_iff {text : List Char} :
    loadCsv (some text) = .ok rows ↔ Writes true rows (lines text) := by
  simp [loadCsv, csvLoop_eq_ok_iff]

theorem loadCsv_eq_error_iff {text : List Char} :
    loadCsv (some text) = .error e ↔ FaultIn true 0 (lines text) e := by
  simp only [loadCsv, csvLoop_eq_error_iff]

/-- Just the files whose lines write a mapping are loaded, and give that mapping; each other one
is refused at the first line that is no row. -/
theorem loadCsv_iff (text : List Char) :
    (∀ rows, loadCsv (some text) = .ok rows ↔ Writes true rows (lines text)) ∧
    (∀ e, loadCsv (some text) = .error e ↔ FaultIn true 0 (lines text) e) := by
  exact ⟨fun _ => loadCsv_eq_ok_iff, fun _ => loadCsv_eq_error_iff⟩

end Loop

/-! ## Writing a mapping out -/

section Writing

variable {row : MappingRow} {rows : List MappingRow} {ls : List (List Char)}

/-- The line of a row. -/
def rowText (row : MappingRow) : List Char :=
  [','].intercalate
    [row.driveFileId.toList, row.canonicalId.toList, (toString row.parserVersion).toList]

/-- The names of the columns. -/
def headingText : List Char := "drive_file_id,canonical_id,parser_version".toList

/-- A mapping with a heading, and a line feed after each line. -/
def mappingText (rows : List MappingRow) : List Char :=
  (headingText :: rows.map rowText).flatMap (· ++ ['\n'])

/-- An id that a field can hold. -/
def FieldId (id : String) : Prop :=
  id ≠ "" ∧ Trimmed id.toList ∧ ',' ∉ id.toList ∧ '\n' ∉ id.toList

/-- A row that a line can hold. -/
def Storable (row : MappingRow) : Prop :=
  FieldId row.driveFileId ∧ row.driveFileId.toList.head? ≠ some '#' ∧ FieldId row.canonicalId ∧
    -2 ^ 63 ≤ row.parserVersion ∧ row.parserVersion < 2 ^ 63

/-- The lines of text in which each has its line feed. -/
theorem lines_flatMap (hls : ∀ l ∈ ls, '\n' ∉ l) :
    lines (ls.flatMap (· ++ ['\n'])) = ls.map dropReturn := by
  have hsplit : (ls.flatMap (· ++ ['\n'])).splitOn '\n' = ls ++ [[]] := by
    induction ls with
    | nil => rfl
    | cons l ls ih =>
        rw [List.flatMap_cons, List.append_assoc, List.singleton_append,
          List.splitOn_append_cons_self_of_not_mem (hls l List.mem_cons_self),
          ih fun l' hl' => hls l' (List.mem_cons_of_mem l hl'), List.cons_append]
  rw [lines, hsplit]
  simp

theorem toString_int_ne_nil (n : Int) : (toString n).toList ≠ [] := by
  intro h
  have hsigned := signed_toString n
  rw [h] at hsigned
  cases hsigned

/-- The text of a number has digits and perhaps a sign. -/
theorem isDigit_or_minus {n : Int} {c : Char} (hc : c ∈ (toString n).toList) :
    c.isDigit = true ∨ c = '-' := by
  have hdigits (m : Nat) : ∀ c ∈ Nat.toDigits 10 m, c.isDigit = true := fun c hc =>
    Nat.isDigit_of_mem_toDigits (by decide) (by decide) hc
  rw [Int.toString_eq_repr, Int.repr_eq_if] at hc
  split_ifs at hc with hn
  · rw [Nat.toList_repr] at hc
    exact .inl (hdigits _ c hc)
  · rw [String.toList_append, Nat.toList_repr] at hc
    rcases List.mem_append.mp hc with hc | hc
    · exact .inr (List.mem_singleton.mp hc)
    · exact .inl (hdigits _ c hc)

theorem isWhitespace_toString {n : Int} {c : Char} (hc : c ∈ (toString n).toList) :
    isWhitespace c = false := by
  rcases isDigit_or_minus hc with hdigit | rfl
  · obtain ⟨hlo, hhi⟩ := isDigit_range hdigit
    exact isWhitespace_of_range (by omega) (by omega)
  · decide

/-- A separator that is neither a digit nor a sign does not occur in the text of a number. -/
theorem not_mem_toString {n : Int} {sep : Char} (hdigit : sep.isDigit = false) (hsep : sep ≠ '-') :
    sep ∉ (toString n).toList := by
  intro hmem
  rcases isDigit_or_minus hmem with h | h
  · rw [hdigit] at h
    cases h
  · exact hsep h

theorem padded_self {s : List Char} (h : Trimmed s) : Padded s s :=
  padded_iff.mpr (trim_eq_self h)

theorem dropReturn_of_trimmed {s : List Char} (h : Trimmed s) : dropReturn s = s := by
  rw [dropReturn, if_neg]
  intro hlast
  have hreturn := h.2 '\r' hlast
  revert hreturn
  decide

theorem rowText_eq (row : MappingRow) :
    rowText row = row.driveFileId.toList ++ ',' :: (row.canonicalId.toList ++
      ',' :: (toString row.parserVersion).toList) := by
  simp [rowText, List.intercalate_cons_cons]

theorem head?_rowText (h : FieldId row.driveFileId) :
    (rowText row).head? = row.driveFileId.toList.head? := by
  rw [rowText_eq, List.head?_append_of_ne_nil _ (by simpa using h.1)]

theorem trimmed_rowText (h : FieldId row.driveFileId) : Trimmed (rowText row) := by
  constructor
  · rw [head?_rowText h]
    exact h.2.1.1
  · intro c hc
    have hne := toString_int_ne_nil row.parserVersion
    rw [rowText_eq, List.getLast?_append_of_ne_nil _ (List.cons_ne_nil _ _),
      List.getLast?_cons_of_ne_nil (by simp),
      List.getLast?_append_of_ne_nil _ (List.cons_ne_nil _ _), List.getLast?_cons_of_ne_nil hne]
      at hc
    exact isWhitespace_toString (List.mem_of_mem_getLast? hc)

theorem not_mem_rowText (h : Storable row) : '\n' ∉ rowText row := by
  rw [rowText_eq]
  have hversion : '\n' ∉ row.parserVersion.repr.toList :=
    not_mem_toString (by decide) (by decide)
  simp [h.1.2.2.2, h.2.2.1.2.2.2, hversion]

theorem writesRow_rowText (h : Storable row) : WritesRow row (rowText row) := by
  obtain ⟨hid, -, hcanonical, hlo, hhi⟩ := h
  have hversion : Trimmed (toString row.parserVersion).toList :=
    ⟨fun c hc => isWhitespace_toString (List.mem_of_mem_head? hc),
      fun c hc => isWhitespace_toString (List.mem_of_mem_getLast? hc)⟩
  refine ⟨hid.1, hcanonical.1, [(toString row.parserVersion).toList], .inr ?_, rowText row,
    _, padded_self (trimmed_rowText hid), ⟨List.cons_ne_nil _ _, ?_, rfl⟩, ?_⟩
  · exact parseSigned_toString hlo (by omega)
  · have hcomma : ',' ∉ row.parserVersion.repr.toList :=
      not_mem_toString (by decide) (by decide)
    simp [hid.2.2.1, hcanonical.2.2.1, hcomma]
  · exact .cons (padded_self hid.2.1) (.cons (padded_self hcanonical.2.1)
      (.cons (padded_self hversion) .nil))

theorem not_skipped_rowText (h : Storable row) : ¬ Skipped (rowText row) := by
  have hne : row.driveFileId.toList ≠ [] := by simpa using h.1.1
  rintro ⟨line, hline, hskip⟩
  rw [padded_iff, trim_eq_self (trimmed_rowText h.1)] at hline
  subst hline
  rcases hskip with hempty | ⟨rest, hrest⟩
  · rw [rowText_eq] at hempty
    simp [hne] at hempty
  · have hhead := head?_rowText h.1
    rw [hrest, List.head?_cons] at hhead
    exact h.2.1 hhead.symm

theorem writes_rowText (hrows : ∀ row ∈ rows, Storable row) :
    Writes false rows (rows.map rowText) := by
  induction rows with
  | nil => exact .done
  | cons row rows ih =>
      have hrow := hrows row List.mem_cons_self
      exact .row (not_skipped_rowText hrow) (fun h => by cases h) (writesRow_rowText hrow)
        (ih fun row' hrow' => hrows row' (List.mem_cons_of_mem row hrow'))

theorem lines_mappingText (hrows : ∀ row ∈ rows, Storable row) :
    lines (mappingText rows) = headingText :: rows.map rowText := by
  have hheading : dropReturn headingText = headingText := dropReturn_of_trimmed (by decide)
  have hlines : ∀ line ∈ rows.map rowText, dropReturn line = line := by
    intro line hline
    obtain ⟨row, hrow, rfl⟩ := List.mem_map.mp hline
    exact dropReturn_of_trimmed (trimmed_rowText (hrows row hrow).1)
  rw [mappingText, lines_flatMap, List.map_cons, hheading, List.map_congr_left hlines, List.map_id']
  intro line hline
  rcases List.mem_cons.mp hline with rfl | hline
  · decide
  · obtain ⟨row, hrow, rfl⟩ := List.mem_map.mp hline
    exact not_mem_rowText (hrows row hrow)

/-- A mapping that is written out is loaded again. -/
theorem loadCsv_mappingText (hrows : ∀ row ∈ rows, Storable row) :
    loadCsv (some (mappingText rows)) = .ok rows := by
  rw [loadCsv_eq_ok_iff, lines_mappingText hrows]
  refine .heading ?_ ?_ (writes_rowText hrows)
  · rw [skipped_iff]
    decide
  · rw [heading_iff]
    decide

end Writing

end Rekey
end Statskboo
