import Mathlib.Data.List.DropRight
import Mathlib.Data.List.TakeWhile
import Statskboo.Ingest.Drain
import Statskboo.Ingest.ParseStatsbook
import Statskboo.Ingest.ScoreLayout
import Statskboo.Lib.KeepFirst

/-!
# The rosters of a statsbook

Each side of the IGRF sheet lists up to twenty skaters.  The parser reads the rows from the
first one on, drops the stars behind the numbers and keeps one skater for each number; the
parse stage stores those who played and have a name.

The parser stops at the first row whose number cell is blank, holds the text {lit}`none` or
holds neither a text nor a number, so that the rows below such a gap are lost.

Main results:

- Theorem {lit}`rosterLoop_eq`: the rows of a roster that the parser keeps.
- Theorem {lit}`rosterRows_unique`: the keys of the stored skaters are unique, and every
  number goes with the name of its first row.
- Theorem {lit}`noRowLost_iff`: every row contributes its number exactly when no number is
  listed only below a gap.
-/

namespace Statskboo
namespace Roster

open KeepFirst KeyedTable Parse Sheet

section Cells

variable [CellConversions]

/-! ## The rows -/

/-- A number without the stars behind it. -/
def starless (rawNumber : String) : String :=
  String.ofList (rawNumber.toList.reverse.dropWhile fun c => c = '*').reverse

/-- Whether the parser reads on at a row. -/
def isListed (sheet : Range) (numCol row : Nat) : Bool :=
  (cellStr sheet row numCol).isSome

/-- The number of a row; it is empty where the cell is blank or holds nothing but stars. -/
def rosterNumber (sheet : Range) (numCol row : Nat) : String :=
  ((cellStr sheet row numCol).map starless).getD ""

/-- Whether the parser reads a number from a row. -/
def hasNumber (sheet : Range) (numCol row : Nat) : Bool :=
  !(rosterNumber sheet numCol row).isEmpty

/-- The name of a row. -/
def rosterName (sheet : Range) (nameCol row : Nat) : String :=
  (cellStr sheet row nameCol).getD ""

/-- The skater of a row. -/
def skaterAt (sheet : Range) (numCol nameCol row : Nat) : Skater where
  number := rosterNumber sheet numCol row
  name := rosterName sheet nameCol row

/-- The rows that the parser keeps: the first one of each number above the first gap. -/
def keptRows (sheet : Range) (numCol : Nat) (rows : List Nat) (seen : List String) : List Nat :=
  keepFirst (rosterNumber sheet numCol)
    ((rows.takeWhile (isListed sheet numCol)).filter (hasNumber sheet numCol)) seen

variable {sheet : Range} {numCol nameCol firstRow maxSkaters : Nat}

theorem rosterLoop_of_gap {row : Nat} (h : isListed sheet numCol row = false) (rows : List Nat)
    (seen : List String) : rosterLoop sheet numCol nameCol (row :: rows) seen = [] := by
  have hcell : cellStr sheet row numCol = none := by simpa [isListed] using h
  rw [rosterLoop, hcell]

/-- One round of the loop over a row that has a text. -/
theorem rosterLoop_of_listed {row : Nat} (h : isListed sheet numCol row = true) (rows : List Nat)
    (seen : List String) :
    rosterLoop sheet numCol nameCol (row :: rows) seen =
      if hasNumber sheet numCol row = true ∧ rosterNumber sheet numCol row ∉ seen then
        skaterAt sheet numCol nameCol row ::
          rosterLoop sheet numCol nameCol rows (rosterNumber sheet numCol row :: seen)
      else rosterLoop sheet numCol nameCol rows seen := by
  obtain ⟨rawNumber, hcell⟩ := Option.isSome_iff_exists.mp h
  have hnumber : rosterNumber sheet numCol row = starless rawNumber := by
    rw [rosterNumber, hcell, Option.map_some, Option.getD_some]
  rw [hasNumber, skaterAt, rosterName, hnumber, rosterLoop, hcell]
  change (if (starless rawNumber).isEmpty || seen.contains (starless rawNumber) then _ else _) = _
  by_cases hskip : ((starless rawNumber).isEmpty || seen.contains (starless rawNumber)) = true
  · rw [if_pos hskip, if_neg]
    rintro ⟨hnonempty, hnew⟩
    rcases Bool.or_eq_true_iff.mp hskip with hempty | hseen
    · rw [hempty] at hnonempty
      cases hnonempty
    · exact hnew (List.contains_iff_mem.mp hseen)
  · rw [if_neg hskip, if_pos]
    · rfl
    · rw [Bool.or_eq_true, not_or] at hskip
      refine ⟨?_, fun hmem => hskip.2 (List.contains_iff_mem.mpr hmem)⟩
      rw [Bool.eq_false_iff.mpr hskip.1]
      rfl

/-- The loop keeps the first row of each number above the first gap. -/
theorem rosterLoop_eq (rows : List Nat) (seen : List String) :
    rosterLoop sheet numCol nameCol rows seen =
      (keptRows sheet numCol rows seen).map (skaterAt sheet numCol nameCol) := by
  unfold keptRows
  induction rows generalizing seen with
  | nil => rfl
  | cons row rows ih =>
      cases hlisted : isListed sheet numCol row with
      | false =>
          rw [rosterLoop_of_gap hlisted, List.takeWhile_cons, hlisted]
          rfl
      | true =>
          rw [rosterLoop_of_listed hlisted, List.takeWhile_cons, hlisted, if_pos rfl,
            List.filter_cons]
          cases hnumber : hasNumber sheet numCol row with
          | false =>
              rw [if_neg fun h => Bool.false_ne_true h.1, if_neg Bool.false_ne_true]
              exact ih seen
          | true =>
              rw [if_pos rfl, keepFirst]
              by_cases hseen : rosterNumber sheet numCol row ∈ seen
              · rw [if_pos hseen, if_neg fun h => h.2 hseen]
                exact ih seen
              · rw [if_neg hseen, if_pos ⟨rfl, hseen⟩, List.map_cons, ih]

/-! ## First rows -/

omit [CellConversions] in
/-- What stands before the first failure of a test in an ascending list. -/
theorem mem_takeWhile_iff {p : Nat → Bool} {rows : List Nat} (hrows : rows.Pairwise (· < ·))
    {row : Nat} : row ∈ rows.takeWhile p ↔ row ∈ rows ∧ ∀ r ∈ rows, r ≤ row → p r = true := by
  induction rows with
  | nil => simp
  | cons r rows ih =>
      obtain ⟨hr, hrest⟩ := List.pairwise_cons.mp hrows
      rw [List.takeWhile_cons]
      cases hp : p r with
      | false =>
          rw [if_neg Bool.false_ne_true]
          refine ⟨fun h => (by cases h), ?_⟩
          rintro ⟨hmem, hall⟩
          have hle : r ≤ row := by
            rcases List.mem_cons.mp hmem with rfl | hmem
            · exact le_rfl
            · exact (hr row hmem).le
          rw [hall r List.mem_cons_self hle] at hp
          cases hp
      | true =>
          rw [if_pos rfl, List.mem_cons, List.mem_cons, ih hrest]
          constructor
          · rintro (rfl | ⟨hmem, hall⟩)
            · refine ⟨Or.inl rfl, ?_⟩
              rintro s (_ | ⟨_, hs⟩) hle
              · exact hp
              · exact absurd (hr s hs) hle.not_gt
            · refine ⟨Or.inr hmem, ?_⟩
              rintro s (_ | ⟨_, hs⟩) hle
              · exact hp
              · exact hall s hs hle
          · rintro ⟨rfl | hmem, hall⟩
            · exact Or.inl rfl
            · exact Or.inr ⟨hmem, fun s hs => hall s (List.mem_cons_of_mem r hs)⟩

/-- A row with a number that no row of the block has before it. -/
def IsFirstRow (sheet : Range) (numCol firstRow row : Nat) : Prop :=
  hasNumber sheet numCol row = true ∧
    ∀ r, firstRow ≤ r → r < row → rosterNumber sheet numCol r ≠ rosterNumber sheet numCol row

theorem isFirstRow_of_mem_keptRows {row : Nat}
    (h : row ∈ keptRows sheet numCol (List.range' firstRow maxSkaters) []) :
    IsFirstRow sheet numCol firstRow row := by
  have hascending : (List.range' firstRow maxSkaters).Pairwise (· < ·) :=
    List.pairwise_lt_range'
  have habove : row ∈ ((List.range' firstRow maxSkaters).takeWhile (isListed sheet numCol)).filter
      (hasNumber sheet numCol) := (keepFirst_sublist _ _).subset h
  obtain ⟨hwhile, hnumber⟩ := List.mem_filter.mp habove
  obtain ⟨hmem, hlisted⟩ := (mem_takeWhile_iff hascending).mp hwhile
  refine ⟨hnumber, fun r hfirst hlt heq => ?_⟩
  obtain ⟨-, pre, post, hsplit, hpre⟩ := mem_keepFirst_iff.mp h
  have hr : r ∈ List.range' firstRow maxSkaters := by
    rw [List.mem_range'_1] at hmem ⊢
    omega
  have hrabove : r ∈ ((List.range' firstRow maxSkaters).takeWhile (isListed sheet numCol)).filter
      (hasNumber sheet numCol) := by
    refine List.mem_filter.mpr ⟨(mem_takeWhile_iff hascending).mpr ⟨hr, ?_⟩, ?_⟩
    · exact fun s hs hle => hlisted s hs (hle.trans hlt.le)
    · rw [hasNumber, heq]
      exact hnumber
  have hsorted := (hascending.sublist (List.takeWhile_sublist (isListed sheet numCol))).filter
    (hasNumber sheet numCol)
  rw [hsplit] at hsorted hrabove
  rcases List.mem_append.mp hrabove with hrpre | hrpost
  · exact hpre r hrpre heq
  · have hle : row ≤ r := by
      rcases List.mem_cons.mp hrpost with rfl | hrpost
      · exact le_rfl
      · exact ((List.pairwise_cons.mp (List.pairwise_append.mp hsorted).2.1).1 r hrpost).le
    omega

/-! ## What the number cells show -/

/-- The number cell of a row is blank. -/
def isBlank (sheet : Range) (numCol row : Nat) : Bool :=
  match sheet.getValue row numCol with
  | none | some .empty => true
  | some (.string s) => (Text.trim s.toList).isEmpty
  | some _ => false

/-- The text or number in the number cell of a row, without the stars behind it. -/
def shownNumber (sheet : Range) (numCol row : Nat) : Option String :=
  match sheet.getValue row numCol with
  | some (.string s) => some (starless (String.ofList (Text.trim s.toList)))
  | some (.int v) => some (starless (toString v))
  | some (.float v) => some (starless (floatToIntStr v))
  | _ => none

/-- The number cell of a row is not blank and not only stars. -/
def IsFilled (sheet : Range) (numCol row : Nat) : Prop :=
  isBlank sheet numCol row = false ∧ shownNumber sheet numCol row ≠ some ""

instance (sheet : Range) (numCol row : Nat) : Decidable (IsFilled sheet numCol row) :=
  inferInstanceAs (Decidable (_ ∧ _))

/-- The number cell of a row ends the roster: it is blank, holds the text {lit}`none`, or holds
neither a text nor a number. -/
def endsRoster (sheet : Range) (numCol row : Nat) : Bool :=
  match sheet.getValue row numCol with
  | some (.string s) => (Text.trim s.toList).isEmpty || isNoneText (Text.trim s.toList)
  | some (.int _) | some (.float _) => false
  | _ => true

/-- The parser stops at the first row that ends the roster. -/
theorem isListed_eq (row : Nat) : isListed sheet numCol row = !endsRoster sheet numCol row := by
  unfold isListed cellStr endsRoster
  cases sheet.getValue row numCol with
  | none => rfl
  | some cell =>
      cases cell with
      | string s =>
          dsimp only
          cases (Text.trim s.toList).isEmpty || isNoneText (Text.trim s.toList) <;> rfl
      | _ => rfl

/-- A blank cell ends the roster. -/
theorem isBlank_of_isListed {row : Nat} (h : isListed sheet numCol row = true) :
    isBlank sheet numCol row = false := by
  rw [isListed_eq, Bool.not_eq_true'] at h
  unfold endsRoster at h
  unfold isBlank
  cases hcell : sheet.getValue row numCol with
  | none =>
      rw [hcell] at h
      cases h
  | some cell =>
      rw [hcell] at h
      cases cell with
      | string s => exact (Bool.or_eq_false_iff.mp h).1
      | empty => cases h
      | _ => rfl

/-- Where the parser reads on, it reads what the cell shows. -/
theorem shownNumber_of_isListed {row : Nat} (h : isListed sheet numCol row = true) :
    shownNumber sheet numCol row = some (rosterNumber sheet numCol row) := by
  rw [isListed] at h
  unfold rosterNumber
  unfold cellStr at h ⊢
  unfold shownNumber
  cases hcell : sheet.getValue row numCol with
  | none =>
      rw [hcell] at h
      cases h
  | some cell =>
      rw [hcell] at h
      cases cell with
      | string s =>
          dsimp only at h ⊢
          cases hnone : (Text.trim s.toList).isEmpty || isNoneText (Text.trim s.toList) with
          | true =>
              rw [hnone] at h
              cases h
          | false => rfl
      | int v => rfl
      | float v => rfl
      | _ => cases h

/-- The parser reads a number from the rows that it reads and that are filled. -/
theorem hasNumber_iff_isFilled {row : Nat} (h : isListed sheet numCol row = true) :
    hasNumber sheet numCol row = true ↔ IsFilled sheet numCol row := by
  rw [IsFilled, shownNumber_of_isListed h, hasNumber, Bool.not_eq_true', ne_eq, Option.some.injEq,
    ← String.isEmpty_iff, Bool.not_eq_true]
  exact (and_iff_right (isBlank_of_isListed h)).symm

/-! ## What is above the first gap -/

/-- No row up to this one ends the roster. -/
def AboveGap (sheet : Range) (numCol : Nat) (rows : List Nat) (row : Nat) : Prop :=
  ∀ r ∈ rows, r ≤ row → endsRoster sheet numCol r = false

/-- No row is lost: every filled row contributes its number to the skaters, and without the blank
rows the parser reads the same. -/
structure NoRowLost (sheet : Range) (numCol nameCol : Nat) (rows : List Nat)
    (skaters : List Skater) : Prop where
  listed : ∀ row ∈ rows, IsFilled sheet numCol row →
    ∃ number ∈ skaters.map Skater.number, shownNumber sheet numCol row = some number
  withoutBlanks : rosterLoop sheet numCol nameCol
    (rows.filter fun row => !isBlank sheet numCol row) [] = skaters

/-- Every filled row of the block has a number, and it stands in some row above the first gap. -/
def NoNumberBelowGap (sheet : Range) (numCol : Nat) (rows : List Nat) : Prop :=
  ∀ row ∈ rows, IsFilled sheet numCol row → (shownNumber sheet numCol row).isSome = true ∧
    ∃ row' ∈ rows, shownNumber sheet numCol row' = shownNumber sheet numCol row ∧
      AboveGap sheet numCol rows row'

instance (sheet : Range) (numCol : Nat) (rows : List Nat) :
    Decidable (NoNumberBelowGap sheet numCol rows) :=
  inferInstanceAs (Decidable (∀ row ∈ rows, IsFilled sheet numCol row →
    (shownNumber sheet numCol row).isSome = true ∧
      ∃ row' ∈ rows, shownNumber sheet numCol row' = shownNumber sheet numCol row ∧
        ∀ r ∈ rows, r ≤ row' → endsRoster sheet numCol r = false))

theorem map_number_keptRows (rows : List Nat) (seen : List String) :
    ((keptRows sheet numCol rows seen).map (skaterAt sheet numCol nameCol)).map Skater.number =
      (keptRows sheet numCol rows seen).map (rosterNumber sheet numCol) :=
  List.map_map

/-- The rows above the first gap that a number is read from. -/
theorem mem_numberRows_iff {rows : List Nat} (hrows : rows.Pairwise (· < ·)) {row : Nat} :
    row ∈ (rows.takeWhile (isListed sheet numCol)).filter (hasNumber sheet numCol) ↔
      row ∈ rows ∧ AboveGap sheet numCol rows row ∧ IsFilled sheet numCol row := by
  have habove : AboveGap sheet numCol rows row ↔
      ∀ r ∈ rows, r ≤ row → isListed sheet numCol r = true :=
    forall₃_congr fun r _ _ => by rw [isListed_eq, Bool.not_eq_true']
  rw [List.mem_filter, mem_takeWhile_iff hrows, habove, and_assoc]
  refine and_congr_right fun hmem => and_congr_right fun hall => ?_
  exact hasNumber_iff_isFilled (hall row hmem le_rfl)

/-- The numbers that the parser keeps are those shown by the filled rows above the first gap. -/
theorem mem_numbers_iff {rows : List Nat} (hrows : rows.Pairwise (· < ·)) {number : String} :
    number ∈ (rosterLoop sheet numCol nameCol rows []).map Skater.number ↔
      ∃ row ∈ rows, AboveGap sheet numCol rows row ∧ IsFilled sheet numCol row ∧
        shownNumber sheet numCol row = some number := by
  have hshown : ∀ row ∈ rows, AboveGap sheet numCol rows row →
      shownNumber sheet numCol row = some (rosterNumber sheet numCol row) := by
    intro row hmem habove
    apply shownNumber_of_isListed
    rw [isListed_eq, habove row hmem le_rfl]
    rfl
  rw [rosterLoop_eq, map_number_keptRows, keptRows, mem_map_keepFirst,
    and_iff_left List.not_mem_nil, List.mem_map]
  refine exists_congr fun row => ?_
  rw [mem_numberRows_iff hrows]
  constructor
  · rintro ⟨⟨hmem, habove, hfilled⟩, rfl⟩
    exact ⟨hmem, habove, hfilled, hshown row hmem habove⟩
  · rintro ⟨hmem, habove, hfilled, hnumber⟩
    rw [hshown row hmem habove] at hnumber
    exact ⟨⟨hmem, habove, hfilled⟩, Option.some.inj hnumber⟩

/-- Every filled row contributes its number exactly when no number is listed only below a gap. -/
theorem listed_iff {rows : List Nat} (hrows : rows.Pairwise (· < ·)) :
    (∀ row ∈ rows, IsFilled sheet numCol row →
        ∃ number ∈ (rosterLoop sheet numCol nameCol rows []).map Skater.number,
          shownNumber sheet numCol row = some number) ↔
      NoNumberBelowGap sheet numCol rows := by
  refine forall₃_congr fun row _ hfilled => ?_
  constructor
  · rintro ⟨number, hnumber, hshown⟩
    obtain ⟨row', hmem', habove, -, hshown'⟩ := (mem_numbers_iff hrows).mp hnumber
    exact ⟨Option.isSome_of_eq_some hshown, row', hmem', hshown'.trans hshown.symm, habove⟩
  · rintro ⟨hsome, row', hmem', hsame, habove⟩
    obtain ⟨number, hshown⟩ := Option.isSome_iff_exists.mp hsome
    refine ⟨number, (mem_numbers_iff hrows).mpr ⟨row', hmem', habove, ⟨?_, ?_⟩, ?_⟩, hshown⟩
    · apply isBlank_of_isListed
      rw [isListed_eq, habove row' hmem' le_rfl]
      rfl
    · rw [hsame]
      exact hfilled.2
    · rw [hsame, hshown]

/-- When no number is listed only below a gap, the parser reads the same without the blank
rows. -/
theorem rosterLoop_filter_isBlank {rows : List Nat} (hrows : rows.Pairwise (· < ·))
    (h : NoNumberBelowGap sheet numCol rows) :
    rosterLoop sheet numCol nameCol (rows.filter fun row => !isBlank sheet numCol row) [] =
      rosterLoop sheet numCol nameCol rows [] := by
  -- the rows above the gap are not blank, so those that come to be read stand below it
  have hsplit : (rows.filter fun row => !isBlank sheet numCol row) =
      rows.takeWhile (isListed sheet numCol) ++
        (rows.dropWhile (isListed sheet numCol)).filter fun row => !isBlank sheet numCol row := by
    conv_lhs => rw [← List.takeWhile_append_dropWhile (p := isListed sheet numCol) (l := rows)]
    rw [List.filter_append, List.filter_eq_self.mpr]
    intro row hrow
    rw [isBlank_of_isListed (List.mem_takeWhile_imp hrow)]
    rfl
  have hwhile : ∀ below : List Nat,
      (rows.takeWhile (isListed sheet numCol) ++ below).takeWhile (isListed sheet numCol) =
        rows.takeWhile (isListed sheet numCol) ++ below.takeWhile (isListed sheet numCol) :=
    fun below => List.takeWhile_append_of_pos fun row hrow => List.mem_takeWhile_imp hrow
  rw [rosterLoop_eq, rosterLoop_eq, keptRows, keptRows, hsplit, hwhile, List.filter_append,
    keepFirst_append, List.map_append, List.append_right_eq_self, List.map_eq_nil_iff,
    keepFirst_eq_nil_iff]
  intro row hrow
  obtain ⟨hbelow, hnumber⟩ := List.mem_filter.mp hrow
  have hlisted := List.mem_takeWhile_imp hbelow
  have hmem : row ∈ rows :=
    (List.dropWhile_suffix _).subset
      (List.mem_filter.mp ((List.takeWhile_prefix _).subset hbelow)).1
  obtain ⟨number, hkept, hshown⟩ :
      ∃ number ∈ (rosterLoop sheet numCol nameCol rows []).map Skater.number,
        shownNumber sheet numCol row = some number :=
    (listed_iff hrows).mpr h row hmem ((hasNumber_iff_isFilled hlisted).mp hnumber)
  rw [shownNumber_of_isListed hlisted, Option.some.injEq] at hshown
  rw [rosterLoop_eq, map_number_keptRows, keptRows, mem_map_keepFirst] at hkept
  rw [List.append_nil, hshown]
  exact hkept.1

/-- The skaters that {lit}`parseTeam` reads. -/
theorem parseTeam_skaters {wb : Workbook} {team : TeamData}
    (h : parseTeam wb numCol nameCol firstRow maxSkaters = .ok team) :
    ∃ sheet, wb.worksheetRange "IGRF" = some sheet ∧
      team.skaters =
        rosterLoop sheet numCol nameCol (List.range' firstRow maxSkaters) [] := by
  unfold parseTeam at h
  cases hsheet : wb.worksheetRange "IGRF" with
  | none =>
      rw [hsheet] at h
      cases h
  | some sheet =>
      rw [hsheet] at h
      cases h
      exact ⟨sheet, rfl, rfl⟩

/-- The skaters are read from the sheet that there is. -/
theorem skaters_eq_rosterLoop {wb : Workbook} {team : TeamData} {sheet : Range}
    (hsheet : wb.worksheetRange "IGRF" = some sheet)
    (hteam : parseTeam wb numCol nameCol firstRow maxSkaters = .ok team) :
    team.skaters = rosterLoop sheet numCol nameCol (List.range' firstRow maxSkaters) [] := by
  obtain ⟨sheet', hsheet', hskaters⟩ := parseTeam_skaters hteam
  rw [hsheet] at hsheet'
  cases hsheet'
  exact hskaters

/-- The number of a row has no star behind it. -/
theorem isZeroJamPlayer_rosterNumber (row : Nat) :
    isZeroJamPlayer (rosterNumber sheet numCol row) = false := by
  unfold isZeroJamPlayer rosterNumber
  rw [decide_eq_false_iff_not]
  cases cellStr sheet row numCol with
  | none => exact fun h => nomatch h
  | some rawNumber =>
      rw [Option.map_some, Option.getD_some, starless, String.toList_ofList]
      change (rawNumber.toList.rdropWhile fun c => decide (c = '*')).getLast? ≠ some '*'
      intro hstar
      have hne : (rawNumber.toList.rdropWhile fun c => decide (c = '*')) ≠ [] := by
        intro hnil
        rw [hnil] at hstar
        cases hstar
      rw [List.getLast?_eq_some_getLast hne, Option.some.injEq] at hstar
      exact List.rdropWhile_last_not _ _ hne (decide_eq_true hstar)

/-- The numbers that the parser reads are unique. -/
theorem nodup_numbers {wb : Workbook} {team : TeamData}
    (hteam : parseTeam wb numCol nameCol firstRow maxSkaters = .ok team) (players : List String) :
    ((retainPlayers team players).skaters.map Skater.number).Nodup := by
  obtain ⟨sheet, -, hskaters⟩ := parseTeam_skaters hteam
  have hall : (team.skaters.map Skater.number).Nodup := by
    rw [hskaters, rosterLoop_eq, map_number_keptRows]
    exact nodup_map_keepFirst _ _
  exact hall.sublist (List.filter_sublist.map _)

/-- No roster row is lost exactly when no number is listed only below a gap. -/
theorem noRowLost_iff {wb : Workbook} {team : TeamData}
    (hsheet : wb.worksheetRange "IGRF" = some sheet)
    (hteam : parseTeam wb numCol nameCol firstRow maxSkaters = .ok team) :
    NoRowLost sheet numCol nameCol (List.range' firstRow maxSkaters) team.skaters ↔
      NoNumberBelowGap sheet numCol (List.range' firstRow maxSkaters) := by
  have hascending : (List.range' firstRow maxSkaters).Pairwise (· < ·) :=
    List.pairwise_lt_range'
  rw [skaters_eq_rosterLoop hsheet hteam]
  exact ⟨fun h => (listed_iff hascending).mp h.listed, fun h =>
    ⟨(listed_iff hascending).mpr h, rosterLoop_filter_isBlank hascending h⟩⟩

end Cells

section Store

variable [CellConversions] [Text.UnicodeTables]

/-! ## The stored skaters -/

/-- The number in the key of a stored skater. -/
def keyNumber (key : SkaterKey) : String :=
  (ofLex (ofLex key).2).2

/-- What is stored for a row of a side. -/
def storedRow (f : String) (side : Side) (sheet : Range) (numCol nameCol row : Nat) :
    SkaterKey × StatsbookSkater :=
  (toLex (f, toLex (side, rosterNumber sheet numCol row)),
    { name := rosterName sheet nameCol row,
      nameCanonical := Canon.canonicalizeName (rosterName sheet nameCol row) })

/-- The stored rows of a side are those of some first rows of the block, in its order. -/
def StoresFirstRows (f : String) (side : Side) (sheet : Range) (numCol nameCol firstRow
    maxSkaters : Nat) (rows : List (SkaterKey × StatsbookSkater)) : Prop :=
  ∃ positions : List Nat, positions.Sublist (List.range' firstRow maxSkaters) ∧
    (∀ row ∈ positions, IsFirstRow sheet numCol firstRow row) ∧
    rows = positions.map (storedRow f side sheet numCol nameCol)

variable {wb : Workbook} {sheet : Range} {numCol nameCol firstRow maxSkaters : Nat}
  {team home away : TeamData}

/-- Of the skaters that the parser reads, the parse stage stores some, each with the name in
the first row of the number. -/
theorem storesFirstRows (hsheet : wb.worksheetRange "IGRF" = some sheet)
    (hteam : parseTeam wb numCol nameCol firstRow maxSkaters = .ok team) (players : List String)
    (f : String) (side : Side) :
    StoresFirstRows f side sheet numCol nameCol firstRow maxSkaters
      (skaterRows f side (retainPlayers team players).skaters) := by
  have hskaters := skaters_eq_rosterLoop hsheet hteam
  let kept := keptRows sheet numCol (List.range' firstRow maxSkaters) []
  refine ⟨(kept.filter fun row => players.contains (rosterNumber sheet numCol row)).filter
    fun row => !(rosterName sheet nameCol row).isEmpty, ?_, ?_, ?_⟩
  · have hkept : kept.Sublist (List.range' firstRow maxSkaters) :=
      ((keepFirst_sublist _ _).trans List.filter_sublist).trans (List.takeWhile_sublist _)
    exact (List.filter_sublist.trans List.filter_sublist).trans hkept
  · intro row hrow
    exact isFirstRow_of_mem_keptRows (List.mem_of_mem_filter (List.mem_of_mem_filter hrow))
  · rw [skaterRows, retainPlayers, hskaters, rosterLoop_eq, List.filter_map, List.filter_map,
      List.map_map]
    rfl

omit [CellConversions] in
theorem nodup_keys_skaterRows {skaters : List Skater} (h : (skaters.map Skater.number).Nodup)
    (f : String) (side : Side) : ((skaterRows f side skaters).map Prod.fst).Nodup := by
  have hnamed : ((skaters.filter fun s => !s.name.isEmpty).map Skater.number).Nodup :=
    h.sublist (List.filter_sublist.map _)
  have hkeys : (skaterRows f side skaters).map Prod.fst =
      ((skaters.filter fun s => !s.name.isEmpty).map Skater.number).map fun number =>
        toLex (f, toLex (side, number)) := by
    rw [skaterRows, List.map_map, List.map_map]
    rfl
  rw [hkeys]
  refine hnamed.map fun number number' heq => ?_
  exact congrArg keyNumber heq

/-- The keys of the stored skaters are unique, no number is empty or ends in a star, each number
goes with the name of its first row in the order of the roster, and the rows are always
inserted. -/
theorem rosterRows_unique (hsheet : wb.worksheetRange "IGRF" = some sheet)
    (hhome : parseTeam wb 1 2 13 20 = .ok home) (haway : parseTeam wb 8 9 13 20 = .ok away)
    {homePlayers awayPlayers : List String} {game : GameData}
    (hgameHome : game.home = retainPlayers home homePlayers)
    (hgameAway : game.away = retainPlayers away awayPlayers) (f : String) :
    ((rosterRows f game).map Prod.fst).Nodup ∧
      (∀ r ∈ rosterRows f game, keyNumber r.1 ≠ "" ∧ isZeroJamPlayer (keyNumber r.1) = false) ∧
      StoresFirstRows f .home sheet 1 2 13 20 (skaterRows f .home game.home.skaters) ∧
      StoresFirstRows f .away sheet 8 9 13 20 (skaterRows f .away game.away.skaters) ∧
      ∀ db : Db,
        (insertSkaters (deleteParsedRows db f).statsbookSkaters (rosterRows f game)).isSome =
          true := by
  have hfirstHome := storesFirstRows hsheet hhome homePlayers f .home
  have hfirstAway := storesFirstRows hsheet haway awayPlayers f .away
  rw [← hgameHome] at hfirstHome
  rw [← hgameAway] at hfirstAway
  have hnodup : ((rosterRows f game).map Prod.fst).Nodup := by
    rw [rosterRows, List.map_append, List.nodup_append]
    refine ⟨?_, ?_, ?_⟩
    · rw [hgameHome]
      exact nodup_keys_skaterRows (nodup_numbers hhome homePlayers) f .home
    · rw [hgameAway]
      exact nodup_keys_skaterRows (nodup_numbers haway awayPlayers) f .away
    · obtain ⟨positions, -, -, hrows⟩ := hfirstHome
      obtain ⟨positions', -, -, hrows'⟩ := hfirstAway
      rw [hrows, hrows', List.map_map, List.map_map]
      intro key hkey key' hkey' heq
      obtain ⟨row, -, rfl⟩ := List.mem_map.mp hkey
      obtain ⟨row', -, rfl⟩ := List.mem_map.mp hkey'
      cases congrArg (fun k : SkaterKey => (ofLex (ofLex k).2).1) heq
  refine ⟨hnodup, ?_, hfirstHome, hfirstAway, fun db => ?_⟩
  · have hnumber : ∀ side numCol nameCol rows,
        StoresFirstRows f side sheet numCol nameCol 13 20 rows →
        ∀ r ∈ rows, keyNumber r.1 ≠ "" ∧ isZeroJamPlayer (keyNumber r.1) = false := by
      rintro side numCol nameCol rows ⟨positions, -, hfirst, rfl⟩ r hr
      obtain ⟨row, hrow, rfl⟩ := List.mem_map.mp hr
      refine ⟨fun hempty => ?_, isZeroJamPlayer_rosterNumber row⟩
      have hnumber := (hfirst row hrow).1
      change rosterNumber sheet numCol row = "" at hempty
      rw [hasNumber, hempty] at hnumber
      cases hnumber
    intro r hr
    rcases List.mem_append.mp hr with hr | hr
    · exact hnumber _ _ _ _ hfirstHome r hr
    · exact hnumber _ _ _ _ hfirstAway r hr
  · exact isSome_insertSkaters_rosterRows.mpr hnodup

end Store

/-! ## A roster with stars and one with a gap -/

section Example

attribute [local instance] truncating
attribute [local instance] Text.asciiTables

/-- A workbook that has nothing but an IGRF sheet. -/
def igrfWorkbook (sheet : Range) : Workbook where
  worksheetRange name := if name = "IGRF" then some sheet else none

/-- A roster row with a home skater, and one with an away skater beside it. -/
def rosterCells (homeNumber homeName awayNumber awayName : Data) : List Data :=
  [homeNumber, homeName] ++ List.replicate 5 .empty ++ [awayNumber, awayName]

/-- The home side lists one number twice, once with a star. -/
def starredSheet : Range where
  startRow := 13
  startCol := 1
  cells :=
    [rosterCells (.string "12*") (.string "Ann") (.string "7") (.string "Dee"),
      rosterCells (.string "7**") (.string "Bea") (.string "***") .empty,
      rosterCells (.int 7) (.string "Cat") .empty .empty]

/-- The home side leaves a row between its skaters blank. -/
def gapSheet : Range where
  startRow := 13
  startCol := 1
  cells :=
    [rosterCells (.string "1") (.string "Ann") .empty .empty,
      rosterCells .empty .empty .empty .empty,
      rosterCells (.string "2") (.string "Bea") .empty .empty]

/-- The game of a workbook of which some numbers took part in a jam. -/
def playedGame (home away : TeamData) (homePlayers awayPlayers : List String) : GameData :=
  { Resolve.bareGame 1 0 with
    home := retainPlayers home homePlayers
    away := retainPlayers away awayPlayers }

theorem rosterRows_unique_starredSheet :
    ∃ home away, parseTeam (igrfWorkbook starredSheet) 1 2 13 20 = .ok home ∧
      parseTeam (igrfWorkbook starredSheet) 8 9 13 20 = .ok away ∧
      ((rosterRows "f" (playedGame home away ["12", "7"] ["7"])).map Prod.fst).Nodup ∧
      (rosterRows "f" (playedGame home away ["12", "7"] ["7"])).map (fun r => r.2.name) =
        ["Ann", "Bea", "Dee"] := by
  have hsheet : (igrfWorkbook starredSheet).worksheetRange "IGRF" = some starredSheet := rfl
  refine ⟨_, _, rfl, rfl, ?_, by decide +kernel⟩
  exact (rosterRows_unique hsheet rfl rfl rfl rfl "f").1

/-- The skater below the gap is lost. -/
theorem not_noRowLost :
    ¬ ∀ (wb : Workbook) (sheet : Range) (team : TeamData),
      wb.worksheetRange "IGRF" = some sheet → parseTeam wb 1 2 13 20 = .ok team →
      NoRowLost sheet 1 2 (List.range' 13 20) team.skaters := by
  intro h
  obtain ⟨number, hnumber, hshown⟩ :=
    (h (igrfWorkbook gapSheet) gapSheet _ rfl rfl).listed 15 (by decide) (by decide +kernel)
  have hsecond : shownNumber gapSheet 1 15 = some "2" := by decide +kernel
  rw [hsecond, Option.some.injEq] at hshown
  subst hshown
  revert hnumber
  decide +kernel

theorem noRowLost_starredSheet :
    ∃ team, parseTeam (igrfWorkbook starredSheet) 1 2 13 20 = .ok team ∧
      NoRowLost starredSheet 1 2 (List.range' 13 20) team.skaters := by
  have hsheet : (igrfWorkbook starredSheet).worksheetRange "IGRF" = some starredSheet := rfl
  exact ⟨_, rfl, (noRowLost_iff hsheet rfl).mpr (by decide +kernel)⟩

/-- A roster of one row whose number cell holds this. -/
def oneCellSheet (number : Data) : Range where
  startRow := 13
  startCol := 1
  cells := [rosterCells number (.string "Ann") .empty .empty]

/-- A truth value, an error and the text {lit}`NONE` are not blank, and their rows are lost. -/
example : ∀ cell ∈ [Data.bool true, .error, .string "NONE"],
    ¬ NoNumberBelowGap (oneCellSheet cell) 1 (List.range' 13 20) := by
  decide +kernel

end Example

end Roster
end Statskboo
