import Statskboo.Ingest.DateForms
import Statskboo.Ingest.Library
import Statskboo.Ingest.PenaltySheet
import Statskboo.Ingest.Roster

/-!
# From a filled-in statsbook to the tables

A statsbook is filled in on several sheets: the IGRF sheet has the place and the date of the
game, the two teams with their rosters and the official score, and the jams and the penalties
have sheets of their own.  The types here hold all of it as it is entered, and the relations say
which workbooks carry it.  The summary is read from two more sheets and stays a function of the
workbook.

Main results:

- Theorem {lit}`rosterLoop_of_encodes`: the loop over a roster finds its rows.
- Theorem {lit}`parsed_of_encodes`: a workbook is parsed to the game that it carries.
- Theorem {lit}`stored_of_encodes`: in every state that the ingest reaches the game of such a
  workbook is stored under a listed file, and the tables hold it.
-/

namespace Statskboo
namespace Sheet

open KeyedTable Numbers Parse Transition

/-! ## The game as it is entered -/

/-- A text in a cell: trimmed, and none of the texts that the parser drops. -/
structure CellText where
  text : String
  trimmed : Text.Trimmed text.toList
  nonempty : text.toList ≠ []
  notNone : isNoneText text.toList = false

/-- A row of a roster; a star behind the number says that the skater took part in no jam. -/
structure RosterRow where
  number : SkaterNumber
  star : Bool
  name : Option CellText

/-- A team with its roster, which has each number once. -/
structure SheetTeam where
  league : Option CellText
  team : Option CellText
  color : Option CellText
  roster : List RosterRow
  numbers : (roster.map fun r => r.number.text).Nodup

/-- What a side enters for a jam. -/
def SheetJam.side (jam : SheetJam) : Side → SheetSide
  | .home => jam.home
  | .away => jam.away

/-- The star pass of a side in a jam. -/
def SheetJam.passOf (jam : SheetJam) : Side → Option StarPass
  | .home => jam.starPass.bind StarPassRow.home
  | .away => jam.starPass.bind StarPassRow.away

/-- The points of a side in a jam. -/
def SheetJam.pointsOf (jam : SheetJam) (s : Side) : Nat :=
  points (jam.side s).trips + starPassPoints (jam.passOf s)

/-- The numbers that a side enters for a jam: the jammer, the one who takes the star, and the
lineup. -/
def SheetJam.numbersOf (jam : SheetJam) (s : Side) : List String :=
  ((jam.side s).jammer.map SkaterNumber.text).toList ++
    (((jam.passOf s).bind StarPass.jammer).map SkaterNumber.text).toList ++
    (List.finRange 5).filterMap fun p => ((jam.side s).lineup p).map fun slot => slot.number.text

/-- A game as it is entered; the scores fit their type. -/
structure SheetGame where
  version : String
  venueName : Option CellText
  venueCity : Option CellText
  venueState : Option CellText
  tournament : Option CellText
  hostLeague : Option CellText
  date : Int
  home : SheetTeam
  away : SheetTeam
  period₁ : SheetPeriod
  period₂ : SheetPeriod
  penalties : PenaltySheet
  totals : Option (Nat × Nat)
  totals_fit : ∀ t ∈ totals, t.1 < 2 ^ 15 ∧ t.2 < 2 ^ 15
  jams_fit : ∀ s, (((period₁.jams ++ period₂.jams).map fun jam => jam.pointsOf s).sum) < 2 ^ 15

namespace SheetGame

/-- The jams of both periods. -/
def jams (g : SheetGame) : List SheetJam :=
  g.period₁.jams ++ g.period₂.jams

/-- The points of a side over all jams. -/
def jamPoints (g : SheetGame) (s : Side) : Nat :=
  (g.jams.map fun jam => jam.pointsOf s).sum

/-- The periods of the game. -/
def periods (g : SheetGame) : List Period :=
  [{ number := 1, jams := g.period₁.jams.map jamOf },
    { number := 2, jams := g.period₂.jams.map jamOf }]

end SheetGame

/-- The skater of a roster row. -/
def skaterOf (r : RosterRow) : Skater where
  number := r.number.text
  name := (r.name.map CellText.text).getD ""

/-- A team of the game: either header stands for the other, and of the roster those are kept
who are entered for some jam. -/
def teamOf (team : SheetTeam) (numbers : List String) : TeamData where
  league := (team.league.orElse fun _ => team.team).map CellText.text
  team := (team.team.orElse fun _ => team.league).map CellText.text
  color := team.color.map CellText.text
  skaters := (team.roster.map skaterOf).filter fun s => numbers.contains s.number

/-- The final score of a side: the official one, unless it is missing or zero. -/
def shownScore (total : Option Nat) (jamPoints : Nat) : Nat :=
  match total with
  | none => jamPoints
  | some 0 => jamPoints
  | some (n + 1) => n + 1

/-- The game with a summary. -/
def gameOf (g : SheetGame) (gameSummary : Option GameSummary) : GameData where
  version := g.version
  venue :=
    { name := g.venueName.map CellText.text
      city := g.venueCity.map CellText.text
      state := g.venueState.map CellText.text }
  tournament := g.tournament.map CellText.text
  hostLeague := g.hostLeague.map CellText.text
  home := teamOf g.home (g.jams.flatMap fun jam => jam.numbersOf .home)
  away := teamOf g.away (g.jams.flatMap fun jam => jam.numbersOf .away)
  periods := g.periods
  penalties := penaltiesOf g.penalties
  gameSummary := gameSummary
  homeScore := shownScore (g.totals.map Prod.fst) (g.jamPoints .home)
  awayScore := shownScore (g.totals.map Prod.snd) (g.jamPoints .away)

/-! ## The cells of the IGRF sheet -/

/-- The cell has a text, with white space around it or as a number; a missing text is left
blank, or entered as the word that stands for none. -/
def EncodesText : Option CellText → Option Data → Prop
  | none, cell => NoText cell ∨
      ∃ s, cell = some (.string s) ∧ isNoneText (Text.trim s.toList) = true
  | some t, cell => (∃ s, cell = some (.string s) ∧ Text.trim s.toList = t.text.toList) ∨
      ∃ v : Int, toString v = t.text ∧ -2 ^ 63 ≤ v ∧ v < 2 ^ 63 ∧
        (cell = some (.int v) ∨ cell = some (.float v))

/-- The number of a roster row, with its star. -/
def EncodesRosterNumber (r : RosterRow) (cell : Option Data) : Prop :=
  if r.star then cell = some (.string (r.number.text ++ "*")) else EncodesSkater r.number cell

/-- The roster on the given rows, one skater after another; the row after the last one has no
number. -/
def EncodesRoster (sheet : Range) (numCol nameCol : Nat) : List Nat → List RosterRow → Prop
  | [], [] => True
  | [], _ :: _ => False
  | row :: _, [] => EncodesText none (sheet.getValue row numCol)
  | row :: rows, r :: rs =>
      (EncodesRosterNumber r (sheet.getValue row numCol) ∧
        EncodesText r.name (sheet.getValue row nameCol)) ∧
        EncodesRoster sheet numCol nameCol rows rs

/-- One side of the IGRF sheet: three header cells and room for twenty skaters. -/
structure EncodesTeam (sheet : Range) (metaCol numCol nameCol : Nat) (t : SheetTeam) : Prop where
  league : EncodesText t.league (sheet.getValue 9 metaCol)
  team : EncodesText t.team (sheet.getValue 10 metaCol)
  color : EncodesText t.color (sheet.getValue 11 metaCol)
  roster : EncodesRoster sheet numCol nameCol (List.range' 13 20) t.roster

/-- The cell has the date, or nothing and the name of the file has the date. -/
def EncodesDate [Calendar] (sheet : Range) (fileName : Option String) (date : Int) : Prop :=
  (sheet.getValue 6 1).bind Calendar.asDate = some date ∨
    ((sheet.getValue 6 1).bind Calendar.asDate = none ∧ EncodesText none (sheet.getValue 6 1) ∧
      fileName.bind dateFromFileName = some date)

/-- The row of the official score with its label; without a score one of the cells is blank. -/
def EncodesTotals (sheet : Range) : Option (Nat × Nat) → Prop
  | some (home, away) =>
      (∃ t : CellText, EncodesText t (sheet.getValue 37 0) ∧
        "TOTAL POINTS".toList <:+: t.text.toList) ∧
      EncodesNumber home (sheet.getValue 37 2) ∧ EncodesNumber away (sheet.getValue 37 9)
  | none => Blank (sheet.getValue 37 2) ∨ Blank (sheet.getValue 37 9)

/-- The IGRF sheet of a game. -/
structure EncodesIgrf [Calendar] (sheet : Range) (fileName : Option String) (g : SheetGame) :
    Prop where
  venueName : EncodesText g.venueName (sheet.getValue 2 1)
  venueCity : EncodesText g.venueCity (sheet.getValue 2 8)
  venueState : EncodesText g.venueState (sheet.getValue 2 10)
  tournament : EncodesText g.tournament (sheet.getValue 4 1)
  hostLeague : EncodesText g.hostLeague (sheet.getValue 4 8)
  date : EncodesDate sheet fileName g.date
  home : EncodesTeam sheet 1 1 2 g.home
  away : EncodesTeam sheet 8 8 9 g.away
  totals : EncodesTotals sheet g.totals

/-! ## The workbook -/

/-- A year of four digits. -/
def IsYear (w : List Char) : Prop :=
  w.length = 4 ∧ ∀ c ∈ w, c.isDigit = true

instance (w : List Char) : Decidable (IsYear w) :=
  @instDecidableAnd _ _ _ (List.decidableBAll _ w)

/-- The version is the first year on the first page; it is {lit}`2018` without such a page. -/
def EncodesVersion (wb : Workbook) (version : String) : Prop :=
  (wb.worksheetRange "Read Me" = none ∧ version = "2018") ∨
    ∃ (sheet : Range) (t : CellText) (pre post : List (List Char)),
      wb.worksheetRange "Read Me" = some sheet ∧ EncodesText t (sheet.getValue 2 0) ∧
        Text.splitWhitespace t.text.toList = pre ++ version.toList :: post ∧
        (∀ w ∈ pre, ¬ IsYear w) ∧ IsYear version.toList

/-- The penalties stand on one of two sheets, and the other one is missing where it would be
read. -/
def EncodesPenaltySheets (file : StatsbookFile) (igrf : IgrfCells) (p : PenaltySheet) : Prop :=
  ∃ sheet,
    (EncodesPenalties file "Penalties" igrf sheet p ∧
      (penaltiesOf p = [] → file.wb.worksheetRange "Penalties-Lineups" = none)) ∨
    (EncodesPenalties file "Penalties-Lineups" igrf sheet p ∧
      file.wb.worksheetRange "Penalties" = none)

/-- A workbook that carries a game; the references in the formulas lead into its IGRF sheet. -/
structure EncodesStatsbook [CellConversions] [Calendar] (file : StatsbookFile)
    (fileName : Option String) (igrf : IgrfCells) (g : SheetGame) : Prop where
  version : EncodesVersion file.wb g.version
  header : ∃ sheet, file.wb.worksheetRange "IGRF" = some sheet ∧ EncodesIgrf sheet fileName g
  jams : ∃ score lineups, EncodesGame file.wb score lineups g.period₁ g.period₂
  cells : readIgrfCells file.wb = .ok igrf
  penalties : EncodesPenaltySheets file igrf g.penalties

/-! ## Reading a roster back -/

/-- A number does not end in a star, so that there is nothing to strip. -/
theorem starless_number (n : SkaterNumber) : Roster.starless n.text = n.text := by
  have hlast : n.text.toList.reverse.head? ≠ some '*' := by
    rw [List.head?_reverse]
    exact of_decide_eq_false n.played
  have hkept : (n.text.toList.reverse.dropWhile fun c => decide (c = '*')) =
      n.text.toList.reverse := by
    cases hrev : n.text.toList.reverse with
    | nil => rfl
    | cons c rest =>
        rw [hrev] at hlast
        rw [List.dropWhile_cons, if_neg]
        simpa using hlast
  rw [Roster.starless, hkept, List.reverse_reverse, String.ofList_toList]

theorem starless_append_star (s : String) : Roster.starless (s ++ "*") = Roster.starless s := by
  unfold Roster.starless
  rw [String.toList_append, List.reverse_append]
  rfl

/-- A number with a star behind it is a text that the parser keeps. -/
theorem starred_isText (n : SkaterNumber) :
    Text.Trimmed (n.text ++ "*").toList ∧ isNoneText (n.text ++ "*").toList = false := by
  rw [String.toList_append]
  refine ⟨⟨?_, ?_⟩, ?_⟩
  · rw [List.head?_append_of_ne_nil _ n.nonempty]
    exact n.trimmed.1
  · intro c hc
    obtain rfl : '*' = c := by simpa using hc
    decide
  · rw [isNoneText, Text.eqIgnoreAsciiCase, beq_eq_false_iff_ne]
    intro heq
    have hlast := congrArg List.getLast? heq
    rw [List.map_append, List.getLast?_append_of_ne_nil _ (by decide)] at hlast
    exact absurd hlast (by decide)

section Cells

variable [CellConversions] {sheet : Range} {row col metaCol numCol nameCol : Nat}

/-- A text is read back, however it is entered. -/
theorem cellStr_of_encodesText {t : Option CellText}
    (h : EncodesText t (sheet.getValue row col)) :
    cellStr sheet row col = t.map CellText.text := by
  cases t with
  | none =>
      rcases h with h | ⟨s, h, hnone⟩
      · exact cellStr_of_noText h
      · rw [cellStr_of_string h, hnone, Bool.or_true, if_pos rfl]
        rfl
  | some t =>
      rcases h with ⟨s, h, htrim⟩ | ⟨v, hv, h₀, h₁, h | h⟩
      · rw [cellStr_of_string h, htrim]
        simp [t.nonempty, t.notNone]
      · unfold cellStr
        rw [h]
        exact congrArg some hv
      · simp [cellStr, h, floatToIntStr, clampI64_eq_self h₀ h₁, hv]

/-- The number of a roster row is read back without its star. -/
theorem cellStr_of_encodesRosterNumber {r : RosterRow}
    (h : EncodesRosterNumber r (sheet.getValue row numCol)) :
    ∃ rawNumber, cellStr sheet row numCol = some rawNumber ∧
      Roster.starless rawNumber = r.number.text := by
  unfold EncodesRosterNumber at h
  split_ifs at h with hstar
  · obtain ⟨htrimmed, hnone⟩ := starred_isText r.number
    refine ⟨r.number.text ++ "*", ?_, ?_⟩
    · rw [cellStr_of_string h, Text.trim_eq_self htrimmed, hnone]
      simp
    · rw [starless_append_star, starless_number]
  · exact ⟨r.number.text, cellStr_of_encodes h, starless_number r.number⟩

/-- The loop over a roster finds its rows, one after another. -/
theorem rosterLoop_of_encodes {rows : List Nat} {rs : List RosterRow} {seen : List String}
    (h : EncodesRoster sheet numCol nameCol rows rs)
    (hnodup : (rs.map fun r => r.number.text).Nodup)
    (hseen : ∀ r ∈ rs, r.number.text ∉ seen) :
    rosterLoop sheet numCol nameCol rows seen = rs.map skaterOf := by
  induction rows generalizing rs seen with
  | nil =>
      cases rs with
      | nil => rfl
      | cons r rs => exact absurd h not_false
  | cons row rows ih =>
      cases rs with
      | nil =>
          rw [rosterLoop, cellStr_of_encodesText h]
          rfl
      | cons r rs =>
          obtain ⟨⟨hnumber, hname⟩, hrest⟩ := h
          obtain ⟨rawNumber, hcell, hstarless⟩ := cellStr_of_encodesRosterNumber hnumber
          have hrow : Roster.rosterNumber sheet numCol row = r.number.text := by
            rw [Roster.rosterNumber, hcell, Option.map_some, hstarless, Option.getD_some]
          have hhas : Roster.hasNumber sheet numCol row = true := by
            rw [Roster.hasNumber, hrow]
            simpa using r.number.nonempty
          have hlisted : Roster.isListed sheet numCol row = true :=
            Option.isSome_iff_exists.mpr ⟨rawNumber, hcell⟩
          have hskater : Roster.skaterAt sheet numCol nameCol row = skaterOf r := by
            rw [Roster.skaterAt, hrow, Roster.rosterName, cellStr_of_encodesText hname]
            rfl
          rw [List.map_cons, List.nodup_cons] at hnodup
          rw [List.forall_mem_cons] at hseen
          rw [Roster.rosterLoop_of_listed hlisted, hrow, if_pos ⟨hhas, hseen.1⟩, hskater,
            List.map_cons, ih hrest hnodup.2]
          intro r' hr'
          rw [List.mem_cons, not_or]
          exact ⟨fun heq => hnodup.1 (heq ▸ List.mem_map_of_mem hr'), hseen.2 r' hr'⟩

/-- A side of the IGRF sheet is read back, with the whole roster. -/
theorem parseTeam_of_encodes {wb : Workbook} {t : SheetTeam}
    (hsheet : wb.worksheetRange "IGRF" = some sheet)
    (h : EncodesTeam sheet metaCol numCol nameCol t)
    (hmeta : (if numCol = 1 then 1 else 8) = metaCol) (numbers : List String) :
    ∃ team, parseTeam wb numCol nameCol 13 20 = .ok team ∧
      retainPlayers team numbers = teamOf t numbers := by
  refine ⟨_, by rw [parseTeam, hsheet], ?_⟩
  rw [retainPlayers, teamOf, hmeta, cellStr_of_encodesText h.league,
    cellStr_of_encodesText h.team, cellStr_of_encodesText h.color,
    rosterLoop_of_encodes h.roster t.numbers fun _ _ => List.not_mem_nil]
  cases t.league <;> cases t.team <;> rfl

/-! ## Reading the rest of the IGRF sheet back -/

omit [CellConversions] in
/-- A marker that stands in a text is found. -/
theorem isSome_afterFirst {marker s : List Char} (h : marker <:+: s) :
    (Text.afterFirst marker s).isSome = true := by
  induction s with
  | nil =>
      rw [List.infix_nil] at h
      rw [h]
      rfl
  | cons c s ih =>
      rw [Text.afterFirst]
      split_ifs with hprefix
      · rfl
      · rcases List.infix_cons_iff.mp h with hstart | hlater
        · exact absurd (List.isPrefixOf_iff_prefix.mpr hstart) hprefix
        · exact ih hlater

theorem igrfDate_of_encodes [Calendar] {fileName : Option String} {date : Int}
    (h : EncodesDate sheet fileName date) : igrfDate sheet fileName = some date := by
  rcases h with hdate | ⟨hno, hblank, hname⟩
  · rw [igrfDate, hdate]
  · rw [igrfDate_of_no_date hno, cellStr_of_encodesText hblank, hname]
    rfl

/-- The official score is read back, and is missing where one of its cells is blank. -/
theorem parseIgrfScores_of_encodes (hdoc : Documented) {wb : Workbook}
    {totals : Option (Nat × Nat)} (hsheet : wb.worksheetRange "IGRF" = some sheet)
    (hfit : ∀ t ∈ totals, t.1 < 2 ^ 15 ∧ t.2 < 2 ^ 15) (h : EncodesTotals sheet totals) :
    parseIgrfScores wb = totals.map fun t => ((t.1 : Int), (t.2 : Int)) := by
  unfold parseIgrfScores igrfTotals
  rw [hsheet]
  cases totals with
  | none =>
      rw [Option.map_none, Option.map_eq_none_iff]
      cases hlabel : cellStr sheet 37 0 with
      | none => rw [Option.bind_eq_bind, Option.bind_some, hlabel]; rfl
      | some label =>
          rw [Option.bind_eq_bind, Option.bind_some, hlabel, Option.bind_eq_bind, Option.bind_some]
          split_ifs with hno
          · rfl
          · rcases h with h | h
            · rw [asI64_of_blank hdoc h]
              rfl
            · rw [asI64_of_blank hdoc h]
              cases (sheet.getValue 37 2).bind CellConversions.asI64 <;> rfl
  | some t =>
      obtain ⟨home, away⟩ := t
      obtain ⟨⟨label, hlabel, hmarker⟩, hhome, haway⟩ := h
      obtain ⟨hlt, hlt'⟩ := hfit _ rfl
      have hfound := isSome_afterFirst hmarker
      have hhere : ¬ (Text.afterFirst "TOTAL POINTS".toList label.text.toList).isNone = true := by
        rw [Option.isNone_iff_eq_none, ← Option.not_isSome_iff_eq_none, not_not]
        exact hfound
      rw [Option.bind_eq_bind, Option.bind_some, cellStr_of_encodesText hlabel, Option.map_some,
        Option.bind_eq_bind, Option.bind_some, if_neg hhere,
        asI64_of_number hdoc (by omega) hhome, asI64_of_number hdoc (by omega) haway]
      change some (wrapI16 home, wrapI16 away) = some ((home : Int), (away : Int))
      rw [wrapI16_eq_self (by omega) (by omega), wrapI16_eq_self (by omega) (by omega)]

theorem parseVersion_of_encodes {wb : Workbook} {version : String}
    (h : EncodesVersion wb version) : parseVersion wb = version := by
  rcases h with ⟨hmissing, rfl⟩ | ⟨sheet, t, pre, post, hsheet, ht, hwords, hpre, hyear⟩
  · rw [parseVersion, hmissing]
    rfl
  · have hfind : (Text.splitWhitespace t.text.toList).find? (fun s =>
        decide (s.length = 4) && s.all Char.isDigit) = some version.toList := by
      rw [hwords, List.find?_append, List.find?_eq_none.mpr, Option.none_or, List.find?_cons]
      · have hthis : (decide (version.toList.length = 4) && version.toList.all Char.isDigit) =
            true := by
          rw [Bool.and_eq_true, decide_eq_true_iff, List.all_eq_true]
          exact hyear
        rw [hthis]
      · intro w hw hfour
        rw [Bool.and_eq_true, decide_eq_true_iff, List.all_eq_true] at hfour
        exact hpre w hw hfour
    rw [parseVersion, hsheet, Option.bind_some, cellStr_of_encodesText ht, Option.map_some]
    dsimp only
    rw [hfind]
    exact String.ofList_toList

/-! ## The jams and the penalties -/

theorem parsePeriods_eq_periods (hdoc : Documented) {wb : Workbook} {score lineups : Range}
    (g : SheetGame) (h : EncodesGame wb score lineups g.period₁ g.period₂) :
    parsePeriods wb = .ok g.periods := by
  have hscores : parseScores wb = .ok [{ number := 1, jams := g.period₁.jams.map scoreJamOf },
      { number := 2, jams := g.period₂.jams.map scoreJamOf }] := by
    simp [parseScores, h.scoreSheet, scoreDefs, parseJams_of_encodes hdoc g.period₁ h.scores₁,
      parseJams_of_encodes hdoc g.period₂ h.scores₂, g.period₁.nonempty, g.period₂.nonempty]
  have hmerge : ∀ a b : Period, mergeLineups wb [a, b] =
      [mergePeriod lineups 3 1 27 a, mergePeriod lineups 45 1 27 b] := by
    intro a b
    rw [mergeLineups, h.lineupsSheet]
    rfl
  rw [parsePeriods, hscores]
  change Except.ok (mergeLineups wb _) = _
  rw [hmerge, mergePeriod_of_encodes g.period₁ h.lineups₁,
    mergePeriod_of_encodes g.period₂ h.lineups₂]
  rfl

omit [CellConversions] in
theorem side_jamOf (jam : SheetJam) (s : Side) :
    (jamOf jam).side s = sideOf (jam.side s) (jam.passOf s) := by
  cases s <;> rfl

omit [CellConversions] in
theorem flatMap_jams_periods (g : SheetGame) :
    g.periods.flatMap Period.jams = g.jams.map jamOf := by
  rw [SheetGame.jams, List.map_append]
  exact congrArg _ (List.append_nil _)

omit [CellConversions] in
/-- The players who take part are those who are entered. -/
theorem playersInJams_periods (g : SheetGame) (s : Side) :
    playersInJams g.periods s = g.jams.flatMap fun jam => jam.numbersOf s := by
  rw [playersInJams, flatMap_jams_periods, List.flatMap_map]
  refine List.flatMap_congr fun jam _ => ?_
  dsimp only
  rw [side_jamOf, SheetJam.numbersOf, sideOf, lineupOf, List.map_filterMap]
  congr 2
  funext p
  rw [Option.map_map]
  rfl

omit [CellConversions] in
/-- The score of a side over the jams fits its type and is exact. -/
theorem periodsScore_periods (g : SheetGame) (s : Side) :
    periodsScore g.periods s = (g.jamPoints s : Int) := by
  have hscores : (g.periods.flatMap Period.jams).map (fun j => (j.side s).score) =
      (g.jams.map fun jam => jam.pointsOf s).map Nat.cast := by
    rw [flatMap_jams_periods, List.map_map, List.map_map]
    refine List.map_congr_left fun jam _ => ?_
    rw [Function.comp_apply, side_jamOf]
    rfl
  have hfits : g.jamPoints s < 2 ^ 15 := g.jams_fit s
  rw [periodsScore, hscores, sumI16_eq_sum, ← Nat.cast_list_sum]
  · rfl
  · intro x hx
    obtain ⟨n, -, rfl⟩ := List.mem_map.mp hx
    exact Int.natCast_nonneg n
  · rw [← Nat.cast_list_sum]
    exact_mod_cast hfits

theorem parsePenalties_of_sheets (hdoc : Documented) {file : StatsbookFile} {igrf : IgrfCells}
    {p : PenaltySheet} (h : EncodesPenaltySheets file igrf p) :
    parsePenalties file igrf = penaltiesOf p := by
  obtain ⟨sheet, ⟨hsheet, hother⟩ | ⟨hsheet, hmissing⟩⟩ := h
  · rw [parsePenalties, parsePenaltiesSheet_of_encodes hdoc hsheet]
    split_ifs with hempty
    · rw [List.isEmpty_iff] at hempty
      rw [parsePenaltiesSheet, hother hempty, hempty]
    · rfl
  · have hnothing : parsePenaltiesSheet file "Penalties" igrf = [] := by
      rw [parsePenaltiesSheet, hmissing]
    rw [parsePenalties, hnothing, parsePenaltiesSheet_of_encodes hdoc hsheet]
    rfl

omit [CellConversions] in
theorem finalScore_eq_shownScore (total : Option Nat) (jamPoints : Nat) :
    finalScore ((total.map Nat.cast).getD (jamPoints : Int)) jamPoints =
      (shownScore total jamPoints : Int) := by
  unfold finalScore
  rcases total with _ | _ | n
  · rw [Option.map_none, Option.getD_none, ite_self]
    rfl
  · rw [Option.map_some, Option.getD_some, shownScore]
    split_ifs <;> omega
  · rw [Option.map_some, Option.getD_some, shownScore, if_neg (by omega)]

/-! ## From the workbook to the tables -/

/-- A workbook is parsed to the game that it carries. -/
theorem parsed_of_encodes [Calendar] (hdoc : Documented) {file : StatsbookFile}
    {fileName : Option String} {igrf : IgrfCells} {g : SheetGame}
    (h : EncodesStatsbook file fileName igrf g) :
    parseStatsbookWithDate (some file) fileName =
      .ok (gameOf g (gameSummaryOf file igrf g.periods), some g.date) := by
  obtain ⟨sheet, hsheet, higrf⟩ := h.header
  obtain ⟨score, lineups, hjams⟩ := h.jams
  have hvenue : parseVenue file.wb = .ok
      { name := g.venueName.map CellText.text
        city := g.venueCity.map CellText.text
        state := g.venueState.map CellText.text } := by
    rw [parseVenue, hsheet, ← cellStr_of_encodesText higrf.venueName,
      ← cellStr_of_encodesText higrf.venueCity, ← cellStr_of_encodesText higrf.venueState]
  have hmeta : parseIgrfMeta file.wb fileName = .ok (g.tournament.map CellText.text,
      g.hostLeague.map CellText.text, some g.date) := by
    rw [parseIgrfMeta, hsheet, ← cellStr_of_encodesText higrf.tournament,
      ← cellStr_of_encodesText higrf.hostLeague, ← igrfDate_of_encodes higrf.date]
  obtain ⟨home, hhome, hkeptHome⟩ := parseTeam_of_encodes hsheet higrf.home rfl
    (g.jams.flatMap fun jam => jam.numbersOf .home)
  obtain ⟨away, haway, hkeptAway⟩ := parseTeam_of_encodes hsheet higrf.away rfl
    (g.jams.flatMap fun jam => jam.numbersOf .away)
  have hscores := parseIgrfScores_of_encodes hdoc hsheet g.totals_fit higrf.totals
  rw [parseStatsbookWithDate, hvenue, hmeta, hhome, haway, parsePeriods_eq_periods hdoc g hjams,
    h.cells, parseVersion_of_encodes h.version]
  change Except.ok (GameData.mk g.version _ _ _ (retainPlayers home _) (retainPlayers away _)
    g.periods _ _ _ _, some g.date) = Except.ok (gameOf g _, some g.date)
  rw [playersInJams_periods, playersInJams_periods, hkeptHome, hkeptAway,
    parsePenalties_of_sheets hdoc h.penalties, hscores, periodsScore_periods, periodsScore_periods]
  unfold gameOf
  rw [← finalScore_eq_shownScore, ← finalScore_eq_shownScore]
  cases g.totals <;> rfl

omit [CellConversions] in
/-- The game of a workbook has jams, and its rosters have each number once. -/
theorem storable_gameOf (g : SheetGame) (gameSummary : Option GameSummary) :
    hasNoGameData (gameOf g gameSummary) = false ∧ NumbersOnce (gameOf g gameSummary) := by
  have honce : ∀ (t : SheetTeam) (numbers : List String),
      ((named (teamOf t numbers).skaters).map Skater.number).Nodup := by
    intro t numbers
    have hroster : ((t.roster.map skaterOf).map Skater.number).Nodup := by
      rw [List.map_map]
      exact t.numbers
    refine hroster.sublist (List.Sublist.map _ ?_)
    exact List.filter_sublist.trans List.filter_sublist
  refine ⟨?_, honce g.home _, honce g.away _⟩
  have hplayed : g.periods.all (fun p => p.jams.isEmpty) = false := by
    simp [SheetGame.periods, g.period₁.nonempty]
  change ((g.periods.all fun p => p.jams.isEmpty) && _ && _ && _) = false
  rw [hplayed, Bool.false_and, Bool.false_and, Bool.false_and]

/-- A workbook that carries a game is parsed to it, and in every state that the ingest reaches
the game is stored under each file that is listed, so that the tables hold it. -/
theorem stored_of_encodes [Calendar] [Text.UnicodeTables] [Rounding] (hdoc : Documented)
    {file : StatsbookFile} {fileName : Option String} {igrf : IgrfCells} {g : SheetGame}
    (h : EncodesStatsbook file fileName igrf g) {steps : List Visibility.Step} {db : Db}
    (hrun : run Visibility.step Db.empty steps = some db) {f : String}
    (hlisted : db.statsbooks.has f = true) :
    ∃ game, parseStatsbookWithDate (some file) fileName = .ok (game, some g.date) ∧
      game = gameOf g (gameSummaryOf file igrf g.periods) ∧
      ∃ db' outcome, storeParsedGame db f game (some g.date) = some (db', outcome) ∧
        Holds db' f game g.date := by
  obtain ⟨hdata, honce⟩ := storable_gameOf g (gameSummaryOf file igrf g.periods)
  refine ⟨_, parsed_of_encodes hdoc h, rfl, ?_⟩
  have hrep := (represents_run Db.consistent_empty represents_empty hrun).2
  have hlib : ((steps.foldl Library.step Library.empty).listed f).isSome = true := by
    rw [← hrep.listed, Option.isSome_map]
    exact hlisted
  obtain ⟨⟨db', outcome⟩, hstore⟩ := (exists_storeParsedGame_iff hrep hdata (some g.date)).mpr
    ⟨⟨g.date, rfl⟩, hlib, honce⟩
  exact ⟨db', outcome, hstore, holds_storeParsedGame hdata rfl hstore⟩

end Cells

/-! ## A statsbook with a stale total -/

section Example

attribute [local instance] truncating
attribute [local instance] gregorian
attribute [local instance] Text.asciiTables
attribute [local instance] f64

/-- A name of a place, a team or a skater. -/
def cellText (text : String) (h : Text.Trimmed text.toList ∧ text.toList ≠ [] ∧
    isNoneText text.toList = false) : CellText :=
  ⟨text, h.1, h.2.1, h.2.2⟩

/-- A game whose official score leaves the away side at zero; one skater took part in no jam. -/
def wholeGame : SheetGame where
  version := "2019"
  venueName := some (cellText "Hangar" (by decide))
  venueCity := none
  venueState := none
  tournament := none
  hostLeague := none
  date := 753853
  home :=
    { league := some (cellText "Rose City" (by decide))
      team := none
      color := none
      roster :=
        [⟨skater12, false, some (cellText "Ann" (by decide))⟩,
          ⟨skater34, false, some (cellText "Bea" (by decide))⟩,
          ⟨numberSeven, true, some (cellText "Cat" (by decide))⟩]
      numbers := by decide }
  away :=
    { league := none
      team := some (cellText "Rovers" (by decide))
      color := none
      roster := [⟨skater12, false, some (cellText "Dee" (by decide))⟩, ⟨skater34, false, none⟩]
      numbers := by decide }
  period₁ := passPeriod
  period₂ := keptPeriod
  penalties :=
    { home₁ := [⟨skater12,
        fun c => if c.val = 0 then some (blockPenalty (some 2) (by decide)) else none, none⟩]
      away₁ := []
      home₂ := []
      away₂ := [] }
  totals := some (9, 0)
  totals_fit := by decide
  jams_fit s := by cases s <;> decide

/-- The IGRF sheet of the game. -/
def wholeIgrf : Range where
  startRow := 2
  startCol := 0
  cells :=
    [[.empty, .string "Hangar"]] ++ List.replicate 6 [] ++
      [[.empty, .string "Rose City"], List.replicate 8 .empty ++ [.string " Rovers "], [], [],
        .empty :: Roster.rosterCells (.string "12") (.string "Ann") (.int 12) (.string "Dee"),
        .empty :: Roster.rosterCells (.int 34) (.string "Bea ") (.float 34) .empty,
        .empty :: Roster.rosterCells (.string "7*") (.string "Cat") .empty .empty] ++
      List.replicate 21 [] ++
      [[.string "TOTAL POINTS", .empty, .int 9] ++ List.replicate 6 .empty ++ [.float 0]]

/-- The Penalties sheet of the game. -/
def wholePenalties : Range where
  startRow := 3
  startCol := 0
  cells := [[.string "12", .string "B"], [.empty, .int 2]]

/-- The title on the first page of the statsbook. -/
def wholeTitle : CellText :=
  cellText "Statsbook 2019 Edition" (by decide +kernel)

/-- The first page of the statsbook. -/
def wholeReadMe : Range where
  startRow := 2
  startCol := 0
  cells := [[.string wholeTitle.text]]

/-- The file with the five sheets. -/
def wholeFile : StatsbookFile where
  wb.worksheetRange name :=
    if name = "IGRF" then some wholeIgrf
    else if name = "Penalties" then some wholePenalties
    else if name = "Read Me" then some wholeReadMe
    else passWorkbook.worksheetRange name
  formulas _ := none
  evaluated := none

/-- What the references lead to. -/
def wholeCells : IgrfCells :=
  match readIgrfCells wholeFile.wb with
  | .ok igrf => igrf
  | .error _ => Table.empty

theorem encodesText_none {cell : Option Data} (h : Blank cell) : EncodesText none cell :=
  Or.inl (Or.inl h)

theorem encodesIgrf_wholeIgrf :
    EncodesIgrf wholeIgrf (some "STATS-2026-06-27_a_vs_b.xlsx") wholeGame where
  venueName := Or.inl ⟨_, rfl, by decide⟩
  venueCity := encodesText_none (by decide +kernel)
  venueState := encodesText_none (by decide +kernel)
  tournament := encodesText_none (by decide +kernel)
  hostLeague := encodesText_none (by decide +kernel)
  date := Or.inr ⟨rfl, encodesText_none (by decide +kernel), by decide +kernel⟩
  home :=
    { league := Or.inl ⟨_, rfl, by decide⟩
      team := encodesText_none (by decide +kernel)
      color := encodesText_none (by decide +kernel)
      roster := ⟨⟨Or.inl rfl, Or.inl ⟨_, rfl, by decide⟩⟩,
        ⟨Or.inr ⟨34, by decide, by decide, by decide, Or.inl rfl⟩, Or.inl ⟨_, rfl, by decide⟩⟩,
        ⟨rfl, Or.inl ⟨_, rfl, by decide⟩⟩, encodesText_none (by decide +kernel)⟩ }
  away :=
    { league := encodesText_none (by decide +kernel)
      team := Or.inl ⟨_, rfl, by decide⟩
      color := encodesText_none (by decide +kernel)
      roster := ⟨⟨Or.inr ⟨12, by decide, by decide, by decide, Or.inl rfl⟩,
          Or.inl ⟨_, rfl, by decide⟩⟩,
        ⟨Or.inr ⟨34, by decide, by decide, by decide, Or.inr rfl⟩,
          encodesText_none (by decide +kernel)⟩, encodesText_none (by decide +kernel)⟩ }
  totals := ⟨⟨cellText "TOTAL POINTS" (by decide), Or.inl ⟨_, rfl, by decide⟩, List.infix_rfl⟩,
    Or.inl rfl, Or.inr rfl⟩

theorem encodes_wholeFile :
    EncodesStatsbook wholeFile (some "STATS-2026-06-27_a_vs_b.xlsx") wholeCells wholeGame where
  version := Or.inr ⟨wholeReadMe, wholeTitle, ["Statsbook".toList], ["Edition".toList], rfl,
    Or.inl ⟨_, rfl, Text.trim_eq_self wholeTitle.trimmed⟩, by decide +kernel,
    by decide +kernel, by decide +kernel⟩
  header := ⟨wholeIgrf, rfl, encodesIgrf_wholeIgrf⟩
  jams := by
    have h := encodes_passWorkbook
    exact ⟨scoreSheet, lineupsSheet, rfl, rfl, h.scores₁, h.scores₂, h.lineups₁, h.lineups₂⟩
  cells := rfl
  penalties := by
    have none : ∀ {row col}, Blank (wholePenalties.getValue row col) →
        NoNumberCell wholePenalties (wholeFile.formulas "Penalties") wholeCells row col :=
      fun h => ⟨Or.inl h, fun formula hformula => (by cases hformula)⟩
    refine ⟨wholePenalties, Or.inl ⟨⟨rfl, ⟨⟨Or.inl (Or.inl rfl), fun c => ?_, ?_⟩, ?_⟩, ?_, ?_, ?_⟩,
      fun _ => rfl⟩⟩
    · change EncodesPenalty _ _ _ (if c.val = 0 then _ else Option.none)
      split_ifs with hc
      · obtain rfl : c = 0 := Fin.ext hc
        exact ⟨rfl, Or.inl rfl⟩
      · exact Or.inl (by revert c; decide +kernel)
    · exact Or.inl (by decide +kernel)
    · exact none (by decide +kernel)
    · exact none (by decide +kernel)
    · exact none (by decide +kernel)
    · exact none (by decide +kernel)

/-- The file of the statsbook is listed. -/
def listedRun : List Visibility.Step :=
  [.stage (.upsertStatsbook 1 "f" "f.xlsx" none none 10)]

/-- The stale zero gives way to the points of the jams, and the starred skater is left out. -/
theorem stored_of_encodes_wholeFile :
    ∃ game, parseStatsbookWithDate (some wholeFile) (some "STATS-2026-06-27_a_vs_b.xlsx") =
        .ok (game, some 753853) ∧
      (game.homeScore, game.awayScore) = (9, 2) ∧
      game.home.skaters.map Skater.number = ["12", "34"] ∧
      ∃ db' outcome, storeParsedGame (Visibility.stateAfter listedRun) "f" game (some 753853) =
        some (db', outcome) ∧ Holds db' "f" game 753853 := by
  have hrun : run Visibility.step Db.empty listedRun = some (Visibility.stateAfter listedRun) :=
    Visibility.run_stateAfter (by decide +kernel)
  obtain ⟨game, hparsed, rfl, hstored⟩ :=
    stored_of_encodes documented_truncating encodes_wholeFile hrun
      (show (Visibility.stateAfter listedRun).statsbooks.has "f" = true by decide +kernel)
  exact ⟨_, hparsed, by decide +kernel, by decide +kernel, hstored⟩

end Example

end Sheet
end Statskboo
