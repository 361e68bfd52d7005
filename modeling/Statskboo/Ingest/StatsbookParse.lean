import Statskboo.Db.Schema

/-!
# Storing parsed statsbooks

The parse stage replaces everything a file stored before by what the parser made of
its bytes, in one transaction.  An unfilled placeholder stores nothing and clears
what was stored.

Main results:

- Theorem {lit}`storeParsedGame_stored`: a parsed game is stored with both of its
  sides, unassigned.
- Theorem {lit}`storeParsedGame_skipped`: a placeholder leaves nothing but the match
  of the file.
- Theorem {lit}`consistent_storeParsedGame`: storing keeps the foreign keys.
-/

namespace Statskboo
namespace Parse

open KeyedTable Canon

/-- The version of the parser. -/
def parserVersion : Int := 24

/-- Whether a parsed statsbook has no recorded game data: an unfilled placeholder. -/
def hasNoGameData (game : GameData) : Bool :=
  (game.periods.all fun p => p.jams.isEmpty) && game.penalties.isEmpty
    && decide (game.homeScore = 0) && decide (game.awayScore = 0)

/-- The team data of a side. -/
def teamData (game : GameData) : Side → TeamData
  | .home => game.home
  | .away => game.away

/-- What {lit}`storeParsedGame` did with one statsbook. -/
inductive ParseOutcome where
  | parsed (sides skaters summaries : Nat)
  | skippedEmpty
deriving DecidableEq, Repr

/-- Delete the parsed rows of a file; skaters go with their sides and summaries with
the game. -/
def deleteParsedRows (db : Db) (f : String) : Db :=
  { db with
    statsbookSides := db.statsbookSides.filter fun k _ => decide ((ofLex k).1 ≠ f)
    statsbookSkaters := db.statsbookSkaters.filter fun k _ => decide ((ofLex k).1 ≠ f)
    statsbookSummary := db.statsbookSummary.filter fun k _ => decide ((ofLex k).1 ≠ f)
    statsbookGames := db.statsbookGames.erase f }

/-- Record the result of the parse stage on the row of a file. -/
def updateStatus (db : Db) (f : String) (update : DriveFile → DriveFile) : Db :=
  { db with statsbooks := db.statsbooks.modify f update }

/-- Mark a statsbook skipped, clearing any parsed rows it previously had. -/
def markSkipped (db : Db) (f : String) (reason : Option String) : Db :=
  updateStatus (deleteParsedRows db f) f fun row =>
    { row with
      parseStatus := ParseStatus.skipped
      parserVersion := some parserVersion
      parseError := reason }

/-- Record a parse or download failure on the row of a file. -/
def setFailed (db : Db) (f error : String) : Db :=
  updateStatus db f fun row =>
    { row with parseStatus := ParseStatus.failed, parseError := some error }

section Store

variable [Text.UnicodeTables]

/-- The side row of a parsed statsbook; the resolver assigns the team later. -/
def sideRow (side : TeamData) : StatsbookSide where
  wftdaTeamId := none
  league := side.league
  team := side.team
  color := side.color
  leagueCanonical := canonicalizeLeague (side.league.getD "")
  teamCanonical := canonicalizeTeam side.league (side.team.getD "")

/-- The roster rows of a side; rows without a name are not searchable identities. -/
def skaterRows (f : String) (side : Side) (skaters : List Skater) :
    List (SkaterKey × StatsbookSkater) :=
  (skaters.filter fun s => !s.name.isEmpty).map fun s =>
    (toLex (f, toLex (side, s.number)),
      { name := s.name, nameCanonical := canonicalizeName s.name })

/-- {lit}`INSERT INTO statsbook_skaters`: a number that occurs twice on a side violates
the primary key. -/
def insertSkaters (t : Table SkaterKey StatsbookSkater) :
    List (SkaterKey × StatsbookSkater) → Option (Table SkaterKey StatsbookSkater)
  | [] => some t
  | (key, row) :: rows => if t.has key then none else insertSkaters (t.upsert key row) rows

/-- The summary rows of a parsed statsbook. -/
def summaryRows (game : GameData) : List (Side × SideStats) :=
  match game.gameSummary with
  | none => []
  | some g =>
      [(Side.home, { players := g.homePlayers, totals := g.homeTotals }),
        (Side.away, { players := g.awayPlayers, totals := g.awayTotals })]

/-- Store an already parsed statsbook.  There is none when the statsbook has no date or
a constraint rejects a row; then nothing is written. -/
def storeParsedGame (db : Db) (f : String) (game : GameData) (date : Option Int) :
    Option (Db × ParseOutcome) :=
  if hasNoGameData game then some (markSkipped db f none, ParseOutcome.skippedEmpty)
  else do
    let date ← date
    let skaters := skaterRows f .home game.home.skaters ++ skaterRows f .away game.away.skaters
    let summaries := summaryRows game
    let db := deleteParsedRows db f
    -- the foreign key of the game and of its sides
    guard (db.statsbooks.has f)
    let statsbookSkaters ← insertSkaters db.statsbookSkaters skaters
    let db : Db :=
      { db with
        statsbookGames := db.statsbookGames.upsert f
          { date, version := game.version, homeScore := game.homeScore,
            awayScore := game.awayScore, gameData := some game }
        statsbookSides :=
          (db.statsbookSides.upsert (toLex (f, Side.home)) (sideRow game.home)).upsert
            (toLex (f, Side.away)) (sideRow game.away)
        statsbookSkaters
        statsbookSummary := summaries.foldl (fun t r => t.upsert (toLex (f, r.1)) r.2)
          db.statsbookSummary }
    return (updateStatus db f fun row =>
      { row with
        parseStatus := ParseStatus.parsed
        parserVersion := some parserVersion
        parseError := none },
      ParseOutcome.parsed 2 skaters.length summaries.length)

end Store

/-! ## What the parse stage leaves -/

variable {db db' : Db} {f f' : String}

theorem has_updateStatus (update : DriveFile → DriveFile) :
    (updateStatus db f update).statsbooks.has f' = db.statsbooks.has f' := by
  unfold updateStatus
  rw [Table.has, Table.has, Table.get?_modify]
  split_ifs <;> simp

theorem consistent_updateStatus (hdb : db.Consistent) (update : DriveFile → DriveFile) :
    (updateStatus db f update).Consistent where
  games f' row h := by
    rw [has_updateStatus]
    exact hdb.games f' row h
  sides f' s row h := by
    rw [has_updateStatus]
    exact hdb.sides f' s row h
  matches_ f' row h := by
    rw [has_updateStatus]
    exact hdb.matches_ f' row h

theorem side?_deleteParsedRows (s : Side) :
    (deleteParsedRows db f).side? f' s = if f' = f then none else db.side? f' s := by
  unfold deleteParsedRows Db.side?
  rw [Table.get?_filter]
  split_ifs with h
  · cases db.statsbookSides.get? (toLex (f', s)) <;> simp [h]
  · cases db.statsbookSides.get? (toLex (f', s)) <;> simp [h]

theorem statsbookGames_deleteParsedRows :
    (deleteParsedRows db f).statsbookGames.get? f' =
      if f' = f then none else db.statsbookGames.get? f' :=
  Table.get?_erase db.statsbookGames f f'

theorem consistent_deleteParsedRows (hdb : db.Consistent) (f : String) :
    (deleteParsedRows db f).Consistent where
  games f' row h := by
    rw [statsbookGames_deleteParsedRows] at h
    split_ifs at h
    exact hdb.games f' row h
  sides f' s row h := by
    rw [side?_deleteParsedRows] at h
    split_ifs at h
    exact hdb.sides f' s row h
  matches_ := hdb.matches_

variable [Text.UnicodeTables] {game : GameData} {date : Option Int} {outcome : ParseOutcome}

/-- A placeholder leaves nothing of the parsed rows of its file and leaves its match. -/
theorem storeParsedGame_skipped (hempty : hasNoGameData game = true)
    (h : storeParsedGame db f game date = some (db', outcome)) :
    db' = markSkipped db f none := by
  unfold storeParsedGame at h
  rw [if_pos hempty] at h
  cases h
  rfl

/-- The row of a file that reached a terminal state. -/
def finished (status : ParseStatus) (row : DriveFile) : DriveFile :=
  { row with parseStatus := status, parserVersion := some parserVersion, parseError := none }

/-- The terminal state of a file. -/
def outcomeStatus (game : GameData) : ParseStatus :=
  if hasNoGameData game then ParseStatus.skipped else ParseStatus.parsed

omit [Text.UnicodeTables] in
theorem outcomeStatus_ne_pending (game : GameData) : outcomeStatus game ≠ ParseStatus.pending := by
  unfold outcomeStatus
  split_ifs <;> simp

omit [Text.UnicodeTables] in
theorem outcomeStatus_ne_failed (game : GameData) : outcomeStatus game ≠ ParseStatus.failed := by
  unfold outcomeStatus
  split_ifs <;> simp

/-- A store that succeeds leaves its file parsed or skipped by the current parser. -/
theorem storeParsedGame_statsbooks (h : storeParsedGame db f game date = some (db', outcome)) :
    db'.statsbooks = db.statsbooks.modify f (finished (outcomeStatus game)) := by
  unfold storeParsedGame at h
  unfold outcomeStatus
  split_ifs at h ⊢
  · cases h
    rfl
  · obtain ⟨d, -, h⟩ := Option.bind_eq_some_iff.mp h
    obtain ⟨-, -, h⟩ := Option.bind_eq_some_iff.mp h
    obtain ⟨skaters, -, h⟩ := Option.bind_eq_some_iff.mp h
    cases h
    rfl

/-- What storing a parsed game leaves: the game with both of its sides, unassigned; nothing
else but its skaters, its summary and the status of its file is changed. -/
structure Stored (db : Db) (f : String) (game : GameData) (date : Option Int) (db' : Db) :
    Prop where
  has : db.statsbooks.has f = true
  statsbookGames : ∃ d, date = some d ∧ ∀ f', db'.statsbookGames.get? f' =
    if f' = f then some { date := d, version := game.version, homeScore := game.homeScore,
                          awayScore := game.awayScore, gameData := some game }
    else db.statsbookGames.get? f'
  side? : ∀ f' s, db'.side? f' s =
    if f' = f then some (sideRow (teamData game s)) else db.side? f' s
  statsbooks : ∀ f', db'.statsbooks.has f' = db.statsbooks.has f'
  modifiedTime : ∀ f', db'.modifiedTime f' = db.modifiedTime f'
  gameMatches : db'.gameMatches = db.gameMatches
  wftdaTeams : db'.wftdaTeams = db.wftdaTeams
  wftdaGames : db'.wftdaGames = db.wftdaGames

/-- A statsbook with game data is stored. -/
theorem storeParsedGame_stored (hdata : hasNoGameData game = false)
    (h : storeParsedGame db f game date = some (db', outcome)) : Stored db f game date db' := by
  unfold storeParsedGame at h
  rw [hdata, if_neg Bool.false_ne_true] at h
  obtain ⟨d, hdate, h⟩ := Option.bind_eq_some_iff.mp h
  obtain ⟨_, hguard, h⟩ := Option.bind_eq_some_iff.mp h
  obtain ⟨skaters, -, h⟩ := Option.bind_eq_some_iff.mp h
  have hhas : db.statsbooks.has f = true := by
    by_contra hno
    have hfalse : (deleteParsedRows db f).statsbooks.has f = false :=
      Bool.eq_false_iff.mpr hno
    simp [hfalse] at hguard
  cases h
  refine ⟨hhas, ⟨d, hdate, fun f' => ?_⟩, fun f' s => ?_, fun f' => has_updateStatus _,
    fun f' => ?_, rfl, rfl, rfl⟩
  · change ((deleteParsedRows db f).statsbookGames.upsert f _).get? f' = _
    rw [Table.get?_upsert, statsbookGames_deleteParsedRows]
    split_ifs <;> rfl
  · change (((deleteParsedRows db f).statsbookSides.upsert _ _).upsert _ _).get? (toLex (f', s)) = _
    rw [Db.get?_upsert_side, Db.get?_upsert_side]
    change (if _ then _ else if _ then _ else (deleteParsedRows db f).side? f' s) = _
    rw [side?_deleteParsedRows]
    cases s <;> by_cases hf : f' = f <;> simp [hf, teamData]
  · unfold Db.modifiedTime updateStatus
    rw [Table.get?_modify]
    split_ifs
    · change Option.bind (Option.map _ (db.statsbooks.get? f')) _ = _
      cases db.statsbooks.get? f' <;> rfl
    · rfl

/-- Storing keeps the foreign keys. -/
theorem consistent_storeParsedGame (hdb : db.Consistent)
    (h : storeParsedGame db f game date = some (db', outcome)) : db'.Consistent := by
  by_cases hempty : hasNoGameData game = true
  · rw [storeParsedGame_skipped hempty h]
    exact consistent_updateStatus (consistent_deleteParsedRows hdb f) _
  · have hstored := storeParsedGame_stored (Bool.eq_false_iff.mpr hempty) h
    obtain ⟨d, -, hgames⟩ := hstored.statsbookGames
    constructor
    · intro f' row hrow
      rw [hstored.statsbooks]
      rw [hgames] at hrow
      split_ifs at hrow with hf
      · rw [hf]
        exact hstored.has
      · exact hdb.games f' row hrow
    · intro f' s row hrow
      rw [hstored.statsbooks]
      rw [hstored.side?] at hrow
      split_ifs at hrow with hf
      · rw [hf]
        exact hstored.has
      · exact hdb.sides f' s row hrow
    · intro f' row hrow
      rw [hstored.statsbooks]
      rw [hstored.gameMatches] at hrow
      exact hdb.matches_ f' row hrow

end Parse
end Statskboo
