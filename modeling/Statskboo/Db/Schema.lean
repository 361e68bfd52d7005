import Statskboo.Ingest.Matcher
import Statskboo.Lib.KeyedTable
import Statskboo.Models

/-!
# The database

The tables of the schema with the columns that the modelled code reads or writes,
and the statements it issues.  A statement that a foreign key rejects is none.
Times are instants on the clock of the database, dates are day numbers, and the
real columns are exact fractions.

Main results:

- Structure {lit}`Db.Consistent`: the foreign keys that the results rest on.
- Theorems {lit}`Db.Consistent.insertMatch` and {lit}`Db.Consistent.deleteStatsbooks`:
  what the schema enforces at a write and at a cascading delete.
-/

namespace Statskboo

open KeyedTable Resolve

/-- A row of {lit}`wftda_teams`. -/
structure WftdaTeam where
  title : String
  shortName : Option String
  slug : Option String
  region : Option String
  regionId : Option Int
  location : Option String
  inTeamsApi : Bool
deriving DecidableEq, Repr

/-- A row of {lit}`wftda_games`. -/
structure WftdaGame where
  date : Int
  team1Id : Int
  team2Id : Int
  team1Score : Int
  team2Score : Int
  region : Option Int
  seedingGame : Bool
deriving DecidableEq, Repr

/-- {lit}`statsbooks.parse_status`. -/
inductive ParseStatus where
  | pending
  | parsed
  | failed
  | skipped
deriving DecidableEq, Repr

/-- A row of {lit}`statsbooks`. -/
structure DriveFile where
  name : String
  quarter : Option String
  mimeType : Option String
  modifiedTime : Option Int
  firstSeen : Int
  lastSeen : Int
  parseStatus : ParseStatus
  parseError : Option String
  parserVersion : Option Int
deriving DecidableEq, Repr

/-- A row of {lit}`statsbook_games`. -/
structure StatsbookGame where
  date : Int
  version : String
  homeScore : Int
  awayScore : Int
  gameData : Option GameData
deriving DecidableEq, Repr

/-- A row of {lit}`statsbook_sides`. -/
structure StatsbookSide where
  wftdaTeamId : Option Int
  league : Option String
  team : Option String
  color : Option String
  leagueCanonical : String
  teamCanonical : String
deriving DecidableEq, Repr

/-- A row of {lit}`statsbook_skaters`. -/
structure StatsbookSkater where
  name : String
  nameCanonical : String
deriving DecidableEq, Repr

/-- {lit}`game_matches.method`: what the matcher recorded, or a hidden duplicate. -/
inductive StoredMethod where
  | resolved (method : Method)
  | duplicate
deriving DecidableEq, Repr

/-- The text of a stored method. -/
def StoredMethod.asStr : StoredMethod → String
  | resolved method => method.asStr
  | duplicate => "duplicate"

/-- A row of {lit}`game_matches`. -/
structure GameMatch where
  wftdaGameId : Option Int
  method : StoredMethod
  teamSimilarity : ℚ
  scoreDelta : Int
  dateOffset : Int
deriving DecidableEq, Repr

/-- The key of a side of a file. -/
abbrev SideKey := String ×ₗ Side

/-- The key of a roster row. -/
abbrev SkaterKey := String ×ₗ Side ×ₗ String

/-- The tables. -/
structure Db where
  wftdaTeams : Table Int WftdaTeam
  wftdaGames : Table Int WftdaGame
  statsbooks : Table String DriveFile
  statsbookGames : Table String StatsbookGame
  statsbookSides : Table SideKey StatsbookSide
  statsbookSkaters : Table SkaterKey StatsbookSkater
  statsbookSummary : Table SideKey SideStats
  gameMatches : Table String GameMatch

namespace Db

/-- The fresh database. -/
def empty : Db where
  wftdaTeams := Table.empty
  wftdaGames := Table.empty
  statsbooks := Table.empty
  statsbookGames := Table.empty
  statsbookSides := Table.empty
  statsbookSkaters := Table.empty
  statsbookSummary := Table.empty
  gameMatches := Table.empty

/-- The stored side of a file. -/
def side? (db : Db) (f : String) (s : Side) : Option StatsbookSide :=
  db.statsbookSides.get? (toLex (f, s))

/-- The WFTDA team a side of a file is assigned to. -/
def sideTeam (db : Db) (f : String) (s : Side) : Option Int :=
  (db.side? f s).bind StatsbookSide.wftdaTeamId

/-- The WFTDA game a file is linked to. -/
def matchedGame (db : Db) (f : String) : Option Int :=
  (db.gameMatches.get? f).bind GameMatch.wftdaGameId

/-- The modification time of a file. -/
def modifiedTime (db : Db) (f : String) : Option Int :=
  (db.statsbooks.get? f).bind DriveFile.modifiedTime

/-- The foreign keys from the other tables to {lit}`statsbooks`. -/
structure Consistent (db : Db) : Prop where
  games : ∀ f row, db.statsbookGames.get? f = some row → db.statsbooks.has f = true
  sides : ∀ f s row, db.side? f s = some row → db.statsbooks.has f = true
  matches_ : ∀ f row, db.gameMatches.get? f = some row → db.statsbooks.has f = true

/-- The foreign keys can be checked row by row. -/
theorem Consistent.of_rows {db : Db}
    (hgames : ∀ r ∈ db.statsbookGames.rows, db.statsbooks.has r.1 = true)
    (hsides : ∀ r ∈ db.statsbookSides.rows, db.statsbooks.has (ofLex r.1).1 = true)
    (hmatches : ∀ r ∈ db.gameMatches.rows, db.statsbooks.has r.1 = true) : db.Consistent where
  games _ _ h := hgames _ (Table.mem_rows_iff.mpr h)
  sides _ _ _ h := hsides _ (Table.mem_rows_iff.mpr h)
  matches_ _ _ h := hmatches _ (Table.mem_rows_iff.mpr h)

theorem consistent_empty : empty.Consistent where
  games := by simp [empty]
  sides := by simp [empty, side?]
  matches_ := by simp [empty]

/-! ## Statements on matches and side assignments -/

/-- {lit}`INSERT INTO game_matches ... ON CONFLICT DO UPDATE`, under its two foreign
keys. -/
def insertMatch (db : Db) (f : String) (row : GameMatch) : Option Db :=
  if db.statsbooks.has f = true ∧ ∀ g ∈ row.wftdaGameId, db.wftdaGames.has g = true then
    some { db with gameMatches := db.gameMatches.upsert f row }
  else
    none

/-- {lit}`UPDATE statsbook_sides SET wftda_team_id` for both sides of a file. -/
def setSideTeams (db : Db) (f : String) (team : Side → Option Int) : Db :=
  { db with
    statsbookSides := db.statsbookSides.mapVals fun k row =>
      if (ofLex k).1 = f then { row with wftdaTeamId := team (ofLex k).2 } else row }

/-- The side assignment of one statement, under the foreign key of the rows it
updates. -/
def assignSides (db : Db) (f : String) (home away : Option Int) : Option Db :=
  let team : Side → Option Int := fun s => match s with
    | .home => home
    | .away => away
  if ∀ s ∈ [Side.home, Side.away], (db.side? f s).isSome = true →
      ∀ t ∈ team s, db.wftdaTeams.has t = true then
    some (db.setSideTeams f team)
  else
    none

/-- {lit}`UPDATE game_matches SET wftda_game_id = NULL, method = 'duplicate'`. -/
def hideMatch (db : Db) (f : String) : Db :=
  { db with
    gameMatches := db.gameMatches.modify f fun row =>
      { row with wftdaGameId := none, method := StoredMethod.duplicate } }

/-- {lit}`UPDATE statsbook_sides SET wftda_team_id = NULL`. -/
def clearSides (db : Db) (f : String) : Db :=
  db.setSideTeams f fun _ => none

/-! ## Deleting files -/

/-- Delete the files that a test selects; the rows that reference them go with them. -/
def deleteStatsbooks (db : Db) (doomed : String → DriveFile → Bool) : Db :=
  let kept : String → Bool := fun f => !(db.statsbooks.get? f).any (doomed f)
  { db with
    statsbooks := db.statsbooks.filter fun f row => !doomed f row
    statsbookGames := db.statsbookGames.filter fun f _ => kept f
    statsbookSides := db.statsbookSides.filter fun k _ => kept (ofLex k).1
    statsbookSkaters := db.statsbookSkaters.filter fun k _ => kept (ofLex k).1
    statsbookSummary := db.statsbookSummary.filter fun k _ => kept (ofLex k).1
    gameMatches := db.gameMatches.filter fun f _ => kept f }

/-! ## What the statements leave in place -/

/-- A side is found under its own file and side. -/
theorem get?_upsert_side (t : Table SideKey StatsbookSide) (f f' : String) (s s' : Side)
    (row : StatsbookSide) :
    (t.upsert (toLex (f, s)) row).get? (toLex (f', s')) =
      if f' = f ∧ s' = s then some row else t.get? (toLex (f', s')) := by
  split_ifs with h
  · rw [h.1, h.2, Table.get?_upsert_self]
  · refine Table.get?_upsert_of_ne t row fun heq => h ?_
    exact Prod.mk.inj (toLex.injective heq)

@[simp]
theorem side?_setSideTeams (db : Db) (f f' : String) (team : Side → Option Int) (s : Side) :
    (db.setSideTeams f team).side? f' s =
      (db.side? f' s).map fun row =>
        if f' = f then { row with wftdaTeamId := team s } else row := by
  unfold side? setSideTeams
  rw [Table.get?_mapVals]
  rfl

@[simp]
theorem gameMatches_setSideTeams (db : Db) (f : String) (team : Side → Option Int) :
    (db.setSideTeams f team).gameMatches = db.gameMatches :=
  rfl

/-- The tables that resolving never writes. -/
structure SameContent (db db' : Db) : Prop where
  wftdaTeams : db'.wftdaTeams = db.wftdaTeams
  wftdaGames : db'.wftdaGames = db.wftdaGames
  statsbooks : db'.statsbooks = db.statsbooks
  statsbookGames : db'.statsbookGames = db.statsbookGames
  statsbookSkaters : db'.statsbookSkaters = db.statsbookSkaters
  statsbookSummary : db'.statsbookSummary = db.statsbookSummary
  sides : ∀ f s, (db'.side? f s).map (fun row => { row with wftdaTeamId := none }) =
    (db.side? f s).map fun row => { row with wftdaTeamId := none }

namespace SameContent

theorem refl (db : Db) : SameContent db db :=
  ⟨rfl, rfl, rfl, rfl, rfl, rfl, fun _ _ => rfl⟩

theorem trans {db₁ db₂ db₃ : Db} (h : SameContent db₁ db₂) (h' : SameContent db₂ db₃) :
    SameContent db₁ db₃ where
  wftdaTeams := h'.wftdaTeams.trans h.wftdaTeams
  wftdaGames := h'.wftdaGames.trans h.wftdaGames
  statsbooks := h'.statsbooks.trans h.statsbooks
  statsbookGames := h'.statsbookGames.trans h.statsbookGames
  statsbookSkaters := h'.statsbookSkaters.trans h.statsbookSkaters
  statsbookSummary := h'.statsbookSummary.trans h.statsbookSummary
  sides f s := (h'.sides f s).trans (h.sides f s)

/-- A side is stored after resolving exactly when it was stored before. -/
theorem isSome_side? {db db' : Db} (h : SameContent db db') (f : String) (s : Side) :
    (db'.side? f s).isSome = (db.side? f s).isSome := by
  have hsides := congrArg Option.isSome (h.sides f s)
  simpa using hsides

end SameContent

theorem sameContent_setSideTeams (db : Db) (f : String) (team : Side → Option Int) :
    SameContent db (db.setSideTeams f team) where
  wftdaTeams := rfl
  wftdaGames := rfl
  statsbooks := rfl
  statsbookGames := rfl
  statsbookSkaters := rfl
  statsbookSummary := rfl
  sides f' s := by
    rw [side?_setSideTeams, Option.map_map]
    congr 1
    funext row
    simp only [Function.comp_apply]
    split_ifs <;> rfl

theorem sameContent_hideMatch (db : Db) (f : String) : SameContent db (db.hideMatch f) :=
  ⟨rfl, rfl, rfl, rfl, rfl, rfl, fun _ _ => rfl⟩

theorem sameContent_insertMatch {db db' : Db} {f : String} {row : GameMatch}
    (h : db.insertMatch f row = some db') : SameContent db db' := by
  unfold insertMatch at h
  split_ifs at h
  cases h
  exact ⟨rfl, rfl, rfl, rfl, rfl, rfl, fun _ _ => rfl⟩

theorem sameContent_assignSides {db db' : Db} {f : String} {home away : Option Int}
    (h : db.assignSides f home away = some db') : SameContent db db' := by
  unfold assignSides at h
  dsimp only at h
  split_ifs at h
  cases h
  exact sameContent_setSideTeams db f _

theorem matchedGame_hideMatch (db : Db) (f f' : String) :
    (db.hideMatch f).matchedGame f' = if f' = f then none else db.matchedGame f' := by
  simp only [hideMatch, matchedGame, Table.get?_modify]
  split_ifs
  · cases db.gameMatches.get? f' <;> rfl
  · rfl

theorem sideTeam_setSideTeams (db : Db) (f f' : String) (team : Side → Option Int) (s : Side) :
    (db.setSideTeams f team).sideTeam f' s =
      if f' = f then (db.side? f' s).bind (fun _ => team s) else db.sideTeam f' s := by
  simp only [sideTeam, side?_setSideTeams]
  split_ifs <;> cases db.side? f' s <;> rfl

/-! ## Foreign keys -/

/-- Resolving keeps the foreign keys when every match it leaves has its file. -/
theorem Consistent.of_sameContent {db db' : Db} (h : db.Consistent) (hsame : SameContent db db')
    (hmatches : ∀ f row, db'.gameMatches.get? f = some row → db.statsbooks.has f = true) :
    db'.Consistent where
  games f row hrow := by
    rw [hsame.statsbooks]
    rw [hsame.statsbookGames] at hrow
    exact h.games f row hrow
  sides f s row hrow := by
    have hsome : (db.side? f s).isSome = true := by
      rw [← hsame.isSome_side?, hrow]
      rfl
    obtain ⟨row', hrow'⟩ := Option.isSome_iff_exists.mp hsome
    rw [hsame.statsbooks]
    exact h.sides f s row' hrow'
  matches_ f row hrow := by
    rw [hsame.statsbooks]
    exact hmatches f row hrow

theorem Consistent.insertMatch {db db' : Db} (h : db.Consistent) {f : String} {row : GameMatch}
    (hinsert : db.insertMatch f row = some db') : db'.Consistent := by
  refine h.of_sameContent (sameContent_insertMatch hinsert) ?_
  intro f' row' hrow'
  unfold Db.insertMatch at hinsert
  split_ifs at hinsert with hcheck
  cases hinsert
  rw [Table.get?_upsert] at hrow'
  split_ifs at hrow' with hf
  · rw [hf]
    exact hcheck.1
  · exact h.matches_ f' row' hrow'

theorem Consistent.setSideTeams {db : Db} (h : db.Consistent) (f : String)
    (team : Side → Option Int) : (db.setSideTeams f team).Consistent :=
  h.of_sameContent (sameContent_setSideTeams db f team) h.matches_

theorem Consistent.assignSides {db db' : Db} (h : db.Consistent) {f : String}
    {home away : Option Int} (hassign : db.assignSides f home away = some db') :
    db'.Consistent := by
  unfold Db.assignSides at hassign
  dsimp only at hassign
  split_ifs at hassign
  cases hassign
  exact h.setSideTeams f _

theorem Consistent.hideMatch {db : Db} (h : db.Consistent) (f : String) :
    (db.hideMatch f).Consistent := by
  refine h.of_sameContent (sameContent_hideMatch db f) ?_
  intro f' row hrow
  simp only [Db.hideMatch, Table.get?_modify] at hrow
  split_ifs at hrow
  · obtain ⟨row', hrow', -⟩ := Option.map_eq_some_iff.mp hrow
    exact h.matches_ f' row' hrow'
  · exact h.matches_ f' row hrow

/-- A cascading delete leaves no row behind that references a deleted file. -/
theorem Consistent.deleteStatsbooks {db : Db} (h : db.Consistent)
    (doomed : String → DriveFile → Bool) : (db.deleteStatsbooks doomed).Consistent := by
  have hkept : ∀ f, db.statsbooks.has f = true →
      (!(db.statsbooks.get? f).any (doomed f)) = true →
      (db.deleteStatsbooks doomed).statsbooks.has f = true := by
    intro f hhas hnot
    obtain ⟨row, hrow⟩ := Table.has_iff.mp hhas
    rw [hrow, Option.any_some] at hnot
    refine Table.has_iff.mpr ⟨row, ?_⟩
    simp [Db.deleteStatsbooks, hrow, hnot]
  constructor
  · intro f row hrow
    simp only [Db.deleteStatsbooks, Table.get?_filter, Option.filter_eq_some_iff] at hrow
    exact hkept f (h.games f row hrow.1) hrow.2
  · intro f s row hrow
    simp only [Db.deleteStatsbooks, side?, Table.get?_filter, Option.filter_eq_some_iff] at hrow
    exact hkept f (h.sides f s row hrow.1) hrow.2
  · intro f row hrow
    simp only [Db.deleteStatsbooks, Table.get?_filter, Option.filter_eq_some_iff] at hrow
    exact hkept f (h.matches_ f row hrow.1) hrow.2

end Db
end Statskboo
