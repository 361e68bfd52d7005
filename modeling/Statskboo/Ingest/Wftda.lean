import Statskboo.Db.Schema

/-!
# The WFTDA sync

The two sync stages upsert the teams and the games of stats.wftda.com, each in one
transaction.  What the service returns is an input here.

Main results:

- Theorems {lit}`sameFiles_syncTeams` and {lit}`sameFiles_syncGames`: the sync writes
  no table of the statsbooks.
-/

namespace Statskboo
namespace Wftda

open KeyedTable

/-- A team of {lit}`/api/teams`. -/
structure ApiTeam where
  id : Int
  title : String
  shortName : Option String
  region : Option String
  regionId : Option Int
  location : Option String
deriving DecidableEq, Repr

/-- A team of a result; a body with a score that does not fit 32 bits has no results. -/
structure ApiResultTeam where
  id : Int
  title : String
  score : Option Int
deriving DecidableEq, Repr

/-- A result of {lit}`/api/results`. -/
structure ApiResult where
  id : Int
  date : Int
  team1 : ApiResultTeam
  team2 : ApiResultTeam
  region : Option Int
  seedingGame : Bool
deriving DecidableEq, Repr

/-- Insert a team or update its row, keeping a stored slug when the listing has none.
There is none when another team has the slug. -/
def upsertTeam (db : Db) (team : ApiTeam) (slug : Option String) : Option Db :=
  let slug := slug.or ((db.wftdaTeams.get? team.id).bind WftdaTeam.slug)
  if ∀ r ∈ db.wftdaTeams.rows, r.1 ≠ team.id → slug.isSome = true → r.2.slug ≠ slug then
    some { db with
      wftdaTeams := db.wftdaTeams.upsert team.id
        { title := team.title, shortName := team.shortName, slug, region := team.region,
          regionId := team.regionId, location := team.location, inTeamsApi := true } }
  else
    none

/-- Stage 1: the teams, with slugs joined from the listing by exact title. -/
def syncTeams (db : Db) (teams : List ApiTeam) (listing : List (String × String)) : Option Db :=
  let slugs : Table String String := listing.foldl (fun t p => t.upsert p.2 p.1) Table.empty
  teams.foldlM (fun db team => upsertTeam db team (slugs.get? team.title)) db

/-- 2023-01-01, the start of the statsbook era, in days since 1970-01-01. -/
def statsbookEraStart : Int := 19358

/-- Whether a score fits the 16-bit column. -/
def fitsI16 (score : Int) : Bool :=
  decide (-2 ^ 15 ≤ score ∧ score < 2 ^ 15)

/-- The game row of a result, unless it is too old or has no usable score. -/
def gameRow (r : ApiResult) : Option (Int × WftdaGame) :=
  if r.date < statsbookEraStart then none
  else
    match r.team1.score, r.team2.score with
    | some score1, some score2 =>
        if fitsI16 score1 && fitsI16 score2 then
          some (r.id, { date := r.date, team1Id := r.team1.id, team2Id := r.team2.id,
                        team1Score := score1, team2Score := score2, region := r.region,
                        seedingGame := r.seedingGame })
        else
          none
    | _, _ => none

/-- Remember the first title seen for a team. -/
def addStub (stubs : Table Int String) (team : ApiResultTeam) : Table Int String :=
  if stubs.has team.id then stubs else stubs.upsert team.id team.title

/-- The titles of the teams of the kept results. -/
def stubTeams (results : List ApiResult) : Table Int String :=
  (results.filter fun r => (gameRow r).isSome).foldl
    (fun stubs r => addStub (addStub stubs r.team1) r.team2) Table.empty

/-- Insert a stub team unless the team is known. -/
def insertStub (db : Db) (stub : Int × String) : Db :=
  if db.wftdaTeams.has stub.1 then db
  else
    { db with
      wftdaTeams := db.wftdaTeams.upsert stub.1
        { title := stub.2, shortName := none, slug := none, region := none, regionId := none,
          location := none, inTeamsApi := false } }

/-- Insert or update a game, under the foreign keys to its teams. -/
def upsertGame (db : Db) (game : Int × WftdaGame) : Option Db :=
  if db.wftdaTeams.has game.2.team1Id && db.wftdaTeams.has game.2.team2Id then
    some { db with wftdaGames := db.wftdaGames.upsert game.1 game.2 }
  else
    none

/-- Stage 2: the games of the scanned pages, after stub rows for their teams. -/
def syncGames (db : Db) (results : List ApiResult) : Option Db :=
  (results.filterMap gameRow).foldlM upsertGame ((stubTeams results).rows.foldl insertStub db)

/-! ## The statsbooks are left alone -/

/-- The tables that the sync never writes. -/
structure SameFiles (db db' : Db) : Prop where
  statsbooks : db'.statsbooks = db.statsbooks
  statsbookGames : db'.statsbookGames = db.statsbookGames
  statsbookSides : db'.statsbookSides = db.statsbookSides
  statsbookSkaters : db'.statsbookSkaters = db.statsbookSkaters
  statsbookSummary : db'.statsbookSummary = db.statsbookSummary
  gameMatches : db'.gameMatches = db.gameMatches

namespace SameFiles

theorem refl (db : Db) : SameFiles db db :=
  ⟨rfl, rfl, rfl, rfl, rfl, rfl⟩

theorem trans {db₁ db₂ db₃ : Db} (h : SameFiles db₁ db₂) (h' : SameFiles db₂ db₃) :
    SameFiles db₁ db₃ where
  statsbooks := h'.statsbooks.trans h.statsbooks
  statsbookGames := h'.statsbookGames.trans h.statsbookGames
  statsbookSides := h'.statsbookSides.trans h.statsbookSides
  statsbookSkaters := h'.statsbookSkaters.trans h.statsbookSkaters
  statsbookSummary := h'.statsbookSummary.trans h.statsbookSummary
  gameMatches := h'.gameMatches.trans h.gameMatches

theorem consistent {db db' : Db} (h : SameFiles db db') (hdb : db.Consistent) :
    db'.Consistent where
  games f row hrow := by
    rw [h.statsbookGames] at hrow
    rw [h.statsbooks]
    exact hdb.games f row hrow
  sides f s row hrow := by
    unfold Db.side? at hrow
    rw [h.statsbookSides] at hrow
    rw [h.statsbooks]
    exact hdb.sides f s row hrow
  matches_ f row hrow := by
    rw [h.gameMatches] at hrow
    rw [h.statsbooks]
    exact hdb.matches_ f row hrow

/-- Steps that leave the statsbooks alone do so together. -/
theorem foldlM {α : Type} {step : Db → α → Option Db}
    (hstep : ∀ db a db', step db a = some db' → SameFiles db db') {db db' : Db} {l : List α}
    (h : l.foldlM step db = some db') : SameFiles db db' := by
  induction l generalizing db with
  | nil =>
      cases h
      exact refl _
  | cons a l ih =>
      obtain ⟨db₁, ha, hl⟩ := Option.bind_eq_some_iff.mp h
      exact (hstep db a db₁ ha).trans (ih hl)

end SameFiles

variable {db db' : Db}

theorem sameFiles_upsertTeam {team : ApiTeam} {slug : Option String}
    (h : upsertTeam db team slug = some db') : SameFiles db db' := by
  unfold upsertTeam at h
  dsimp only at h
  split_ifs at h
  cases h
  exact ⟨rfl, rfl, rfl, rfl, rfl, rfl⟩

theorem sameFiles_syncTeams {teams : List ApiTeam} {listing : List (String × String)}
    (h : syncTeams db teams listing = some db') : SameFiles db db' :=
  SameFiles.foldlM (fun _ _ _ hstep => sameFiles_upsertTeam hstep) h

theorem sameFiles_insertStub (stub : Int × String) : SameFiles db (insertStub db stub) := by
  unfold insertStub
  split_ifs
  · exact SameFiles.refl db
  · exact ⟨rfl, rfl, rfl, rfl, rfl, rfl⟩

theorem sameFiles_upsertGame {game : Int × WftdaGame} (h : upsertGame db game = some db') :
    SameFiles db db' := by
  unfold upsertGame at h
  split_ifs at h
  cases h
  exact ⟨rfl, rfl, rfl, rfl, rfl, rfl⟩

theorem sameFiles_syncGames {results : List ApiResult} (h : syncGames db results = some db') :
    SameFiles db db' := by
  have hstubs : ∀ (stubs : List (Int × String)) (db : Db),
      SameFiles db (stubs.foldl insertStub db) := by
    intro stubs
    induction stubs with
    | nil => exact SameFiles.refl
    | cons stub stubs ih => exact fun db => (sameFiles_insertStub stub).trans (ih _)
  exact (hstubs _ db).trans (SameFiles.foldlM (fun _ _ _ hstep => sameFiles_upsertGame hstep) h)

end Wftda
end Statskboo
