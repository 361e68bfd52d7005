import Statskboo.Lib.KeepFirst
import Statskboo.Web.TeamPage

/-!
# The player page

A player is a team, a canonical name and a number.  The history of a player is joined from
the rosters of the statsbooks: a roster row counts when its side is assigned to the team and
its statsbook is linked to a WFTDA game.  A game has one line in the history, with the scores
of the statsbook it is taken from.

Main results:

- Theorem {lit}`mem_joinedRows_iff`: which roster rows the query finds.
- Theorem {lit}`gameIds_gameRows`: the history has one line for each game that is found.
-/

namespace Statskboo
namespace PlayerPage

open Canon KeepFirst KeyedTable TeamPage

/-! ## The rows of the query -/

/-- Who the page is about. -/
structure PlayerParams where
  team : Int
  name : String
  number : String
deriving DecidableEq, Repr

/-- A roster row with its statsbook and its WFTDA game. -/
structure QueryRow where
  driveFileId : String
  side : Side
  name : String
  homeScore : Int
  awayScore : Int
  gameData : Option GameData
  wftdaGameId : Int
  date : Int
  opponentTitle : String
  opponentPath : String
deriving DecidableEq, Repr

/-- The sort key of the rows: newest game first. -/
def QueryRow.newest (row : QueryRow) : Int ×ₗ Int :=
  toLex (-row.date, -row.wftdaGameId)

section Query

variable [Text.UnicodeTables]

/-- A roster row belongs to the player. -/
def IsPlayer (db : Db) (params : PlayerParams) (f : String) (side : Side) (number : String)
    (skater : StatsbookSkater) : Prop :=
  db.sideTeam f side = some params.team ∧
    skater.nameCanonical = canonicalizeName params.name ∧ number = params.number

instance (db : Db) (params : PlayerParams) (f : String) (side : Side) (number : String)
    (skater : StatsbookSkater) : Decidable (IsPlayer db params f side number skater) :=
  inferInstanceAs (Decidable (_ ∧ _ ∧ _))

/-- A roster row joined with its statsbook, its WFTDA game and the opponent. -/
def joinedRow (db : Db) (params : PlayerParams) (f : String) (side : Side) (number : String)
    (skater : StatsbookSkater) : Option QueryRow := do
  let g ← db.statsbookGames.get? f
  let wftdaGameId ← db.matchedGame f
  let wg ← db.wftdaGames.get? wftdaGameId
  let opp ← db.wftdaTeams.get? (opponentId wg params.team)
  if IsPlayer db params f side number skater then
    some
      { driveFileId := f
        side
        name := skater.name
        homeScore := g.homeScore
        awayScore := g.awayScore
        gameData := g.gameData
        wftdaGameId
        date := wg.date
        opponentTitle := opp.title
        opponentPath := path (opponentId wg params.team) opp }
  else
    none

/-- The rows that the query finds. -/
def joinedRows (db : Db) (params : PlayerParams) : List QueryRow :=
  db.statsbookSkaters.rows.filterMap fun r =>
    joinedRow db params (ofLex r.1).1 (ofLex (ofLex r.1).2).1 (ofLex (ofLex r.1).2).2 r.2

/-- What the query may give: the rows it finds, newest game first, the rows of one game in
any order. -/
def FoundRows (db : Db) (params : PlayerParams) (rows : List QueryRow) : Prop :=
  rows.Perm (joinedRows db params) ∧ rows.Pairwise fun r r' => r.newest ≤ r'.newest

end Query

/-! ## The history -/

/-- One line of the history. -/
structure GameRow where
  gameId : Int
  date : Int
  opponentTeam : String
  opponentTeamPath : String
  side : Side
  jamsAsJammer : Nat
  jamsAsPivot : Nat
  jamsAsBlocker : Nat
  score : String
  outcome : Outcome
deriving DecidableEq, Repr

/-- One line of the game summaries. -/
structure GameSummaryEntry where
  gameId : Int
  date : Int
  opponentTeam : String
  opponentTeamPath : String
  stats : SummaryPlayer
deriving DecidableEq, Repr

/-- In how many games the player was fielded. -/
structure CareerStats where
  games : Nat
  gamesAsJammer : Nat
  gamesAsPivot : Nat
  gamesAsBlocker : Nat
deriving DecidableEq, Repr

/-- The jams of the side of a row. -/
def QueryRow.jams (row : QueryRow) : List JamSide :=
  match row.gameData with
  | none => []
  | some game => (game.periods.flatMap Period.jams).map fun jam => jam.side row.side

/-- The number is the jammer of a jam. -/
def isJammer (number : String) (js : JamSide) : Bool :=
  decide (js.jammer = some number)

/-- The number is in a lineup at a position. -/
def isAt (position number : String) (js : JamSide) : Bool :=
  js.lineup.any fun e => decide (e.position = position ∧ e.number = number)

/-- The jams that pass a test, counted in 16 bits. -/
def jamCount (test : JamSide → Bool) (jams : List JamSide) : Nat :=
  jams.countP test % 2 ^ 16

/-- The statsbook's score of the side of a row. -/
def QueryRow.ourScore (row : QueryRow) : Int :=
  if row.side = .home then row.homeScore else row.awayScore

/-- The statsbook's score of the other side. -/
def QueryRow.theirScore (row : QueryRow) : Int :=
  if row.side = .home then row.awayScore else row.homeScore

/-- The outcome of two scores. -/
def outcome (ourScore theirScore : Int) : Outcome :=
  if ourScore > theirScore then .win
  else if ourScore < theirScore then .loss
  else .tie

/-- The line of a row. -/
def gameRow (params : PlayerParams) (row : QueryRow) : GameRow where
  gameId := row.wftdaGameId
  date := row.date
  opponentTeam := row.opponentTitle
  opponentTeamPath := row.opponentPath
  side := row.side
  jamsAsJammer := jamCount (isJammer params.number) row.jams
  jamsAsPivot := jamCount (isAt "pivot" params.number) row.jams
  jamsAsBlocker := jamCount (isAt "blocker" params.number) row.jams
  score := toString row.ourScore ++ "–" ++ toString row.theirScore
  outcome := outcome row.ourScore row.theirScore

/-- Count one game. -/
def CareerStats.count (params : PlayerParams) (career : CareerStats) (row : QueryRow) :
    CareerStats where
  games := career.games + 1
  gamesAsJammer := career.gamesAsJammer + (row.jams.any (isJammer params.number)).toNat
  gamesAsPivot := career.gamesAsPivot + (row.jams.any (isAt "pivot" params.number)).toNat
  gamesAsBlocker := career.gamesAsBlocker + (row.jams.any (isAt "blocker" params.number)).toNat

/-- One row for each WFTDA game, the first. -/
def shownRows (rows : List QueryRow) : List QueryRow :=
  keepFirst QueryRow.wftdaGameId rows []

/-- The lines of the history, each beside the key of its Game Summary. -/
def gameRows (params : PlayerParams) (rows : List QueryRow) : List (GameRow × String × Side) :=
  (shownRows rows).map fun row => (gameRow params row, row.driveFileId, row.side)

/-- The Game Summary rows of the player, found by the number alone. -/
def gameSummaryRows (db : Db) (params : PlayerParams) (games : List (GameRow × String × Side)) :
    List GameSummaryEntry :=
  games.filterMap fun g =>
    (db.statsbookSummary.get? (toLex g.2)).bind fun side =>
      (side.players.find? fun p => decide (p.number = params.number)).map fun stats =>
        { gameId := g.1.gameId
          date := g.1.date
          opponentTeam := g.1.opponentTeam
          opponentTeamPath := g.1.opponentTeamPath
          stats }

/-! ## The handler -/

/-- What the handler hands to the template. -/
structure Page where
  teamId : Int
  teamTitle : String
  teamSlug : Option String
  teamPath : String
  name : String
  number : String
  career : CareerStats
  games : List GameRow
  gameSummaryRows : List GameSummaryEntry
deriving DecidableEq, Repr

/-- The page of a player, or none when there is no such team. -/
def handle [Text.CaseTables] (db : Db) (params : PlayerParams) (rows : List QueryRow) :
    Option Page :=
  (db.wftdaTeams.get? params.team).map fun team =>
    { teamId := params.team
      teamTitle := team.title
      teamSlug := team.slug
      teamPath := path params.team team
      name := (bestName (rows.map QueryRow.name)).getD params.name
      number := params.number
      career := (shownRows rows).foldl (CareerStats.count params) ⟨0, 0, 0, 0⟩
      games := (gameRows params rows).map Prod.fst
      gameSummaryRows := gameSummaryRows db params (gameRows params rows) }

/-! ## What the history consists of -/

section History

variable [Text.UnicodeTables] {db : Db} {params : PlayerParams} {rows : List QueryRow}
  {row : QueryRow} {f number : String} {side : Side} {skater : StatsbookSkater}

/-- What a joined row is taken from. -/
theorem joinedRow_eq_some (h : joinedRow db params f side number skater = some row) :
    IsPlayer db params f side number skater ∧ row.driveFileId = f ∧ row.side = side ∧
      db.matchedGame f = some row.wftdaGameId ∧
      ∃ g, db.statsbookGames.get? f = some g ∧ row.homeScore = g.homeScore ∧
        row.awayScore = g.awayScore := by
  unfold joinedRow at h
  simp only [Option.bind_eq_bind, Option.bind_eq_some_iff] at h
  obtain ⟨g, hg, wftdaGameId, hmatched, wg, -, opp, -, hrow⟩ := h
  split_ifs at hrow with hplayer
  cases hrow
  exact ⟨hplayer, rfl, rfl, hmatched, g, hg, rfl, rfl⟩

/-- The query finds the roster rows that can be joined. -/
theorem mem_joinedRows_iff :
    row ∈ joinedRows db params ↔ ∃ f side number skater,
      db.statsbookSkaters.get? (toLex (f, toLex (side, number))) = some skater ∧
        joinedRow db params f side number skater = some row := by
  unfold joinedRows
  rw [List.mem_filterMap]
  constructor
  · rintro ⟨⟨key, skater⟩, hmem, hrow⟩
    exact ⟨_, _, _, skater, Table.mem_rows_iff.mp hmem, hrow⟩
  · rintro ⟨f, side, number, skater, hskater, hrow⟩
    exact ⟨(toLex (f, toLex (side, number)), skater), Table.mem_rows_iff.mpr hskater, hrow⟩

omit [Text.UnicodeTables] in
/-- A line of the history is the line of a row. -/
theorem mem_gameRows {game : GameRow} (h : (game, f, side) ∈ gameRows params rows) :
    ∃ row ∈ rows, game = gameRow params row ∧ f = row.driveFileId ∧ side = row.side := by
  obtain ⟨row, hrow, heq⟩ := List.mem_map.mp h
  cases heq
  exact ⟨row, (keepFirst_sublist rows []).subset hrow, rfl, rfl, rfl⟩

/-- The history has one line for each WFTDA game that the query finds. -/
theorem gameIds_gameRows (hrows : FoundRows db params rows) :
    ((gameRows params rows).map fun g => g.1.gameId).Nodup ∧
      ∀ id, id ∈ ((gameRows params rows).map fun g => g.1.gameId) ↔
        ∃ row ∈ joinedRows db params, row.wftdaGameId = id := by
  have hids : ((gameRows params rows).map fun g => g.1.gameId) =
      (shownRows rows).map QueryRow.wftdaGameId := by
    rw [gameRows, List.map_map]
    rfl
  rw [hids]
  refine ⟨nodup_map_keepFirst rows [], fun id => ?_⟩
  rw [shownRows, mem_map_keepFirst, List.mem_map]
  simp only [hrows.1.mem_iff, List.not_mem_nil, not_false_eq_true, and_true]

end History

end PlayerPage
end Statskboo
