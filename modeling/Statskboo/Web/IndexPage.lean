import Statskboo.Lib.TopRows
import Statskboo.Web.GamePages
import Statskboo.Web.TeamRecords

/-!
# The recent games

The start page lists the newest games with their teams.  Both teams are joined in, so that a game
would be missing without one of them, and each line links to the page of its game.

Main results:

- Theorem {lit}`opens_of_stored`: what the page of a stored game shows of its teams and scores.
- Theorem {lit}`index_of_run`: in every state that is reached the newest games are listed, and
  each line leads to a page that says the same.
-/

namespace Statskboo
namespace IndexPage

open KeyedTable Parse Query Transition

/-- A game on the start page. -/
structure RecentGame where
  gameId : Int
  date : Int
  homeScore : Int
  awayScore : Int
  homeSlug : String
  homeTitle : String
  awaySlug : String
  awayTitle : String
deriving DecidableEq, Repr

/-- The row of a game, if both of its teams are stored. -/
def recentGame (db : Db) (g : Int) (row : WftdaGame) : Option RecentGame := do
  let t1 ← db.wftdaTeams.get? row.team1Id
  let t2 ← db.wftdaTeams.get? row.team2Id
  return {
    gameId := g
    date := row.date
    homeScore := row.team1Score
    awayScore := row.team2Score
    homeSlug := TeamPage.path row.team1Id t1
    homeTitle := t1.title
    awaySlug := TeamPage.path row.team2Id t2
    awayTitle := t2.title }

/-- The rows of the query. -/
def recentGames (db : Db) : List RecentGame :=
  db.wftdaGames.rows.filterMap fun r => recentGame db r.1 r.2

/-- {lit}`ORDER BY g.date DESC, g.id DESC`. -/
def newestFirst (line : RecentGame) : Int ×ₗ Int :=
  toLex (-line.date, -line.gameId)

/-- The games that the handler hands to the template. -/
def handle (db : Db) : List RecentGame :=
  ((recentGames db).insertionSort fun a b => newestFirst a ≤ newestFirst b).take 25

/-! ## The page of a game -/

/-- What a line shows of a team: its title, the last segment of its path and its score. -/
structure TeamCell where
  title : String
  slug : String
  score : Int
deriving DecidableEq, Repr

/-- What a game page shows of a team. -/
def headerCell (t : GamePage.TeamHeader) : TeamCell :=
  ⟨t.title, t.path, t.score⟩

/-- The page of the game shows this date and these teams, and the pages of both teams list the
game. -/
def Opens [Text.UnicodeTables] (db : Db) (g date : Int) (home away : TeamCell) : Prop :=
  ∃ page, GamePage.handle db g = .ok page ∧ page.date = date ∧ headerCell page.home = home ∧
    headerCell page.away = away ∧
    ∀ t ∈ [page.home, page.away], ∃ team, db.wftdaTeams.get? t.id = some team ∧
      ∃ line ∈ (TeamPage.page db t.id team).games, line.gameId = g

section Pages

variable [Text.UnicodeTables] {db : Db} {lib : Library} {g : Int} {row : WftdaGame}

omit [Text.UnicodeTables] in
theorem exists_teams (href : References db) (hrow : db.wftdaGames.get? g = some row) :
    ∃ t1 t2, db.wftdaTeams.get? row.team1Id = some t1 ∧
      db.wftdaTeams.get? row.team2Id = some t2 := by
  obtain ⟨h1, h2⟩ := href.teams g row hrow
  obtain ⟨t1, ht1⟩ := Table.has_iff.mp h1
  obtain ⟨t2, ht2⟩ := Table.has_iff.mp h2
  exact ⟨t1, t2, ht1, ht2⟩

/-- The page of a stored game shows its teams and scores, and is reached from the pages of its
teams. -/
theorem opens_of_stored (hdb : db.Consistent) (href : References db) (h : Represents db lib)
    (hrow : db.wftdaGames.get? g = some row) {t1 t2 : WftdaTeam}
    (ht1 : db.wftdaTeams.get? row.team1Id = some t1)
    (ht2 : db.wftdaTeams.get? row.team2Id = some t2) :
    Opens db g row.date ⟨t1.title, TeamPage.path row.team1Id t1, row.team1Score⟩
      ⟨t2.title, TeamPage.path row.team2Id t2, row.team2Score⟩ := by
  obtain ⟨page, hpage, hshows⟩ := (GamePage.handle_of_represents hdb href h g).2 row hrow
  have hhome := hshows.home
  have haway := hshows.away
  rw [GamePage.teamHeader, ht1, Option.map_some, Option.some.injEq] at hhome
  rw [GamePage.teamHeader, ht2, Option.map_some, Option.some.injEq] at haway
  have hlists : ∀ id team, TeamPage.plays row id = true →
      ∃ line ∈ (TeamPage.page db id team).games, line.gameId = g := by
    intro id team hplays
    obtain ⟨line, hline, hid, -⟩ := TeamPage.exists_line href hrow hplays
    exact ⟨line, hline, hid⟩
  refine ⟨page, hpage, hshows.game.2, ?_, ?_, fun t ht => ?_⟩
  · rw [← hhome]
    rfl
  · rw [← haway]
    rfl
  · simp only [List.mem_cons, List.not_mem_nil, or_false] at ht
    rcases ht with rfl | rfl
    · rw [← hhome]
      exact ⟨t1, ht1, hlists _ t1 (decide_eq_true (Or.inl rfl))⟩
    · rw [← haway]
      exact ⟨t2, ht2, hlists _ t2 (decide_eq_true (Or.inr rfl))⟩

/-! ## The start page -/

/-- What a line shows of its teams. -/
def RecentGame.cells (line : RecentGame) : TeamCell × TeamCell :=
  (⟨line.homeTitle, line.homeSlug, line.homeScore⟩, ⟨line.awayTitle, line.awaySlug, line.awayScore⟩)

omit [Text.UnicodeTables] in
theorem topRows_handle (db : Db) :
    TopRows newestFirst 25 (recentGames db) (handle db) :=
  ⟨_, List.perm_insertionSort _ _, Selection.pairwise_insertionSort_key newestFirst _, rfl⟩

omit [Text.UnicodeTables] in
/-- A line stands for a stored game. -/
theorem exists_game {line : RecentGame} (hline : line ∈ recentGames db) :
    ∃ row t1 t2, db.wftdaGames.get? line.gameId = some row ∧
      db.wftdaTeams.get? row.team1Id = some t1 ∧ db.wftdaTeams.get? row.team2Id = some t2 ∧
      line.date = row.date ∧
      line.cells = (⟨t1.title, TeamPage.path row.team1Id t1, row.team1Score⟩,
        ⟨t2.title, TeamPage.path row.team2Id t2, row.team2Score⟩) := by
  obtain ⟨r, hr, hrecent⟩ := List.mem_filterMap.mp hline
  obtain ⟨t1, ht1, hrest⟩ := Option.bind_eq_some_iff.mp hrecent
  obtain ⟨t2, ht2, hrest⟩ := Option.bind_eq_some_iff.mp hrest
  cases hrest
  exact ⟨r.2, t1, t2, Table.mem_rows_iff.mp hr, ht1, ht2, rfl, rfl⟩

omit [Text.UnicodeTables] in
/-- No stored game is lost in the joins. -/
theorem mem_recentGames (href : References db) (hrow : db.wftdaGames.get? g = some row) :
    ∃ line ∈ recentGames db, line.gameId = g ∧ line.date = row.date := by
  obtain ⟨t1, t2, ht1, ht2⟩ := exists_teams href hrow
  have hline : ∃ line, recentGame db g row = some line ∧ line.gameId = g ∧
      line.date = row.date := by
    unfold recentGame
    rw [ht1, ht2]
    exact ⟨_, rfl, rfl, rfl⟩
  obtain ⟨line, hline, hid, hdate⟩ := hline
  exact ⟨line, List.mem_filterMap.mpr ⟨(g, row), Table.mem_rows_iff.mpr hrow, hline⟩, hid, hdate⟩

omit [Text.UnicodeTables] in
theorem ascending_recentGames (db : Db) :
    (recentGames db).Pairwise fun a b => a.gameId < b.gameId := by
  have hid : ∀ (r : Int × WftdaGame) line, recentGame db r.1 r.2 = some line →
      line.gameId = r.1 := by
    intro r line hline
    obtain ⟨t1, -, hrest⟩ := Option.bind_eq_some_iff.mp hline
    obtain ⟨t2, -, hrest⟩ := Option.bind_eq_some_iff.mp hrest
    cases hrest
    rfl
  unfold recentGames
  rw [List.pairwise_filterMap]
  refine db.wftdaGames.ascending.imp fun {r r'} hlt a ha b hb => ?_
  rw [hid r a ha, hid r' b hb]
  exact hlt

/-- The newest games are listed, each once, and each line leads to a page that says the same. -/
structure ShowsRecent (db : Db) (games : List RecentGame) : Prop where
  opens : ∀ line ∈ games, Opens db line.gameId line.date line.cells.1 line.cells.2
  newestFirst : games.Pairwise fun a b => b.date < a.date ∨ b.date = a.date ∧ b.gameId < a.gameId
  atMost : games.length ≤ 25
  complete : ∀ g row, db.wftdaGames.get? g = some row → (∃ line ∈ games, line.gameId = g) ∨
    games.length = 25 ∧ ∀ line ∈ games, row.date ≤ line.date

omit [Text.UnicodeTables] in
/-- Games that come in order and are different come in strict order. -/
theorem newer_of_le {date date' id id' : Int}
    (h : (toLex (-date, -id) : Int ×ₗ Int) ≤ toLex (-date', -id')) (hne : id ≠ id') :
    date' < date ∨ date' = date ∧ id' < id := by
  rcases Prod.Lex.le_iff.mp h with hdate | ⟨hdate, hid⟩
  · exact Or.inl (Int.neg_lt_neg_iff.mp hdate)
  · exact Or.inr ⟨(Int.neg_inj.mp hdate).symm,
      lt_of_le_of_ne (Int.neg_le_neg_iff.mp hid) (Ne.symm hne)⟩

omit [Text.UnicodeTables] in
theorem date_le_of_le {date date' id id' : Int}
    (h : (toLex (-date, -id) : Int ×ₗ Int) ≤ toLex (-date', -id')) : date' ≤ date := by
  rcases Prod.Lex.le_iff.mp h with hdate | ⟨hdate, -⟩
  · exact (Int.neg_lt_neg_iff.mp hdate).le
  · exact (Int.neg_inj.mp hdate).ge

variable [Numbers.Rounding]

/-- In every state that the ingest reaches the start page lists the newest stored games, each
once, and each line leads to the page of the game, which shows the same date, teams and scores and
stands in the lists of both teams. -/
theorem index_of_run {steps : List Visibility.Step}
    (hrun : run Visibility.step Db.empty steps = some db) : ShowsRecent db (handle db) := by
  obtain ⟨hdb, hholds⟩ := represents_run Db.consistent_empty represents_empty hrun
  have href := references_run Db.consistent_empty References.empty hrun
  have htop := topRows_handle db
  constructor
  · intro line hline
    obtain ⟨row, t1, t2, hrow, ht1, ht2, hdate, hcells⟩ := exists_game (htop.subset hline)
    rw [hdate, hcells]
    exact opens_of_stored hdb href hholds hrow ht1 ht2
  · have honce : ((handle db).map RecentGame.gameId).Nodup := by
      refine htop.nodup_map (List.Pairwise.map _ (fun _ _ h => ?_) (ascending_recentGames db))
      exact ne_of_lt h
    exact (htop.sorted.and (List.pairwise_map.mp honce)).imp fun h => newer_of_le h.1 h.2
  · exact htop.length_le
  · intro g row hrow
    obtain ⟨line, hline, hid, hdate⟩ := mem_recentGames href hrow
    rcases htop.mem_or_full hline with hshown | ⟨hfull, hfirst⟩
    · exact Or.inl ⟨line, hshown, hid⟩
    · exact Or.inr ⟨hfull, fun line' hline' => hdate ▸ date_le_of_le (hfirst line' hline')⟩

end Pages

/-! ## More games than fit on the page -/

section Example

attribute [local instance] Text.asciiTables Numbers.f64

/-- Twenty-seven games on three days. -/
def manyResults : List Wftda.ApiResult :=
  (List.range 27).map fun i =>
    { id := i, date := 19400 + i % 3, team1 := { id := 1, title := "Alpha", score := some 100 },
      team2 := { id := 2, title := "Beta", score := some 95 }, region := none,
      seedingGame := false }

/-- The teams and these games are stored. -/
def manyGamesRun : List Visibility.Step :=
  [.stage (.syncTeams Resolve.alphaBetaApiTeams []), .stage (.syncGames manyResults)]

/-- The games of a later day and those of a higher id come first, and the oldest two are left
out. -/
theorem index_of_manyGamesRun :
    ((handle (Visibility.stateAfter manyGamesRun)).map RecentGame.gameId).take 10 =
      [26, 23, 20, 17, 14, 11, 8, 5, 2, 25] ∧
    (∀ line ∈ handle (Visibility.stateAfter manyGamesRun), line.gameId ≠ 0 ∧ line.gameId ≠ 3) ∧
    ShowsRecent (Visibility.stateAfter manyGamesRun)
      (handle (Visibility.stateAfter manyGamesRun)) := by
  refine ⟨by decide +kernel, by decide +kernel, ?_⟩
  exact index_of_run (Visibility.run_stateAfter (by decide +kernel))

end Example

end IndexPage
end Statskboo
