import Statskboo.Ingest.ResolveFailure
import Statskboo.Web.PlayerPage

/-!
# One game on two pages

The team page compares the WFTDA scores of a game, and the player page the statsbook's.  The
side assignment joins them, and it lets the scores differ.  The two pages tell the same result
when both pairs of scores are level, or when neither is and the assignment lays the winner of
the WFTDA game on the winner of the statsbook.

Main results:

- Theorem {lit}`assigned_eq_aligned_iff`: when the assignment lays winner on winner.
- Theorem {lit}`exists_link`: what the matcher's answer rests on.
- Theorem {lit}`outcome_eq_result_iff`: when the two pages tell the same result.
-/

namespace Statskboo
namespace Outcomes

open Canon KeyedTable PlayerPage Resolve TeamPage

/-! ## Two pairs of scores -/

section Scores

variable {h a x y : Int}

/-- The ranges of two pairs of scores have more than one point in common. -/
def RangesOverlap (h a x y : Int) : Prop :=
  max (min h a) (min x y) < min (max h a) (max x y)

instance (h a x y : Int) : Decidable (RangesOverlap h a x y) :=
  inferInstanceAs (Decidable (_ < _))

/-- Two outcomes are equal when their scores compare alike. -/
theorem outcome_eq_iff : outcome h a = outcome x y ↔ (a < h ↔ y < x) ∧ (h < a ↔ x < y) := by
  unfold outcome
  split_ifs <;> simp <;> omega

/-- The outcomes of the opponents are equal when the outcomes are. -/
theorem outcome_swap_eq_iff : outcome a h = outcome y x ↔ outcome h a = outcome x y := by
  rw [outcome_eq_iff, outcome_eq_iff, and_comm]

theorem result_eq_outcome (g : WftdaGame) (teamId : Int) :
    result g teamId = outcome (ourScore g teamId) (theirScore g teamId) := by
  unfold result outcome
  rcases lt_trichotomy (ourScore g teamId) (theirScore g teamId) with h | h | h
  · rw [compare_lt_iff_lt.mpr h, if_neg (lt_asymm h), if_pos h]
  · rw [compare_eq_iff_eq.mpr h, h, if_neg (lt_irrefl _), if_neg (lt_irrefl _)]
  · rw [compare_gt_iff_gt.mpr h, if_pos h]

/-- Where the higher score is laid on the higher one, the total difference is no larger than
the other way round, and smaller when the ranges overlap. -/
theorem abs_add_abs_lt_iff (haligned : a < h ↔ y < x) :
    |h - x| + |a - y| ≤ |h - y| + |a - x| ∧
      (|h - x| + |a - y| < |h - y| + |a - x| ↔ RangesOverlap h a x y) := by
  unfold RangesOverlap
  simp only [abs_eq_max_neg]
  omega

end Scores

/-! ## What a statsbook is linked to -/

/-- The score of a side of a statsbook. -/
def bookScore (book : BookRow) : Side → Int
  | .home => book.homeScore
  | .away => book.awayScore

/-- The team of a game that is laid on a side. -/
def sideTeamId (game : WftdaGame) : Orientation → Side → Int
  | .straight, .home => game.team1Id
  | .straight, .away => game.team2Id
  | .swapped, .home => game.team2Id
  | .swapped, .away => game.team1Id

/-- The WFTDA score of the team that is laid on a side. -/
def sideScore (game : WftdaGame) : Orientation → Side → Int
  | .straight, .home => game.team1Score
  | .straight, .away => game.team2Score
  | .swapped, .home => game.team2Score
  | .swapped, .away => game.team1Score

/-- The result of a game for the team that is laid on a side. -/
theorem result_sideTeamId {game : WftdaGame} (hne : game.team1Id ≠ game.team2Id)
    (o : Orientation) (s : Side) :
    result game (sideTeamId game o s) =
      outcome (sideScore game o s) (sideScore game o s.other) := by
  rw [result_eq_outcome]
  cases o <;> cases s <;> simp [ourScore, theirScore, sideTeamId, sideScore, Side.other, hne]

theorem scores_of_bookRow {db : Db} {f : String} {book : BookRow} {g : StatsbookGame}
    (hbook : bookRow db f = some book) (hg : db.statsbookGames.get? f = some g) :
    book.homeScore = g.homeScore ∧ book.awayScore = g.awayScore := by
  unfold bookRow at hbook
  simp only [hg, Option.bind_eq_bind, Option.bind_some, Option.bind_eq_some_iff] at hbook
  obtain ⟨home, -, away, -, heq⟩ := hbook
  cases heq
  exact ⟨rfl, rfl⟩

theorem exists_side_of_bookRow {db : Db} {f : String} {book : BookRow}
    (hbook : bookRow db f = some book) (s : Side) : ∃ row, db.side? f s = some row := by
  unfold bookRow at hbook
  simp only [Option.bind_eq_bind, Option.bind_eq_some_iff] at hbook
  obtain ⟨g, -, home, hhome, away, haway, -⟩ := hbook
  cases s with
  | home => exact ⟨home, hhome⟩
  | away => exact ⟨away, haway⟩

/-- A match is stored: the file is linked to the game, and its sides carry the teams. -/
structure Stored (db : Db) (f : String) (r : Resolution) : Prop where
  game : db.matchedGame f = r.wftdaGameId
  sides : ∀ s, db.sideTeam f s = r.team s

section Link

variable [Text.UnicodeTables] [Numbers.Rounding]

/-- A stored team as the matcher sees it. -/
def loadTeam (id : Int) (team : WftdaTeam) : Team where
  id := id
  trigrams := TrigramSet.new (canonicalizeLeague team.title)

omit [Numbers.Rounding] in
theorem eq_loadTeam {db : Db} {t : Team} {id : Int} {team : WftdaTeam}
    (ht : t ∈ (matcherOf db).teams) (hid : t.id = id) (hteam : db.wftdaTeams.get? id = some team) :
    t = loadTeam id team := by
  obtain ⟨row, hrow, htrigrams⟩ := team_of_matcherOf ht
  rw [hid, hteam] at hrow
  cases hrow
  cases t
  rw [loadTeam, ← htrigrams, ← hid]

/-- A statsbook that the matcher links to a game of two teams. -/
structure Link (db : Db) (f : String) where
  book : BookRow
  gameId : Int
  game : WftdaGame
  team1 : WftdaTeam
  team2 : WftdaTeam
  book_eq : bookRow db f = some book
  gameId_eq : ((matcherOf db).resolution book.statsbook).wftdaGameId = some gameId
  game_eq : db.wftdaGames.get? gameId = some game
  team1_eq : db.wftdaTeams.get? game.team1Id = some team1
  team2_eq : db.wftdaTeams.get? game.team2Id = some team2
  teams_ne : game.team1Id ≠ game.team2Id

namespace Link

variable {db : Db} {f : String} (link : Link db f)

/-- The answer of the matcher. -/
def resolution : Resolution :=
  (matcherOf db).resolution link.book.statsbook

/-- Mean name similarity of the sides to the teams laid on them. -/
def similarity : Orientation → ℚ
  | .straight => Matcher.meanSimilarity link.book.statsbook
      (loadTeam link.game.team1Id link.team1) (loadTeam link.game.team2Id link.team2)
  | .swapped => Matcher.meanSimilarity link.book.statsbook
      (loadTeam link.game.team2Id link.team2) (loadTeam link.game.team1Id link.team1)

/-- Total score difference with the teams laid on the sides. -/
def delta (o : Orientation) : Int :=
  Matcher.scoreDelta link.book.statsbook (sideScore link.game o .home)
    (sideScore link.game o .away)

/-- The orientation that lays the higher score on the higher score. -/
def aligned : Orientation :=
  if link.book.awayScore < link.book.homeScore ↔ link.game.team2Score < link.game.team1Score then
    .straight
  else
    .swapped

/-- The names speak for an orientation, where two equal similarities speak for the straight
one. -/
def NamesSpeakFor (o : Orientation) : Prop :=
  link.similarity o.flip < link.similarity o ∨
    (link.similarity o.flip = link.similarity o ∧ o = .straight)

/-- Both pairs of scores are level, or neither is, and the scores or else the names tell which
winner is which. -/
def SameResult : Prop :=
  (link.book.homeScore = link.book.awayScore ∧ link.game.team1Score = link.game.team2Score) ∨
    (link.book.homeScore ≠ link.book.awayScore ∧ link.game.team1Score ≠ link.game.team2Score ∧
      (RangesOverlap link.book.homeScore link.book.awayScore
          link.game.team1Score link.game.team2Score ∨
        link.NamesSpeakFor link.aligned))

/-- The matcher chose a game with the teams and scores of the link. -/
theorem exists_index :
    ∃ i, (∀ s, link.resolution.team s =
        some (sideTeamId link.game ((matcherOf db).assigned link.book.statsbook i) s)) ∧
      ∀ o, (matcherOf db).evidence link.book.statsbook i o =
        (link.similarity o, link.delta o) := by
  have hgame := link.gameId_eq
  unfold resolution
  rcases (matcherOf db).resolution_cases link.book.statsbook with hnone | ⟨i, method, offset, hsome⟩
  · rw [hnone] at hgame
    cases hgame
  · rw [hsome] at hgame ⊢
    obtain ⟨row, hrow, hid1, hid2, hscore1, hscore2⟩ := game_of_matcherOf i
    rw [Option.some.inj hgame, link.game_eq] at hrow
    cases hrow
    have hteam1 : (matcherOf db).team1 i = loadTeam link.game.team1Id link.team1 :=
      eq_loadTeam (List.get_mem _ _) hid1 link.team1_eq
    have hteam2 : (matcherOf db).team2 i = loadTeam link.game.team2Id link.team2 :=
      eq_loadTeam (List.get_mem _ _) hid2 link.team2_eq
    refine ⟨i, fun s => ?_, fun o => ?_⟩
    · rw [Matcher.matched, Matcher.assignSides_eq]
      cases s <;> cases (matcherOf db).assigned link.book.statsbook i
      · exact congrArg some hid1
      · exact congrArg some hid2
      · exact congrArg some hid2
      · exact congrArg some hid1
    · cases o <;>
        simp only [Matcher.evidence, Matcher.homeTeam, Matcher.awayTeam, Matcher.homeTeamScore,
          Matcher.awayTeamScore, similarity, delta, sideScore, hteam1, hteam2, hscore1, hscore2]

/-- Winner on winner is never the larger difference, and the smaller one when the ranges
overlap. -/
theorem delta_aligned (hgame : link.game.team1Score ≠ link.game.team2Score) :
    link.delta link.aligned ≤ link.delta link.aligned.flip ∧
      (link.delta link.aligned < link.delta link.aligned.flip ↔
        RangesOverlap link.book.homeScore link.book.awayScore
          link.game.team1Score link.game.team2Score) := by
  unfold aligned
  split_ifs with haligned
  · exact abs_add_abs_lt_iff haligned
  · -- the game has a winner, so its scores compare with the statsbook's the other way round
    have hswapped : link.book.awayScore < link.book.homeScore ↔
        link.game.team1Score < link.game.team2Score := by omega
    have hdelta := abs_add_abs_lt_iff hswapped
    rw [RangesOverlap, min_comm link.game.team2Score, max_comm link.game.team2Score] at hdelta
    exact hdelta

/-- When the assignment lays winner on winner. -/
theorem assigned_eq_aligned_iff (hgame : link.game.team1Score ≠ link.game.team2Score)
    {i : (matcherOf db).GameIx}
    (hevidence : ∀ o, (matcherOf db).evidence link.book.statsbook i o =
      (link.similarity o, link.delta o)) :
    (matcherOf db).assigned link.book.statsbook i = link.aligned ↔
      RangesOverlap link.book.homeScore link.book.awayScore
          link.game.team1Score link.game.team2Score ∨
        link.NamesSpeakFor link.aligned := by
  obtain ⟨hle, hlt⟩ := link.delta_aligned hgame
  rw [Matcher.assigned_eq_iff, hevidence, hevidence, ← hlt]
  -- where the ranges do not overlap the differences are equal, and the names decide
  refine or_congr_right' fun hnot => ?_
  have heq : link.delta link.aligned = link.delta link.aligned.flip :=
    le_antisymm hle (not_lt.mp hnot)
  exact and_iff_right heq

/-- The statsbook and the game compare alike in an orientation when both are level, or when
the orientation lays winner on winner. -/
theorem outcome_eq_sideScore_iff (o : Orientation) :
    outcome link.book.homeScore link.book.awayScore =
        outcome (sideScore link.game o .home) (sideScore link.game o .away) ↔
      (link.book.homeScore = link.book.awayScore ∧
          link.game.team1Score = link.game.team2Score) ∨
        (link.book.homeScore ≠ link.book.awayScore ∧
          link.game.team1Score ≠ link.game.team2Score ∧ o = link.aligned) := by
  rw [outcome_eq_iff]
  unfold aligned
  split_ifs <;> cases o <;> simp only [sideScore, reduceCtorEq, and_false, and_true, or_false] <;>
    omega

end Link

/-- Every answer that links a game of two teams rests on a link. -/
theorem exists_link {db : Db} {f : String} {r : Resolution} {gameId : Int}
    (hr : resolutionOf db f = some r) (hid : r.wftdaGameId = some gameId)
    (hne : ∀ game, db.wftdaGames.get? gameId = some game → game.team1Id ≠ game.team2Id) :
    ∃ link : Link db f, link.resolution = r ∧ link.gameId = gameId := by
  obtain ⟨book, hbook, rfl⟩ := Option.map_eq_some_iff.mp hr
  rcases (matcherOf db).resolution_cases book.statsbook with hnone | ⟨i, method, offset, hsome⟩
  · rw [hnone] at hid
    cases hid
  · have hgame : ((matcherOf db).game i).id = gameId := by
      rw [hsome] at hid
      exact Option.some.inj hid
    obtain ⟨game, hrow, hid1, hid2, -⟩ := game_of_matcherOf i
    obtain ⟨team1, hteam1, -⟩ := team_of_matcherOf (t := (matcherOf db).team1 i) (List.get_mem _ _)
    obtain ⟨team2, hteam2, -⟩ := team_of_matcherOf (t := (matcherOf db).team2 i) (List.get_mem _ _)
    rw [hid1] at hteam1
    rw [hid2] at hteam2
    rw [hgame] at hrow
    exact ⟨⟨book, gameId, game, team1, team2, hbook, hid, hrow, hteam1, hteam2, hne game hrow⟩,
      rfl, rfl⟩

/-- After a pass the match of every file with content that is linked to a game is stored. -/
theorem stored_of_resolveGames {db db' : Db} {stats : ResolveStats} {f : String} {r : Resolution}
    {gameId : Int} (hdb : db.Consistent) (hpass : resolveGames db = some (db', stats))
    (hr : resolutionOf db f = some r) (hmatched : db'.matchedGame f = some gameId) :
    resolutionOf db' f = some r ∧ Stored db' f r := by
  obtain ⟨hsame, -, hfirst, hsides⟩ := resolveGames_spec hdb hpass
  have hid : r.wftdaGameId = some gameId := by
    obtain ⟨hclaimed, -⟩ := (hfirst f gameId).mp hmatched
    rwa [claimedGame, hr] at hclaimed
  refine ⟨by rw [resolutionOf_of_sameContent hsame, hr], hmatched.trans hid.symm, fun s => ?_⟩
  obtain ⟨book, hbook, -⟩ := Option.map_eq_some_iff.mp hr
  obtain ⟨row, hrow⟩ := exists_side_of_bookRow hbook s
  rw [hsides f r hr s, hmatched, Option.bind_some, hrow, Option.bind_some]

/-! ## The same game on the two pages -/

variable {db : Db} {f : String} {params : PlayerParams} {rows : List QueryRow}
  {p : PlayerPage.GameRow} {s : Side} {t : TeamPage.GameRow}

/-- A line of the history from a matched statsbook shows the scores of its side. -/
theorem line_of_link (link : Link db f) (hstored : Stored db f link.resolution)
    (hrows : FoundRows db params rows) (hp : (p, f, s) ∈ PlayerPage.gameRows params rows) :
    p.gameId = link.gameId ∧ link.resolution.team s = some params.team ∧
      p.outcome = outcome (bookScore link.book s) (bookScore link.book s.other) := by
  obtain ⟨row, hrow, rfl, rfl, rfl⟩ := PlayerPage.mem_gameRows hp
  obtain ⟨f, side, number, skater, -, hjoined⟩ := mem_joinedRows_iff.mp (hrows.1.mem_iff.mp hrow)
  obtain ⟨hplayer, rfl, rfl, hmatched, g, hg, hhome, haway⟩ := joinedRow_eq_some hjoined
  obtain ⟨hbookHome, hbookAway⟩ := scores_of_bookRow link.book_eq hg
  refine ⟨?_, ?_, ?_⟩
  · rw [hstored.game] at hmatched
    exact Option.some.inj (hmatched.symm.trans link.gameId_eq)
  · rw [← hstored.sides]
    exact hplayer.1
  · change outcome row.ourScore row.theirScore = _
    unfold QueryRow.ourScore QueryRow.theirScore
    rw [hhome, haway, ← hbookHome, ← hbookAway]
    cases row.side with
    | home => rfl
    | away => rfl

/-- The team page lists the game of such a line. -/
theorem exists_teamRow (link : Link db f) (hstored : Stored db f link.resolution)
    (hrows : FoundRows db params rows) (hp : (p, f, s) ∈ PlayerPage.gameRows params rows) :
    ∃ t ∈ TeamPage.gameRows db params.team, t.gameId = p.gameId := by
  obtain ⟨hid, hteam, -⟩ := line_of_link link hstored hrows hp
  obtain ⟨i, hteams, -⟩ := link.exists_index
  rw [hteams] at hteam
  rw [hid, ← Option.some.inj hteam]
  have hside : ∀ o, ∃ opp, (link.game.team1Id = sideTeamId link.game o s ∨
      link.game.team2Id = sideTeamId link.game o s) ∧
      db.wftdaTeams.get? (opponentId link.game (sideTeamId link.game o s)) = some opp := by
    intro o
    cases o <;> cases s <;>
      simp [sideTeamId, opponentId, link.teams_ne, link.team1_eq, link.team2_eq]
  obtain ⟨opp, hplays, hopp⟩ := hside ((matcherOf db).assigned link.book.statsbook i)
  exact exists_gameRow link.game_eq hplays hopp

/-- When the two pages tell the same result. -/
theorem outcome_eq_result_iff (link : Link db f) (hstored : Stored db f link.resolution)
    (hrows : FoundRows db params rows) (hp : (p, f, s) ∈ PlayerPage.gameRows params rows)
    (ht : t ∈ TeamPage.gameRows db params.team) (hgame : t.gameId = p.gameId) :
    p.outcome = t.result ↔ link.SameResult := by
  obtain ⟨hid, hteam, houtcome⟩ := line_of_link link hstored hrows hp
  obtain ⟨i, hteams, hevidence⟩ := link.exists_index
  obtain ⟨g, hg, hresult⟩ := TeamPage.mem_gameRows ht
  rw [hgame, hid, link.game_eq] at hg
  cases hg
  rw [hteams] at hteam
  rw [houtcome, hresult, ← Option.some.inj hteam, result_sideTeamId link.teams_ne]
  have hside : ∀ o, outcome (bookScore link.book s) (bookScore link.book s.other) =
        outcome (sideScore link.game o s) (sideScore link.game o s.other) ↔
      outcome link.book.homeScore link.book.awayScore =
        outcome (sideScore link.game o .home) (sideScore link.game o .away) := by
    intro o
    cases s with
    | home => exact Iff.rfl
    | away => exact outcome_swap_eq_iff
  rw [hside, link.outcome_eq_sideScore_iff, Link.SameResult]
  refine or_congr_right (and_congr_right fun _ => and_congr_right fun hgame => ?_)
  exact link.assigned_eq_aligned_iff hgame hevidence

end Link

/-! ## A bout that the statsbook records as level -/

section Example

attribute [local instance] Text.asciiTables Numbers.f64

/-- A statsbook of Alpha against Beta with one skater. -/
def annGame (homeScore awayScore : Int) : GameData :=
  { bareGame homeScore awayScore with
    home := { bareTeam "Alpha" with skaters := [{ number := "1", name := "Ann" }] } }

/-- The state after a pass over this statsbook; WFTDA has the game as 100 to 95. -/
def annDb (homeScore awayScore : Int) : Db :=
  (do
    let db ← Wftda.syncTeams Db.empty alphaBetaApiTeams []
    let db ← Wftda.syncGames db alphaBetaApiResults
    let db := Index.upsertStatsbook db 1 "f" "f.xlsx" none none 20
    let (db, _) ← Parse.storeParsedGame db "f" (annGame homeScore awayScore) (some 19400)
    let (db, _) ← resolveGames db
    return db : Option Db).getD Db.empty

/-- The skater. -/
def ann : PlayerParams where
  team := 1
  name := "Ann"
  number := "1"

/-- The row that the matcher reads of the statsbook. -/
def annBook (homeScore awayScore : Int) : BookRow where
  driveFileId := "f"
  date := 19400
  homeScore := homeScore
  awayScore := awayScore
  home := { league := some "Alpha", team := none, leagueCanonical := "alpha", teamCanonical := "" }
  away := { league := some "Beta", team := none, leagueCanonical := "beta", teamCanonical := "" }

/-- The stored game. -/
def alphaBetaGame : WftdaGame where
  date := 19400
  team1Id := 1
  team2Id := 2
  team1Score := 100
  team2Score := 95
  region := none
  seedingGame := false

/-- A stored team without a slug. -/
def bareStoredTeam (title : String) : WftdaTeam where
  title := title
  shortName := none
  slug := none
  region := none
  regionId := none
  location := none
  inTeamsApi := true

/-- What the pass leaves, and what the two pages show of it. -/
structure AnnShown (homeScore awayScore : Int) : Prop where
  book : bookRow (annDb homeScore awayScore) "f" = some (annBook homeScore awayScore)
  gameId : ((matcherOf (annDb homeScore awayScore)).resolution
    (annBook homeScore awayScore).statsbook).wftdaGameId = some 10
  game : (annDb homeScore awayScore).wftdaGames.get? 10 = some alphaBetaGame
  team1 : (annDb homeScore awayScore).wftdaTeams.get? 1 = some (bareStoredTeam "Alpha")
  team2 : (annDb homeScore awayScore).wftdaTeams.get? 2 = some (bareStoredTeam "Beta")
  matched : (annDb homeScore awayScore).matchedGame "f" = some 10
  sides : ∀ s ∈ [Side.home, Side.away], (annDb homeScore awayScore).sideTeam "f" s =
    ((matcherOf (annDb homeScore awayScore)).resolution
      (annBook homeScore awayScore).statsbook).team s
  sorted : (joinedRows (annDb homeScore awayScore) ann).Pairwise fun r r' => r.newest ≤ r'.newest
  line : ∃ g ∈ PlayerPage.gameRows ann (joinedRows (annDb homeScore awayScore) ann),
    g.1.gameId = 10 ∧ g.1.outcome = outcome homeScore awayScore ∧ g.2 = ("f", Side.home)
  result : ∃ t ∈ TeamPage.gameRows (annDb homeScore awayScore) ann.team,
    t.gameId = 10 ∧ t.result = .win

theorem annShown_level : AnnShown 98 98 := by
  constructor <;> decide +kernel

theorem annShown_drift : AnnShown 103 95 := by
  constructor <;> decide +kernel

variable {homeScore awayScore : Int}

/-- The link of the statsbook. -/
def AnnShown.link (h : AnnShown homeScore awayScore) : Link (annDb homeScore awayScore) "f" where
  book := annBook homeScore awayScore
  gameId := 10
  game := alphaBetaGame
  team1 := bareStoredTeam "Alpha"
  team2 := bareStoredTeam "Beta"
  book_eq := h.book
  gameId_eq := h.gameId
  game_eq := h.game
  team1_eq := h.team1
  team2_eq := h.team2
  teams_ne := by decide

theorem AnnShown.stored (h : AnnShown homeScore awayScore) :
    Stored (annDb homeScore awayScore) "f" h.link.resolution where
  game := h.matched.trans h.gameId.symm
  sides s := h.sides s (by cases s <;> decide)

theorem AnnShown.found (h : AnnShown homeScore awayScore) :
    FoundRows (annDb homeScore awayScore) ann (joinedRows (annDb homeScore awayScore) ann) :=
  ⟨List.Perm.refl _, h.sorted⟩

/-- A level statsbook shows a tie on the player page, and the team page shows the win. -/
theorem not_outcome_eq_result :
    ¬∀ (db : Db) (f : String) (link : Link db f), Stored db f link.resolution →
      ∀ params rows, FoundRows db params rows →
        ∀ p s, (p, f, s) ∈ PlayerPage.gameRows params rows →
          ∀ t ∈ TeamPage.gameRows db params.team, t.gameId = p.gameId → p.outcome = t.result := by
  intro h
  have hshown := annShown_level
  obtain ⟨⟨p, f, s⟩, hp, hid, houtcome, hkey⟩ := hshown.line
  obtain ⟨t, ht, hid', hresult⟩ := hshown.result
  cases hkey
  have heq := h _ _ hshown.link hshown.stored ann _ hshown.found p _ hp t ht (hid'.trans hid.symm)
  rw [hresult] at heq
  exact absurd (houtcome.symm.trans heq) (by decide)

/-- A statsbook that drifted from the WFTDA scores and still shows the same result. -/
theorem outcome_eq_result_drift :
    ∃ p t, (p, "f", Side.home) ∈ PlayerPage.gameRows ann (joinedRows (annDb 103 95) ann) ∧
      t ∈ TeamPage.gameRows (annDb 103 95) ann.team ∧ t.gameId = p.gameId ∧
      p.outcome = t.result := by
  obtain ⟨⟨p, f, s⟩, hp, hid, -, hkey⟩ := annShown_drift.line
  obtain ⟨t, ht, hid', -⟩ := annShown_drift.result
  cases hkey
  have hgame : t.gameId = p.gameId := hid'.trans hid.symm
  refine ⟨p, t, hp, ht, hgame, ?_⟩
  rw [outcome_eq_result_iff annShown_drift.link annShown_drift.stored annShown_drift.found hp ht
    hgame]
  exact Or.inr ⟨by decide, by decide, Or.inl (by decide)⟩

end Example

end Outcomes
end Statskboo
