import Statskboo.Web.GamePages
import Statskboo.Web.PlayerPage
import Statskboo.Web.SearchPlayers

/-!
# Where the links to players lead

The roster of a game page and the search page link to a player by team, name and number.  The
player page looks the player up by the canonical form of the name, which the parse stage has
stored beside each roster row.  Over the states that the ingest reaches a link leads to a page
that lists the games which the link stands for.

Main results:

- Theorem {lit}`lists_of_named`: the page of a player lists the games in whose rosters the player
  is.
- Theorem {lit}`rosterLink_of_run`: a link in the roster of a game leads to a page with that game.
- Theorem {lit}`searchLink_of_run`: a link of the search page leads to a page with the games of
  the rows that were found.
-/

namespace Statskboo
namespace PlayerPage

open Canon KeyedTable Parse Resolve Transition

/-- A page of the player, whatever the order of its rows, lists the game. -/
def ListsGame [Text.CaseTables] (db : Db) (params : PlayerParams) (g : Int) : Prop :=
  ∀ rows, FoundRows db params rows → ∃ page, handle db params rows = some page ∧
    ∃ line ∈ page.games, line.gameId = g

section Links

variable [Text.CaseTables] {db : Db} {lib : Library} {f : String}
  {game : GameData} {date g : Int}
  {s : Side} {team : Int}

omit [Text.CaseTables] in
/-- The opponent of a team in a stored game is stored. -/
theorem exists_opponent (href : References db) {row : WftdaGame}
    (hrow : db.wftdaGames.get? g = some row) (team : Int) :
    ∃ opp, db.wftdaTeams.get? (TeamPage.opponentId row team) = some opp := by
  obtain ⟨hteam1, hteam2⟩ := href.teams g row hrow
  unfold TeamPage.opponentId
  split_ifs
  · exact Table.has_iff.mp hteam2
  · exact Table.has_iff.mp hteam1

/-- The page of a player lists the game of a statsbook in whose roster the player is. -/
theorem lists_of_stored (href : References db) {row : StatsbookGame} {number : String}
    {skater : StatsbookSkater} {name : String} (hgame : db.statsbookGames.get? f = some row)
    (hskater : db.statsbookSkaters.get? (toLex (f, toLex (s, number))) = some skater)
    (hname : skater.nameCanonical = canonicalizeName name) (hteam : db.sideTeam f s = some team)
    (hmatched : db.matchedGame f = some g) :
    ListsGame db { team, name, number } g := by
  intro rows hrows
  obtain ⟨wg, hwg⟩ := Table.has_iff.mp (href.linked f g hmatched)
  obtain ⟨opp, hopp⟩ := exists_opponent href hwg team
  obtain ⟨row', hrow', hid⟩ : ∃ row', joinedRow db { team, name, number } f s number skater =
      some row' ∧ row'.wftdaGameId = g := by
    have hplayer : IsPlayer db { team, name, number } f s number skater := ⟨hteam, hname, rfl⟩
    unfold joinedRow
    rw [hgame, hmatched, Option.bind_eq_bind, Option.bind_some, Option.bind_eq_bind,
      Option.bind_some, hwg, Option.bind_eq_bind, Option.bind_some, hopp, Option.bind_eq_bind,
      Option.bind_some, if_pos hplayer]
    exact ⟨_, rfl, rfl⟩
  obtain ⟨-, hids⟩ := gameIds_gameRows hrows
  obtain ⟨line, hline, hlineId⟩ := List.mem_map.mp
    ((hids g).mpr ⟨row', mem_joinedRows_iff.mpr ⟨f, s, number, skater, hskater, hrow'⟩, hid⟩)
  obtain ⟨teamRow, hteamRow⟩ := Table.has_iff.mp (href.assigned f s team hteam)
  unfold handle
  rw [hteamRow, Option.map_some]
  exact ⟨_, rfl, line.1, List.mem_map_of_mem hline, hlineId⟩

/-- A skater with a name has a roster row. -/
theorem stored_of_named (h : Holds db f game date) {skater : Skater}
    (hskater : skater ∈ named (teamData game s).skaters) :
    db.statsbookSkaters.get? (toLex (f, toLex (s, skater.number))) =
      some { name := skater.name, nameCanonical := canonicalizeName skater.name } := by
  have honce : ((named (teamData game s).skaters).map Skater.number).Nodup := by
    cases s with
    | home => exact h.once.1
    | away => exact h.once.2
  rw [h.skater, rosterRow]
  cases hfind : (named (teamData game s).skaters).find?
      fun other => decide (other.number = skater.number) with
  | none =>
      exact absurd (decide_eq_true rfl) (List.find?_eq_none.mp hfind skater hskater)
  | some other =>
      have hnumber : other.number = skater.number := by simpa using List.find?_some hfind
      rw [List.inj_on_of_nodup_map honce (List.mem_of_find?_eq_some hfind) hskater hnumber]
      rfl

/-- The page of a player lists the games in whose rosters the player is. -/
theorem lists_of_named (href : References db) (h : Holds db f game date) {skater : Skater}
    (hskater : skater ∈ named (teamData game s).skaters) (hteam : db.sideTeam f s = some team)
    (hmatched : db.matchedGame f = some g) :
    ListsGame db { team, name := skater.name, number := skater.number } g :=
  lists_of_stored href h.row (stored_of_named h hskater) rfl hteam hmatched

/-! ## The rosters of a game page -/

omit [Text.CaseTables] in
/-- A skater who is shown with a name is on the roster of the statsbook. -/
theorem mem_named_of_showsRoster {skaters shown : List Skater} {skater : Skater}
    (h : GamePage.ShowsRoster skaters shown) (hshown : skater ∈ shown)
    (hname : skater.name ≠ "") : skater ∈ named skaters := by
  by_cases hnamed : named skaters = []
  · rw [h.nameless hnamed] at hshown
    refine List.mem_filter.mpr ⟨hshown, ?_⟩
    simpa [String.isEmpty_iff] using hname
  · exact (h.named hnamed).1.mem_iff.mp hshown

/-- A link in a roster column leads to the page of a player of the side that the column shows. -/
theorem lists_of_showsColumn (href : References db) (h : Holds db f game date)
    (hmatched : db.matchedGame f = some g) {header : GamePage.TeamHeader}
    {column : GamePage.RosterColumn} {entries : List GamePage.RosterEntry}
    {entry : GamePage.RosterEntry} {link : GamePage.PlayerLink}
    (hshows : GamePage.ShowsColumn header (db.sideTeam f s) (teamData game s).skaters column)
    (hentries : column.entries = some entries) (hentry : entry ∈ entries)
    (hlink : link ∈ entry.link) (hname : link.name ≠ "") :
    ListsGame db { team := link.team, name := link.name, number := link.number } g := by
  obtain ⟨entries', hentries', hroster, hlinks⟩ := hshows.roster
  obtain rfl := Option.some.inj (hentries.symm.trans hentries')
  rw [hlinks entry hentry] at hlink
  obtain ⟨t, ht, rfl⟩ := Option.map_eq_some_iff.mp hlink
  have hassigned : db.sideTeam f s = some t := (Option.filter_eq_some_iff.mp ht).1
  have hskater : entry.skater ∈ named (teamData game s).skaters :=
    mem_named_of_showsRoster hroster (List.mem_map_of_mem hentry) hname
  have hlists := lists_of_named href h hskater hassigned hmatched
  exact hlists

variable [Numbers.Rounding]

/-- In every state that the ingest reaches, a link in a roster of a game page leads to the page of
a player that lists that game, unless the sheet left the name out. -/
theorem rosterLink_of_run {steps : List Visibility.Step} {page : GamePage.Page}
    {column : GamePage.RosterColumn} {entries : List GamePage.RosterEntry}
    {entry : GamePage.RosterEntry} {link : GamePage.PlayerLink}
    (hrun : run Visibility.step Db.empty steps = some db)
    (hpage : GamePage.handle db g = Except.ok page) (hcolumn : column ∈ GamePage.rosterColumns page)
    (hentries : column.entries = some entries) (hentry : entry ∈ entries)
    (hlink : link ∈ entry.link) (hname : link.name ≠ "") :
    ListsGame db { team := link.team, name := link.name, number := link.number } g := by
  obtain ⟨hdb, hholds⟩ := represents_run Db.consistent_empty represents_empty hrun
  have href := references_run Db.consistent_empty References.empty hrun
  obtain ⟨hmissing, hpages⟩ := GamePage.handle_of_represents hdb href hholds g
  cases hrow : db.wftdaGames.get? g with
  | none =>
      rw [hmissing hrow] at hpage
      cases hpage
  | some row =>
      obtain ⟨page', hpage', hshows⟩ := hpages row hrow
      obtain rfl := Except.ok.inj (hpage.symm.trans hpage')
      cases hdetail : page.detail with
      | none =>
          simp only [GamePage.rosterColumns, hdetail, List.mem_cons, List.not_mem_nil,
            or_false] at hcolumn
          rcases hcolumn with rfl | rfl <;> cases hentries
      | some d =>
          obtain ⟨-, hmatched, ⟨date, hcontent⟩, -⟩ := hshows.book d hdetail
          have hholdsFile := hholds.filled d.driveFileId d.game date hcontent
          have hcolumns := GamePage.showsColumns_of_handle hpage fun d hd => (hshows.book d hd).1
          obtain ⟨left, right, hpair, hleft, hright⟩ := hcolumns.columns d hdetail
          rw [hpair, List.mem_pair] at hcolumn
          rcases hcolumn with rfl | rfl
          · exact lists_of_showsColumn (s := .home) href hholdsFile hmatched hleft hentries hentry
              hlink hname
          · exact lists_of_showsColumn (s := .away) href hholdsFile hmatched hright hentries hentry
              hlink hname

/-! ## The search page -/

/-- The rows that a search has found are stored. -/
def StoredHits (db : Db) (hits : List Search.SkaterHit) : Prop :=
  ∀ hit ∈ hits, db.statsbookSkaters.get?
    (toLex (hit.driveFileId, toLex (hit.side, hit.number))) =
      some { name := hit.name, nameCanonical := hit.nameCanonical }

/-- The rows that belong to a line of the search page. -/
def HitOf (db : Db) (r : Search.PlayerResult) (hit : Search.SkaterHit) : Prop :=
  db.sideTeam hit.driveFileId hit.side = some r.teamId ∧
    hit.nameCanonical = canonicalizeName r.name ∧ hit.number = r.number

omit [Numbers.Rounding] in
/-- A stored roster row is that of a skater with a name in the library. -/
theorem exists_skater_of_stored (h : Represents db lib) {number : String} {row : StatsbookSkater}
    (hrow : db.statsbookSkaters.get? (toLex (f, toLex (s, number))) = some row) :
    row.nameCanonical = canonicalizeName row.name ∧ ∃ game date,
      lib.content f = some (game, date) ∧
        (⟨number, row.name⟩ : Skater) ∈ named (teamData game s).skaters := by
  cases hcontent : lib.content f with
  | none =>
      have hnone := (h.blank f hcontent).skaters s number
      rw [Table.has, hrow] at hnone
      cases hnone
  | some content =>
      have hholds := h.filled f content.1 content.2 hcontent
      rw [hholds.skater, rosterRow, Option.map_eq_some_iff] at hrow
      obtain ⟨other, hother, rfl⟩ := hrow
      have hnumber : other.number = number := by simpa using List.find?_some hother
      refine ⟨rfl, content.1, content.2, rfl, ?_⟩
      rw [← hnumber]
      exact List.mem_of_find?_eq_some hother

/-- In every state that the ingest reaches, a line of the search page stands for rows that it has
found, and links to the page of a player that lists the games of all these rows. -/
theorem searchLink_of_run {steps : List Visibility.Step} {hits : List Search.SkaterHit}
    {players : List Search.PlayerResult} {r : Search.PlayerResult}
    (hrun : run Visibility.step Db.empty steps = some db) (hhits : StoredHits db hits)
    (hplayers : Search.Lists db hits players) (hr : r ∈ players) :
    (∃ hit ∈ hits, HitOf db r hit ∧ hit.name = r.name ∧
      (db.matchedGame hit.driveFileId).isSome = true) ∧
    ∀ hit ∈ hits, HitOf db r hit → ∀ g, db.matchedGame hit.driveFileId = some g →
      ListsGame db { team := r.teamId, name := r.name, number := r.number } g := by
  obtain ⟨-, hholds⟩ := represents_run Db.consistent_empty represents_empty hrun
  have href := references_run Db.consistent_empty References.empty hrun
  constructor
  · obtain ⟨key, hteam, hnumber, hname⟩ := Search.exists_shownName_of_lists hplayers hr
    obtain ⟨hit, hhit, side, hside, rfl, hsame⟩ := Search.exists_hit_of_shownName hname
    obtain ⟨hassigned, hmatched, -⟩ := Search.sideTeams_eq_some hside
    obtain ⟨hcanonical, -⟩ := exists_skater_of_stored hholds (hhits hit hhit)
    refine ⟨hit, hhit, ⟨hteam ▸ hassigned, ?_, hnumber⟩, hsame, hmatched⟩
    rw [← hsame]
    exact hcanonical
  · intro hit hhit ⟨hside, hcanonical, hnumber⟩ g hmatched
    obtain ⟨-, game, date, hcontent, -⟩ := exists_skater_of_stored hholds (hhits hit hhit)
    have hrow := (hholds.filled hit.driveFileId game date hcontent).row
    have hstored := hhits hit hhit
    rw [hnumber] at hstored
    exact lists_of_stored href hrow hstored hcanonical hside hmatched

end Links

/-! ## The links to one player -/

section Example

attribute [local instance] Text.asciiCaseTables Numbers.f64

/-- A statsbook with one skater on each side is stored and linked to its game. -/
def linksRun : List Visibility.Step :=
  [.stage (.syncTeams alphaBetaApiTeams []),
    .stage (.syncGames alphaBetaApiResults),
    .stage (.upsertStatsbook 1 "f" "f.xlsx" none none 20),
    .stage (.storeParsedGame "f" GamePage.swappedGame (some 19400)),
    .resolveGames]

theorem run_linksRun :
    run Visibility.step Db.empty linksRun = some (Visibility.stateAfter linksRun) :=
  Visibility.run_stateAfter (by decide +kernel)

/-- The link to that skater. -/
def annLink : GamePage.PlayerLink where
  team := 2
  name := "Ann"
  number := "1"

/-- The link on the page of the game leads to a page with the game. -/
theorem rosterLink_of_linksRun :
    ListsGame (Visibility.stateAfter linksRun) { team := 2, name := "Ann", number := "1" } 10 := by
  have hcolumn : ((GamePage.handle (Visibility.stateAfter linksRun) 10).toOption.bind
      fun page => (GamePage.rosterColumns page).head?) = some
        { header := { id := 1, title := "Alpha", slug := none, path := "1", score := 100 }
          color := none
          entries := some [{ number := "1", name := "Ann", link := some annLink }] } := by
    decide +kernel
  cases hpage : GamePage.handle (Visibility.stateAfter linksRun) 10 with
  | error e =>
      rw [hpage] at hcolumn
      cases hcolumn
  | ok page =>
      rw [hpage] at hcolumn
      have hhead : (GamePage.rosterColumns page).head? = some _ := hcolumn
      have hmem := List.mem_of_mem_head? (Option.mem_def.mpr hhead)
      have hlink : annLink ∈ some annLink := rfl
      have hlists := rosterLink_of_run run_linksRun hpage hmem rfl List.mem_cons_self hlink
        (by decide)
      exact hlists

/-- So does the link of the search page. -/
theorem searchLink_of_linksRun :
    ListsGame (Visibility.stateAfter linksRun) { team := 2, name := "Ann", number := "1" } 10 := by
  have hlists : Search.Lists (Visibility.stateAfter linksRun) [⟨"f", .home, "Ann", "ann", "1"⟩]
      [⟨2, "Beta", "2", "Ann", "1"⟩] :=
    ⟨[⟨2, "Beta", "2", "Ann", "1"⟩], by decide +kernel, List.pairwise_singleton _ _, rfl⟩
  have hstored : StoredHits (Visibility.stateAfter linksRun) [⟨"f", .home, "Ann", "ann", "1"⟩] := by
    intro hit hhit
    rw [List.mem_singleton.mp hhit]
    decide +kernel
  exact (searchLink_of_run run_linksRun hstored hlists List.mem_cons_self).2 _
    List.mem_cons_self ⟨by decide +kernel, by decide +kernel, rfl⟩ 10 (by decide +kernel)

end Example

end PlayerPage
end Statskboo
