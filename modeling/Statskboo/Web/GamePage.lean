import Statskboo.Ingest.ResolveFailure

/-!
# The game page

The handler fills the header of the page from the WFTDA game, home from its first
team and away from its second, and the statsbook detail from the home and away sides
of the statsbook.  The template puts the roster of each statsbook side under the
header of the same name.  The two agree only when the home side of the statsbook is
the first team of the game.

Main results:

- Theorem {lit}`handle_ok`: where the parts of a page come from.
- Theorem {lit}`rostersUnderTeams_iff`: when the rosters stand under their teams.
-/

namespace Statskboo
namespace GamePage

open KeyedTable Resolve

/-! ## The handler -/

/-- One WFTDA side of the game header. -/
structure TeamHeader where
  id : Int
  title : String
  slug : Option String
  path : String
  score : Int
deriving DecidableEq, Repr

/-- One penalty of a player. -/
structure PenaltyItem where
  code : String
  period : Nat
  jam : Option Nat
deriving DecidableEq, Repr

/-- The penalties of a player. -/
structure PlayerPenalties where
  number : String
  name : String
  total : Nat
  foulOut : Bool
  penalties : List PenaltyItem
deriving DecidableEq, Repr

/-- The statsbook-derived detail of a page. -/
structure GameDetail where
  driveFileId : String
  homeWftdaTeamId : Option Int
  awayWftdaTeamId : Option Int
  game : GameData
  homeSkaters : List Skater
  awaySkaters : List Skater
  homeSummary : Option SideStats
  awaySummary : Option SideStats
  homeNames : Table String String
  awayNames : Table String String
  homePenalties : List PlayerPenalties
  awayPenalties : List PlayerPenalties

/-- What the handler hands to the template. -/
structure Page where
  wftdaGameId : Int
  date : Int
  home : TeamHeader
  away : TeamHeader
  detail : Option GameDetail

/-- The errors of the handler. -/
inductive AppError where
  | notFound
  | internal (message : String)
deriving DecidableEq, Repr

/-- The header of a team with its score in the game. -/
def teamHeader (db : Db) (id score : Int) : Option TeamHeader :=
  (db.wftdaTeams.get? id).map fun team =>
    { id, title := team.title, slug := team.slug, path := team.slug.getD (toString id), score }

/-- The newest statsbook linked to a game, with its stored data. -/
def linkedStatsbook (db : Db) (wftdaGameId : Int) : Option (String × Option GameData) :=
  let linked := db.gameMatches.keys.filter fun f =>
    decide (db.matchedGame f = some wftdaGameId) && db.statsbookGames.has f && db.statsbooks.has f
  (linked.insertionSort fun f f' => rankKey db f ≤ rankKey db f').head?.bind fun f =>
    (db.statsbookGames.get? f).map fun row => (f, row.gameData)

/-- The stored skaters of a side in order of their numbers. -/
def storedSkaters (db : Db) (f : String) (s : Side) : List Skater :=
  (db.statsbookSkaters.rows.filter fun r =>
    decide ((ofLex r.1).1 = f ∧ (ofLex (ofLex r.1).2).1 = s)).map fun r =>
      { number := (ofLex (ofLex r.1).2).2, name := r.2.name }

/-- The roster of a side: the stored skaters, or the copy in the game data when there
are none. -/
def skaters (db : Db) (f : String) (game : GameData) (s : Side) : List Skater :=
  let stored := storedSkaters db f s
  if stored.isEmpty then (Parse.teamData game s).skaters else stored

/-- The name of each number. -/
def skaterNames (skaters : List Skater) : Table String String :=
  skaters.foldl (fun t s => t.upsert s.number s.name) Table.empty

/-- The penalties of one side, player by player in order of their numbers. -/
def groupPenalties (penalties : List Penalty) (side : Side) (names : Table String String) :
    List PlayerPenalties :=
  let groups := Table.index Penalty.number
    (penalties.filter fun p => decide (p.side = side.asStr))
  groups.rows.map fun r =>
    { number := r.1
      name := (names.get? r.1).getD r.1
      total := r.2.length
      foulOut := r.2.any Penalty.foulOut
      penalties := r.2.map fun p => { code := p.code, period := p.period, jam := p.jam } }

/-- The summary of a side in the game data. -/
def embeddedSummary (game : GameData) (s : Side) : Option SideStats :=
  game.gameSummary.map fun g =>
    match s with
    | .home => { players := g.homePlayers, totals := g.homeTotals }
    | .away => { players := g.awayPlayers, totals := g.awayTotals }

/-- The detail of a linked statsbook. -/
def gameDetail (db : Db) (f : String) : Option GameData → Except AppError GameDetail
  | none => Except.error (AppError.internal ("statsbook " ++ f ++ " has no game_data"))
  | some game =>
      let homeSkaters := skaters db f game .home
      let awaySkaters := skaters db f game .away
      let homeNames := skaterNames homeSkaters
      let awayNames := skaterNames awaySkaters
      Except.ok
        { driveFileId := f
          homeWftdaTeamId := db.sideTeam f .home
          awayWftdaTeamId := db.sideTeam f .away
          game
          homeSkaters
          awaySkaters
          homeSummary :=
            (db.statsbookSummary.get? (toLex (f, .home))).or (embeddedSummary game .home)
          awaySummary :=
            (db.statsbookSummary.get? (toLex (f, .away))).or (embeddedSummary game .away)
          homeNames
          awayNames
          homePenalties := groupPenalties game.penalties .home homeNames
          awayPenalties := groupPenalties game.penalties .away awayNames }

/-- The handler of the game page. -/
def handle (db : Db) (wftdaGameId : Int) : Except AppError Page :=
  let joined := (db.wftdaGames.get? wftdaGameId).bind fun row =>
    (teamHeader db row.team1Id row.team1Score).bind fun home =>
      (teamHeader db row.team2Id row.team2Score).map fun away => (row, home, away)
  match joined with
  | none => Except.error AppError.notFound
  | some (row, home, away) =>
      match linkedStatsbook db wftdaGameId with
      | none => Except.ok { wftdaGameId, date := row.date, home, away, detail := none }
      | some (f, gameData) =>
          (gameDetail db f gameData).map fun detail =>
            { wftdaGameId, date := row.date, home, away, detail := some detail }

/-! ## The roster columns of the template -/

/-- A link to the page of a player. -/
structure PlayerLink where
  team : Int
  name : String
  number : String
deriving DecidableEq, Repr

/-- One row of a roster table; the name may be a link. -/
structure RosterEntry where
  number : String
  name : String
  link : Option PlayerLink
deriving DecidableEq, Repr

/-- One roster column: the header of a team and, with a statsbook, a color and a roster. -/
structure RosterColumn where
  header : TeamHeader
  color : Option String
  entries : Option (List RosterEntry)
deriving DecidableEq, Repr

/-- The roster rows; the template treats a missing id and the id zero as false. -/
def rosterEntries (teamId : Option Int) (skaters : List Skater) : List RosterEntry :=
  skaters.map fun s =>
    { number := s.number
      name := s.name
      link := (teamId.filter fun t => decide (t ≠ 0)).map fun t =>
        { team := t, name := s.name, number := s.number } }

/-- The two roster columns of a page. -/
def rosterColumns (page : Page) : List RosterColumn :=
  [{ header := page.home
     color := page.detail.bind fun d => d.game.home.color.filter fun c => !c.isEmpty
     entries := page.detail.map fun d => rosterEntries d.homeWftdaTeamId d.homeSkaters },
    { header := page.away
      color := page.detail.bind fun d => d.game.away.color.filter fun c => !c.isEmpty
      entries := page.detail.map fun d => rosterEntries d.awayWftdaTeamId d.awaySkaters }]

/-! ## Rosters and teams -/

/-- The roster of a side of a stored statsbook. -/
def roster (db : Db) (f : String) (s : Side) : List Skater :=
  match (db.statsbookGames.get? f).bind StatsbookGame.gameData with
  | none => []
  | some game => skaters db f game s

/-- The number and name of a roster row. -/
def RosterEntry.skater (e : RosterEntry) : Skater where
  number := e.number
  name := e.name

/-- Under the header of each team stands the roster of a side that is assigned to the
team, and every link there leads to a player of the team. -/
def RostersUnderTeams (db : Db) (f : String) (page : Page) : Prop :=
  ∀ column ∈ rosterColumns page, ∃ s entries,
    db.sideTeam f s = some column.header.id ∧ column.entries = some entries ∧
      entries.map RosterEntry.skater = roster db f s ∧
      ∀ e ∈ entries, ∀ link ∈ e.link, link.team = column.header.id

/-- The sides are assigned to the two teams of the page, in one of the two orders. -/
def SidesAssigned (db : Db) (f : String) (page : Page) : Prop :=
  (db.sideTeam f .home = some page.home.id ∧ db.sideTeam f .away = some page.away.id) ∨
    (db.sideTeam f .home = some page.away.id ∧ db.sideTeam f .away = some page.home.id)

variable {db : Db} {wftdaGameId : Int} {page : Page} {d : GameDetail}

/-- A page shows the newest linked statsbook with its sides as they are stored. -/
theorem handle_ok (h : handle db wftdaGameId = Except.ok page) (hdetail : page.detail = some d) :
    d.homeWftdaTeamId = db.sideTeam d.driveFileId .home ∧
      d.awayWftdaTeamId = db.sideTeam d.driveFileId .away ∧
      d.homeSkaters = roster db d.driveFileId .home ∧
      d.awaySkaters = roster db d.driveFileId .away := by
  unfold handle at h
  dsimp only at h
  split at h
  · cases h
  · split at h
    · cases h
      cases hdetail
    · next f gameData hlinked =>
      obtain ⟨f', -, hfound⟩ := Option.bind_eq_some_iff.mp hlinked
      obtain ⟨row, hrow, heq⟩ := Option.map_eq_some_iff.mp hfound
      cases heq
      cases hdata : row.gameData with
      | none =>
          rw [hdata] at h
          cases h
      | some game =>
          rw [hdata] at h
          cases h
          cases hdetail
          have hroster : ∀ s, roster db f s = skaters db f game s := by
            intro s
            simp [roster, hrow, hdata]
          exact ⟨rfl, rfl, (hroster .home).symm, (hroster .away).symm⟩

theorem map_skater_rosterEntries (teamId : Option Int) (l : List Skater) :
    (rosterEntries teamId l).map RosterEntry.skater = l := by
  rw [rosterEntries, List.map_map]
  exact List.map_id l

/-- The links of a column carry the team that its roster is assigned to. -/
theorem link_team {teamId : Option Int} {l : List Skater} {e : RosterEntry} {link : PlayerLink}
    (he : e ∈ rosterEntries teamId l) (hlink : link ∈ e.link) : teamId = some link.team := by
  obtain ⟨s, -, rfl⟩ := List.mem_map.mp he
  obtain ⟨t, ht, rfl⟩ := Option.map_eq_some_iff.mp hlink
  exact (Option.filter_eq_some_iff.mp ht).1

/-- A column whose side is assigned to the team of its header links to players of that team. -/
theorem link_team_of_assigned {teamId : Option Int} {l : List Skater} {t : Int}
    (hteam : teamId = some t) : ∀ e ∈ rosterEntries teamId l, ∀ link ∈ e.link, link.team = t := by
  intro e he link hlink
  exact Option.some.inj ((link_team he hlink).symm.trans hteam)

/-- A roster without wrong links is empty or assigned to the id zero. -/
theorem eq_nil_or_zero {t t' : Int} {l : List Skater} (hne : t ≠ t')
    (h : ∀ e ∈ rosterEntries (some t) l, ∀ link ∈ e.link, link.team = t') : l = [] ∨ t = 0 := by
  cases l with
  | nil => exact Or.inl rfl
  | cons s l =>
      refine Or.inr ?_
      by_contra hzero
      have hlink := h _ (List.mem_map_of_mem (List.mem_cons_self (a := s) (l := l)))
        { team := t, name := s.name, number := s.number } (by simp [hzero])
      exact hne hlink

/-- The page lists in each column the roster of the side of the same name. -/
theorem rostersUnderTeams_columns (h : handle db wftdaGameId = Except.ok page)
    (hdetail : page.detail = some d) :
    RostersUnderTeams db d.driveFileId page ↔
      (∃ s, db.sideTeam d.driveFileId s = some page.home.id ∧
        roster db d.driveFileId .home = roster db d.driveFileId s ∧
        ∀ e ∈ rosterEntries (db.sideTeam d.driveFileId .home) (roster db d.driveFileId .home),
          ∀ link ∈ e.link, link.team = page.home.id) ∧
      (∃ s, db.sideTeam d.driveFileId s = some page.away.id ∧
        roster db d.driveFileId .away = roster db d.driveFileId s ∧
        ∀ e ∈ rosterEntries (db.sideTeam d.driveFileId .away) (roster db d.driveFileId .away),
          ∀ link ∈ e.link, link.team = page.away.id) := by
  obtain ⟨hhomeId, hawayId, hhome, haway⟩ := handle_ok h hdetail
  unfold RostersUnderTeams rosterColumns
  simp [hdetail, map_skater_rosterEntries, hhomeId, hawayId, hhome, haway]

/-- The rosters stand under their teams exactly when the home side of the statsbook is
the first team of the game, or neither side has a roster. -/
theorem rostersUnderTeams_iff (h : handle db wftdaGameId = Except.ok page)
    (hdetail : page.detail = some d) (hassigned : SidesAssigned db d.driveFileId page) :
    RostersUnderTeams db d.driveFileId page ↔
      db.sideTeam d.driveFileId .home = some page.home.id ∨
        (roster db d.driveFileId .home = [] ∧ roster db d.driveFileId .away = []) := by
  rw [rostersUnderTeams_columns h hdetail]
  constructor
  · intro hrosters
    obtain ⟨⟨s, hs, hrosterHome, hlinksHome⟩, ⟨s', hs', hrosterAway, hlinksAway⟩⟩ := hrosters
    rcases hassigned with hstraight | hswapped
    · exact Or.inl hstraight.1
    · by_cases hids : page.away.id = page.home.id
      · rw [hswapped.1, hids]
        exact Or.inl rfl
      · -- each column shows the other side's roster, and its links the other team
        have hside : s = .away := by
          cases s with
          | home => exact absurd (Option.some.inj (hswapped.1.symm.trans hs)) hids
          | away => rfl
        rw [hside] at hrosterHome
        rw [hswapped.1] at hlinksHome
        rw [hswapped.2] at hlinksAway
        rcases eq_nil_or_zero hids hlinksHome with hnil | hzero
        · exact Or.inr ⟨hnil, hrosterHome ▸ hnil⟩
        · rcases eq_nil_or_zero (Ne.symm hids) hlinksAway with hnil | hzero'
          · exact Or.inr ⟨hrosterHome.trans hnil, hnil⟩
          · exact absurd (hzero.trans hzero'.symm) hids
  · intro hcondition
    rcases hcondition with hstraight | ⟨hnilHome, hnilAway⟩
    · have haway : db.sideTeam d.driveFileId .away = some page.away.id := by
        rcases hassigned with hassigned | hswapped
        · exact hassigned.2
        · rw [hswapped.2, ← hstraight, hswapped.1]
      exact ⟨⟨.home, hstraight, rfl, link_team_of_assigned hstraight⟩,
        ⟨.away, haway, rfl, link_team_of_assigned haway⟩⟩
    · rw [hnilHome, hnilAway]
      rcases hassigned with hassigned | hswapped
      · exact ⟨⟨.home, hassigned.1, hnilHome.symm, by simp [rosterEntries]⟩,
          ⟨.away, hassigned.2, hnilAway.symm, by simp [rosterEntries]⟩⟩
      · exact ⟨⟨.away, hswapped.2, hnilAway.symm, by simp [rosterEntries]⟩,
          ⟨.home, hswapped.1, hnilHome.symm, by simp [rosterEntries]⟩⟩

/-! ## A statsbook whose home side is the second team -/

section Example

attribute [local instance] Text.asciiTables Numbers.f64

/-- Beta at home against Alpha, each with one skater. -/
def swappedGame : GameData :=
  { bareGame 95 100 with
    home := { bareTeam "Beta" with skaters := [{ number := "1", name := "Ann" }] }
    away := { bareTeam "Alpha" with skaters := [{ number := "2", name := "Bea" }] } }

/-- The state after a pass over this statsbook. -/
def swappedDb : Db :=
  (do
    let db ← Wftda.syncTeams Db.empty alphaBetaApiTeams []
    let db ← Wftda.syncGames db alphaBetaApiResults
    let db := Index.upsertStatsbook db 1 "f" "f.xlsx" none none 20
    let (db, _) ← Parse.storeParsedGame db "f" swappedGame (some 19400)
    let (db, _) ← resolveGames db
    return db : Option Db).getD Db.empty

theorem handle_swappedDb :
    ∃ page d, handle swappedDb 10 = Except.ok page ∧ page.detail = some d ∧
      d.driveFileId = "f" ∧ page.home.id = 1 ∧ page.away.id = 2 := by
  have hshown : ((handle swappedDb 10).toOption.map fun page =>
      (page.home.id, page.away.id, page.detail.map GameDetail.driveFileId)) =
        some (1, 2, some "f") := by decide +kernel
  cases hpage : handle swappedDb 10 with
  | error e =>
      rw [hpage] at hshown
      cases hshown
  | ok page =>
      rw [hpage] at hshown
      obtain ⟨hhome, haway, hdetail⟩ : page.home.id = 1 ∧ page.away.id = 2 ∧
          page.detail.map GameDetail.driveFileId = some "f" := by
        simpa [Except.toOption] using hshown
      obtain ⟨d, hd, hfile⟩ := Option.map_eq_some_iff.mp hdetail
      exact ⟨page, d, rfl, hd, hfile, hhome, haway⟩

theorem sidesAssigned_swappedDb :
    swappedDb.sideTeam "f" .home = some 2 ∧ swappedDb.sideTeam "f" .away = some 1 := by
  decide +kernel

/-- The page lists the skater of Beta under the header of Alpha. -/
theorem not_rostersUnderTeams :
    ¬ ∀ db wftdaGameId page d, handle db wftdaGameId = Except.ok page → page.detail = some d →
      SidesAssigned db d.driveFileId page → RostersUnderTeams db d.driveFileId page := by
  intro h
  obtain ⟨page, d, hpage, hdetail, hfile, hhomeId, hawayId⟩ := handle_swappedDb
  obtain ⟨hhomeTeam, hawayTeam⟩ := sidesAssigned_swappedDb
  have hassigned : SidesAssigned swappedDb d.driveFileId page := by
    rw [SidesAssigned, hfile, hhomeId, hawayId]
    exact Or.inr ⟨hhomeTeam, hawayTeam⟩
  obtain ⟨s, entries, hs, hentries, hskaters, -⟩ :=
    h swappedDb 10 page d hpage hdetail hassigned _ (List.mem_cons_self ..)
  have hside : s = .away := by
    cases s with
    | home =>
        rw [hfile, hhomeTeam] at hs
        exact absurd ((Option.some.inj hs).trans hhomeId) (by decide)
    | away => rfl
  rw [hdetail] at hentries
  cases hentries
  rw [map_skater_rosterEntries, (handle_ok hpage hdetail).2.2.1, hside, hfile] at hskaters
  exact absurd hskaters (by decide +kernel)

theorem rostersUnderTeams_swappedDb :
    ∃ page d, handle swappedDb 10 = Except.ok page ∧ page.detail = some d ∧
      (RostersUnderTeams swappedDb d.driveFileId page ↔
        swappedDb.sideTeam d.driveFileId .home = some page.home.id ∨
          (roster swappedDb d.driveFileId .home = [] ∧
            roster swappedDb d.driveFileId .away = [])) := by
  obtain ⟨page, d, hpage, hdetail, hfile, hhomeId, hawayId⟩ := handle_swappedDb
  refine ⟨page, d, hpage, hdetail, rostersUnderTeams_iff hpage hdetail ?_⟩
  rw [SidesAssigned, hfile, hhomeId, hawayId]
  exact Or.inr sidesAssigned_swappedDb

end Example

end GamePage
end Statskboo
