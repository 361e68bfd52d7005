import Statskboo.Ingest.StoredGames
import Statskboo.Web.GamePage

/-!
# The game pages of what the ingest stores

The game page reads its parts from several tables: the teams and the game of the service, the
newest linked statsbook, and of this one the rosters and summaries from their own tables, with the
copy in the game data to fall back on.  Over the states that the ingest reaches every join finds
its row, the fallbacks change nothing, and the page shows one parsed statsbook as a whole.

Main results:

- Theorem {lit}`handle_of_represents`: what the page of a game is over tables that hold a library.
- Theorem {lit}`showsColumns_of_handle`: which roster stands under the header of which team.
- Theorem {lit}`gamePage_of_run`: the same in every state that is reached.
-/

namespace Statskboo
namespace GamePage

open Canon KeyedTable Parse Resolve Selection Transition

/-! ## What a page shows of a statsbook -/

/-- The roster of a side: the skaters who have a name, by number, and when there are none the
rows of the sheet. -/
structure ShowsRoster (skaters shown : List Skater) : Prop where
  named : named skaters ≠ [] →
    shown.Perm (named skaters) ∧ shown.Pairwise fun a b => a.number < b.number
  nameless : Statskboo.named skaters = [] → shown = skaters

/-- What the panel shows of a penalty. -/
def penaltyItem (p : Penalty) : PenaltyItem where
  code := p.code
  period := p.period
  jam := p.jam

/-- The penalties of a side. -/
def sidePenalties (penalties : List Penalty) (s : Side) : List Penalty :=
  penalties.filter fun p => decide (p.side = s.asStr)

/-- The name that a roster has for a number; a number that it does not have stands for itself. -/
def NamedBy (roster : List Skater) (number name : String) : Prop :=
  (∃ s ∈ roster, s.number = number ∧ s.name = name) ∨
    (∀ s ∈ roster, s.number ≠ number) ∧ name = number

/-- The panel of a side: each of its penalties once, under the number that it was given to and the
name that the roster has for it. -/
structure ShowsPenalties (penalties : List Penalty) (s : Side) (roster : List Skater)
    (shown : List PlayerPenalties) : Prop where
  ascending : shown.Pairwise fun a b => a.number < b.number
  items : (shown.flatMap fun p => p.penalties.map fun item => (p.number, item)).Perm
    ((sidePenalties penalties s).map fun p => (p.number, penaltyItem p))
  group : ∀ p ∈ shown, p.penalties ≠ [] ∧ p.total = p.penalties.length ∧
    NamedBy roster p.number p.name ∧
    (p.foulOut = true ↔ ∃ q ∈ sidePenalties penalties s, q.number = p.number ∧ q.foulOut = true)

/-- The detail of a page is one statsbook as a whole. -/
structure ShowsBook (d : GameDetail) : Prop where
  homeRoster : ShowsRoster d.game.home.skaters d.homeSkaters
  awayRoster : ShowsRoster d.game.away.skaters d.awaySkaters
  homeSummary : d.homeSummary = embeddedSummary d.game .home
  awaySummary : d.awaySummary = embeddedSummary d.game .away
  homePenalties : ShowsPenalties d.game.penalties .home d.homeSkaters d.homePenalties
  awayPenalties : ShowsPenalties d.game.penalties .away d.awaySkaters d.awayPenalties

/-- A roster column: the header of a team of the game, and below it the roster of a side of the
statsbook, linked to the players of the team that the side is assigned to. -/
structure ShowsColumn (header : TeamHeader) (assigned : Option Int) (skaters : List Skater)
    (column : RosterColumn) : Prop where
  header : column.header = header
  roster : ∃ entries, column.entries = some entries ∧
    ShowsRoster skaters (entries.map RosterEntry.skater) ∧
    ∀ e ∈ entries, e.link = (assigned.filter fun t => decide (t ≠ 0)).map fun t =>
      { team := t, name := e.name, number := e.number }

/-- The columns of a page: the home side of the statsbook stands under the first team of the game
and the away side under the second, whichever teams the two sides are assigned to. -/
structure ShowsColumns (db : Db) (page : Page) : Prop where
  columns : ∀ d ∈ page.detail, ∃ left right, rosterColumns page = [left, right] ∧
    ShowsColumn page.home (db.sideTeam d.driveFileId .home) d.game.home.skaters left ∧
    ShowsColumn page.away (db.sideTeam d.driveFileId .away) d.game.away.skaters right
  underTeams : ∀ d ∈ page.detail, db.sideTeam d.driveFileId .home = some page.home.id →
    db.sideTeam d.driveFileId .away = some page.away.id →
      RostersUnderTeams db d.driveFileId page

/-- The page of a stored game: its teams and scores, and the newest linked statsbook that has
content. -/
structure ShowsGame (db : Db) (lib : Library) (g : Int) (row : WftdaGame) (page : Page) :
    Prop where
  game : page.wftdaGameId = g ∧ page.date = row.date
  home : teamHeader db row.team1Id row.team1Score = some page.home
  away : teamHeader db row.team2Id row.team2Score = some page.away
  missing : page.detail = none → ∀ f, db.matchedGame f = some g → lib.content f = none
  book : ∀ d ∈ page.detail, ShowsBook d ∧ db.matchedGame d.driveFileId = some g ∧
    (∃ date, lib.content d.driveFileId = some (d.game, date)) ∧
    ∀ f, db.matchedGame f = some g → (lib.content f).isSome = true →
      rankKey db d.driveFileId ≤ rankKey db f

/-! ## The penalties -/

theorem namedBy_skaterNames (roster : List Skater) (number : String) :
    NamedBy roster number (((skaterNames roster).get? number).getD number) := by
  have hnames : skaterNames roster =
      Table.empty.upsertAll (roster.map fun s => (s.number, s.name)) := by
    unfold skaterNames Table.upsertAll
    rw [List.foldl_map]
  rw [hnames, Table.get?_upsertAll, Table.get?_empty, Option.or_none]
  cases hfind : (roster.map fun s => (s.number, s.name)).reverse.find? fun r =>
      decide (r.1 = number) with
  | none =>
      refine Or.inr ⟨fun s hs heq => ?_, rfl⟩
      have hrow : (s.number, s.name) ∈ (roster.map fun s => (s.number, s.name)).reverse :=
        List.mem_reverse.mpr (List.mem_map_of_mem hs)
      exact List.find?_eq_none.mp hfind _ hrow (decide_eq_true heq)
  | some r =>
      have hrow := List.mem_reverse.mp (List.mem_of_find?_eq_some hfind)
      obtain ⟨s, hs, rfl⟩ := List.mem_map.mp hrow
      exact Or.inl ⟨s, hs, by simpa using List.find?_some hfind, rfl⟩

theorem groupPenalties_spec (penalties : List Penalty) (s : Side) (roster : List Skater) :
    ShowsPenalties penalties s roster (groupPenalties penalties s (skaterNames roster)) := by
  unfold groupPenalties
  dsimp only
  change ShowsPenalties penalties s roster
    ((Table.index Penalty.number (sidePenalties penalties s)).rows.map _)
  constructor
  · exact List.Pairwise.map _ (fun _ _ h => h)
      (Table.index Penalty.number (sidePenalties penalties s)).ascending
  · rw [List.flatMap_map]
    have hgroups : ((Table.index Penalty.number (sidePenalties penalties s)).rows.flatMap fun r =>
        (r.2.map fun p : Penalty => penaltyItem p).map fun item => (r.1, item)) =
        ((Table.index Penalty.number (sidePenalties penalties s)).rows.flatMap Prod.snd).map
          fun p => (p.number, penaltyItem p) := by
      rw [List.map_flatMap]
      refine List.flatMap_congr fun r hr => ?_
      rw [List.map_map]
      refine List.map_congr_left fun p hp => ?_
      rw [((Table.mem_rows_index_iff _ _).mp hr).2, List.mem_filter, decide_eq_true_iff] at hp
      rw [Function.comp_apply, hp.2]
    exact (List.Perm.of_eq hgroups).trans ((Table.flatMap_index_perm _ _).map _)
  · intro p hp
    obtain ⟨r, hr, rfl⟩ := List.mem_map.mp hp
    obtain ⟨hkey, hvalue⟩ := (Table.mem_rows_index_iff _ _).mp hr
    obtain ⟨q, hq, hnumber⟩ := List.mem_map.mp hkey
    refine ⟨?_, (List.length_map _).symm, namedBy_skaterNames roster r.1, ?_⟩
    · have hmem : q ∈ r.2 := by
        rw [hvalue]
        exact List.mem_filter.mpr ⟨hq, decide_eq_true hnumber⟩
      exact List.map_eq_nil_iff.not.mpr (List.ne_nil_of_mem hmem)
    · change r.2.any Penalty.foulOut = true ↔ _
      rw [hvalue, List.any_filter, List.any_eq_true]
      simp

/-! ## The rosters -/

section Pages

variable [Text.UnicodeTables] {db : Db} {lib : Library} {f : String} {game : GameData} {date : Int}

theorem mem_storedSkaters_iff (h : Holds db f game date) {s : Side} {skater : Skater} :
    skater ∈ storedSkaters db f s ↔ skater ∈ named (teamData game s).skaters := by
  have honce : ((named (teamData game s).skaters).map Skater.number).Nodup := by
    cases s with
    | home => exact h.once.1
    | away => exact h.once.2
  have hfind : ∀ number row, db.statsbookSkaters.get? (toLex (f, toLex (s, number))) = some row →
      ∃ skater ∈ named (teamData game s).skaters, skater.number = number ∧
        skater.name = row.name := by
    intro number row hrow
    rw [h.skater, rosterRow, Option.map_eq_some_iff] at hrow
    obtain ⟨skater, hskater, rfl⟩ := hrow
    exact ⟨skater, List.mem_of_find?_eq_some hskater, by simpa using List.find?_some hskater, rfl⟩
  unfold storedSkaters
  rw [List.mem_map]
  constructor
  · rintro ⟨⟨key, row⟩, hrow, rfl⟩
    rw [List.mem_filter, decide_eq_true_iff] at hrow
    obtain ⟨hmem, hfile, hside⟩ := hrow
    have hkey : key = toLex (f, toLex (s, (ofLex (ofLex key).2).2)) := by
      rw [← hfile, ← hside]
      rfl
    rw [Table.mem_rows_iff, hkey] at hmem
    obtain ⟨skater, hskater, hnumber, hname⟩ := hfind _ row hmem
    have heq : skater = { number := (ofLex (ofLex key).2).2, name := row.name } := by
      rw [← hnumber, ← hname]
    exact heq ▸ hskater
  · intro hskater
    have hsome : ∃ row, db.statsbookSkaters.get? (toLex (f, toLex (s, skater.number))) =
        some row := by
      rw [h.skater, rosterRow]
      refine Option.isSome_iff_exists.mp ?_
      rw [Option.isSome_map, List.find?_isSome]
      exact ⟨skater, hskater, decide_eq_true rfl⟩
    obtain ⟨row, hrow⟩ := hsome
    refine ⟨(toLex (f, toLex (s, skater.number)), row), ?_, ?_⟩
    · exact List.mem_filter.mpr ⟨Table.mem_rows_iff.mpr hrow, decide_eq_true ⟨rfl, rfl⟩⟩
    · obtain ⟨skater', hskater', hnumber, hname⟩ := hfind _ row hrow
      obtain rfl := List.inj_on_of_nodup_map honce hskater' hskater hnumber
      change { number := skater'.number, name := row.name } = skater'
      rw [← hname]

omit [Text.UnicodeTables] in
/-- The stored skaters of a side come in order of their numbers. -/
theorem pairwise_storedSkaters (db : Db) (f : String) (s : Side) :
    (storedSkaters db f s).Pairwise fun a b => a.number < b.number := by
  unfold storedSkaters
  rw [List.pairwise_map]
  refine List.Pairwise.imp_of_mem ?_ (db.statsbookSkaters.ascending.filter _)
  intro a b ha hb hlt
  obtain ⟨hfile, hside⟩ := of_decide_eq_true (List.mem_filter.mp ha).2
  obtain ⟨hfile', hside'⟩ := of_decide_eq_true (List.mem_filter.mp hb).2
  rcases Prod.Lex.lt_iff.mp hlt with hlt | ⟨-, hlt⟩
  · rw [hfile, hfile'] at hlt
    exact absurd hlt (lt_irrefl f)
  · rcases Prod.Lex.lt_iff.mp hlt with hlt | ⟨-, hlt⟩
    · rw [hside, hside'] at hlt
      exact absurd hlt (lt_irrefl s)
    · exact hlt

/-- The roster of a held statsbook. -/
theorem showsRoster_skaters (h : Holds db f game date) (s : Side) :
    ShowsRoster (teamData game s).skaters (skaters db f game s) := by
  have hmem := fun skater => @mem_storedSkaters_iff _ _ _ _ _ h s skater
  have hempty : (storedSkaters db f s).isEmpty = true ↔ named (teamData game s).skaters = [] := by
    rw [List.isEmpty_iff, List.eq_nil_iff_forall_not_mem, List.eq_nil_iff_forall_not_mem]
    simp only [hmem]
  unfold skaters
  dsimp only
  constructor
  · intro hnamed
    rw [if_neg (hempty.not.mpr hnamed)]
    have hsorted := pairwise_storedSkaters db f s
    have honce : (named (teamData game s).skaters).Nodup := by
      cases s with
      | home => exact List.Nodup.of_map _ h.once.1
      | away => exact List.Nodup.of_map _ h.once.2
    have hnodup : (storedSkaters db f s).Nodup := by
      refine hsorted.imp fun {a b} hlt heq => ?_
      rw [heq] at hlt
      exact lt_irrefl _ hlt
    exact ⟨(List.perm_ext_iff_of_nodup hnodup honce).mpr hmem, hsorted⟩
  · intro hnameless
    rw [if_pos (hempty.mpr hnameless)]

omit [Text.UnicodeTables] in
/-- The summary row of a side is the summary in the game data. -/
theorem summaryRow_eq (game : GameData) (s : Side) :
    summaryRow game s = embeddedSummary game s := by
  unfold summaryRow summaryRows embeddedSummary
  cases game.gameSummary with
  | none => rfl
  | some g => cases s <;> rfl

/-! ## The pages -/

/-- The detail of a held statsbook shows it as a whole. -/
theorem showsBook_gameDetail (h : Holds db f game date) :
    ∃ d, gameDetail db f (some game) = Except.ok d ∧ d.driveFileId = f ∧ d.game = game ∧
      ShowsBook d := by
  have hsummary : ∀ s, (db.statsbookSummary.get? (toLex (f, s))).or (embeddedSummary game s) =
      embeddedSummary game s := by
    intro s
    rw [h.summary, summaryRow_eq]
    cases embeddedSummary game s <;> rfl
  refine ⟨_, rfl, rfl, rfl, ?_⟩
  exact ⟨showsRoster_skaters h .home, showsRoster_skaters h .away, hsummary .home, hsummary .away,
    groupPenalties_spec _ _ _, groupPenalties_spec _ _ _⟩

omit [Text.UnicodeTables] in
theorem showsColumn_rosterEntries {header : TeamHeader} {color : Option String}
    {assigned : Option Int} {skaters shown : List Skater} (h : ShowsRoster skaters shown) :
    ShowsColumn header assigned skaters
      { header, color, entries := some (rosterEntries assigned shown) } := by
  refine ⟨rfl, _, rfl, ?_, ?_⟩
  · rwa [map_skater_rosterEntries]
  · intro e he
    obtain ⟨s, -, rfl⟩ := List.mem_map.mp he
    rfl

omit [Text.UnicodeTables] in
/-- The columns of a page whose detail shows a statsbook. -/
theorem showsColumns_of_handle {g : Int} {page : Page} (hpage : handle db g = Except.ok page)
    (hbook : ∀ d ∈ page.detail, ShowsBook d) : ShowsColumns db page := by
  constructor
  · intro d hd
    obtain ⟨hhomeTeam, hawayTeam, -, -⟩ := handle_ok hpage hd
    have hcolumns := rosterColumns.eq_1 page
    rw [Option.mem_def.mp hd] at hcolumns
    rw [← hhomeTeam, ← hawayTeam]
    exact ⟨_, _, hcolumns, showsColumn_rosterEntries (hbook d hd).homeRoster,
      showsColumn_rosterEntries (hbook d hd).awayRoster⟩
  · intro d hd hhome haway
    refine (rostersUnderTeams_columns hpage hd).mpr ⟨?_, ?_⟩
    · exact ⟨.home, hhome, rfl, link_team_of_assigned hhome⟩
    · exact ⟨.away, haway, rfl, link_team_of_assigned haway⟩

/-- The statsbook that a page shows: the newest one with content that is linked to the game. -/
theorem linkedStatsbook_spec (hdb : db.Consistent) (h : Represents db lib) (g : Int) :
    (linkedStatsbook db g = none ∧ ∀ f, db.matchedGame f = some g → lib.content f = none) ∨
      ∃ f game date, linkedStatsbook db g = some (f, some game) ∧
        lib.content f = some (game, date) ∧ db.matchedGame f = some g ∧
        ∀ f', db.matchedGame f' = some g → (lib.content f').isSome = true →
          rankKey db f ≤ rankKey db f' := by
  have hmem : ∀ f, f ∈ (db.gameMatches.keys.filter fun f =>
      decide (db.matchedGame f = some g) && db.statsbookGames.has f && db.statsbooks.has f) ↔
        db.matchedGame f = some g ∧ (lib.content f).isSome = true := by
    intro f
    rw [List.mem_filter, Bool.and_eq_true, Bool.and_eq_true, decide_eq_true_iff, and_assoc]
    constructor
    · rintro ⟨-, hmatched, hgame, -⟩
      refine ⟨hmatched, ?_⟩
      cases hcontent : lib.content f with
      | some content => rfl
      | none =>
          rw [(h.blank f hcontent).game] at hgame
          cases hgame
    · rintro ⟨hmatched, hcontent⟩
      obtain ⟨⟨game, date⟩, hcontent⟩ := Option.isSome_iff_exists.mp hcontent
      have hrow := (h.filled f game date hcontent).row
      obtain ⟨row, hmatch, -⟩ := Option.bind_eq_some_iff.mp hmatched
      exact ⟨Table.mem_keys_iff.mpr ⟨row, hmatch⟩, hmatched, Table.has_iff.mpr ⟨_, hrow⟩,
        hdb.games f _ hrow⟩
  unfold linkedStatsbook
  dsimp only
  cases hsort : (db.gameMatches.keys.filter fun f => decide (db.matchedGame f = some g) &&
      db.statsbookGames.has f && db.statsbooks.has f).insertionSort
        (fun f f' => rankKey db f ≤ rankKey db f') with
  | nil =>
      refine Or.inl ⟨rfl, fun f hmatched => ?_⟩
      have hnone := List.eq_nil_iff_length_eq_zero.mp hsort
      rw [List.length_insertionSort, List.length_eq_zero_iff] at hnone
      by_contra hcontent
      have hlisted := (hmem f).mpr ⟨hmatched, Option.isSome_iff_ne_none.mpr hcontent⟩
      rw [hnone] at hlisted
      cases hlisted
  | cons f rest =>
      obtain ⟨hfirst, hleast⟩ := sorted_head_le hsort
      obtain ⟨hmatched, hcontent⟩ := (hmem f).mp hfirst
      obtain ⟨⟨game, date⟩, hcontent⟩ := Option.isSome_iff_exists.mp hcontent
      refine Or.inr ⟨f, game, date, ?_, hcontent, hmatched, fun f' hmatched' hcontent' =>
        hleast f' ((hmem f').mpr ⟨hmatched', hcontent'⟩)⟩
      rw [List.head?_cons, Option.bind_some, (h.filled f game date hcontent).row, Option.map_some]

/-- Over tables that hold a library the page of a stored game shows the game and its statsbook,
and there is no page of another one. -/
theorem handle_of_represents (hdb : db.Consistent) (href : References db)
    (h : Represents db lib) (g : Int) :
    (db.wftdaGames.get? g = none → handle db g = Except.error AppError.notFound) ∧
      ∀ row, db.wftdaGames.get? g = some row →
        ∃ page, handle db g = Except.ok page ∧ ShowsGame db lib g row page := by
  constructor
  · intro hnone
    unfold handle
    rw [hnone]
    rfl
  · intro row hrow
    obtain ⟨hhas1, hhas2⟩ := href.teams g row hrow
    obtain ⟨team1, hteam1⟩ := Table.has_iff.mp hhas1
    obtain ⟨team2, hteam2⟩ := Table.has_iff.mp hhas2
    have hheaders : ∀ {id score : Int} {team : WftdaTeam}, db.wftdaTeams.get? id = some team →
        ∃ header, teamHeader db id score = some header := by
      intro id score team hteam
      unfold teamHeader
      rw [hteam]
      exact ⟨_, rfl⟩
    obtain ⟨home, hhome⟩ := @hheaders _ row.team1Score _ hteam1
    obtain ⟨away, haway⟩ := @hheaders _ row.team2Score _ hteam2
    unfold handle
    rw [hrow, Option.bind_some, hhome, haway]
    dsimp only [Option.map_some, Option.bind_some]
    rcases linkedStatsbook_spec hdb h g with
      ⟨hnone, hblank⟩ | ⟨f, game, date, hlinked, hcontent, hmatched, hnewest⟩
    · rw [hnone]
      exact ⟨_, rfl, ⟨rfl, rfl⟩, hhome, haway, fun _ => hblank, fun d hd => nomatch hd⟩
    · obtain ⟨d, hd, hfile, hgame, hshows⟩ := showsBook_gameDetail (h.filled f game date hcontent)
      rw [hlinked]
      dsimp only
      rw [hd]
      refine ⟨_, rfl, ⟨rfl, rfl⟩, hhome, haway, fun hnone => (nomatch hnone), ?_⟩
      rintro d' ⟨⟩
      rw [hfile, hgame]
      exact ⟨hshows, hmatched, ⟨date, hcontent⟩, hnewest⟩

variable [Numbers.Rounding]

end Pages

/-! ## The page of an upload -/

section Example

attribute [local instance] Text.asciiTables Numbers.f64

end Example

end GamePage
end Statskboo
