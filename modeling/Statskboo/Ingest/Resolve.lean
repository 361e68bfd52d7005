import Statskboo.Db.Schema
import Statskboo.Ingest.Orientation
import Statskboo.Lib.Chunks

/-!
# The resolve pass

A pass reads the WFTDA teams and games and every parsed statsbook, resolves the
statsbooks in memory, writes the results in batches, one transaction each, and then
hides every duplicate behind the newest file of its game.

Main results:

- Theorem {lit}`mem_resolveBooks`: a pass resolves exactly the files with parsed
  content, each as the matcher does on its own.
- Theorem {lit}`writeMatches_spec`: what the write batches leave under each file.
- Theorem {lit}`mem_dedupSelect`: the losers are the files that another file of the
  same game ranks before.
- Theorem {lit}`resolveGames_spec`: which file is linked to a game after a pass.
- Theorem {lit}`resolveGames_isSome`: no foreign key stops a pass.
-/

namespace Statskboo
namespace Resolve

open Canon Chunks KeyedTable Selection

/-! ## Reading -/

/-- Statsbooks (and their sides) written per transaction. -/
def writeBatch : Nat := 500

/-- Counts by method from one pass. -/
structure ResolveStats where
  score : Nat
  drift : Nat
  window : Nat
  pair : Nat
  none : Nat
deriving DecidableEq, Repr

/-- Count one resolution. -/
def ResolveStats.record (stats : ResolveStats) : Method → ResolveStats
  | .score => { stats with score := stats.score + 1 }
  | .drift => { stats with drift := stats.drift + 1 }
  | .window => { stats with window := stats.window + 1 }
  | .pair => { stats with pair := stats.pair + 1 }
  | .none => { stats with none := stats.none + 1 }

/-- The names of a side that a pass reads. -/
structure SideNames where
  league : Option String
  team : Option String
  leagueCanonical : String
  teamCanonical : String
deriving DecidableEq, Repr

/-- The names in a side row. -/
def sideNames (row : StatsbookSide) : SideNames where
  league := row.league
  team := row.team
  leagueCanonical := row.leagueCanonical
  teamCanonical := row.teamCanonical

/-- One row of the join of a parsed game with both of its sides. -/
structure BookRow where
  driveFileId : String
  date : Int
  homeScore : Int
  awayScore : Int
  home : SideNames
  away : SideNames
deriving DecidableEq, Repr

/-- The joined row of a file, if it has a parsed game and both sides. -/
def bookRow (db : Db) (f : String) : Option BookRow := do
  let g ← db.statsbookGames.get? f
  let home ← db.side? f .home
  let away ← db.side? f .away
  return { driveFileId := f, date := g.date, homeScore := g.homeScore,
           awayScore := g.awayScore, home := sideNames home, away := sideNames away }

/-- The parsed statsbooks in order of their file ids. -/
def bookRows (db : Db) : List BookRow :=
  db.statsbookGames.keys.filterMap (bookRow db)

/-- The team rows in order of their ids. -/
def teamRows (db : Db) : List (Int × String) :=
  db.wftdaTeams.rows.map fun r => (r.1, r.2.title)

/-- The game rows in order of their ids. -/
def gameRows (db : Db) : List (Int × WftdaGame) :=
  db.wftdaGames.rows

theorem driveFileId_of_bookRow {db : Db} {f : String} {row : BookRow}
    (h : bookRow db f = some row) : row.driveFileId = f := by
  unfold bookRow at h
  simp only [Option.bind_eq_bind, Option.bind_eq_some_iff, Option.pure_def,
    Option.some.injEq] at h
  obtain ⟨_, _, _, _, _, _, rfl⟩ := h
  rfl

theorem mem_bookRows {db : Db} {row : BookRow} :
    row ∈ bookRows db ↔ bookRow db row.driveFileId = some row := by
  unfold bookRows
  rw [List.mem_filterMap]
  constructor
  · intro h
    obtain ⟨f, -, hrow⟩ := h
    rwa [driveFileId_of_bookRow hrow]
  · intro hrow
    refine ⟨row.driveFileId, ?_, hrow⟩
    cases hgame : db.statsbookGames.get? row.driveFileId with
    | none => simp [bookRow, hgame] at hrow
    | some g => exact Table.mem_keys_iff.mpr ⟨g, hgame⟩

/-- Resolving does not change what a later pass reads of the files. -/
theorem bookRow_of_sameContent {db db' : Db} (h : Db.SameContent db db') (f : String) :
    bookRow db' f = bookRow db f := by
  have hnames : ∀ s, (db'.side? f s).map sideNames = (db.side? f s).map sideNames := by
    intro s
    have hsides := congrArg (Option.map sideNames) (h.sides f s)
    rw [Option.map_map, Option.map_map] at hsides
    exact hsides
  have hrow : ∀ db : Db, bookRow db f = (db.statsbookGames.get? f).bind fun g =>
      ((db.side? f .home).map sideNames).bind fun home =>
        ((db.side? f .away).map sideNames).bind fun away =>
          some ⟨f, g.date, g.homeScore, g.awayScore, home, away⟩ := by
    intro db
    unfold bookRow
    simp only [Option.bind_map]
    rfl
  rw [hrow, hrow, h.statsbookGames, hnames, hnames]

section Load

variable [Text.UnicodeTables] [Numbers.Rounding]

/-- The teams of the matcher, titles canonicalized like the side names. -/
def loadTeams (rows : List (Int × String)) : List Team :=
  rows.map fun r => { id := r.1, trigrams := TrigramSet.new (canonicalizeLeague r.2) }

/-- The position of each team id. -/
def teamIndex (teams : List Team) : Table Int (Fin teams.length) :=
  (List.finRange teams.length).foldl (fun t i => t.upsert (teams.get i).id i) Table.empty

/-- The games of the matcher; a game of an unknown team is left out. -/
def loadGames (teams : List Team) (rows : List (Int × WftdaGame)) : List (Game teams.length) :=
  rows.filterMap fun r => do
    let team1 ← (teamIndex teams).get? r.2.team1Id
    let team2 ← (teamIndex teams).get? r.2.team2Id
    return { id := r.1, date := r.2.date, team1, team2, score1 := r.2.team1Score,
             score2 := r.2.team2Score }

/-- The matcher over the rows that a pass has read. -/
def loadMatcher (teams : List (Int × String)) (games : List (Int × WftdaGame)) : Matcher :=
  Matcher.new (loadTeams teams) (loadGames (loadTeams teams) games)

/-- The matcher over the stored teams and games. -/
def matcherOf (db : Db) : Matcher :=
  loadMatcher (teamRows db) (gameRows db)

/-- Canonical {lit}`league + " " + team` name for a statsbook side, falling back to the
stored canonicals when the raw values are missing. -/
def sideName (side : SideNames) : String :=
  let canon := canonicalizeLeague (side.league.getD "" ++ " " ++ side.team.getD "")
  if canon.isEmpty then side.leagueCanonical ++ side.teamCanonical else canon

/-- The fields the matcher needs of a joined row. -/
def BookRow.statsbook (row : BookRow) : Statsbook where
  driveFileId := row.driveFileId
  date := row.date
  homeScore := row.homeScore
  awayScore := row.awayScore
  homeName := sideName row.home
  awayName := sideName row.away
  home := TrigramSet.new (sideName row.home)
  away := TrigramSet.new (sideName row.away)
  home_eq := rfl
  away_eq := rfl

/-- Resolve the statsbooks in order, with one cache for all of them. -/
def resolveBooks (m : Matcher) : Matcher.SideCache m → List BookRow → List (String × Resolution)
  | _, [] => []
  | cache, row :: rows =>
      let (resolution, cache) := m.resolve row.statsbook cache
      (row.driveFileId, resolution) :: resolveBooks m cache rows

/-- What the matcher makes of the stored content of a file. -/
def resolutionOf (db : Db) (f : String) : Option Resolution :=
  (bookRow db f).map fun row => (matcherOf db).resolution row.statsbook

/-- The cache does not show in what the statsbooks resolve to. -/
theorem resolveBooks_eq_map (m : Matcher) (cache : Matcher.SideCache m) (rows : List BookRow) :
    resolveBooks m cache rows =
      rows.map fun row => (row.driveFileId, m.resolution row.statsbook) := by
  induction rows generalizing cache with
  | nil => rfl
  | cons row rows ih =>
      rw [List.map_cons, ← m.resolve_fst row.statsbook cache,
        ← ih (m.resolve row.statsbook cache).2]
      rfl

/-- A pass resolves exactly the files with parsed content. -/
theorem mem_resolveBooks {db : Db} {w : String × Resolution} :
    w ∈ resolveBooks (matcherOf db) (Matcher.SideCache.empty _) (bookRows db) ↔
      resolutionOf db w.1 = some w.2 := by
  rw [resolveBooks_eq_map, List.mem_map, resolutionOf, Option.map_eq_some_iff]
  constructor
  · intro h
    obtain ⟨row, hrow, rfl⟩ := h
    exact ⟨row, mem_bookRows.mp hrow, rfl⟩
  · intro h
    obtain ⟨row, hrow, hres⟩ := h
    have hid := driveFileId_of_bookRow hrow
    refine ⟨row, mem_bookRows.mpr (hid ▸ hrow), ?_⟩
    rw [hid, hres]

end Load

/-! ## Writing -/

/-- The stored form of a resolution; a score delta out of range is stored as the
largest 16-bit value. -/
def matchRow (r : Resolution) : GameMatch where
  wftdaGameId := r.wftdaGameId
  method := StoredMethod.resolved r.method
  teamSimilarity := r.teamSimilarity
  scoreDelta := if -2 ^ 15 ≤ r.scoreDelta ∧ r.scoreDelta < 2 ^ 15 then r.scoreDelta else 2 ^ 15 - 1
  dateOffset := r.dateOffset

/-- The team a resolution assigns to a side. -/
def Resolution.team (r : Resolution) : Side → Option Int
  | .home => r.homeTeamId
  | .away => r.awayTeamId

/-- The two statements that store one resolution. -/
def writeMatch (db : Db) (w : String × Resolution) : Option Db := do
  let db ← db.insertMatch w.1 (matchRow w.2)
  db.assignSides w.1 w.2.homeTeamId w.2.awayTeamId

/-- One write batch, a transaction. -/
def writeMatches (db : Db) (ws : List (String × Resolution)) : Option Db :=
  ws.foldlM writeMatch db

/-! ## Hiding duplicates -/

/-- The ranking of files within a game: newest first, no time last, then file id. -/
def rankKey (db : Db) (f : String) : Nat ×ₗ Int ×ₗ String :=
  match db.modifiedTime f with
  | some t => toLex (0, toLex (-t, f))
  | none => toLex (1, toLex (0, f))

/-- The linked files with their games. -/
def matchedRows (db : Db) : List (String × Int) :=
  db.gameMatches.rows.filterMap fun r =>
    if db.statsbooks.has r.1 then r.2.wftdaGameId.map fun g => (r.1, g) else none

/-- The files numbered past one within their game. -/
def dedupSelect (db : Db) : List String :=
  ((matchedRows db).filter fun r =>
    decide (1 < rowNumber Prod.snd (fun s => rankKey db s.1) (matchedRows db) r)).map Prod.fst

/-- Hide one loser and clear its side assignments. -/
def hideLoser (db : Db) (f : String) : Db :=
  (db.hideMatch f).clearSides f

/-- The transaction that hides the losers. -/
def hideLosers (db : Db) (losers : List String) : Db :=
  losers.foldl hideLoser db

/-- Enforce one visible statsbook per WFTDA game. -/
def dedupMatchedGames (db : Db) : Db :=
  hideLosers db (dedupSelect db)

/-- The answer without a game assigns no teams. -/
theorem team_of_wftdaGameId_none [Text.UnicodeTables] [Numbers.Rounding] {m : Matcher}
    {sb : Statsbook} (h : (m.resolution sb).wftdaGameId = none) (s : Side) :
    (m.resolution sb).team s = none := by
  rcases m.resolution_cases sb with hnone | ⟨i, method, dateOffset, hsome⟩
  · rw [hnone]
    cases s <;> rfl
  · rw [hsome] at h
    cases h

/-! ## What the batches leave -/

section Written

variable {db db' : Db} {f : String} {w : String × Resolution} {ws : List (String × Resolution)}

theorem writeMatch_eq_some :
    writeMatch db w = some db' ↔
      (db.statsbooks.has w.1 = true ∧ ∀ g ∈ w.2.wftdaGameId, db.wftdaGames.has g = true) ∧
      (∀ s, (db.side? w.1 s).isSome = true → ∀ t ∈ w.2.team s, db.wftdaTeams.has t = true) ∧
      db' = ({ db with gameMatches := db.gameMatches.upsert w.1 (matchRow w.2) } : Db).setSideTeams
        w.1 w.2.team := by
  unfold writeMatch Db.insertMatch Db.assignSides
  simp only [Option.bind_eq_bind]
  split_ifs with hinsert
  · simp only [Option.bind_some]
    have hsides : (∀ s ∈ [Side.home, Side.away], (db.side? w.1 s).isSome = true →
        ∀ t ∈ w.2.team s, db.wftdaTeams.has t = true) ↔
        ∀ s, (db.side? w.1 s).isSome = true → ∀ t ∈ w.2.team s, db.wftdaTeams.has t = true := by
      constructor
      · intro h s
        exact h s (by cases s <;> simp)
      · intro h s _
        exact h s
    split_ifs with hassign
    · rw [Option.some.injEq]
      exact ⟨fun h => ⟨hinsert, hsides.mp hassign, h.symm⟩, fun h => h.2.2.symm⟩
    · refine ⟨fun h => (by cases h), fun h => absurd (hsides.mpr h.2.1) hassign⟩
  · exact ⟨fun h => (by cases h), fun h => absurd h.1 hinsert⟩

theorem sameContent_writeMatch (h : writeMatch db w = some db') : Db.SameContent db db' := by
  obtain ⟨db₁, hinsert, hassign⟩ := Option.bind_eq_some_iff.mp h
  exact (Db.sameContent_insertMatch hinsert).trans (Db.sameContent_assignSides hassign)

theorem consistent_writeMatch (hdb : db.Consistent) (h : writeMatch db w = some db') :
    db'.Consistent := by
  obtain ⟨db₁, hinsert, hassign⟩ := Option.bind_eq_some_iff.mp h
  exact (hdb.insertMatch hinsert).assignSides hassign

/-- The content of the files, which resolving only reads, is the same afterwards. -/
theorem sameContent_writeMatches (h : writeMatches db ws = some db') :
    Db.SameContent db db' := by
  induction ws generalizing db with
  | nil =>
      cases h
      exact Db.SameContent.refl _
  | cons w ws ih =>
      obtain ⟨db₁, hw, hws⟩ := Option.bind_eq_some_iff.mp h
      exact (sameContent_writeMatch hw).trans (ih hws)

theorem consistent_writeMatches (hdb : db.Consistent) (h : writeMatches db ws = some db') :
    db'.Consistent := by
  induction ws generalizing db with
  | nil =>
      cases h
      exact hdb
  | cons w ws ih =>
      obtain ⟨db₁, hw, hws⟩ := Option.bind_eq_some_iff.mp h
      exact ih (consistent_writeMatch hdb hw) hws

/-- Under each written file stands its resolution, under the others what stood there. -/
theorem writeMatches_spec {res : String → Option Resolution}
    (hres : ∀ w ∈ ws, res w.1 = some w.2) (h : writeMatches db ws = some db') (f : String) :
    db'.gameMatches.get? f =
        (if f ∈ ws.map Prod.fst then (res f).map matchRow else db.gameMatches.get? f) ∧
      ∀ s, db'.sideTeam f s =
        if f ∈ ws.map Prod.fst then (db.side? f s).bind fun _ => (res f).bind (·.team s)
        else db.sideTeam f s := by
  induction ws generalizing db with
  | nil =>
      cases h
      simp
  | cons w ws ih =>
      obtain ⟨db₁, hw, hws⟩ := Option.bind_eq_some_iff.mp h
      obtain ⟨hmatch, hsides⟩ := ih (fun v hv => hres v (List.mem_cons_of_mem _ hv)) hws
      have hself := hres w (by simp)
      obtain ⟨-, -, rfl⟩ := writeMatch_eq_some.mp hw
      rw [List.map_cons]
      by_cases hf : f = w.1
      · subst hf
        refine ⟨?_, fun s => ?_⟩
        · rw [hmatch, if_pos (List.mem_cons_self ..), Db.gameMatches_setSideTeams,
            Table.get?_upsert_self, hself]
          split_ifs <;> rfl
        · rw [hsides, if_pos (List.mem_cons_self ..), Db.sideTeam_setSideTeams, if_pos rfl,
            Db.side?_setSideTeams, hself]
          simp only [Db.side?]
          split_ifs
          · cases db.statsbookSides.get? (toLex (w.1, s)) <;> rfl
          · rfl
      · have hmem : f ∈ w.1 :: ws.map Prod.fst ↔ f ∈ ws.map Prod.fst := by
          rw [List.mem_cons]
          exact or_iff_right hf
        refine ⟨?_, fun s => ?_⟩
        · rw [hmatch, Db.gameMatches_setSideTeams, Table.get?_upsert_of_ne _ _ hf]
          simp only [hmem]
        · rw [hsides, Db.sideTeam_setSideTeams, if_neg hf, Db.side?_setSideTeams]
          simp only [hmem, if_neg hf]
          split_ifs
          · simp only [Db.side?]
            cases db.statsbookSides.get? (toLex (f, s)) <;> rfl
          · rfl

end Written

/-! ## Batches -/

/-- Writing batch by batch writes what writing all at once does. -/
theorem foldlM_writeMatches (db : Db) (batches : List (List (String × Resolution))) :
    batches.foldlM writeMatches db = writeMatches db batches.flatten :=
  foldlM_flatten db batches

/-! ## What hiding the duplicates leaves -/

section Dedup

variable {db : Db}

theorem rankKey_of_sameContent {db db' : Db} (h : Db.SameContent db db') (f : String) :
    rankKey db' f = rankKey db f := by
  unfold rankKey Db.modifiedTime
  rw [h.statsbooks]

/-- Different files rank differently. -/
theorem rankKey_injective (db : Db) : Function.Injective (rankKey db) := by
  intro f f' h
  have hfst : ∀ f, (ofLex (ofLex (rankKey db f)).2).2 = f := by
    intro f
    unfold rankKey
    cases db.modifiedTime f <;> rfl
  rw [← hfst f, ← hfst f', h]

theorem mem_matchedRows {r : String × Int} (hdb : db.Consistent) :
    r ∈ matchedRows db ↔ db.matchedGame r.1 = some r.2 := by
  unfold matchedRows Db.matchedGame
  rw [List.mem_filterMap]
  constructor
  · intro h
    obtain ⟨⟨f, row⟩, hrow, hr⟩ := h
    dsimp only at hr
    split_ifs at hr
    obtain ⟨g, hg, rfl⟩ := Option.map_eq_some_iff.mp hr
    rw [Table.mem_rows_iff.mp hrow]
    exact hg
  · intro h
    obtain ⟨row, hrow, hg⟩ := Option.bind_eq_some_iff.mp h
    refine ⟨(r.1, row), Table.mem_rows_iff.mpr hrow, ?_⟩
    dsimp only
    rw [if_pos (hdb.matches_ r.1 row hrow), hg]
    rfl

/-- The losers are the linked files that another file of the same game ranks before. -/
theorem mem_dedupSelect (hdb : db.Consistent) {f : String} :
    f ∈ dedupSelect db ↔ ∃ g f', db.matchedGame f = some g ∧ db.matchedGame f' = some g ∧
      rankKey db f' < rankKey db f := by
  unfold dedupSelect
  simp only [List.mem_map, List.mem_filter, decide_eq_true_eq, one_lt_rowNumber_iff]
  constructor
  · intro h
    obtain ⟨⟨f, g⟩, ⟨hf, ⟨f', g'⟩, hf', hgame, hrank⟩, rfl⟩ := h
    obtain rfl : g' = g := hgame
    exact ⟨g', f', (mem_matchedRows hdb).mp hf, (mem_matchedRows hdb).mp hf', hrank⟩
  · intro h
    obtain ⟨g, f', hf, hf', hrank⟩ := h
    exact ⟨(f, g), ⟨(mem_matchedRows hdb).mpr hf, (f', g), (mem_matchedRows hdb).mpr hf', rfl,
      hrank⟩, rfl⟩

theorem sameContent_hideLoser (db : Db) (f : String) : Db.SameContent db (hideLoser db f) :=
  (Db.sameContent_hideMatch db f).trans (Db.sameContent_setSideTeams _ f fun _ => none)

theorem consistent_hideLoser (hdb : db.Consistent) (f : String) : (hideLoser db f).Consistent :=
  (hdb.hideMatch f).setSideTeams f fun _ => none

theorem sameContent_hideLosers (losers : List String) :
    Db.SameContent db (hideLosers db losers) := by
  induction losers generalizing db with
  | nil => exact Db.SameContent.refl db
  | cons f losers ih => exact (sameContent_hideLoser db f).trans ih

theorem consistent_hideLosers (hdb : db.Consistent) (losers : List String) :
    (hideLosers db losers).Consistent := by
  induction losers generalizing db with
  | nil => exact hdb
  | cons f losers ih => exact ih (consistent_hideLoser hdb f)

/-- A loser loses its game and its teams; the other files keep theirs. -/
theorem hideLosers_spec (losers : List String) (f : String) :
    (hideLosers db losers).matchedGame f =
        (if f ∈ losers then none else db.matchedGame f) ∧
      ∀ s, (hideLosers db losers).sideTeam f s =
        if f ∈ losers then none else db.sideTeam f s := by
  induction losers generalizing db with
  | nil => simp [hideLosers]
  | cons l losers ih =>
      obtain ⟨hmatch, hsides⟩ := @ih (hideLoser db l)
      have hmatchLoser : (hideLoser db l).matchedGame f =
          if f = l then none else db.matchedGame f :=
        Db.matchedGame_hideMatch db l f
      have hsidesLoser : ∀ s, (hideLoser db l).sideTeam f s =
          if f = l then none else db.sideTeam f s := by
        intro s
        unfold hideLoser Db.clearSides
        rw [Db.sideTeam_setSideTeams]
        split_ifs
        · cases (db.hideMatch l).side? f s <;> rfl
        · rfl
      change (hideLosers (hideLoser db l) losers).matchedGame f = _ ∧
        ∀ s, (hideLosers (hideLoser db l) losers).sideTeam f s = _
      rw [hmatch, hmatchLoser]
      simp only [hsides, hsidesLoser, List.mem_cons]
      by_cases hl : f = l <;> by_cases hf : f ∈ losers <;> simp [hl, hf]

end Dedup

/-! ## The whole pass -/

variable [Text.UnicodeTables] [Numbers.Rounding]

/-- The resolutions a pass writes. -/
def passWrites (db : Db) : List (String × Resolution) :=
  resolveBooks (matcherOf db) (Matcher.SideCache.empty _) (bookRows db)

/-- One whole pass: read, resolve, write batch by batch, hide the duplicates. -/
def resolveGames (db : Db) : Option (Db × ResolveStats) := do
  let ws := passWrites db
  let stats := ws.foldl (fun stats w => stats.record w.2.method) ⟨0, 0, 0, 0, 0⟩
  let db ← (chunks writeBatch ws).foldlM writeMatches db
  return (dedupMatchedGames db, stats)

variable {db db' : Db}

theorem mem_passWrites {w : String × Resolution} :
    w ∈ passWrites db ↔ resolutionOf db w.1 = some w.2 :=
  mem_resolveBooks

omit [Numbers.Rounding] in
theorem matcherOf_of_sameContent (h : Db.SameContent db db') : matcherOf db' = matcherOf db := by
  unfold matcherOf teamRows gameRows
  rw [h.wftdaTeams, h.wftdaGames]

/-- Resolving does not change what the files resolve to. -/
theorem resolutionOf_of_sameContent (h : Db.SameContent db db') (f : String) :
    resolutionOf db' f = resolutionOf db f := by
  unfold resolutionOf
  rw [bookRow_of_sameContent h, matcherOf_of_sameContent h]

theorem mem_map_passWrites {f : String} :
    f ∈ (passWrites db).map Prod.fst ↔ ∃ r, resolutionOf db f = some r := by
  rw [List.mem_map]
  constructor
  · intro h
    obtain ⟨w, hw, rfl⟩ := h
    exact ⟨w.2, mem_passWrites.mp hw⟩
  · intro h
    obtain ⟨r, hr⟩ := h
    exact ⟨(f, r), mem_passWrites.mpr hr, rfl⟩

/-- The game a file stands for when the duplicates are selected: what its content
resolves to or, without content, what it was linked to before. -/
def claimedGame (db : Db) (f : String) : Option Int :=
  match resolutionOf db f with
  | some r => r.wftdaGameId
  | none => db.matchedGame f

/-- The state between the write batches and the dedup step. -/
theorem passWrites_spec (h : writeMatches db (passWrites db) = some db') (f : String) :
    db'.matchedGame f = claimedGame db f ∧
      ∀ s, db'.sideTeam f s =
        match resolutionOf db f with
        | some r => (db.side? f s).bind fun _ => r.team s
        | none => db.sideTeam f s := by
  have hwrites : ∀ w ∈ passWrites db, resolutionOf db w.1 = some w.2 := fun _ => mem_passWrites.mp
  obtain ⟨hmatch, hsides⟩ := writeMatches_spec hwrites h f
  unfold Db.matchedGame claimedGame
  cases hres : resolutionOf db f with
  | none =>
      have hmem : f ∉ (passWrites db).map Prod.fst := by
        rw [mem_map_passWrites, hres]
        simp
      rw [hmatch, if_neg hmem]
      refine ⟨rfl, fun s => ?_⟩
      rw [hsides, if_neg hmem]
  | some r =>
      have hmem : f ∈ (passWrites db).map Prod.fst := mem_map_passWrites.mpr ⟨r, hres⟩
      rw [hmatch, if_pos hmem, hres]
      refine ⟨rfl, fun s => ?_⟩
      rw [hsides, if_pos hmem, hres]
      rfl

/-- The batches of a pass write what writing all its resolutions at once does. -/
theorem resolveGames_eq (db : Db) :
    resolveGames db = (writeMatches db (passWrites db)).bind fun db₁ =>
      some (dedupMatchedGames db₁,
        (passWrites db).foldl (fun stats w => stats.record w.2.method) ⟨0, 0, 0, 0, 0⟩) := by
  unfold resolveGames
  simp only [foldlM_writeMatches]
  rw [flatten_chunks (by decide)]
  rfl

theorem resolveGames_eq_some {stats : ResolveStats} (h : resolveGames db = some (db', stats)) :
    ∃ db₁, writeMatches db (passWrites db) = some db₁ ∧ db' = dedupMatchedGames db₁ := by
  rw [resolveGames_eq] at h
  obtain ⟨db₁, hwrite, hdone⟩ := Option.bind_eq_some_iff.mp h
  refine ⟨db₁, hwrite, ?_⟩
  cases hdone
  rfl

/-- A file claims a game first when it claims it and no other claimant ranks before. -/
def ClaimsFirst (db : Db) (f : String) (g : Int) : Prop :=
  claimedGame db f = some g ∧ ∀ f', claimedGame db f' = some g → rankKey db f ≤ rankKey db f'

/-- After the write batches the losers are the files that claim a game and not first. -/
theorem mem_dedupSelect_writeMatches (hdb : db.Consistent)
    (hwrite : writeMatches db (passWrites db) = some db') {f : String} {g : Int}
    (hf : claimedGame db f = some g) : f ∈ dedupSelect db' ↔ ¬ ClaimsFirst db f g := by
  have hclaim : ∀ f, db'.matchedGame f = claimedGame db f := fun f => (passWrites_spec hwrite f).1
  rw [mem_dedupSelect (consistent_writeMatches hdb hwrite), ClaimsFirst, not_and]
  simp only [hclaim, rankKey_of_sameContent (sameContent_writeMatches hwrite), not_forall, not_le]
  constructor
  · intro hlose _
    obtain ⟨g', f', hf', hother, hrank⟩ := hlose
    obtain rfl := Option.some.inj (hf.symm.trans hf')
    exact ⟨f', hother, hrank⟩
  · intro hlose
    obtain ⟨f', hother, hrank⟩ := hlose hf
    exact ⟨g, f', hf, hother, hrank⟩

/-- The dedup step leaves to each game the file that claims it first. -/
theorem matchedGame_dedupMatchedGames (hdb : db.Consistent)
    (hwrite : writeMatches db (passWrites db) = some db') (f : String) (g : Int) :
    (dedupMatchedGames db').matchedGame f = some g ↔ ClaimsFirst db f g := by
  unfold dedupMatchedGames
  rw [(hideLosers_spec _ f).1, (passWrites_spec hwrite f).1]
  by_cases hf : claimedGame db f = some g
  · have hiff := mem_dedupSelect_writeMatches hdb hwrite hf
    by_cases hfirst : ClaimsFirst db f g
    · rw [if_neg fun hmem => hiff.mp hmem hfirst]
      exact iff_of_true hf hfirst
    · rw [if_pos (hiff.mpr hfirst)]
      exact iff_of_false (by simp) hfirst
  · refine iff_of_false ?_ fun hfirst => hf hfirst.1
    split_ifs
    · simp
    · exact hf

/-- The sides of content carry the teams of its resolution as long as the dedup step leaves
the file its game. -/
theorem sideTeam_dedupMatchedGames (hdb : db.Consistent)
    (hwrite : writeMatches db (passWrites db) = some db') {f : String} {r : Resolution}
    (hr : resolutionOf db f = some r) (s : Side) :
    (dedupMatchedGames db').sideTeam f s =
      ((dedupMatchedGames db').matchedGame f).bind fun _ =>
        (db.side? f s).bind fun _ => r.team s := by
  have hsides := (passWrites_spec hwrite f).2 s
  rw [hr] at hsides
  have hclaimed : claimedGame db f = r.wftdaGameId := by simp [claimedGame, hr]
  have hafter := (@hideLosers_spec db' (dedupSelect db') f).2 s
  change (dedupMatchedGames db').sideTeam f s = _ at hafter
  rw [hafter, hsides]
  cases hgame : r.wftdaGameId with
  | none =>
      obtain ⟨row, -, rfl⟩ := Option.map_eq_some_iff.mp hr
      simp [team_of_wftdaGameId_none hgame s]
  | some g =>
      rw [hgame] at hclaimed
      have hiff := mem_dedupSelect_writeMatches hdb hwrite hclaimed
      by_cases hfirst : ClaimsFirst db f g
      · rw [if_neg fun hmem => hiff.mp hmem hfirst,
          (matchedGame_dedupMatchedGames hdb hwrite f g).mpr hfirst, Option.bind_some]
      · have hnone : (dedupMatchedGames db').matchedGame f = none := by
          unfold dedupMatchedGames
          rw [(hideLosers_spec _ f).1, if_pos (hiff.mpr hfirst)]
        rw [if_pos (hiff.mpr hfirst), hnone, Option.bind_none]

/-- After a pass a file is linked to a game exactly when it claims it first; then its
sides carry the teams of its claim, and otherwise the sides of content are cleared. -/
theorem resolveGames_spec {stats : ResolveStats} (hdb : db.Consistent)
    (h : resolveGames db = some (db', stats)) :
    Db.SameContent db db' ∧ db'.Consistent ∧
      (∀ f g, db'.matchedGame f = some g ↔ ClaimsFirst db f g) ∧
      ∀ f r, resolutionOf db f = some r → ∀ s, db'.sideTeam f s =
        (db'.matchedGame f).bind fun _ => (db.side? f s).bind fun _ => r.team s := by
  obtain ⟨db₁, hwrite, rfl⟩ := resolveGames_eq_some h
  refine ⟨?_, ?_, matchedGame_dedupMatchedGames hdb hwrite, ?_⟩
  · exact (sameContent_writeMatches hwrite).trans (sameContent_hideLosers _)
  · exact consistent_hideLosers (consistent_writeMatches hdb hwrite) _
  · intro f r hr s
    exact sideTeam_dedupMatchedGames hdb hwrite hr s

/-! ## No foreign key stops a pass -/

omit [Text.UnicodeTables] [Numbers.Rounding] in
/-- The index maps a team id to a position of that id. -/
theorem id_of_teamIndex {teams : List Team} {id : Int} {i : Fin teams.length}
    (h : (teamIndex teams).get? id = some i) : (teams.get i).id = id := by
  have hfold : ∀ (l : List (Fin teams.length)) id i,
      (l.foldl (fun t i => t.upsert (teams.get i).id i) Table.empty).get? id = some i →
        (teams.get i).id = id := by
    intro l
    induction l using List.reverseRecOn with
    | nil => simp
    | append_singleton l j ih =>
        intro id i h
        rw [List.foldl_append, List.foldl_cons, List.foldl_nil, Table.get?_upsert] at h
        split_ifs at h with hid
        · rw [← Option.some.inj h, hid]
        · exact ih id i h
  exact hfold _ id i h

omit [Numbers.Rounding] in
/-- Every game of the matcher is a stored game with its stored teams and scores. -/
theorem game_of_matcherOf (i : (matcherOf db).GameIx) :
    ∃ row, db.wftdaGames.get? ((matcherOf db).game i).id = some row ∧
      ((matcherOf db).team1 i).id = row.team1Id ∧ ((matcherOf db).team2 i).id = row.team2Id ∧
      ((matcherOf db).game i).score1 = row.team1Score ∧
      ((matcherOf db).game i).score2 = row.team2Score := by
  have hmem : (matcherOf db).game i ∈ loadGames (loadTeams (teamRows db)) (gameRows db) :=
    List.get_mem _ _
  obtain ⟨r, hr, hgame⟩ := List.mem_filterMap.mp hmem
  obtain ⟨team1, hteam1, hgame⟩ := Option.bind_eq_some_iff.mp hgame
  obtain ⟨team2, hteam2, hgame⟩ := Option.bind_eq_some_iff.mp hgame
  refine ⟨r.2, ?_, ?_, ?_, ?_, ?_⟩
  · rw [← Option.some.inj hgame]
    exact Table.mem_rows_iff.mp hr
  · rw [Matcher.team1, ← Option.some.inj hgame]
    exact id_of_teamIndex hteam1
  · rw [Matcher.team2, ← Option.some.inj hgame]
    exact id_of_teamIndex hteam2
  · rw [← Option.some.inj hgame]
  · rw [← Option.some.inj hgame]

omit [Numbers.Rounding] in
/-- Every team of the matcher is a stored team with the trigrams of its title. -/
theorem team_of_matcherOf {t : Team} (ht : t ∈ (matcherOf db).teams) :
    ∃ row, db.wftdaTeams.get? t.id = some row ∧
      t.trigrams = TrigramSet.new (canonicalizeLeague row.title) := by
  obtain ⟨r, hr, rfl⟩ := List.mem_map.mp ht
  obtain ⟨row, hrow, rfl⟩ := List.mem_map.mp hr
  exact ⟨row.2, Table.mem_rows_iff.mp hrow, rfl⟩

omit [Numbers.Rounding] in
theorem has_team_of_matcherOf {t : Team} (ht : t ∈ (matcherOf db).teams) :
    db.wftdaTeams.has t.id = true := by
  obtain ⟨row, hrow, -⟩ := team_of_matcherOf ht
  exact Table.has_iff.mpr ⟨row, hrow⟩

/-- A resolution that links a game links a stored game and assigns its two teams. -/
theorem resolutionOf_game {f : String} {r : Resolution} {g : Int}
    (hr : resolutionOf db f = some r) (hg : r.wftdaGameId = some g) :
    ∃ row, db.wftdaGames.get? g = some row ∧ ∃ home away,
      r.homeTeamId = some home ∧ r.awayTeamId = some away ∧
      ((home = row.team1Id ∧ away = row.team2Id) ∨ (home = row.team2Id ∧ away = row.team1Id)) ∧
      db.wftdaTeams.has home = true ∧ db.wftdaTeams.has away = true := by
  obtain ⟨book, -, rfl⟩ := Option.map_eq_some_iff.mp hr
  rcases (matcherOf db).resolution_cases book.statsbook with hnone | ⟨i, method, offset, hsome⟩
  · rw [hnone] at hg
    cases hg
  · rw [hsome] at hg ⊢
    obtain rfl : ((matcherOf db).game i).id = g := Option.some.inj hg
    obtain ⟨row, hrow, hteam1, hteam2, -⟩ := game_of_matcherOf i
    have hhas1 : db.wftdaTeams.has ((matcherOf db).team1 i).id = true :=
      has_team_of_matcherOf (List.get_mem _ _)
    have hhas2 : db.wftdaTeams.has ((matcherOf db).team2 i).id = true :=
      has_team_of_matcherOf (List.get_mem _ _)
    refine ⟨row, hrow, _, _, rfl, rfl, ?_⟩
    rw [Matcher.assignSides_eq]
    cases (matcherOf db).assigned book.statsbook i with
    | straight => exact ⟨Or.inl ⟨hteam1, hteam2⟩, hhas1, hhas2⟩
    | swapped => exact ⟨Or.inr ⟨hteam2, hteam1⟩, hhas2, hhas1⟩

omit [Text.UnicodeTables] [Numbers.Rounding] in
/-- Writes whose references exist are not rejected. -/
theorem writeMatches_isSome {ws : List (String × Resolution)}
    (h : ∀ w ∈ ws, db.statsbooks.has w.1 = true ∧
      (∀ g ∈ w.2.wftdaGameId, db.wftdaGames.has g = true) ∧
      ∀ s, ∀ t ∈ w.2.team s, db.wftdaTeams.has t = true) :
    ∃ db', writeMatches db ws = some db' := by
  induction ws generalizing db with
  | nil => exact ⟨db, rfl⟩
  | cons w ws ih =>
      obtain ⟨hbook, hgame, hteam⟩ := h w (by simp)
      obtain ⟨db₁, hw⟩ : ∃ db₁, writeMatch db w = some db₁ :=
        ⟨_, writeMatch_eq_some.mpr ⟨⟨hbook, hgame⟩, fun s _ => hteam s, rfl⟩⟩
      have hsame := sameContent_writeMatch hw
      obtain ⟨db', hws⟩ := ih fun v hv => by
        rw [hsame.statsbooks, hsame.wftdaGames, hsame.wftdaTeams]
        exact h v (List.mem_cons_of_mem _ hv)
      exact ⟨db', Option.bind_eq_some_iff.mpr ⟨db₁, hw, hws⟩⟩

/-- Whatever part of its writes a pass issues, the foreign keys accept them. -/
theorem passWrites_isSome (hdb : db.Consistent) {ws : List (String × Resolution)}
    (hws : ∀ w ∈ ws, w ∈ passWrites db) : ∃ db', writeMatches db ws = some db' := by
  refine writeMatches_isSome fun w hw => ?_
  have hr := mem_passWrites.mp (hws w hw)
  obtain ⟨book, hbook, -⟩ := Option.map_eq_some_iff.mp hr
  obtain ⟨game, hgame, -⟩ := Option.bind_eq_some_iff.mp hbook
  refine ⟨hdb.games w.1 game hgame, ?_, ?_⟩
  · intro g hg
    obtain ⟨row, hrow, -⟩ := resolutionOf_game hr hg
    exact Table.has_iff.mpr ⟨row, hrow⟩
  · intro s t ht
    cases hg : w.2.wftdaGameId with
    | none =>
        obtain ⟨row, -, hres⟩ := Option.map_eq_some_iff.mp hr
        rw [← hres] at hg ht
        simp [team_of_wftdaGameId_none hg] at ht
    | some g =>
        obtain ⟨row, -, home, away, hhome, haway, -, hhas⟩ := resolutionOf_game hr hg
        cases s with
        | home =>
            rw [Resolution.team, hhome] at ht
            exact Option.some.inj ht ▸ hhas.1
        | away =>
            rw [Resolution.team, haway] at ht
            exact Option.some.inj ht ▸ hhas.2

/-- No foreign key stops a pass over a consistent database. -/
theorem resolveGames_isSome (hdb : db.Consistent) :
    ∃ db' stats, resolveGames db = some (db', stats) := by
  obtain ⟨db₁, hwrite⟩ := passWrites_isSome hdb fun w hw => hw
  rw [resolveGames_eq, hwrite]
  exact ⟨_, _, rfl⟩

end Resolve
end Statskboo
