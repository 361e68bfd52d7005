import Statskboo.Ingest.GamesScan
import Statskboo.Ingest.ResultsScan
import Statskboo.Ingest.TeamSlugs
import Statskboo.Ingest.Visibility
import Statskboo.Lib.Refresh

/-!
# The WFTDA sync over its runs

A run of the sync stores the teams, decides how far back it scans the games, scans and stores
them, records the time after a full scan, and resolves the statsbooks.  Each part may fail, and
the run goes on or ends without it.  Most scans stop some days before the latest known game, so
that an older result which is entered late or corrected waits for a full scan.

Main results:

- Theorem {lit}`runSync_cases`: what a run does to the games and to the record.
- Theorem {lit}`correction_arrives`: a result that the service lists from a time on is stored as
  listed once a run has succeeded that began an interval, and the duration of a run, after that.
- Theorem {lit}`recent_results_stored`: a run that succeeds stores the results of the days that
  it looks back, and all stored games are results that the service has listed.
-/

namespace Statskboo
namespace Wftda

open KeyedTable Transition Refresh Resolve

section Sync

variable [Chrono] [Calendar] [Text.UnicodeTables] [Numbers.Rounding]

/-- The database with the time of the last full scan in {lit}`sync_state`, and the time, which
the code does not keep. -/
structure SyncState where
  db : Db
  lastFull : Option DateTime
  clock : Int

/-- What a run finds: the answers of the service, of the clocks and of the database.  The code
does not know at which instant the service cut the list of results into its pages. -/
structure SyncRun where
  teams : Option TeamsEnvelope
  listing : Nat → Option String
  scopeRead : Bool
  now : DateTime
  fetch : Nat → Option ResultPage
  pages : Nat
  readAt : Int
  marked : Bool
  endedAt : DateTime
  resolveCalls : Nat

/-! ## One run -/

/-- A stored date as a date of the date library. -/
def NaiveDate.ofDays (days : Int) : Option NaiveDate :=
  if h : Chrono.minDate ≤ days ∧ days ≤ Chrono.maxDate then some ⟨days, h.1, h.2⟩ else none

/-- {lit}`SELECT max(date) FROM wftda_games`. -/
def maxDate (games : Table Int WftdaGame) : Option Int :=
  (games.rows.map fun r => r.2.date).max?

/-- Read the persisted scope inputs and apply {lit}`gamesScanScope`. -/
def gamesSyncScope (games : Table Int WftdaGame) (lastFull : Option DateTime) (r : SyncRun)
    (lookback fullInterval : StdDuration) : Panics Unit (Bool × NaiveDate) :=
  if !r.scopeRead then .err ()
  else
    match maxDate games with
    | none => (gamesScanScope r.now lastFull none lookback fullInterval).mapErr Empty.elim
    | some days =>
        match NaiveDate.ofDays days with
        | none => .err ()
        | some d => (gamesScanScope r.now lastFull (some d) lookback fullInterval).mapErr Empty.elim

/-- The scope of a run: a full scan when the inputs cannot be read; none is a panic. -/
def syncScope (games : Table Int WftdaGame) (lastFull : Option DateTime) (r : SyncRun)
    (lookback fullInterval : StdDuration) : Option (Bool × NaiveDate) :=
  match gamesSyncScope games lastFull r lookback fullInterval with
  | .ok scope => some scope
  | .err _ => some (true, era)
  | .panic => none

/-- The tables after the sync of the teams, whether it succeeds or not. -/
def teamsSynced (db : Db) (r : SyncRun) : Db :=
  match syncTeamsFrom r.teams r.listing db with
  | .ok (db', _) => db'
  | .error _ => db

/-- One run of the sync; there is no state after a run that panics or does not end. -/
def runSync (lookback fullInterval : StdDuration) (s : SyncState) (r : SyncRun) :
    Option SyncState := do
  let db := teamsSynced s.db r
  let (full, stopBefore) ← syncScope db.wftdaGames s.lastFull r lookback fullInterval
  let (db, result) ← syncResults r.pages r.fetch stopBefore.days db
  match result with
  | .error _ => return { s with db, clock := r.endedAt.nanos }
  | .ok _ =>
      return { db := stateAfterError db r.resolveCalls
               lastFull := if full && r.marked then some r.endedAt else s.lastFull
               clock := r.endedAt.nanos }

/-! ## What a run does -/

variable {lookback fullInterval : StdDuration} {s s' : SyncState} {r : SyncRun} {db db' : Db}

omit [Chrono] [Calendar] [Text.UnicodeTables] [Numbers.Rounding] in
theorem wftdaGames_syncTeams {teams : List ApiTeam} {listing : List (String × String)}
    (h : syncTeams db teams listing = some db') : db'.wftdaGames = db.wftdaGames := by
  unfold syncTeams at h
  dsimp only at h
  generalize listing.foldl (fun t p => t.upsert p.2 p.1) Table.empty = slugs at h
  induction teams generalizing db with
  | nil =>
      cases h
      rfl
  | cons team teams ih =>
      obtain ⟨db₁, hteam, hrest⟩ := Option.bind_eq_some_iff.mp h
      obtain ⟨-, rfl⟩ := upsertTeam_eq_some_iff.mp hteam
      have hgames := ih hrest
      exact hgames

omit [Calendar] [Text.UnicodeTables] [Numbers.Rounding] in
/-- The sync of the teams leaves the statsbooks and the games alone. -/
theorem teamsSynced_spec (db : Db) (r : SyncRun) :
    SameFiles db (teamsSynced db r) ∧ (teamsSynced db r).wftdaGames = db.wftdaGames := by
  unfold teamsSynced
  cases hsync : syncTeamsFrom r.teams r.listing db with
  | error e => exact ⟨SameFiles.refl db, rfl⟩
  | ok result =>
      obtain ⟨teams, listing, hteams⟩ := exists_syncTeams (n := result.2) hsync
      exact ⟨sameFiles_syncTeams hteams, wftdaGames_syncTeams hteams⟩

omit [Chrono] [Text.UnicodeTables] [Numbers.Rounding] in
theorem exists_results_of_scanRows {data : List ResultRow} {scan scan' : Scan}
    {oldest oldest' : Option Int} (h : scanRows scan oldest data = .ok (scan', oldest')) :
    ∃ results : List ApiResult, scan' = results.foldl Scan.keep scan := by
  cases hparse : data.mapM ResultRow.parse with
  | some results =>
      rw [scanRows_of_parse hparse] at h
      cases h
      exact ⟨results, rfl⟩
  | none =>
      obtain ⟨e, herror⟩ := scanRows_of_not_parse hparse
      rw [herror] at h
      cases h

omit [Chrono] [Text.UnicodeTables] [Numbers.Rounding] in
/-- A scan that ends has collected some results. -/
theorem exists_results_of_scanLoop {fetch : Nat → Option ResultPage} {stopBefore : Int}
    {fuel page : Nat} {scan scan' : Scan}
    (h : scanLoop fetch stopBefore fuel page scan = some (.ok scan')) :
    ∃ results : List ApiResult, scan' = results.foldl Scan.keep scan := by
  induction fuel generalizing page scan with
  | zero => cases h
  | succ fuel ih =>
      rw [scanLoop] at h
      cases hfetch : fetch page with
      | none =>
          rw [hfetch] at h
          cases h
      | some p =>
          rw [hfetch] at h
          dsimp only at h
          split_ifs at h
          · cases h
          · cases h
            exact ⟨[], rfl⟩
          · cases hrows : scanRows scan none p.data with
            | error e =>
                rw [hrows] at h
                cases h
            | ok result =>
                obtain ⟨first, hfirst⟩ := exists_results_of_scanRows hrows
                rw [hrows] at h
                dsimp only at h
                split_ifs at h
                · cases h
                  exact ⟨first, hfirst⟩
                · obtain ⟨rest, hrest⟩ := ih h
                  exact ⟨first ++ rest, by rw [hrest, hfirst, List.foldl_append]⟩

/-- A run succeeds when its scan ends without an error; this is what the scan has collected. -/
def Collects (lookback fullInterval : StdDuration) (s : SyncState) (r : SyncRun) (full : Bool)
    (stopBefore : NaiveDate) (scan : Scan) : Prop :=
  syncScope s.db.wftdaGames s.lastFull r lookback fullInterval = some (full, stopBefore) ∧
    scanLoop r.fetch stopBefore.days r.pages 1 Scan.start = some (.ok scan)

/-- What a run does to the games and to the record: it stores what its scan has collected, and
records a full scan, or it leaves both alone. -/
theorem runSync_cases (hdb : s.db.Consistent)
    (h : runSync lookback fullInterval s r = some s') :
    s'.db.Consistent ∧ s'.clock = r.endedAt.nanos ∧
      ((¬(∃ full stopBefore scan, Collects lookback fullInterval s r full stopBefore scan)) ∧
          s'.db.wftdaGames = s.db.wftdaGames ∧ s'.lastFull = s.lastFull ∨
        ∃ full stopBefore scan, Collects lookback fullInterval s r full stopBefore scan ∧
          s'.db.wftdaGames = s.db.wftdaGames.upsertAll scan.games ∧
          s'.lastFull = if full && r.marked then some r.endedAt else s.lastFull) := by
  obtain ⟨hteams, hgames⟩ := teamsSynced_spec s.db r
  have hdb₁ := hteams.consistent hdb
  obtain ⟨⟨full, stopBefore⟩, hscope, h⟩ := Option.bind_eq_some_iff.mp h
  obtain ⟨⟨db₂, result⟩, hsync, h⟩ := Option.bind_eq_some_iff.mp h
  dsimp only at hscope hsync h
  rw [hgames] at hscope
  obtain ⟨scanned, hscan, hwrite⟩ := Option.map_eq_some_iff.mp hsync
  cases scanned with
  | error e =>
      cases hwrite
      cases h
      refine ⟨hdb₁, rfl, Or.inl ⟨?_, hgames, rfl⟩⟩
      rintro ⟨full', stopBefore', scan, hscope', hscan'⟩
      rw [hscope] at hscope'
      cases hscope'
      rw [hscan] at hscan'
      cases hscan'
  | ok scan =>
      obtain ⟨results, rfl⟩ := exists_results_of_scanLoop hscan
      have hstart : Scan.start.Covered := fun game hgame => nomatch hgame
      obtain ⟨db₃, hstored, htable⟩ :=
        writeScan_covered (hstart.foldl_keep results) (teamsSynced s.db r)
      dsimp only at hwrite
      rw [hstored] at hwrite
      cases hwrite
      cases h
      rw [writeScan_foldl_keep] at hstored
      have hdb₃ := (sameFiles_syncGames hstored).consistent hdb₁
      obtain ⟨hsame, hdb₄⟩ := Visibility.stateAfterError_keeps hdb₃ r.resolveCalls
      refine ⟨hdb₄, rfl, Or.inr ⟨full, stopBefore, _, ⟨hscope, hscan⟩, ?_, rfl⟩⟩
      rw [hsame.wftdaGames, htable, hgames]

omit [Calendar] [Text.UnicodeTables] [Numbers.Rounding] in
/-- The scope of a run: a full scan, or one that stops some days before the latest known
game. -/
theorem syncScope_cases {games : Table Int WftdaGame} {lastFull : Option DateTime} {full : Bool}
    {stopBefore : NaiveDate}
    (h : syncScope games lastFull r lookback fullInterval = some (full, stopBefore)) :
    full = true ∧ stopBefore = era ∨
      full = false ∧ ∃ last ∈ lastFull, ∃ days ∈ maxDate games,
        r.now.nanos - last.nanos < effectiveInterval fullInterval ∧
        stopBefore.days = max (days - lookbackDays lookback) era.days := by
  have hmissing : gamesScanScope r.now lastFull none lookback fullInterval = .ok (true, era) :=
    gamesScanScope_of_missing (Or.inr rfl)
  unfold syncScope gamesSyncScope at h
  split_ifs at h with hread
  · cases h
    exact Or.inl ⟨rfl, rfl⟩
  · cases hmax : maxDate games with
    | none =>
        rw [hmax, hmissing] at h
        cases h
        exact Or.inl ⟨rfl, rfl⟩
    | some days =>
        rw [hmax] at h
        dsimp only at h
        unfold NaiveDate.ofDays at h
        split_ifs at h with hdays
        · dsimp only at h
          cases lastFull with
          | none =>
              rw [gamesScanScope_of_missing (Or.inl rfl)] at h
              cases h
              exact Or.inl ⟨rfl, rfl⟩
          | some last =>
              rw [gamesScanScope_eq] at h
              split_ifs at h with hstale
              · cases h
                exact Or.inl ⟨rfl, rfl⟩
              · rcases le_or_gt Chrono.minDate (days - (lookbackDays lookback : Nat))
                  with hmin | hlow
                · obtain ⟨watermark, hsub, hwatermark⟩ :=
                    @sub_of_le _ ⟨days, hdays.1, hdays.2⟩
                      ((fromStd lookback).getD (daysDelta 14)) hmin
                  rw [hsub] at h
                  cases h
                  refine Or.inr ⟨rfl, last, rfl, days, rfl, not_le.mp hstale, ?_⟩
                  rw [days_max, hwatermark]
                  rfl
                · rw [@sub_of_lt _ ⟨days, hdays.1, hdays.2⟩
                    ((fromStd lookback).getD (daysDelta 14)) hlow] at h
                  cases h
        · cases h
          exact Or.inl ⟨rfl, rfl⟩

omit [Chrono] [Text.UnicodeTables] [Numbers.Rounding] in
/-- More fuel does not change how a scan ends. -/
theorem scanLoop_add_fuel {fetch : Nat → Option ResultPage} {stopBefore : Int} {fuel page : Nat}
    {scan : Scan} {result : Except SyncError Scan}
    (h : scanLoop fetch stopBefore fuel page scan = some result) (more : Nat) :
    scanLoop fetch stopBefore (fuel + more) page scan = some result := by
  induction fuel generalizing page scan with
  | zero => cases h
  | succ fuel ih =>
      rw [Nat.succ_add_eq_add_succ, Nat.add_succ, scanLoop]
      rw [scanLoop] at h
      cases hfetch : fetch page with
      | none =>
          rw [hfetch] at h
          exact h
      | some p =>
          rw [hfetch] at h
          dsimp only at h ⊢
          split_ifs at h ⊢ with hunsuccessful hempty
          · exact h
          · exact h
          · cases hrows : scanRows scan none p.data with
            | error e =>
                rw [hrows] at h
                exact h
            | ok collected =>
                rw [hrows] at h
                dsimp only at h ⊢
                split_ifs at h ⊢ with hends
                · exact h
                · exact ih h

/-! ## What the service lists -/

/-- From an instant on the service lists a result, and no other one with its id. -/
def ListsFrom (served : Int → List (List ApiResult)) (since : Int) (result : ApiResult) : Prop :=
  ∀ t, since ≤ t → result ∈ (served t).flatten ∧
    ∀ other ∈ (served t).flatten, other.id = result.id → other = result

/-- A run takes its steps in order and in time, and its scan reads what the service lists at one
instant. -/
structure Orderly (served : Int → List (List ApiResult)) (delay : Int)
    (lookback fullInterval : StdDuration) (s : SyncState) (r : SyncRun) : Prop where
  clock_le : s.clock ≤ r.now.nanos
  now_le : r.now.nanos ≤ r.readAt
  read_le : r.readAt ≤ r.endedAt.nanos
  ended_le : r.endedAt.nanos ≤ r.readAt + delay
  serves : ∀ full stopBefore scan, Collects lookback fullInterval s r full stopBefore scan →
    Serves r.fetch (served r.readAt)

variable {served : Int → List (List ApiResult)} {delay since : Int} {full : Bool}
  {stopBefore : NaiveDate} {scan : Scan} {result : ApiResult} {score1 score2 : Int}

omit [Chrono] [Calendar] [Text.UnicodeTables] [Numbers.Rounding] in
/-- The pages that are read are served. -/
theorem mem_flatten_of_pagesRead {cutoff : Int} {pages : List (List ApiResult)}
    (h : result ∈ (pagesRead cutoff pages).flatten) : result ∈ pages.flatten := by
  induction pages with
  | nil => exact h
  | cons p pages ih =>
      rw [pagesRead] at h
      split_ifs at h
      · exact List.mem_append_left _ (by simpa using h)
      · rcases List.mem_append.mp h with hfirst | hrest
        · exact List.mem_append_left _ hfirst
        · exact List.mem_append_right _ (ih hrest)

omit [Text.UnicodeTables] [Numbers.Rounding] in
/-- The games that a run collects are the rows of the usable results on the pages that it
reads. -/
theorem games_of_collects (hserves : Serves r.fetch (served r.readAt))
    (h : Collects lookback fullInterval s r full stopBefore scan) :
    scan.games = (pagesRead stopBefore.days (served r.readAt)).flatten.filterMap gameRow := by
  have hshort := scanLoop_add_fuel h.2 (max 1 (served r.readAt).length)
  have hlong : scanLoop r.fetch stopBefore.days (max 1 (served r.readAt).length + r.pages) 1
      Scan.start = _ := scanLoop_start hserves r.pages
  rw [Nat.add_comm, hlong] at hshort
  obtain rfl := Except.ok.inj (Option.some.inj hshort)
  exact (games_foldl_keep _ _).trans (List.nil_append _)

omit [Text.UnicodeTables] [Numbers.Rounding] in
/-- A run collects every usable result from its cutoff on. -/
theorem mem_games_of_collects (hserves : Serves r.fetch (served r.readAt))
    (h : Collects lookback fullInterval s r full stopBefore scan)
    (hlisted : result ∈ (served r.readAt).flatten) (hqualifies : Qualifies result score1 score2)
    (hdate : stopBefore.days ≤ result.date) : rowOf result score1 score2 ∈ scan.games := by
  rw [games_of_collects hserves h, List.mem_filterMap]
  exact ⟨result, mem_flatten_pagesRead hserves.descending hlisted hdate,
    gameRow_eq_some_iff.mpr ⟨score1, score2, hqualifies, rfl⟩⟩

/-! ## Runs of the sync -/

/-- A run of the sync, or a step on the statsbooks. -/
inductive SyncStep where
  | sync (r : SyncRun)
  | statsbooks (a : Visibility.Step)

/-- The transactions of the sync belong to its runs. -/
def isStatsbookStep : Visibility.Step → Bool
  | .stage (.syncTeams ..) => false
  | .stage (.syncGames _) => false
  | _ => true

/-- The effect of a step. -/
def syncStep (lookback fullInterval : StdDuration) (s : SyncState) : SyncStep → Option SyncState
  | .sync r => runSync lookback fullInterval s r
  | .statsbooks a =>
      if isStatsbookStep a then (Visibility.step s.db a).map fun db => { s with db } else none

/-- Every run of the sync is orderly. -/
def OrderlyStep (served : Int → List (List ApiResult)) (delay : Int)
    (lookback fullInterval : StdDuration) (s : SyncState) : SyncStep → Prop
  | .sync r => Orderly served delay lookback fullInterval s r
  | .statsbooks _ => True

/-- The stored games as a replica of what the service lists. -/
def replica (s : SyncState) : Replica (Table Int WftdaGame) where
  copy := s.db.wftdaGames
  recorded := s.lastFull.map DateTime.nanos
  clock := s.clock

/-- A run of the sync as a cycle of the replica. -/
def syncCycle (lookback fullInterval : StdDuration) (s : SyncState) : SyncStep → Option Cycle
  | .sync r => some {
      decided := r.now.nanos
      read := r.readAt
      ended := r.endedAt.nanos
      full := ∀ full stopBefore, syncScope s.db.wftdaGames s.lastFull r lookback fullInterval =
        some (full, stopBefore) → full = true
      succeeded := ∃ full stopBefore scan,
        Collects lookback fullInterval s r full stopBefore scan }
  | .statsbooks _ => none

omit [Chrono] [Calendar] in
/-- A step on the statsbooks leaves the games alone. -/
theorem statsbookStep_keeps {a : Visibility.Step} (hdb : db.Consistent)
    (ha : isStatsbookStep a = true) (h : Visibility.step db a = some db') :
    db'.Consistent ∧ db'.wftdaGames = db.wftdaGames := by
  cases a with
  | stage a =>
      cases h
      refine ⟨Stage.consistent_exec hdb a, ?_⟩
      cases a with
      | storeParsedGame f game date =>
          rcases Stage.storeParsedGame_cases db f game date with
            hsame | ⟨-, hskipped⟩ | ⟨-, hstored⟩
          · rw [hsame]
          · rw [hskipped]
            rfl
          · exact hstored.wftdaGames
      | syncTeams teams listing => cases ha
      | syncGames results => cases ha
      | _ => rfl
  | resolveGames =>
      obtain ⟨⟨db₁, stats⟩, hpass, rfl⟩ := Option.map_eq_some_iff.mp h
      obtain ⟨hsame, hdb', -⟩ := resolveGames_spec hdb hpass
      exact ⟨hdb', hsame.wftdaGames⟩
  | resolveFailing calls =>
      cases h
      obtain ⟨hsame, hdb'⟩ := Visibility.stateAfterError_keeps hdb calls
      exact ⟨hdb', hsame.wftdaGames⟩

/-- The result is stored as listed. -/
def StoredAs (result : ApiResult) (score1 score2 : Int) (games : Table Int WftdaGame) : Prop :=
  games.get? result.id = some (rowOf result score1 score2).2

omit [Text.UnicodeTables] [Numbers.Rounding] in
/-- What a run writes under the id of a listed result is the row of that result. -/
theorem row_of_collects (hserves : Serves r.fetch (served r.readAt))
    (h : Collects lookback fullInterval s r full stopBefore scan)
    (hunique : ∀ other ∈ (served r.readAt).flatten, other.id = result.id → other = result)
    (hqualifies : Qualifies result score1 score2) {row : Int × WftdaGame} (hrow : row ∈ scan.games)
    (hid : row.1 = result.id) : row.2 = (rowOf result score1 score2).2 := by
  rw [games_of_collects hserves h, List.mem_filterMap] at hrow
  obtain ⟨other, hother, hgame⟩ := hrow
  obtain ⟨other1, other2, hothers, rfl⟩ := gameRow_eq_some_iff.mp hgame
  obtain rfl := hunique other (mem_flatten_of_pagesRead hother) hid
  have h1 := Option.some.inj (hothers.scored1.symm.trans hqualifies.scored1)
  have h2 := Option.some.inj (hothers.scored2.symm.trans hqualifies.scored2)
  rw [h1, h2]

omit [Text.UnicodeTables] [Numbers.Rounding] in
/-- After the writes of a run a listed result is stored as listed when it was before, or when the
run has collected it. -/
theorem storedAs_upsertAll {games : Table Int WftdaGame}
    (hserves : Serves r.fetch (served r.readAt))
    (h : Collects lookback fullInterval s r full stopBefore scan)
    (hunique : ∀ other ∈ (served r.readAt).flatten, other.id = result.id → other = result)
    (hqualifies : Qualifies result score1 score2)
    (hstored : StoredAs result score1 score2 games ∨ rowOf result score1 score2 ∈ scan.games) :
    StoredAs result score1 score2 (games.upsertAll scan.games) :=
  Table.get?_upsertAll_of_forall
    (fun _ hrow hid => row_of_collects hserves h hunique hqualifies hrow hid)
    (hstored.imp_right fun hmem => ⟨_, hmem, rfl⟩)

/-- A step on the statsbooks leaves the replica alone. -/
theorem syncStep_statsbooks {a : Visibility.Step} (hdb : s.db.Consistent)
    (h : syncStep lookback fullInterval s (.statsbooks a) = some s') :
    s'.db.Consistent ∧ replica s' = replica s := by
  rw [syncStep] at h
  split_ifs at h with ha
  obtain ⟨db, hdb', rfl⟩ := Option.map_eq_some_iff.mp h
  obtain ⟨hconsistent, hgames⟩ := statsbookStep_keeps hdb ha hdb'
  exact ⟨hconsistent, congrArg (fun copy => { replica s with copy }) hgames⟩

omit [Text.UnicodeTables] [Numbers.Rounding] in
/-- A full scan stops at the first day of the era. -/
theorem stopBefore_of_full (h : Collects lookback fullInterval s r full stopBefore scan)
    (hfull : full = true) : stopBefore = era := by
  rcases syncScope_cases h.1 with ⟨-, hera⟩ | ⟨hincremental, -⟩
  · exact hera
  · rw [hfull] at hincremental
    cases hincremental

/-- A run of the sync is a cycle of the replica. -/
theorem cycles_runSync {c : Cycle} (hlists : ListsFrom served since result)
    (hqualifies : Qualifies result score1 score2) (hdb : s.db.Consistent)
    (horderly : Orderly served delay lookback fullInterval s r)
    (h : runSync lookback fullInterval s r = some s')
    (hcycle : syncCycle lookback fullInterval s (.sync r) = some c) :
    Cycles (StoredAs result score1 score2) since (effectiveInterval fullInterval) (replica s) c
      (replica s') := by
  cases hcycle
  obtain ⟨-, hclock, heffect⟩ := runSync_cases hdb h
  refine ⟨hclock, ?_, ?_, ?_, ?_⟩
  · -- a full scan that is due is decided on
    intro hdue full stopBefore hscope
    rcases syncScope_cases hscope with ⟨hfull, -⟩ | ⟨-, last, hlast, -, -, hyoung, -⟩
    · exact hfull
    · have hold := hdue last.nanos (Option.mem_map_of_mem DateTime.nanos hlast)
      exact absurd hyoung (not_lt.mpr hold)
  · intro hread hstored
    change StoredAs result score1 score2 s'.db.wftdaGames
    rcases heffect with ⟨-, hgames, -⟩ | ⟨full, stopBefore, scan, hcollects, hgames, -⟩
    · rw [hgames]
      exact hstored
    · rw [hgames]
      exact storedAs_upsertAll (horderly.serves full stopBefore scan hcollects) hcollects
        (hlists r.readAt hread).2 hqualifies (Or.inl hstored)
  · intro hsucceeded hfull hread
    change StoredAs result score1 score2 s'.db.wftdaGames
    rcases heffect with ⟨hfails, -⟩ | ⟨full, stopBefore, scan, hcollects, hgames, -⟩
    · exact absurd hsucceeded hfails
    · have hserves := horderly.serves full stopBefore scan hcollects
      have hdate : stopBefore.days ≤ result.date := by
        rw [stopBefore_of_full hcollects (hfull full stopBefore hcollects.1)]
        exact hqualifies.era
      have hmem := mem_games_of_collects hserves hcollects (hlists r.readAt hread).1 hqualifies
        hdate
      rw [hgames]
      exact storedAs_upsertAll hserves hcollects (hlists r.readAt hread).2 hqualifies
        (Or.inr hmem)
  · rcases heffect with ⟨-, -, hsame⟩ | ⟨full, stopBefore, scan, hcollects, -, hmarker⟩
    · exact Or.inl (congrArg (Option.map DateTime.nanos) hsame)
    · by_cases hmarked : (full && r.marked) = true
      · rw [if_pos hmarked] at hmarker
        refine Or.inr ⟨⟨full, stopBefore, scan, hcollects⟩, ?_,
          congrArg (Option.map DateTime.nanos) hmarker⟩
        intro full' stopBefore' hscope
        rw [hcollects.1] at hscope
        cases hscope
        exact (Bool.and_eq_true_iff.mp hmarked).1
      · rw [if_neg hmarked] at hmarker
        exact Or.inl (congrArg (Option.map DateTime.nanos) hmarker)

/-- The sync refreshes its replica of what the service lists. -/
theorem refreshes_syncStep (hlists : ListsFrom served since result)
    (hqualifies : Qualifies result score1 score2) :
    Refreshes (StoredAs result score1 score2) since (effectiveInterval fullInterval) delay
      (fun s : SyncState => s.db.Consistent) (syncStep lookback fullInterval)
      (OrderlyStep served delay lookback fullInterval) replica
      (syncCycle lookback fullInterval) where
  keeps s a s' hdb _ hstep := by
    cases a with
    | sync r => exact (runSync_cases hdb hstep).1
    | statsbooks a => exact (syncStep_statsbooks hdb hstep).1
  idle s a s' hdb _ hstep hcycle := by
    cases a with
    | sync r => cases hcycle
    | statsbooks a => exact (syncStep_statsbooks hdb hstep).2
  cycles s a s' c hdb horderly hstep hcycle := by
    cases a with
    | statsbooks a => cases hcycle
    | sync r =>
        have hcycles := cycles_runSync hlists hqualifies hdb horderly hstep hcycle
        cases hcycle
        exact ⟨⟨horderly.clock_le, horderly.now_le, horderly.read_le, horderly.ended_le⟩, hcycles⟩

/-- A result that the service lists from a time on, usable and without another one of its id, is
stored as listed in every state after a run of the sync that succeeds and began an interval, and
the duration of a run, after that time. -/
theorem correction_arrives {start : Int} {before after : List SyncStep} {s₁ s' : SyncState}
    {r : SyncRun} (hlists : ListsFrom served since result)
    (hqualifies : Qualifies result score1 score2) (hdelay : 0 ≤ delay)
    (horderly : EveryStep (syncStep lookback fullInterval)
      (OrderlyStep served delay lookback fullInterval)
      { db := Db.empty, lastFull := none, clock := start } (before ++ .sync r :: after))
    (hbefore : run (syncStep lookback fullInterval)
      { db := Db.empty, lastFull := none, clock := start } before = some s₁)
    (hsucceeds : ∃ full stopBefore scan,
      Collects lookback fullInterval s₁ r full stopBefore scan)
    (hlate : since + delay + effectiveInterval fullInterval ≤ r.now.nanos)
    (hrun : run (syncStep lookback fullInterval)
      { db := Db.empty, lastFull := none, clock := start } (before ++ .sync r :: after) =
        some s') :
    s'.db.wftdaGames.get? result.id = some (rowOf result score1 score2).2 := by
  refine run_holds_of_due (refreshes_syncStep hlists hqualifies) (Int.natCast_nonneg _) hdelay
    Db.consistent_empty ?_ horderly hbefore rfl hsucceeds hlate hrun
  constructor
  · intro last hlast
    cases hlast
  · intro last hlast
    cases hlast

/-- Every stored game is the row of a usable result that the service has listed. -/
def GamesListed (served : Int → List (List ApiResult)) (s : SyncState) : Prop :=
  ∀ id row, s.db.wftdaGames.get? id = some row → ∃ t ≤ s.clock, ∃ result ∈ (served t).flatten,
    ∃ score1 score2, Qualifies result score1 score2 ∧ (id, row) = rowOf result score1 score2

omit [Text.UnicodeTables] [Numbers.Rounding] in
/-- What a run collects is listed. -/
theorem listed_of_collects (hserves : Serves r.fetch (served r.readAt))
    (h : Collects lookback fullInterval s r full stopBefore scan) {game : Int × WftdaGame}
    (hgame : game ∈ scan.games) : ∃ result ∈ (served r.readAt).flatten,
      ∃ score1 score2, Qualifies result score1 score2 ∧ game = rowOf result score1 score2 := by
  rw [games_of_collects hserves h, List.mem_filterMap] at hgame
  obtain ⟨result, hread, hrow⟩ := hgame
  exact ⟨result, mem_flatten_of_pagesRead hread, gameRow_eq_some_iff.mp hrow⟩

/-- Every step keeps the stored games among the listed results. -/
theorem gamesListed_syncStep {a : SyncStep} (hdb : s.db.Consistent) (hlisted : GamesListed served s)
    (horderly : OrderlyStep served delay lookback fullInterval s a)
    (h : syncStep lookback fullInterval s a = some s') :
    s'.db.Consistent ∧ GamesListed served s' := by
  cases a with
  | statsbooks a =>
      obtain ⟨hdb', hsame⟩ := syncStep_statsbooks hdb h
      have hgames : s'.db.wftdaGames = s.db.wftdaGames := congrArg Replica.copy hsame
      have hclock : s'.clock = s.clock := congrArg Replica.clock hsame
      refine ⟨hdb', fun id row hrow => ?_⟩
      rw [hgames] at hrow
      rw [hclock]
      exact hlisted id row hrow
  | sync r =>
      obtain ⟨hdb', hclock, heffect⟩ := runSync_cases hdb h
      have hread : s.clock ≤ r.readAt := horderly.clock_le.trans horderly.now_le
      have hended : r.readAt ≤ s'.clock := hclock ▸ horderly.read_le
      refine ⟨hdb', fun id row hrow => ?_⟩
      have hold : s.db.wftdaGames.get? id = some row → ∃ t ≤ s'.clock,
          ∃ result ∈ (served t).flatten, ∃ score1 score2,
            Qualifies result score1 score2 ∧ (id, row) = rowOf result score1 score2 := by
        intro hsame
        obtain ⟨t, ht, hresult⟩ := hlisted id row hsame
        exact ⟨t, ht.trans (hread.trans hended), hresult⟩
      rcases heffect with ⟨-, hgames, -⟩ | ⟨full, stopBefore, scan, hcollects, hgames, -⟩
      · rw [hgames] at hrow
        exact hold hrow
      · rw [hgames, Table.get?_upsertAll, Option.or_eq_some_iff] at hrow
        rcases hrow with hnew | ⟨-, hsame⟩
        · obtain ⟨game, hfind, rfl⟩ := Option.map_eq_some_iff.mp hnew
          have hid : game.1 = id := by simpa using List.find?_some hfind
          have hgame : game ∈ scan.games :=
            List.mem_reverse.mp (List.mem_of_find?_eq_some hfind)
          subst hid
          exact ⟨r.readAt, hended, listed_of_collects
            (horderly.serves full stopBefore scan hcollects) hcollects hgame⟩
        · exact hold hsame

/-- After a run of the sync that succeeds, at the end of any orderly run from the empty database,
every stored game is the row of a usable result that the service has listed, and every usable
result that it lists from so many days before the latest game known before is stored as listed. -/
theorem recent_results_stored {start : Int} {before : List SyncStep} {s₁ : SyncState}
    (horderly : EveryStep (syncStep lookback fullInterval)
      (OrderlyStep served delay lookback fullInterval)
      { db := Db.empty, lastFull := none, clock := start } (before ++ [.sync r]))
    (hbefore : run (syncStep lookback fullInterval)
      { db := Db.empty, lastFull := none, clock := start } before = some s₁)
    (hsucceeds : ∃ full stopBefore scan,
      Collects lookback fullInterval s₁ r full stopBefore scan)
    (hlast : runSync lookback fullInterval s₁ r = some s') :
    GamesListed served s' ∧
      ∀ result ∈ (served r.readAt).flatten,
        (∀ other ∈ (served r.readAt).flatten, other.id = result.id → other = result) →
        (∀ days ∈ maxDate s₁.db.wftdaGames, days - lookbackDays lookback ≤ result.date) →
        ∀ score1 score2, Qualifies result score1 score2 →
          s'.db.wftdaGames.get? result.id = some (rowOf result score1 score2).2 := by
  obtain ⟨hallBefore, hallLast⟩ := everyStep_append.mp horderly
  have hsync := (hallLast s₁ hbefore).1
  have hinv : s₁.db.Consistent ∧ GamesListed served s₁ :=
    run_invariant_of_everyStep (P := fun s => s.db.Consistent ∧ GamesListed served s)
      (fun s a s' hs hC hstep => gamesListed_syncStep hs.1 hs.2 hC hstep)
      ⟨Db.consistent_empty, fun id row hrow => by cases hrow⟩ hallBefore hbefore
  refine ⟨(gamesListed_syncStep hinv.1 hinv.2 hsync hlast).2, ?_⟩
  intro result hlisted hunique hrecent score1 score2 hqualifies
  obtain ⟨-, -, heffect⟩ := runSync_cases hinv.1 hlast
  rcases heffect with ⟨hfails, -⟩ | ⟨full, stopBefore, scan, hcollects, hgames, -⟩
  · exact absurd hsucceeds hfails
  · have hserves := hsync.serves full stopBefore scan hcollects
    have hdate : stopBefore.days ≤ result.date := by
      rcases syncScope_cases hcollects.1 with ⟨-, hera⟩ | ⟨-, last, -, days, hdays, -, hstop⟩
      · rw [hera]
        exact hqualifies.era
      · rw [hstop]
        exact max_le (hrecent days hdays) hqualifies.era
    have hmem := mem_games_of_collects hserves hcollects hlisted hqualifies hdate
    rw [hgames]
    exact storedAs_upsertAll hserves hcollects hunique hqualifies (Or.inr hmem)

/-- A run whose scan reads what the service lists at one instant succeeds when it ends. -/
theorem collects_of_serves {pages : List (List ApiResult)} (hserves : Serves r.fetch pages)
    (h : runSync lookback fullInterval s r = some s') :
    ∃ full stopBefore scan, Collects lookback fullInterval s r full stopBefore scan := by
  obtain ⟨⟨full, stopBefore⟩, hscope, h⟩ := Option.bind_eq_some_iff.mp h
  obtain ⟨synced, hsync, h⟩ := Option.bind_eq_some_iff.mp h
  obtain ⟨scanned, hscan, -⟩ := Option.map_eq_some_iff.mp hsync
  rw [(teamsSynced_spec s.db r).2] at hscope
  have hshort := scanLoop_add_fuel hscan (max 1 pages.length)
  have hlong : scanLoop r.fetch stopBefore.days (max 1 pages.length + r.pages) 1 Scan.start = _ :=
    scanLoop_start hserves r.pages
  rw [Nat.add_comm, hlong] at hshort
  obtain rfl := Option.some.inj hshort
  exact ⟨full, stopBefore, _, hscope, hscan⟩

end Sync

/-! ## Two runs -/

section Example

attribute [local instance] Text.asciiTables Numbers.f64 chronoLimits resultsCalendar

/-- A run on one day that reads the two pages. -/
def twoPagesRun (day : Nat) (h : day ≤ 95026236) : SyncRun where
  teams := none
  listing _ := none
  scopeRead := true
  now := midnight day h
  fetch := twoPages
  pages := 2
  readAt := day * nanosPerDay
  marked := true
  endedAt := midnight day h
  resolveCalls := 0

/-- What the service lists at any time. -/
def twoPagesServed (_ : Int) : List (List ApiResult) :=
  [[resultOn 3 20043 (some 150) (some 140), resultOn 2 20043 none none],
    [resultOn 1 20043 (some 90) (some 100)]]

/-- The state before the first run. -/
def freshSync : SyncState where
  db := Db.empty
  lastFull := none
  clock := 0

/-- The state after some runs. -/
def syncStateAfter (steps : List SyncStep) : SyncState :=
  (run (syncStep (wholeDays 14 (by decide)) (wholeDays 7 (by decide))) freshSync steps).getD
    freshSync

theorem orderly_twoPagesRun {s : SyncState} {day : Nat} (h : day ≤ 95026236)
    (hclock : s.clock ≤ day * nanosPerDay) :
    Orderly twoPagesServed 0 (wholeDays 14 (by decide)) (wholeDays 7 (by decide)) s
      (twoPagesRun day h) where
  clock_le := hclock
  now_le := le_refl _
  read_le := le_refl _
  ended_le := (add_zero _).ge
  serves _ _ _ _ := serves_twoPages

/-- Two runs, eight days apart. -/
def twoRuns : List SyncStep :=
  [.sync (twoPagesRun 20100 (by decide)), .sync (twoPagesRun 20108 (by decide))]

theorem run_twoRuns :
    run (syncStep (wholeDays 14 (by decide)) (wholeDays 7 (by decide))) freshSync
        [.sync (twoPagesRun 20100 (by decide))] =
      some (syncStateAfter [.sync (twoPagesRun 20100 (by decide))]) ∧
    runSync (wholeDays 14 (by decide)) (wholeDays 7 (by decide))
        (syncStateAfter [.sync (twoPagesRun 20100 (by decide))])
        (twoPagesRun 20108 (by decide)) = some (syncStateAfter twoRuns) := by
  have hfirst := @run_eq_some_getD _ _
    (syncStep (wholeDays 14 (by decide)) (wholeDays 7 (by decide))) freshSync
    [.sync (twoPagesRun 20100 (by decide))] (by decide +kernel) freshSync
  have hboth := @run_eq_some_getD _ _
    (syncStep (wholeDays 14 (by decide)) (wholeDays 7 (by decide))) freshSync twoRuns
    (by decide +kernel) freshSync
  refine ⟨hfirst, ?_⟩
  obtain ⟨s₁, hs₁, hrest⟩ := run_cons_eq_some.mp hboth
  obtain ⟨s₂, hs₂, hnil⟩ := run_cons_eq_some.mp hrest
  obtain ⟨s₁', hs₁', hnil'⟩ := run_cons_eq_some.mp hfirst
  cases hs₁.symm.trans hs₁'
  cases hnil
  cases hnil'
  exact hs₂

/-- Both runs are orderly. -/
theorem orderly_twoRuns :
    EveryStep (syncStep (wholeDays 14 (by decide)) (wholeDays 7 (by decide)))
      (OrderlyStep twoPagesServed 0 (wholeDays 14 (by decide)) (wholeDays 7 (by decide)))
      freshSync twoRuns := by
  refine ⟨orderly_twoPagesRun _ (by decide), fun s hs => ⟨orderly_twoPagesRun _ ?_, ?_⟩⟩
  · rw [(runSync_cases Db.consistent_empty hs).2.1]
    decide
  · exact fun _ _ => trivial

/-- Eight days after the first run the second one has stored the result of the second page. -/
theorem correction_arrives_twoRuns :
    (syncStateAfter twoRuns).db.wftdaGames.get? 1 =
      some (rowOf (resultOn 1 20043 (some 90) (some 100)) 90 100).2 := by
  have hlists : ListsFrom twoPagesServed (20100 * nanosPerDay)
      (resultOn 1 20043 (some 90) (some 100)) := fun t _ => by
    unfold twoPagesServed
    decide +revert
  obtain ⟨hfirst, hsecond⟩ := run_twoRuns
  exact correction_arrives hlists ⟨by decide, rfl, rfl, by decide, by decide⟩ le_rfl
    orderly_twoRuns hfirst (collects_of_serves serves_twoPages hsecond) (by decide)
    (run_eq_some_getD (by decide +kernel) _)

/-- The second run leaves only games that the service has listed, and among them the latest. -/
theorem recent_results_stored_twoRuns :
    GamesListed twoPagesServed (syncStateAfter twoRuns) ∧
      (syncStateAfter twoRuns).db.wftdaGames.get? 3 =
        some (rowOf (resultOn 3 20043 (some 150) (some 140)) 150 140).2 := by
  obtain ⟨hfirst, hsecond⟩ := run_twoRuns
  obtain ⟨hlisted, hrecent⟩ := recent_results_stored orderly_twoRuns hfirst
    (collects_of_serves serves_twoPages hsecond) hsecond
  refine ⟨hlisted, hrecent (resultOn 3 20043 (some 150) (some 140)) (by decide) (by decide) ?_ 150
    140 ⟨by decide, rfl, rfl, by decide, by decide⟩⟩
  decide +kernel

end Example

end Wftda
end Statskboo
