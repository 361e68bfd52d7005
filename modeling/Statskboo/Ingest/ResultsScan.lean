import Statskboo.Ingest.DateForms
import Statskboo.Ingest.Wftda

/-!
# The scan of the results

The results come in pages, the newest first.  The scan reads page after page until one is
empty, one dips below a date, or the last one is read; then it writes the games of the
pages that it read, after stub rows for their teams, in one transaction.  The service and
the date parser are parameters.

Main results:

- Theorem {lit}`scanLoop_serves`: what the scan collects from a service that cuts one list
  into pages.
- Theorem {lit}`mem_flatten_pagesRead`: no result from the date on is on a page that the
  scan leaves out.
- Theorem {lit}`writeScan_foldl_keep`: the transaction is that of {lit}`syncGames`.
- Theorem {lit}`syncResults_complete`: which games the scan writes, and that it writes
  nothing when a page fails.
-/

namespace Statskboo
namespace Wftda

open KeyedTable

/-- A result as the service sends it, with the text of its date. -/
structure ResultRow where
  id : Int
  date : String
  team1 : ApiResultTeam
  team2 : ApiResultTeam
  region : Option Int
  seedingGame : Bool
deriving DecidableEq, Repr

/-- One page of {lit}`/api/results` with its envelope. -/
structure ResultPage where
  success : Bool
  data : List ResultRow
  lastPage : Nat
deriving DecidableEq, Repr

/-- What stops a sync: a request that fails, {lit}`success=false`, the date of a result, or
the database. -/
inductive SyncError where
  | request (page : Nat)
  | unsuccessful (page : Nat)
  | date (text : String) (id : Int)
  | database
deriving DecidableEq, Repr

/-- What the scan collects: the game rows, and the titles of their teams. -/
structure Scan where
  games : List (Int × WftdaGame)
  stubs : Table Int String

/-- The scan before its first page. -/
def Scan.start : Scan where
  games := []
  stubs := Table.empty

/-- Collect one result, unless it is too old or has no usable score. -/
def Scan.keep (scan : Scan) (r : ApiResult) : Scan :=
  match gameRow r with
  | none => scan
  | some game =>
      { games := scan.games ++ [game], stubs := addStub (addStub scan.stubs r.team1) r.team2 }

/-- The oldest date so far, with one more date. -/
def olderOf (oldest : Option Int) (date : Int) : Option Int :=
  some (match oldest with
    | some o => min o date
    | none => date)

section Scan

variable [Calendar]

/-- A result with its date read. -/
def ResultRow.parse (r : ResultRow) : Option ApiResult :=
  (Calendar.parseFromStr (Text.trim r.date.toList) "%d %b %Y").map fun date =>
    { id := r.id, date, team1 := r.team1, team2 := r.team2, region := r.region,
      seedingGame := r.seedingGame }

/-- The rows of one page; every row counts for the oldest date. -/
def scanRows : Scan → Option Int → List ResultRow → Except SyncError (Scan × Option Int)
  | scan, oldest, [] => .ok (scan, oldest)
  | scan, oldest, r :: rows =>
      match r.parse with
      | none => .error (.date r.date r.id)
      | some result => scanRows (scan.keep result) (olderOf oldest result.date) rows

/-- The page loop from a page on; without fuel it has no result. -/
def scanLoop (fetch : Nat → Option ResultPage) (stopBefore : Int) :
    Nat → Nat → Scan → Option (Except SyncError Scan)
  | 0, _, _ => none
  | fuel + 1, page, scan =>
      match fetch page with
      | none => some (.error (.request page))
      | some p =>
          if !p.success then some (.error (.unsuccessful page))
          else if p.data.isEmpty then some (.ok scan)
          else
            match scanRows scan none p.data with
            | .error e => some (.error e)
            | .ok (scan, oldest) =>
                let lastPage := max p.lastPage page
                let reachedCutoff := oldest.any fun o => decide (o < stopBefore)
                if reachedCutoff || decide (lastPage ≤ page) then some (.ok scan)
                else scanLoop fetch stopBefore fuel (page + 1) scan

/-- The statements of the transaction: the stub teams, then the games. -/
def writeScan (scan : Scan) (db : Db) : Option Db :=
  scan.games.foldlM upsertGame (scan.stubs.rows.foldl insertStub db)

/-- Stage 2 with its requests: the tables it leaves, and the number of games or the error. -/
def syncResults (fuel : Nat) (fetch : Nat → Option ResultPage) (stopBefore : Int) (db : Db) :
    Option (Db × Except SyncError Nat) :=
  (scanLoop fetch stopBefore fuel 1 Scan.start).map fun scanned =>
    match scanned with
    | .error e => (db, .error e)
    | .ok scan =>
        match writeScan scan db with
        | none => (db, .error .database)
        | some db' => (db', .ok scan.games.length)

end Scan

/-! ## The rows that are kept -/

/-- A result of the statsbook era with both scores, within their columns. -/
structure Qualifies (r : ApiResult) (score1 score2 : Int) : Prop where
  era : statsbookEraStart ≤ r.date
  scored1 : r.team1.score = some score1
  scored2 : r.team2.score = some score2
  range1 : -2 ^ 15 ≤ score1 ∧ score1 < 2 ^ 15
  range2 : -2 ^ 15 ≤ score2 ∧ score2 < 2 ^ 15

/-- The row of a game: the date, teams and scores of a result. -/
def rowOf (r : ApiResult) (score1 score2 : Int) : Int × WftdaGame :=
  (r.id, { date := r.date, team1Id := r.team1.id, team2Id := r.team2.id, team1Score := score1,
           team2Score := score2, region := r.region, seedingGame := r.seedingGame })

theorem gameRow_eq_some_iff {r : ApiResult} {game : Int × WftdaGame} :
    gameRow r = some game ↔
      ∃ score1 score2, Qualifies r score1 score2 ∧ game = rowOf r score1 score2 := by
  unfold gameRow
  constructor
  · intro h
    split_ifs at h with hold
    split at h
    · rename_i score1 score2 h1 h2
      split_ifs at h with hfits
      obtain ⟨hfits1, hfits2⟩ := Bool.and_eq_true_iff.mp hfits
      exact ⟨score1, score2, ⟨not_lt.mp hold, h1, h2, of_decide_eq_true hfits1,
        of_decide_eq_true hfits2⟩, (Option.some.inj h).symm⟩
    · cases h
  · rintro ⟨score1, score2, h, rfl⟩
    have hfits1 : fitsI16 score1 = true := decide_eq_true h.range1
    have hfits2 : fitsI16 score2 = true := decide_eq_true h.range2
    rw [if_neg (not_lt.mpr h.era), h.scored1, h.scored2]
    simp only [hfits1, hfits2, Bool.and_self, if_true]
    rfl

/-- What the scan has collected when it has read some results. -/
theorem games_foldl_keep (results : List ApiResult) (scan : Scan) :
    (results.foldl Scan.keep scan).games = scan.games ++ results.filterMap gameRow := by
  induction results generalizing scan with
  | nil => simp
  | cons r results ih =>
      rw [List.foldl_cons, ih]
      unfold Scan.keep
      cases hrow : gameRow r with
      | none => simp [hrow]
      | some game => simp [hrow]

/-- The titles that the scan has collected when it has read some results. -/
theorem stubs_foldl_keep (results : List ApiResult) (scan : Scan) :
    (results.foldl Scan.keep scan).stubs =
      (results.filter fun r => (gameRow r).isSome).foldl
        (fun stubs r => addStub (addStub stubs r.team1) r.team2) scan.stubs := by
  induction results generalizing scan with
  | nil => rfl
  | cons r results ih =>
      rw [List.foldl_cons, ih]
      unfold Scan.keep
      cases hrow : gameRow r with
      | none => simp [hrow]
      | some game => simp [hrow]

theorem has_addStub (stubs : Table Int String) (team : ApiResultTeam) (id : Int) :
    (addStub stubs team).has id = (decide (id = team.id) || stubs.has id) := by
  unfold addStub
  split_ifs with hhas
  · by_cases hid : id = team.id
    · simp [hid, hhas]
    · simp [hid]
  · exact Table.has_upsert stubs team.id id team.title

theorem has_stubs_keep (scan : Scan) (r : ApiResult) {id : Int} (h : scan.stubs.has id = true) :
    (scan.keep r).stubs.has id = true := by
  unfold Scan.keep
  cases gameRow r with
  | none => exact h
  | some game => simp [has_addStub, h]

/-- Both teams of every collected game are among the stubs. -/
def Scan.Covered (scan : Scan) : Prop :=
  ∀ game ∈ scan.games, scan.stubs.has game.2.team1Id = true ∧ scan.stubs.has game.2.team2Id = true

theorem Scan.Covered.keep {scan : Scan} (h : scan.Covered) (r : ApiResult) :
    (scan.keep r).Covered := by
  intro game hgame
  have hold : game ∈ scan.games → (scan.keep r).stubs.has game.2.team1Id = true ∧
      (scan.keep r).stubs.has game.2.team2Id = true := fun hmem =>
    ⟨has_stubs_keep scan r (h game hmem).1, has_stubs_keep scan r (h game hmem).2⟩
  cases hrow : gameRow r with
  | none =>
      apply hold
      simpa [Scan.keep, hrow] using hgame
  | some new =>
      simp only [Scan.keep, hrow, List.mem_append, List.mem_singleton] at hgame
      rcases hgame with hmem | rfl
      · exact hold hmem
      · obtain ⟨score1, score2, -, rfl⟩ := gameRow_eq_some_iff.mp hrow
        simp [Scan.keep, hrow, has_addStub, rowOf]

theorem Scan.Covered.foldl_keep {scan : Scan} (h : scan.Covered) (results : List ApiResult) :
    (results.foldl Scan.keep scan).Covered := by
  induction results generalizing scan with
  | nil => exact h
  | cons r results ih => exact ih (h.keep r)

/-! ## What the scan reads -/

section Serves

variable [Calendar]

/-- The oldest date of a page lies before the cutoff. -/
def dipsBelow (stopBefore : Int) (results : List ApiResult) : Bool :=
  (results.map ApiResult.date).min?.any fun oldest => decide (oldest < stopBefore)

/-- The pages up to and including the first one that dips below the cutoff. -/
def pagesRead (stopBefore : Int) : List (List ApiResult) → List (List ApiResult)
  | [] => []
  | p :: ps => if dipsBelow stopBefore p then [p] else p :: pagesRead stopBefore ps

/-- The service cuts one list of results, the newest first, into pages that are not empty,
and numbers them. -/
structure Serves (fetch : Nat → Option ResultPage) (pages : List (List ApiResult)) : Prop where
  nonempty : ∀ p ∈ pages, p ≠ []
  descending : pages.flatten.Pairwise fun r s => s.date ≤ r.date
  page : ∀ i (hi : i < pages.length), ∃ data,
    fetch (i + 1) = some { success := true, data, lastPage := pages.length } ∧
      data.mapM ResultRow.parse = some pages[i]
  beyond : pages = [] → ∃ lastPage,
    fetch 1 = some { success := true, data := [], lastPage }

theorem scanRows_of_parse {data : List ResultRow} {results : List ApiResult}
    (h : data.mapM ResultRow.parse = some results) (scan : Scan) (oldest : Option Int) :
    scanRows scan oldest data = .ok (results.foldl Scan.keep scan,
      (results.map ApiResult.date).foldl olderOf oldest) := by
  induction data generalizing results scan oldest with
  | nil =>
      cases h
      rfl
  | cons r data ih =>
      rw [List.mapM_cons] at h
      obtain ⟨result, hresult, h⟩ := Option.bind_eq_some_iff.mp h
      obtain ⟨results', hresults', h⟩ := Option.bind_eq_some_iff.mp h
      cases h
      rw [scanRows, hresult]
      exact ih hresults' _ _

theorem scanRows_of_not_parse {data : List ResultRow} (h : data.mapM ResultRow.parse = none) :
    ∃ e, ∀ scan oldest, scanRows scan oldest data = .error e := by
  induction data with
  | nil => cases h
  | cons r data ih =>
      cases hparse : r.parse with
      | none => exact ⟨.date r.date r.id, fun scan oldest => by rw [scanRows, hparse]⟩
      | some result =>
          cases hrest : data.mapM ResultRow.parse with
          | some results => simp [List.mapM_cons, hparse, hrest] at h
          | none =>
              obtain ⟨e, herror⟩ := ih hrest
              refine ⟨e, fun scan oldest => ?_⟩
              rw [scanRows, hparse]
              exact herror _ _

omit [Calendar] in
/-- The oldest date that the loop keeps is the least one. -/
theorem foldl_olderOf (dates : List Int) : dates.foldl olderOf none = dates.min? := by
  have hstep : ∀ (dates : List Int) (o : Int),
      dates.foldl olderOf (some o) = some (dates.foldl min o) := by
    intro dates
    induction dates with
    | nil => exact fun _ => rfl
    | cons d dates ih => exact fun o => ih (min o d)
  cases dates with
  | nil => rfl
  | cons d dates => exact (hstep dates d).trans List.min?_cons'.symm

/-- One page that is not the last one to be read. -/
def GoesOn (fetch : Nat → Option ResultPage) (stopBefore : Int) (page : Nat) : Prop :=
  ∃ data lastPage results, fetch page = some { success := true, data, lastPage } ∧
    data.mapM ResultRow.parse = some results ∧ results ≠ [] ∧
    dipsBelow stopBefore results = false ∧ page < lastPage

/-- A page whose request fails, that reports no success, or that has a date which cannot be
read. -/
def Fails (fetch : Nat → Option ResultPage) (page : Nat) : Prop :=
  fetch page = none ∨ ∃ p, fetch page = some p ∧
    (p.success = false ∨ p.data.mapM ResultRow.parse = none)

theorem mapM_parse_nil {data : List ResultRow} {results : List ApiResult}
    (h : data.mapM ResultRow.parse = some results) (hne : results ≠ []) : data.isEmpty = false := by
  cases data with
  | nil =>
      cases h
      exact absurd rfl hne
  | cons r data => rfl

variable {fetch : Nat → Option ResultPage} {stopBefore : Int} {page : Nat}

/-- A page with results: they are collected, and the loop goes on unless the page dips below
the cutoff or is the last one. -/
theorem scanLoop_page {data : List ResultRow} {lastPage : Nat} {results : List ApiResult}
    (hfetch : fetch page = some { success := true, data, lastPage })
    (hparse : data.mapM ResultRow.parse = some results) (hne : results ≠ []) (fuel : Nat)
    (scan : Scan) :
    scanLoop fetch stopBefore (fuel + 1) page scan =
      if dipsBelow stopBefore results || decide (lastPage ≤ page) then
        some (.ok (results.foldl Scan.keep scan))
      else scanLoop fetch stopBefore fuel (page + 1) (results.foldl Scan.keep scan) := by
  have hlast : max lastPage page ≤ page ↔ lastPage ≤ page := by omega
  rw [scanLoop, hfetch]
  simp only [Bool.not_true, Bool.false_eq_true, if_false, mapM_parse_nil hparse hne,
    scanRows_of_parse hparse, foldl_olderOf, hlast]
  rfl

/-- What the scan collects from a service that cuts one list into pages. -/
theorem scanLoop_serves {pages : List (List ApiResult)} (h : Serves fetch pages)
    {before rest : List (List ApiResult)} (hpages : pages = before ++ rest) (hrest : rest ≠ [])
    (fuel : Nat) (scan : Scan) :
    scanLoop fetch stopBefore (rest.length + fuel) (before.length + 1) scan =
      some (.ok ((pagesRead stopBefore rest).flatten.foldl Scan.keep scan)) := by
  induction rest generalizing before scan with
  | nil => exact absurd rfl hrest
  | cons p rest ih =>
      have hlength : pages.length = before.length + (rest.length + 1) := by simp [hpages]
      have hlt : before.length < pages.length := by omega
      obtain ⟨data, hfetch, hparse⟩ := h.page before.length hlt
      have hp : pages[before.length] = p := by simp [hpages]
      rw [hp] at hparse
      have hne : p ≠ [] := h.nonempty p (by simp [hpages])
      have hfuel : (p :: rest).length + fuel = (rest.length + fuel) + 1 := by
        rw [List.length_cons]
        omega
      rw [hfuel, scanLoop_page hfetch hparse hne, pagesRead]
      cases hdips : dipsBelow stopBefore p with
      | true => simp
      | false =>
          rw [Bool.false_or, if_neg Bool.false_ne_true, List.flatten_cons, List.foldl_append]
          cases rest with
          | nil =>
              rw [if_pos (decide_eq_true (by simp [hlength]))]
              rfl
          | cons q rest =>
              have hmore : ¬pages.length ≤ before.length + 1 := by
                rw [hlength, List.length_cons]
                omega
              rw [decide_eq_false hmore, if_neg Bool.false_ne_true]
              have hsplit : pages = (before ++ [p]) ++ q :: rest := by simp [hpages]
              have hnext := ih hsplit (List.cons_ne_nil q rest) (p.foldl Scan.keep scan)
              rwa [List.length_append, List.length_singleton] at hnext

/-- The whole scan of a service that cuts one list into pages. -/
theorem scanLoop_start {pages : List (List ApiResult)} (h : Serves fetch pages) (fuel : Nat) :
    scanLoop fetch stopBefore (max 1 pages.length + fuel) 1 Scan.start =
      some (.ok ((pagesRead stopBefore pages).flatten.foldl Scan.keep Scan.start)) := by
  cases pages with
  | nil =>
      obtain ⟨lastPage, hfetch⟩ := h.beyond rfl
      have hfuel : max 1 ([] : List (List ApiResult)).length + fuel = fuel + 1 := Nat.add_comm _ _
      rw [hfuel, scanLoop, hfetch]
      rfl
  | cons p pages =>
      have hfuel : max 1 (p :: pages).length = (p :: pages).length :=
        max_eq_right (Nat.succ_le_succ (Nat.zero_le _))
      rw [hfuel]
      exact scanLoop_serves h (List.nil_append _).symm (List.cons_ne_nil p pages) fuel Scan.start

omit [Calendar] in
theorem dipsBelow_iff {results : List ApiResult} :
    dipsBelow stopBefore results = true ↔ ∃ r ∈ results, r.date < stopBefore := by
  unfold dipsBelow
  cases hmin : (results.map ApiResult.date).min? with
  | none =>
      have hnil : results = [] := by simpa using hmin
      simp [hnil]
  | some oldest =>
      obtain ⟨hmem, hle⟩ := List.min?_eq_some_iff.mp hmin
      obtain ⟨r, hr, hdate⟩ := List.mem_map.mp hmem
      rw [Option.any_some, decide_eq_true_iff]
      constructor
      · intro h
        exact ⟨r, hr, hdate ▸ h⟩
      · rintro ⟨s, hs, hlt⟩
        exact (hle s.date (List.mem_map_of_mem hs)).trans_lt hlt

omit [Calendar] in
/-- No result from the cutoff on is on a page that is left out. -/
theorem mem_flatten_pagesRead {pages : List (List ApiResult)}
    (hdesc : pages.flatten.Pairwise fun r s => s.date ≤ r.date) {r : ApiResult}
    (hr : r ∈ pages.flatten) (hdate : stopBefore ≤ r.date) :
    r ∈ (pagesRead stopBefore pages).flatten := by
  induction pages with
  | nil => exact hr
  | cons p pages ih =>
      rw [List.flatten_cons] at hdesc hr
      obtain ⟨-, htail, hcross⟩ := List.pairwise_append.mp hdesc
      rw [pagesRead]
      split_ifs with hdips
      · -- the page dips below the cutoff, and what follows it is not newer
        obtain ⟨s, hs, hold⟩ := dipsBelow_iff.mp hdips
        rcases List.mem_append.mp hr with hp | hrest
        · simpa using hp
        · have hle := hcross s hs r hrest
          omega
      · rw [List.flatten_cons]
        rcases List.mem_append.mp hr with hp | hrest
        · exact List.mem_append_left _ hp
        · exact List.mem_append_right _ (ih htail hrest)

/-- The loop stops with an error at a page that fails. -/
theorem scanLoop_of_fails (h : Fails fetch page) :
    ∃ e, ∀ fuel scan, scanLoop fetch stopBefore (fuel + 1) page scan = some (.error e) := by
  rcases h with hnone | ⟨p, hsome, hbad⟩
  · exact ⟨.request page, fun fuel scan => by rw [scanLoop, hnone]⟩
  · cases hsuccess : p.success with
    | false =>
        refine ⟨.unsuccessful page, fun fuel scan => ?_⟩
        rw [scanLoop, hsome]
        simp [hsuccess]
    | true =>
        have hparse : p.data.mapM ResultRow.parse = none := by simpa [hsuccess] using hbad
        have hempty : p.data.isEmpty = false := by
          cases hdata : p.data with
          | nil => simp [hdata] at hparse
          | cons r data => rfl
        obtain ⟨e, herror⟩ := scanRows_of_not_parse hparse
        refine ⟨e, fun fuel scan => ?_⟩
        rw [scanLoop, hsome]
        simp only [hsuccess, Bool.not_true, Bool.false_eq_true, if_false, hempty, herror]

/-- The pages before one that fails lead to it. -/
theorem scanLoop_fails {before : Nat} (hbefore : ∀ m < before, GoesOn fetch stopBefore (page + m))
    (hfails : Fails fetch (page + before)) :
    ∃ e, ∀ fuel scan,
      scanLoop fetch stopBefore (before + 1 + fuel) page scan = some (.error e) := by
  induction before generalizing page with
  | zero =>
      obtain ⟨e, herror⟩ : ∃ e, ∀ fuel scan,
          scanLoop fetch stopBefore (fuel + 1) page scan = some (.error e) :=
        scanLoop_of_fails hfails
      refine ⟨e, fun fuel scan => ?_⟩
      rw [Nat.zero_add, Nat.add_comm]
      exact herror fuel scan
  | succ before ih =>
      obtain ⟨data, lastPage, results, hfetch, hparse, hne, hdips, hlast⟩ :=
        hbefore 0 (Nat.succ_pos before)
      rw [Nat.add_zero] at hfetch hlast
      have hshift : ∀ m, page + 1 + m = page + (m + 1) := fun m => by omega
      have hbefore' : ∀ m < before, GoesOn fetch stopBefore (page + 1 + m) := by
        intro m hm
        rw [hshift]
        exact hbefore (m + 1) (by omega)
      have hfails' : Fails fetch (page + 1 + before) := by
        rw [hshift]
        exact hfails
      obtain ⟨e, herror⟩ := ih hbefore' hfails'
      refine ⟨e, fun fuel scan => ?_⟩
      have hfuel : before + 1 + 1 + fuel = (before + 1 + fuel) + 1 := by omega
      rw [hfuel, scanLoop_page hfetch hparse hne, hdips, decide_eq_false (not_le.mpr hlast),
        Bool.or_false, if_neg Bool.false_ne_true]
      exact herror fuel _

end Serves

/-! ## What the scan writes -/

/-- The transaction after the scan is the sync of the results that were read. -/
theorem writeScan_foldl_keep (results : List ApiResult) (db : Db) :
    writeScan (results.foldl Scan.keep Scan.start) db = syncGames db results := by
  unfold writeScan syncGames stubTeams
  rw [games_foldl_keep, stubs_foldl_keep]
  rfl

theorem has_foldl_insertStub (stubs : List (Int × String)) (db : Db) {id : Int}
    (h : db.wftdaTeams.has id = true ∨ ∃ stub ∈ stubs, stub.1 = id) :
    (stubs.foldl insertStub db).wftdaTeams.has id = true := by
  induction stubs generalizing db with
  | nil => simpa using h
  | cons stub stubs ih =>
      apply ih
      have hstub : ∀ k, (insertStub db stub).wftdaTeams.has k =
          (decide (k = stub.1) || db.wftdaTeams.has k) := by
        intro k
        unfold insertStub
        split_ifs with hhas
        · by_cases hk : k = stub.1
          · simp [hk, hhas]
          · simp [hk]
        · exact Table.has_upsert db.wftdaTeams stub.1 k _
      rw [hstub]
      rcases h with hold | ⟨s, hs, hid⟩
      · exact Or.inl (by simp [hold])
      · rcases List.mem_cons.mp hs with rfl | hmem
        · exact Or.inl (by simp [hid])
        · exact Or.inr ⟨s, hmem, hid⟩

/-- Games whose teams are stored are all taken. -/
theorem foldlM_upsertGame {games : List (Int × WftdaGame)} {db : Db}
    (h : ∀ game ∈ games, db.wftdaTeams.has game.2.team1Id = true ∧
      db.wftdaTeams.has game.2.team2Id = true) :
    games.foldlM upsertGame db =
      some { db with wftdaGames := db.wftdaGames.upsertAll games } := by
  induction games generalizing db with
  | nil => rfl
  | cons game games ih =>
      obtain ⟨hteam1, hteam2⟩ := h game List.mem_cons_self
      rw [List.foldlM_cons, upsertGame, hteam1, hteam2, Bool.and_self, if_pos rfl]
      exact ih (fun g hg => h g (List.mem_cons_of_mem game hg))

theorem insertStub_wftdaGames (stubs : List (Int × String)) (db : Db) :
    (stubs.foldl insertStub db).wftdaGames = db.wftdaGames := by
  induction stubs generalizing db with
  | nil => rfl
  | cons stub stubs ih =>
      rw [List.foldl_cons, ih]
      unfold insertStub
      split_ifs <;> rfl

/-- With stub rows for their teams, the collected games are all taken. -/
theorem writeScan_covered {scan : Scan} (h : scan.Covered) (db : Db) :
    ∃ db', writeScan scan db = some db' ∧
      db'.wftdaGames = db.wftdaGames.upsertAll scan.games := by
  have hteams : ∀ id, scan.stubs.has id = true →
      (scan.stubs.rows.foldl insertStub db).wftdaTeams.has id = true := by
    intro id hid
    obtain ⟨title, hget⟩ := Table.has_iff.mp hid
    exact has_foldl_insertStub _ db (Or.inr ⟨(id, title), Table.mem_rows_iff.mpr hget, rfl⟩)
  refine ⟨_, foldlM_upsertGame fun game hgame => ⟨hteams _ (h game hgame).1,
    hteams _ (h game hgame).2⟩, ?_⟩
  rw [insertStub_wftdaGames]

section Complete

variable [Calendar]

/-- From a service that serves one list of results, the scan writes exactly the usable
results on the pages up to and including the first one that dips below the cutoff, and
with them every usable result from the cutoff on, after stub rows for their teams.  From
a service of which a page fails it writes nothing. -/
theorem syncResults_complete {fetch : Nat → Option ResultPage} {pages : List (List ApiResult)}
    (h : Serves fetch pages) (stopBefore : Int) (db : Db) :
    (∃ (written : List (Int × WftdaGame)) (stubs : Table Int String) (db' : Db),
      (∀ fuel, syncResults (max 1 pages.length + fuel) fetch stopBefore db =
        some (db', .ok written.length)) ∧
      written.foldlM upsertGame (stubs.rows.foldl insertStub db) = some db' ∧
      (∀ game ∈ written, stubs.has game.2.team1Id = true ∧ stubs.has game.2.team2Id = true) ∧
      (∀ id, db'.wftdaGames.get? id =
        ((written.reverse.find? fun game => decide (game.1 = id)).map Prod.snd).or
          (db.wftdaGames.get? id)) ∧
      written = (pagesRead stopBefore pages).flatten.filterMap gameRow ∧
      (∀ game, game ∈ written ↔ ∃ r ∈ (pagesRead stopBefore pages).flatten,
        ∃ score1 score2, Qualifies r score1 score2 ∧ game = rowOf r score1 score2) ∧
      ∀ r ∈ pages.flatten, ∀ score1 score2, Qualifies r score1 score2 → stopBefore ≤ r.date →
        rowOf r score1 score2 ∈ written) ∧
    ∀ (fetch' : Nat → Option ResultPage) (page : Nat),
      (∀ m < page, GoesOn fetch' stopBefore (m + 1)) → Fails fetch' (page + 1) →
      ∃ e, ∀ fuel, syncResults (page + 1 + fuel) fetch' stopBefore db = some (db, .error e) := by
  set read := (pagesRead stopBefore pages).flatten with hread
  set scan := read.foldl Scan.keep Scan.start with hscan
  have hgames : scan.games = read.filterMap gameRow := games_foldl_keep read Scan.start
  have hstart : Scan.start.Covered := fun game hgame => nomatch hgame
  have hcovered : scan.Covered := hstart.foldl_keep read
  obtain ⟨db', hwrite, htable⟩ := writeScan_covered hcovered db
  have hmem : ∀ game, game ∈ scan.games ↔ ∃ r ∈ read, ∃ score1 score2,
      Qualifies r score1 score2 ∧ game = rowOf r score1 score2 := by
    intro game
    rw [hgames, List.mem_filterMap]
    simp only [gameRow_eq_some_iff]
  refine ⟨⟨scan.games, scan.stubs, db', fun fuel => ?_, hwrite, hcovered, fun id => ?_, hgames,
    hmem, ?_⟩, ?_⟩
  · unfold syncResults
    rw [scanLoop_start h, Option.map_some, ← hread, ← hscan]
    dsimp only
    rw [hwrite]
  · rw [htable, Table.get?_upsertAll]
  · intro r hr score1 score2 hqualifies hdate
    exact (hmem _).mpr
      ⟨r, mem_flatten_pagesRead h.descending hr hdate, score1, score2, hqualifies, rfl⟩
  · intro fetch' page hbefore hfails
    have hbefore' : ∀ m < page, GoesOn fetch' stopBefore (1 + m) := fun m hm =>
      Nat.add_comm m 1 ▸ hbefore m hm
    obtain ⟨e, herror⟩ := scanLoop_fails hbefore' (Nat.add_comm page 1 ▸ hfails)
    refine ⟨e, fun fuel => ?_⟩
    unfold syncResults
    rw [herror, Option.map_some]

end Complete

/-! ## Two pages -/

section Example

/-- The days from 1970-01-01 to a date of a year from 0 on. -/
def daysFromCivil (y month day : Nat) : Int :=
  let y := if month ≤ 2 then y - 1 else y
  let yearOfEra := y % 400
  let dayOfYear := (153 * (if month ≤ 2 then month + 9 else month - 3) + 2) / 5 + day - 1
  let dayOfEra := yearOfEra * 365 + yearOfEra / 4 - yearOfEra / 100 + dayOfYear
  (y / 400 * 146097 + dayOfEra : Int) - 719468

/-- The Gregorian calendar for dates as the results have them. -/
@[reducible]
def resultsCalendar : Calendar where
  parseFromStr text format :=
    if format = "%d %b %Y" then
      match text.splitOnP (· == ' ') with
      | [day, month, y] => do
          let day ← Sheet.numeral 2 day
          let month ← Sheet.abbrOf month
          let y ← Sheet.numeral 4 y
          some (daysFromCivil y month day)
      | _ => none
    else none
  fromYmdOpt _ _ _ := none
  year d := 1970 + d / 365
  asDate _ := none
  currentYear := 2026

attribute [local instance] resultsCalendar

/-- A result between two teams. -/
def resultRow (id : Int) (date : String) (score1 score2 : Option Int) : ResultRow where
  id := id
  date := date
  team1 := { id := 1, title := "Rose City", score := score1 }
  team2 := { id := 2, title := "Gotham", score := score2 }
  region := none
  seedingGame := false

/-- The same result with its date read. -/
def resultOn (id date : Int) (score1 score2 : Option Int) : ApiResult where
  id := id
  date := date
  team1 := { id := 1, title := "Rose City", score := score1 }
  team2 := { id := 2, title := "Gotham", score := score2 }
  region := none
  seedingGame := false

/-- Two games of one day on two pages, and a result without scores between them. -/
def twoPages : Nat → Option ResultPage
  | 1 => some { success := true, lastPage := 2,
                data := [resultRow 3 "16 Nov 2024" (some 150) (some 140),
                  resultRow 2 "16 Nov 2024" none none] }
  | 2 => some { success := true, lastPage := 2,
                data := [resultRow 1 " 16 Nov 2024" (some 90) (some 100)] }
  | _ => none

theorem serves_twoPages :
    Serves twoPages [[resultOn 3 20043 (some 150) (some 140), resultOn 2 20043 none none],
      [resultOn 1 20043 (some 90) (some 100)]] where
  nonempty := by simp
  descending := by decide
  page i hi := by
    have hfirst : [resultRow 3 "16 Nov 2024" (some 150) (some 140),
        resultRow 2 "16 Nov 2024" none none].mapM ResultRow.parse =
        some [resultOn 3 20043 (some 150) (some 140), resultOn 2 20043 none none] := by
      decide +kernel
    have hsecond : [resultRow 1 " 16 Nov 2024" (some 90) (some 100)].mapM ResultRow.parse =
        some [resultOn 1 20043 (some 90) (some 100)] := by
      decide +kernel
    have hcases : i = 0 ∨ i = 1 := by
      simp only [List.length_cons, List.length_nil] at hi
      omega
    rcases hcases with rfl | rfl
    · exact ⟨_, rfl, hfirst⟩
    · exact ⟨_, rfl, hsecond⟩
  beyond h := nomatch h

/-- Games of the day of the cutoff are written from both pages. -/
theorem syncResults_twoPages :
    ∃ db', (∀ fuel, syncResults (2 + fuel) twoPages 20043 Db.empty = some (db', .ok 2)) ∧
      (db'.wftdaGames.get? 3).isSome = true ∧ (db'.wftdaGames.get? 1).isSome = true := by
  obtain ⟨⟨written, stubs, db', hsync, -, -, htable, hwritten, -⟩, -⟩ :=
    syncResults_complete serves_twoPages 20043 Db.empty
  have hrows : written = [rowOf (resultOn 3 20043 (some 150) (some 140)) 150 140,
      rowOf (resultOn 1 20043 (some 90) (some 100)) 90 100] := by
    rw [hwritten]
    decide +kernel
  refine ⟨db', fun fuel => ?_, ?_, ?_⟩
  · have hfuel := hsync fuel
    rwa [hrows] at hfuel
  · rw [htable, hrows]
    rfl
  · rw [htable, hrows]
    rfl

end Example

end Wftda
end Statskboo
