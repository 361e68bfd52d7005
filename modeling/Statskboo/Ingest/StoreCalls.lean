import Statskboo.Ingest.StatsbookIndex
import Statskboo.Ingest.StatsbookParse
import Statskboo.Lib.Run
import Statskboo.Lib.Transaction

/-!
# Storing a statsbook call by call

A parsed statsbook is stored by the statements of one transaction, and the schema
rejects a statement that breaks a key.  Any call may fail; then the transaction is rolled
back and the store returns the error, unless it was the commit and the database asks to
try again.

Main results:

- Theorems {lit}`foldlM_skipStmts` and {lit}`foldlM_storeStmts`: the statements have the
  effect of the atomic store.
- Theorem {lit}`storeCalls_spec`: a store commits that effect or changes nothing.
- Theorem {lit}`FileStep.statusAgrees_of_run`: in every state that the stages reach, the status of a
  file agrees with the rows stored for it.
-/

namespace Statskboo
namespace Parse

open KeyedTable Transaction Transition

/-! ## The statements -/

/-- The side row that a roster row refers to. -/
def sideKey (k : SkaterKey) : SideKey :=
  toLex ((ofLex k).1, (ofLex (ofLex k).2).1)

/-- The statements that store a statsbook. -/
inductive StoreStmt where
  | deleteSides (f : String)
  | deleteSummary (f : String)
  | deleteGame (f : String)
  | insertGame (f : String) (row : StatsbookGame)
  | insertSide (f : String) (s : Side) (row : StatsbookSide)
  | insertSkaters (rows : List (SkaterKey × StatsbookSkater))
  | insertSummary (f : String) (s : Side) (stats : SideStats)
  | setStatus (f : String) (status : ParseStatus)

/-- The effect of a statement.  A deleted row takes the rows that refer to it along; an
insert is rejected when its key is taken or a row that it refers to is missing. -/
def StoreStmt.exec (db : Db) : StoreStmt → Option Db
  | deleteSides f =>
      let doomed : SideKey → Bool := fun k => decide ((ofLex k).1 = f) && db.statsbookSides.has k
      some { db with
        statsbookSides := db.statsbookSides.filter fun k _ => decide ((ofLex k).1 ≠ f)
        statsbookSkaters := db.statsbookSkaters.filter fun k _ => !doomed (sideKey k) }
  | deleteSummary f =>
      some { db with
        statsbookSummary := db.statsbookSummary.filter fun k _ => decide ((ofLex k).1 ≠ f) }
  | deleteGame f =>
      let doomed : SideKey → Bool := fun k =>
        decide ((ofLex k).1 = f) && db.statsbookGames.has (ofLex k).1
      some { db with
        statsbookGames := db.statsbookGames.erase f
        statsbookSummary := db.statsbookSummary.filter fun k _ => !doomed k }
  | insertGame f row =>
      if db.statsbooks.has f && !db.statsbookGames.has f then
        some { db with statsbookGames := db.statsbookGames.upsert f row }
      else none
  | insertSide f s row =>
      if db.statsbooks.has f && !db.statsbookSides.has (toLex (f, s)) then
        some { db with statsbookSides := db.statsbookSides.upsert (toLex (f, s)) row }
      else none
  | insertSkaters rows =>
      if rows.all fun r => db.statsbookSides.has (sideKey r.1) then
        (Parse.insertSkaters db.statsbookSkaters rows).map fun t => { db with statsbookSkaters := t }
      else none
  | insertSummary f s stats =>
      if db.statsbookGames.has f && !db.statsbookSummary.has (toLex (f, s)) then
        some { db with statsbookSummary := db.statsbookSummary.upsert (toLex (f, s)) stats }
      else none
  | setStatus f status => some (updateStatus db f (finished status))

/-- The statements that delete what was parsed of a file. -/
def deleteStmts (f : String) : List StoreStmt :=
  [.deleteSides f, .deleteSummary f, .deleteGame f]

/-- The statements that mark a file skipped. -/
def skipStmts (f : String) : List StoreStmt :=
  deleteStmts f ++ [.setStatus f .skipped]

section Store

variable [Text.UnicodeTables]

/-- The statements that store a parsed game. -/
def storeStmts (f : String) (game : GameData) (date : Int) : List StoreStmt :=
  let skaters := skaterRows f .home game.home.skaters ++ skaterRows f .away game.away.skaters
  deleteStmts f ++
    [.insertGame f
        { date, version := game.version, homeScore := game.homeScore,
          awayScore := game.awayScore, gameData := some game },
      .insertSide f .home (sideRow game.home), .insertSide f .away (sideRow game.away)] ++
    (if skaters.isEmpty then [] else [.insertSkaters skaters]) ++
    (summaryRows game).map (fun r => .insertSummary f r.1 r.2) ++
    [.setStatus f .parsed]

end Store

/-! ## Transactions that may fail -/

/-- How far one try at a transaction gets: the number of its calls that are answered, and
whether the database asks to try again when it refuses the commit. -/
structure Try where
  calls : Nat
  retryable : Bool

/-- One try: the state it leaves, and whether it was committed. -/
def runTransaction (stmts : List StoreStmt) (db : Db) (t : Try) : Db × Bool :=
  (leftBehind StoreStmt.exec ⟨db, db⟩ ((transaction stmts).take t.calls),
    (stmts.foldlM StoreStmt.exec db).isSome && decide (stmts.length + 2 ≤ t.calls))

/-- Whether a try ends at its commit, and the database asks to try again. -/
def retries (stmts : List StoreStmt) (db : Db) (t : Try) : Bool :=
  (stmts.foldlM StoreStmt.exec db).isSome && decide (t.calls = stmts.length + 1) && t.retryable

/-- The store loop with some retries left. -/
def storeLoop (stmts : List StoreStmt) (tries : Nat → Try) : Nat → Nat → Db → Db × Bool
  | 0, n, db => runTransaction stmts db (tries n)
  | left + 1, n, db =>
      let r := runTransaction stmts db (tries n)
      if retries stmts db (tries n) then storeLoop stmts tries left (n + 1) r.1 else r

/-- Store an already parsed statsbook; the second part says whether it was stored.  The store
of a game is tried again up to five times. -/
def storeCalls [Text.UnicodeTables] (db : Db) (f : String) (game : GameData) (date : Option Int)
    (tries : Nat → Try) : Db × Bool :=
  if hasNoGameData game then runTransaction (skipStmts f) db (tries 0)
  else
    match date with
    | none => (db, false)
    | some date => storeLoop (storeStmts f game date) tries 5 0 db

/-- A try leaves the effect of its statements, or nothing. -/
theorem runTransaction_spec (stmts : List StoreStmt) (db : Db) (t : Try) :
    ((runTransaction stmts db t).2 = true ∧
        stmts.foldlM StoreStmt.exec db = some (runTransaction stmts db t).1) ∨
      ((runTransaction stmts db t).2 = false ∧ (runTransaction stmts db t).1 = db) := by
  unfold runTransaction
  cases h : stmts.foldlM StoreStmt.exec db with
  | none => exact Or.inr ⟨rfl, leftBehind_transaction_of_none StoreStmt.exec h t.calls⟩
  | some db' =>
      rw [leftBehind_transaction StoreStmt.exec h]
      by_cases hcalls : stmts.length + 2 ≤ t.calls
      · simp [hcalls]
      · simp [hcalls]

theorem storeLoop_spec (stmts : List StoreStmt) (tries : Nat → Try) (left n : Nat) (db : Db) :
    ((storeLoop stmts tries left n db).2 = true ∧
        stmts.foldlM StoreStmt.exec db = some (storeLoop stmts tries left n db).1) ∨
      ((storeLoop stmts tries left n db).2 = false ∧ (storeLoop stmts tries left n db).1 = db) := by
  induction left generalizing n with
  | zero => exact runTransaction_spec stmts db (tries n)
  | succ left ih =>
      rw [storeLoop]
      split_ifs with hretry
      · -- a refused commit is rolled back, so the next try starts from the same state
        have hsame : (runTransaction stmts db (tries n)).1 = db := by
          rcases runTransaction_spec stmts db (tries n) with ⟨hdone, -⟩ | ⟨-, hsame⟩
          · simp only [runTransaction, retries, Bool.and_eq_true, decide_eq_true_eq] at hdone hretry
            omega
          · exact hsame
        rw [hsame]
        exact ih (n + 1)
      · exact runTransaction_spec stmts db (tries n)

/-! ## The statements have the effect of the atomic store -/

/-- Every roster row has its side, and every summary row its game. -/
structure Linked (db : Db) : Prop where
  skaters : ∀ k, db.statsbookSkaters.has k = true → db.statsbookSides.has (sideKey k) = true
  summaries : ∀ k, db.statsbookSummary.has k = true →
    db.statsbookGames.has (ofLex k).1 = true

variable {db db' : Db} {f : String}

/-- The rows that refer to deleted sides are the rows of the deleted files. -/
theorem Linked.filter_skaters (h : Linked db) (doomed : String → Bool) :
    db.statsbookSkaters.filter (fun k _ =>
      !(doomed (ofLex (sideKey k)).1 && db.statsbookSides.has (sideKey k))) =
      db.statsbookSkaters.filter fun k _ => !doomed (ofLex k).1 := by
  refine Table.filter_congr fun r hr => ?_
  rw [h.skaters r.1 (Table.has_of_mem_rows hr), Bool.and_true]
  rfl

/-- The rows that refer to deleted games are the rows of the deleted files. -/
theorem Linked.filter_summary (h : Linked db) (doomed : String → Bool) :
    db.statsbookSummary.filter (fun k _ =>
      !(doomed (ofLex k).1 && db.statsbookGames.has (ofLex k).1)) =
      db.statsbookSummary.filter fun k _ => !doomed (ofLex k).1 := by
  refine Table.filter_congr fun r hr => ?_
  rw [h.summaries r.1 (Table.has_of_mem_rows hr), Bool.and_true]

/-- With the rows that refer to them, the deleted rows are all that was parsed of the file. -/
theorem foldlM_deleteStmts (h : Linked db) (f : String) :
    (deleteStmts f).foldlM StoreStmt.exec db = some (deleteParsedRows db f) := by
  have hskaters := h.filter_skaters fun g => decide (g = f)
  simp only [← decide_not] at hskaters
  have hsummary : (db.statsbookSummary.filter fun k _ => decide ((ofLex k).1 ≠ f)).filter (fun k _ =>
      !(decide ((ofLex k).1 = f) && db.statsbookGames.has (ofLex k).1)) =
        db.statsbookSummary.filter fun k _ => decide ((ofLex k).1 ≠ f) := by
    refine Table.filter_eq_self fun r hr => ?_
    have hfile : (ofLex r.1).1 ≠ f := by simpa using (List.mem_filter.mp hr).2
    simp [hfile]
  unfold deleteStmts deleteParsedRows
  rw [← hskaters, ← hsummary]
  rfl

/-- The statements that mark a file skipped have the effect of the atomic step. -/
theorem foldlM_skipStmts (h : Linked db) (f : String) :
    (skipStmts f).foldlM StoreStmt.exec db = some (markSkipped db f none) := by
  unfold skipStmts
  rw [List.foldlM_append, foldlM_deleteStmts h]
  rfl

/-- No row is stored for a file. -/
structure Cleared (db : Db) (f : String) : Prop where
  game : db.statsbookGames.has f = false
  sides : ∀ s, db.statsbookSides.has (toLex (f, s)) = false
  skaters : ∀ s number, db.statsbookSkaters.has (toLex (f, toLex (s, number))) = false
  summary : ∀ s, db.statsbookSummary.has (toLex (f, s)) = false

theorem cleared_deleteParsedRows (db : Db) (f : String) : Cleared (deleteParsedRows db f) f := by
  constructor <;> intros <;>
    simp [deleteParsedRows, Table.has, Table.get?_erase]

/-- The rows of a game and its sides go in where no row of the file is left. -/
theorem foldlM_insertSides (hclear : Cleared db f) (hhas : db.statsbooks.has f = true)
    (row : StatsbookGame) (home away : StatsbookSide) :
    [StoreStmt.insertGame f row, .insertSide f .home home, .insertSide f .away away].foldlM
        StoreStmt.exec db =
      some { db with
        statsbookGames := db.statsbookGames.upsert f row
        statsbookSides :=
          (db.statsbookSides.upsert (toLex (f, Side.home)) home).upsert (toLex (f, Side.away))
            away } := by
  simp [StoreStmt.exec, hhas, hclear.game, hclear.sides, Table.has_upsert]

/-- The summary rows of a file whose game is stored. -/
theorem foldlM_insertSummary (hclear : ∀ s, db.statsbookSummary.has (toLex (f, s)) = false)
    (hgame : db.statsbookGames.has f = true) (game : GameData) :
    ((summaryRows game).map fun r => StoreStmt.insertSummary f r.1 r.2).foldlM StoreStmt.exec db =
      some { db with
        statsbookSummary := (summaryRows game).foldl (fun t r => t.upsert (toLex (f, r.1)) r.2)
          db.statsbookSummary } := by
  unfold summaryRows
  cases game.gameSummary with
  | none => rfl
  | some g => simp [StoreStmt.exec, hgame, hclear, Table.has_upsert]

section Stored

variable [Text.UnicodeTables]

theorem sideKey_of_mem_skaterRows {r : SkaterKey × StatsbookSkater} {s : Side}
    {skaters : List Skater} (h : r ∈ skaterRows f s skaters) : sideKey r.1 = toLex (f, s) := by
  unfold skaterRows at h
  obtain ⟨skater, -, rfl⟩ := List.mem_map.mp h
  rfl

/-- The roster rows of a file whose sides are stored. -/
theorem foldlM_insertSkaters (hsides : ∀ s, db.statsbookSides.has (toLex (f, s)) = true)
    (home away : List Skater) :
    (if (skaterRows f .home home ++ skaterRows f .away away).isEmpty then []
      else [StoreStmt.insertSkaters (skaterRows f .home home ++ skaterRows f .away away)]).foldlM
        StoreStmt.exec db =
      (insertSkaters db.statsbookSkaters
        (skaterRows f .home home ++ skaterRows f .away away)).map fun t =>
          { db with statsbookSkaters := t } := by
  have hall : ((skaterRows f .home home ++ skaterRows f .away away).all fun r =>
      db.statsbookSides.has (sideKey r.1)) = true := by
    refine List.all_eq_true.mpr fun r hr => ?_
    rcases List.mem_append.mp hr with hr | hr
    · rw [sideKey_of_mem_skaterRows hr]
      exact hsides Side.home
    · rw [sideKey_of_mem_skaterRows hr]
      exact hsides Side.away
  split_ifs with hempty
  · rw [List.isEmpty_iff.mp hempty]
    rfl
  · rw [List.foldlM_cons, StoreStmt.exec, if_pos hall]
    exact bind_pure _

/-- The statements that store a parsed game have the effect of the atomic step. -/
theorem foldlM_storeStmts (h : Linked db) {game : GameData} (hdata : hasNoGameData game = false)
    (f : String) (date : Int) :
    (storeStmts f game date).foldlM StoreStmt.exec db =
      (storeParsedGame db f game (some date)).map Prod.fst := by
  have hclear := cleared_deleteParsedRows db f
  unfold storeStmts storeParsedGame
  rw [hdata, if_neg Bool.false_ne_true]
  simp only [List.foldlM_append, foldlM_deleteStmts h, Option.bind_eq_bind, Option.bind_some]
  by_cases hhas : (deleteParsedRows db f).statsbooks.has f = true
  · have hsides : ∀ s, (((deleteParsedRows db f).statsbookSides.upsert (toLex (f, Side.home))
        (sideRow game.home)).upsert (toLex (f, Side.away)) (sideRow game.away)).has
          (toLex (f, s)) = true := by
      intro s
      cases s <;> simp [Table.has_upsert]
    rw [foldlM_insertSides hclear hhas, Option.bind_some, foldlM_insertSkaters hsides]
    simp only [hhas, guard, if_true, Option.pure_def, Option.bind_some, Option.map_bind]
    cases insertSkaters (deleteParsedRows db f).statsbookSkaters
        (skaterRows f .home game.home.skaters ++ skaterRows f .away game.away.skaters) with
    | none => rfl
    | some skaters =>
        simp only [Option.map_some, Option.bind_some]
        rw [foldlM_insertSummary, Option.bind_some]
        · rfl
        · exact hclear.summary
        · simp [Table.has_upsert]
  · have hinsert : ∀ row stmts, (StoreStmt.insertGame f row :: stmts).foldlM StoreStmt.exec
        (deleteParsedRows db f) = none := by
      intro row stmts
      simp [StoreStmt.exec, hhas]
    rw [hinsert]
    simp [hhas]

/-- A store commits the effect of the atomic step, or it returns an error and changes
nothing. -/
theorem storeCalls_spec (h : Linked db) (f : String) (game : GameData) (date : Option Int)
    (tries : Nat → Try) :
    ((storeCalls db f game date tries).2 = true ∧
        ∃ outcome, storeParsedGame db f game date =
          some ((storeCalls db f game date tries).1, outcome)) ∨
      ((storeCalls db f game date tries).2 = false ∧ (storeCalls db f game date tries).1 = db) := by
  unfold storeCalls
  cases hempty : hasNoGameData game with
  | true =>
      rw [if_pos rfl]
      rcases runTransaction_spec (skipStmts f) db (tries 0) with ⟨hok, hdone⟩ | hfailed
      · left
        rw [foldlM_skipStmts h, Option.some.injEq] at hdone
        rw [← hdone, storeParsedGame, if_pos hempty]
        exact ⟨hok, _, rfl⟩
      · exact Or.inr hfailed
  | false =>
      rw [if_neg Bool.false_ne_true]
      cases date with
      | none => exact Or.inr ⟨rfl, rfl⟩
      | some date =>
          rcases storeLoop_spec (storeStmts f game date) tries 5 0 db with ⟨hok, hdone⟩ | hfailed
          · left
            rw [foldlM_storeStmts h hempty] at hdone
            obtain ⟨⟨db', outcome⟩, hstore, hdb'⟩ := Option.map_eq_some_iff.mp hdone
            exact ⟨hok, outcome, by rw [hstore, ← hdb']⟩
          · exact Or.inr hfailed

end Stored

/-! ## Removal by cascades -/

/-- Delete the statsbooks last seen before a marker; each deleted row takes along the rows
that refer to it. -/
def cascadeRemoved (db : Db) (seenBefore : Int) : Db :=
  let doomed : String → Bool := fun f =>
    (db.statsbooks.get? f).any fun row => decide (row.lastSeen < seenBefore)
  let doomedSide : SideKey → Bool := fun k => doomed (ofLex k).1 && db.statsbookSides.has k
  let doomedGame : String → Bool := fun f => doomed f && db.statsbookGames.has f
  { db with
    statsbooks := db.statsbooks.filter fun _ row => !decide (row.lastSeen < seenBefore)
    statsbookGames := db.statsbookGames.filter fun f _ => !doomed f
    statsbookSides := db.statsbookSides.filter fun k _ => !doomed (ofLex k).1
    statsbookSkaters := db.statsbookSkaters.filter fun k _ => !doomedSide (sideKey k)
    statsbookSummary := db.statsbookSummary.filter fun k _ => !doomedGame (ofLex k).1
    gameMatches := db.gameMatches.filter fun f _ => !doomed f }

/-- The cascades reach every row of a deleted file. -/
theorem cascadeRemoved_eq (h : Linked db) (seenBefore : Int) :
    cascadeRemoved db seenBefore = (Index.markRemoved db seenBefore).1 := by
  let doomed : String → Bool := fun f =>
    (db.statsbooks.get? f).any fun row => decide (row.lastSeen < seenBefore)
  have hskaters := h.filter_skaters doomed
  have hsummary := h.filter_summary doomed
  unfold cascadeRemoved Index.markRemoved Db.deleteStatsbooks
  dsimp only [doomed] at hskaters hsummary ⊢
  rw [hskaters, hsummary]

/-! ## Status and rows -/

/-- The parse status of a file. -/
def status? (db : Db) (f : String) : Option ParseStatus :=
  (db.statsbooks.get? f).map DriveFile.parseStatus

/-- The rows stored for a file agree with its status. -/
structure AgreesAt (db : Db) (f : String) : Prop where
  parsed : status? db f = some ParseStatus.parsed →
    db.statsbookGames.has f = true ∧ ∀ s, db.statsbookSides.has (toLex (f, s)) = true
  skipped : status? db f = some ParseStatus.skipped → Cleared db f
  skaters : ∀ s number, db.statsbookSkaters.has (toLex (f, toLex (s, number))) = true →
    db.statsbookSides.has (toLex (f, s)) = true
  summaries : ∀ s, db.statsbookSummary.has (toLex (f, s)) = true →
    db.statsbookGames.has f = true

theorem linked_of_agreesAt (h : ∀ f, AgreesAt db f) : Linked db where
  skaters k hk := (h (ofLex k).1).skaters (ofLex (ofLex k).2).1 (ofLex (ofLex k).2).2 hk
  summaries k hk := (h (ofLex k).1).summaries (ofLex k).2 hk

/-- The rows of a file are the same in two states, and it is only parsed or skipped in the
second if it is in the first. -/
structure CarriesOver (db db' : Db) (f : String) : Prop where
  status : ∀ status, status = ParseStatus.parsed ∨ status = ParseStatus.skipped →
    status? db' f = some status → status? db f = some status
  games : db'.statsbookGames.has f = db.statsbookGames.has f
  sides : ∀ s, db'.statsbookSides.has (toLex (f, s)) = db.statsbookSides.has (toLex (f, s))
  skaters : ∀ s number, db'.statsbookSkaters.has (toLex (f, toLex (s, number))) =
    db.statsbookSkaters.has (toLex (f, toLex (s, number)))
  summary : ∀ s, db'.statsbookSummary.has (toLex (f, s)) = db.statsbookSummary.has (toLex (f, s))

theorem AgreesAt.of_carriesOver (h : AgreesAt db f) (hcarry : CarriesOver db db' f) :
    AgreesAt db' f where
  parsed hstatus := by
    simp only [hcarry.games, hcarry.sides]
    exact h.parsed (hcarry.status _ (Or.inl rfl) hstatus)
  skipped hstatus := by
    have hclear := h.skipped (hcarry.status _ (Or.inr rfl) hstatus)
    exact ⟨hcarry.games.trans hclear.game, fun s => (hcarry.sides s).trans (hclear.sides s),
      fun s number => (hcarry.skaters s number).trans (hclear.skaters s number),
      fun s => (hcarry.summary s).trans (hclear.summary s)⟩
  skaters s number hskater := by
    rw [hcarry.sides]
    exact h.skaters s number ((hcarry.skaters s number).symm.trans hskater)
  summaries s hsummary := by
    rw [hcarry.games]
    exact h.summaries s ((hcarry.summary s).symm.trans hsummary)

/-- A file without rows is not parsed. -/
theorem AgreesAt.of_cleared (hclear : Cleared db f)
    (hstatus : status? db f ≠ some ParseStatus.parsed) : AgreesAt db f where
  parsed h := absurd h hstatus
  skipped _ := hclear
  skaters s number h := absurd h (by simp [hclear.skaters])
  summaries s h := absurd h (by simp [hclear.summary])

/-- A file with its game and both sides is not skipped. -/
theorem AgreesAt.of_complete (hgame : db.statsbookGames.has f = true)
    (hsides : ∀ s, db.statsbookSides.has (toLex (f, s)) = true)
    (hstatus : status? db f ≠ some ParseStatus.skipped) : AgreesAt db f where
  parsed _ := ⟨hgame, hsides⟩
  skipped h := absurd h hstatus
  skaters s _ _ := hsides s
  summaries _ _ := hgame

/-! ## What a store leaves of the other files -/

/-- Inserted rows of one file leave the keys of the others. -/
theorem has_insertSkaters {t t' : Table SkaterKey StatsbookSkater} {k : SkaterKey}
    {rows : List (SkaterKey × StatsbookSkater)} (hk : ∀ r ∈ rows, k ≠ r.1)
    (h : insertSkaters t rows = some t') : t'.has k = t.has k := by
  induction rows generalizing t with
  | nil =>
      cases h
      rfl
  | cons r rows ih =>
      unfold insertSkaters at h
      split_ifs at h
      obtain ⟨hr, hrows⟩ := List.forall_mem_cons.mp hk
      rw [ih hrows h, Table.has_upsert]
      simp [hr]

theorem has_foldl_upsert_summary {t : Table SideKey SideStats} {k : SideKey}
    {rows : List (Side × SideStats)} (hk : (ofLex k).1 ≠ f) :
    (rows.foldl (fun t r => t.upsert (toLex (f, r.1)) r.2) t).has k = t.has k := by
  induction rows generalizing t with
  | nil => rfl
  | cons r rows ih =>
      have hne : k ≠ toLex (f, r.1) := fun h => hk (by rw [h]; rfl)
      rw [List.foldl_cons, ih, Table.has_upsert]
      simp [hne]

/-- The parsed rows of the other files stay. -/
theorem carriesOver_deleteParsedRows {f' : String} (hf : f' ≠ f) :
    CarriesOver db (deleteParsedRows db f) f' := by
  constructor
  · exact fun _ _ h => h
  all_goals
    intros
    simp [deleteParsedRows, Table.has, Table.get?_erase, Option.isSome_filter, hf]

theorem cleared_markSkipped (db : Db) (f : String) (reason : Option String) :
    Cleared (markSkipped db f reason) f :=
  have hclear := cleared_deleteParsedRows db f
  ⟨hclear.game, hclear.sides, hclear.skaters, hclear.summary⟩

/-- Marking a file skipped leaves the rows and the status of the other files. -/
theorem carriesOver_markSkipped {f' : String} (hf : f' ≠ f) (reason : Option String) :
    CarriesOver db (markSkipped db f reason) f' := by
  have hdelete : CarriesOver db (deleteParsedRows db f) f' := carriesOver_deleteParsedRows hf
  refine ⟨fun status _ hstatus => ?_, hdelete.games, hdelete.sides, hdelete.skaters,
    hdelete.summary⟩
  rw [status?, markSkipped, updateStatus, Table.get?_modify, if_neg hf] at hstatus
  exact hstatus

section Stored

variable [Text.UnicodeTables] {game : GameData} {date : Option Int} {outcome : ParseOutcome}

/-- The roster and summary rows that a stored game leaves. -/
theorem storeParsedGame_rows (hdata : hasNoGameData game = false)
    (h : storeParsedGame db f game date = some (db', outcome)) :
    insertSkaters (deleteParsedRows db f).statsbookSkaters
        (skaterRows f .home game.home.skaters ++ skaterRows f .away game.away.skaters) =
        some db'.statsbookSkaters ∧
      db'.statsbookSummary = (summaryRows game).foldl (fun t r => t.upsert (toLex (f, r.1)) r.2)
        (deleteParsedRows db f).statsbookSummary := by
  unfold storeParsedGame at h
  rw [hdata, if_neg Bool.false_ne_true] at h
  obtain ⟨d, -, h⟩ := Option.bind_eq_some_iff.mp h
  obtain ⟨-, -, h⟩ := Option.bind_eq_some_iff.mp h
  obtain ⟨skaters, hskaters, h⟩ := Option.bind_eq_some_iff.mp h
  cases h
  exact ⟨hskaters, rfl⟩

theorem status?_storeParsedGame (h : storeParsedGame db f game date = some (db', outcome))
    (f' : String) :
    status? db' f' =
      if f' = f then (status? db f').map fun _ => outcomeStatus game else status? db f' := by
  unfold status?
  rw [storeParsedGame_statsbooks h, Table.get?_modify]
  split_ifs
  · cases db.statsbooks.get? f' <;> rfl
  · rfl

/-- Storing a game leaves the rows and the status of the other files. -/
theorem carriesOver_storeParsedGame {f' : String} (hf : f' ≠ f)
    (hdata : hasNoGameData game = false)
    (h : storeParsedGame db f game date = some (db', outcome)) : CarriesOver db db' f' := by
  have hstored := storeParsedGame_stored hdata h
  obtain ⟨d, -, hgames⟩ := hstored.statsbookGames
  obtain ⟨hskaters, hsummary⟩ := storeParsedGame_rows hdata h
  have hdelete : CarriesOver db (deleteParsedRows db f) f' := carriesOver_deleteParsedRows hf
  constructor
  · intro status _ hstatus
    rwa [status?_storeParsedGame h, if_neg hf] at hstatus
  · rw [Table.has, hgames, if_neg hf, Table.has]
  · intro s
    have hside := hstored.side? f' s
    rw [if_neg hf] at hside
    exact congrArg Option.isSome hside
  · intro s number
    rw [has_insertSkaters ?_ hskaters]
    · exact hdelete.skaters s number
    · intro r hr heq
      have hfile : (ofLex (sideKey r.1)).1 = f := by
        rcases List.mem_append.mp hr with hr | hr <;> rw [sideKey_of_mem_skaterRows hr] <;> rfl
      rw [← heq] at hfile
      exact hf hfile
  · intro s
    rw [hsummary, has_foldl_upsert_summary (by exact hf)]
    exact hdelete.summary s

/-- Storing a statsbook keeps the agreement of every file. -/
theorem agreesAt_storeParsedGame (hagree : ∀ f, AgreesAt db f)
    (h : storeParsedGame db f game date = some (db', outcome)) (f' : String) :
    AgreesAt db' f' := by
  have hstatus := status?_storeParsedGame h f'
  cases hdata : hasNoGameData game with
  | true =>
      have hrows := storeParsedGame_skipped hdata h
      by_cases hf : f' = f
      · subst hf
        refine AgreesAt.of_cleared (hrows ▸ cleared_markSkipped db f' none) ?_
        rw [hstatus, if_pos rfl, outcomeStatus, if_pos hdata]
        cases status? db f' <;> simp
      · exact (hagree f').of_carriesOver (hrows ▸ carriesOver_markSkipped hf none)
  | false =>
      by_cases hf : f' = f
      · subst hf
        have hstored := storeParsedGame_stored hdata h
        obtain ⟨d, -, hgames⟩ := hstored.statsbookGames
        refine AgreesAt.of_complete ?_ (fun s => ?_) ?_
        · rw [Table.has, hgames, if_pos rfl]
          rfl
        · have hside := hstored.side? f' s
          rw [if_pos rfl] at hside
          exact congrArg Option.isSome hside
        · rw [hstatus, if_pos rfl, outcomeStatus, hdata, if_neg Bool.false_ne_true]
          cases status? db f' <;> simp
      · exact (hagree f').of_carriesOver (carriesOver_storeParsedGame hf hdata h)

end Stored

/-- An upsert leaves the stored rows, and the row of a file is pending unless it keeps its
status. -/
theorem carriesOver_upsertStatsbook (db : Db) (now : Int) (f f' name : String)
    (quarter mimeType : Option String) (modifiedTime : Int) :
    CarriesOver db (Index.upsertStatsbook db now f name quarter mimeType modifiedTime) f' := by
  refine ⟨?_, rfl, fun _ => rfl, fun _ _ => rfl, fun _ => rfl⟩
  intro status hdone hstatus
  unfold Index.upsertStatsbook status? at hstatus
  rw [Table.get?_upsert] at hstatus
  split_ifs at hstatus with hf
  · subst hf
    cases hrow : db.statsbooks.get? f' with
    | none => rcases hdone with rfl | rfl <;> simp [hrow] at hstatus
    | some old =>
        simp only [hrow, Option.map_some, Option.some.injEq] at hstatus
        split_ifs at hstatus with hnew
        · rcases hdone with rfl | rfl <;> cases hstatus
        · rw [status?, hrow, Option.map_some, hstatus]
  · exact hstatus

/-- Recording a failure leaves the stored rows. -/
theorem carriesOver_setFailed (db : Db) (f f' error : String) :
    CarriesOver db (setFailed db f error) f' := by
  refine ⟨?_, rfl, fun _ => rfl, fun _ _ => rfl, fun _ => rfl⟩
  intro status hdone hstatus
  rw [setFailed, status?, updateStatus, Table.get?_modify] at hstatus
  split_ifs at hstatus with hf
  · rw [Option.map_map, Option.map_eq_some_iff] at hstatus
    obtain ⟨row, -, rfl⟩ := hstatus
    rcases hdone with hdone | hdone <;> cases hdone
  · exact hstatus

/-- A deleted file leaves no rows, and the other files keep theirs. -/
theorem agreesAt_markRemoved (h : ∀ f, AgreesAt db f) (seenBefore : Int) (f : String) :
    AgreesAt (Index.markRemoved db seenBefore).1 f := by
  by_cases hdoomed :
      ((db.statsbooks.get? f).any fun row => decide (row.lastSeen < seenBefore)) = true
  · refine AgreesAt.of_cleared ?_ ?_
    · constructor <;> intros <;>
        simp [Index.markRemoved, Db.deleteStatsbooks, Table.has, hdoomed]
    · obtain ⟨row, hrow, hold⟩ := (Option.any_eq_true _ _).mp hdoomed
      simp [Index.markRemoved, Db.deleteStatsbooks, status?, hrow, of_decide_eq_true hold]
  · rw [Bool.not_eq_true] at hdoomed
    refine (h f).of_carriesOver ⟨?_, ?_, ?_, ?_, ?_⟩
    · intro status _ hstatus
      unfold status? at hstatus ⊢
      obtain ⟨row, hrow, rfl⟩ := Option.map_eq_some_iff.mp hstatus
      rw [Index.markRemoved, Db.deleteStatsbooks, Table.get?_filter, Option.filter_eq_some_iff]
        at hrow
      rw [hrow.1, Option.map_some]
    all_goals
      intros
      simp [Index.markRemoved, Db.deleteStatsbooks, Table.has, hdoomed]

/-! ## Runs of the index and parse stages -/

/-- The content tables agree with the statuses: a parsed file has its game and both of its
sides, a skipped one has no rows, and no roster or summary row hangs in the air. -/
structure StatusAgrees (db : Db) : Prop where
  parsed : ∀ f row, db.statsbooks.get? f = some row → row.parseStatus = ParseStatus.parsed →
    db.statsbookGames.keys.filter (fun k => decide (k = f)) = [f] ∧
      db.statsbookSides.keys.filter (fun k => decide ((ofLex k).1 = f)) =
        [toLex (f, Side.away), toLex (f, Side.home)]
  skipped : ∀ f row, db.statsbooks.get? f = some row → row.parseStatus = ParseStatus.skipped →
    Cleared db f
  linked : Linked db

theorem gameKeys_eq (hgame : db.statsbookGames.has f = true) :
    db.statsbookGames.keys.filter (fun k => decide (k = f)) = [f] := by
  refine Table.keys_filter_eq (List.pairwise_singleton _ _) fun k => ?_
  constructor
  · intro hk
    rw [List.mem_singleton.mp hk]
    exact ⟨hgame, decide_eq_true rfl⟩
  · rintro ⟨-, hk⟩
    exact List.mem_singleton.mpr (of_decide_eq_true hk)

theorem sideKeys_eq (hsides : ∀ s, db.statsbookSides.has (toLex (f, s)) = true) :
    db.statsbookSides.keys.filter (fun k => decide ((ofLex k).1 = f)) =
      [toLex (f, Side.away), toLex (f, Side.home)] := by
  have horder : toLex (f, Side.away) < toLex (f, Side.home) :=
    Prod.Lex.toLex_lt_toLex.mpr (Or.inr ⟨rfl, (by decide : Side.away < Side.home)⟩)
  refine Table.keys_filter_eq (List.pairwise_pair.mpr horder) fun k => ?_
  constructor
  · intro hk
    rcases List.mem_pair.mp hk with rfl | rfl
    · exact ⟨hsides Side.away, decide_eq_true rfl⟩
    · exact ⟨hsides Side.home, decide_eq_true rfl⟩
  · rintro ⟨-, hk⟩
    have hfile : (ofLex k).1 = f := of_decide_eq_true hk
    rcases hside : (ofLex k).2 with _ | _
    all_goals
      rw [← toLex_ofLex k, ← Prod.mk.eta (p := ofLex k), hfile, hside]
      simp

theorem statusAgrees_of_agreesAt (h : ∀ f, AgreesAt db f) : StatusAgrees db where
  parsed f row hrow hparsed := by
    have hstatus : status? db f = some ParseStatus.parsed := by
      rw [status?, hrow, Option.map_some, hparsed]
    obtain ⟨hgame, hsides⟩ := (h f).parsed hstatus
    exact ⟨gameKeys_eq hgame, sideKeys_eq hsides⟩
  skipped f row hrow hskipped := by
    refine (h f).skipped ?_
    rw [status?, hrow, Option.map_some, hskipped]
  linked := linked_of_agreesAt h

/-- One transaction of the index or parse stage. -/
inductive FileStep where
  | upsertStatsbook (now : Int) (f name : String) (quarter mimeType : Option String)
      (modifiedTime : Int)
  | storeParsedGame (f : String) (game : GameData) (date : Option Int) (tries : Nat → Try)
  | setFailed (f error : String)
  | markRemoved (seenBefore : Int)

namespace FileStep

variable [Text.UnicodeTables]

/-- The state that a transaction leaves. -/
def exec (db : Db) : FileStep → Db
  | upsertStatsbook now f name quarter mimeType modifiedTime =>
      Index.upsertStatsbook db now f name quarter mimeType modifiedTime
  | storeParsedGame f game date tries => (storeCalls db f game date tries).1
  | setFailed f error => Parse.setFailed db f error
  | markRemoved seenBefore => cascadeRemoved db seenBefore

/-- The transactions as steps of a run; none gets stuck. -/
def step (db : Db) (a : FileStep) : Option Db :=
  some (exec db a)

/-- Every step keeps the agreement of every file. -/
theorem agreesAt_exec (h : ∀ f, AgreesAt db f) (a : FileStep) (f' : String) :
    AgreesAt (exec db a) f' := by
  cases a with
  | upsertStatsbook now f name quarter mimeType modifiedTime =>
      exact (h f').of_carriesOver (carriesOver_upsertStatsbook ..)
  | storeParsedGame f game date tries =>
      rcases storeCalls_spec (linked_of_agreesAt h) f game date tries with
        ⟨-, outcome, hstore⟩ | ⟨-, hsame⟩
      · exact agreesAt_storeParsedGame h hstore f'
      · rw [exec, hsame]
        exact h f'
  | setFailed f error => exact (h f').of_carriesOver (carriesOver_setFailed ..)
  | markRemoved seenBefore =>
      rw [exec, cascadeRemoved_eq (linked_of_agreesAt h)]
      exact agreesAt_markRemoved h seenBefore f'

/-- In every state that the stages reach, the status of a file agrees with the rows stored for
it; and a store that returns an error leaves what was stored. -/
theorem statusAgrees_of_run {steps : List FileStep} (hrun : run step Db.empty steps = some db) :
    StatusAgrees db ∧
      ∀ f game date tries, (storeCalls db f game date tries).2 = false →
        (storeCalls db f game date tries).1 = db := by
  have hagree : ∀ f, AgreesAt db f := by
    refine run_invariant (P := fun db => ∀ f, AgreesAt db f) ?_ ?_ hrun
    · intro s a s' h hstep
      cases hstep
      exact agreesAt_exec h a
    · exact fun f => AgreesAt.of_cleared ⟨rfl, fun _ => rfl, fun _ _ => rfl, fun _ => rfl⟩ nofun
  refine ⟨statusAgrees_of_agreesAt hagree, fun f game date tries hfailed => ?_⟩
  rcases storeCalls_spec (linked_of_agreesAt hagree) f game date tries with ⟨hok, -⟩ | ⟨-, hsame⟩
  · rw [hfailed] at hok
    exact absurd hok Bool.false_ne_true
  · exact hsame

end FileStep

/-! ## Two files, and a roster that is rejected -/

section Example

attribute [local instance] Text.asciiTables

/-- A scored game whose home roster has skaters with some numbers. -/
def rosterGame (homeScore : Int) (numbers : List String) : GameData where
  version := "5.0"
  venue := ⟨none, none, none⟩
  tournament := none
  hostLeague := none
  home := ⟨some "Alpha", some "All Stars", none, numbers.map fun number => ⟨number, "Ann"⟩⟩
  away := ⟨some "Beta", some "All Stars", none, []⟩
  periods := []
  penalties := []
  gameSummary := none
  homeScore
  awayScore := 0

/-- A game is stored after a commit that was refused, and a placeholder is skipped. -/
def twoFileSteps : List FileStep :=
  [.upsertStatsbook 1 "f" "f.xlsx" none none 10,
    .upsertStatsbook 2 "g" "g.xlsx" none none 10,
    .storeParsedGame "f" (rosterGame 100 ["1", "2"]) (some 19400) fun n => ⟨n + 9, true⟩,
    .storeParsedGame "g" (rosterGame 0 []) none fun _ => ⟨6, false⟩]

/-- The state after these steps. -/
def twoFilesStored : Db :=
  (run FileStep.step Db.empty twoFileSteps).getD Db.empty

/-- The first file is parsed and the second skipped, and storing a roster that repeats a number
changes nothing. -/
theorem statusAgrees_twoFilesStored :
    (status? twoFilesStored "f" = some ParseStatus.parsed ∧
        status? twoFilesStored "g" = some ParseStatus.skipped) ∧
      StatusAgrees twoFilesStored ∧
      (storeCalls twoFilesStored "f" (rosterGame 90 ["1", "1"]) (some 19400) fun _ =>
        ⟨10, false⟩).1 = twoFilesStored := by
  have hrun : run FileStep.step Db.empty twoFileSteps = some twoFilesStored :=
    run_eq_some_getD rfl _
  have hagrees := FileStep.statusAgrees_of_run hrun
  exact ⟨by decide +kernel, hagrees.1, hagrees.2 _ _ _ _ (by decide +kernel)⟩

end Example

end Parse
end Statskboo
