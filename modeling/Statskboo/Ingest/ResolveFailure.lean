import Statskboo.Ingest.Resolve
import Statskboo.Ingest.StatsbookIndex
import Statskboo.Ingest.StatsbookParse
import Statskboo.Ingest.Wftda
import Statskboo.Lib.Transaction

/-!
# A resolve pass that stops with an error

A pass issues its reads and transactions call by call.  When a call returns an
error, the pass returns it, the open transaction is rolled back and the batches
committed before stay.

Main results:

- Theorem {lit}`stateAfterError_of_length_le`: without an error the calls have the
  effect of the pass.
- Theorem {lit}`stateAfterError_eq`: an error leaves exactly the batches committed
  before it.
- Theorem {lit}`oneVisible_stateAfterError_iff`: when an error leaves at most one
  visible statsbook per game.
-/

namespace Statskboo
namespace Resolve

open Chunks KeyedTable Transaction

/-! ## The calls of a pass -/

/-- The writing statements of a pass. -/
inductive Stmt where
  | insertMatch (f : String) (row : GameMatch)
  | assignSides (f : String) (home away : Option Int)
  | hideMatch (f : String)
  | clearSides (f : String)

/-- The effect of a statement. -/
def Stmt.exec (db : Db) : Stmt → Option Db
  | insertMatch f row => db.insertMatch f row
  | assignSides f home away => db.assignSides f home away
  | hideMatch f => some (db.hideMatch f)
  | clearSides f => some (db.clearSides f)

/-- The statements that store one resolution. -/
def writeStmts (w : String × Resolution) : List Stmt :=
  [Stmt.insertMatch w.1 (matchRow w.2), Stmt.assignSides w.1 w.2.homeTeamId w.2.awayTeamId]

/-- The statements that hide one loser. -/
def hideStmts (f : String) : List Stmt :=
  [Stmt.hideMatch f, Stmt.clearSides f]

/-- The calls of the dedup step on the state it reads. -/
def dedupCalls (db : Db) : List (Call Stmt) :=
  Call.select ::
    match dedupSelect db with
    | [] => []
    | losers => transaction (losers.flatMap hideStmts)

theorem foldlM_writeStmts (db : Db) (ws : List (String × Resolution)) :
    (ws.flatMap writeStmts).foldlM Stmt.exec db = writeMatches db ws := by
  induction ws generalizing db with
  | nil => rfl
  | cons w ws ih =>
      rw [List.flatMap_cons, List.foldlM_append, writeMatches, List.foldlM_cons]
      have hw : (writeStmts w).foldlM Stmt.exec db = writeMatch db w := by
        unfold writeStmts writeMatch
        rw [List.foldlM_cons]
        refine congrArg _ (funext fun db₁ => ?_)
        rw [List.foldlM_cons]
        change (db₁.assignSides w.1 w.2.homeTeamId w.2.awayTeamId).bind some = _
        exact Option.bind_fun_some _
      rw [hw]
      exact congrArg _ (funext ih)

theorem foldlM_hideStmts (db : Db) (losers : List String) :
    (losers.flatMap hideStmts).foldlM Stmt.exec db = some (hideLosers db losers) := by
  induction losers generalizing db with
  | nil => rfl
  | cons f losers ih =>
      rw [List.flatMap_cons, List.foldlM_append]
      exact ih (hideLoser db f)

/-- An error in the dedup step leaves the state it started from. -/
theorem leftBehind_dedupCalls {db w : Db} {n : Nat} (hn : n < (dedupCalls db).length) :
    leftBehind Stmt.exec ⟨db, w⟩ ((dedupCalls db).take n) = db := by
  unfold dedupCalls at hn ⊢
  rw [leftBehind_take_select]
  cases hlosers : dedupSelect db with
  | nil => rw [List.take_nil, leftBehind_nil]
  | cons f losers =>
      rw [hlosers] at hn
      dsimp only at hn ⊢
      rw [List.length_cons, length_transaction] at hn
      rw [leftBehind_transaction Stmt.exec (foldlM_hideStmts db (f :: losers)), if_neg (by omega)]

theorem leftBehind_dedupCalls_all (db w : Db) :
    leftBehind Stmt.exec ⟨db, w⟩ (dedupCalls db) = dedupMatchedGames db := by
  unfold dedupCalls dedupMatchedGames
  rw [leftBehind_select]
  cases hlosers : dedupSelect db with
  | nil => rfl
  | cons f losers =>
      dsimp only
      rw [← List.take_length (l := transaction ((f :: losers).flatMap hideStmts)),
        leftBehind_transaction Stmt.exec (foldlM_hideStmts db (f :: losers)), length_transaction,
        if_pos le_rfl]

/-! ## One visible statsbook per game -/

/-- No two files are linked to the same game. -/
def OneVisible (db : Db) : Prop :=
  ∀ f f' g, db.matchedGame f = some g → db.matchedGame f' = some g → f = f'

/-- The rule can be checked row by row. -/
theorem OneVisible.of_rows {db : Db}
    (h : ∀ r ∈ db.gameMatches.rows, ∀ r' ∈ db.gameMatches.rows,
      r.2.wftdaGameId.isSome = true → r.2.wftdaGameId = r'.2.wftdaGameId → r.1 = r'.1) :
    OneVisible db := by
  intro f f' g hf hf'
  obtain ⟨row, hrow, hg⟩ := Option.bind_eq_some_iff.mp hf
  obtain ⟨row', hrow', hg'⟩ := Option.bind_eq_some_iff.mp hf'
  exact h (f, row) (Table.mem_rows_iff.mpr hrow) (f', row') (Table.mem_rows_iff.mpr hrow')
    (by simp [hg]) (hg.trans hg'.symm)

/-! ## A pass call by call -/

section Pass

variable [Text.UnicodeTables] [Numbers.Rounding]

/-- The statements of each write batch. -/
def stmtBatches (db : Db) : List (List Stmt) :=
  (chunks writeBatch (passWrites db)).map fun batch => batch.flatMap writeStmts

/-- The reads and the write batches. -/
def writeCalls (db : Db) : List (Call Stmt) :=
  Call.select :: Call.select :: Call.select :: (stmtBatches db).flatMap transaction

/-- The state after the write batches. -/
def written (db : Db) : Db :=
  (writeMatches db (passWrites db)).getD db

/-- All calls of a pass. -/
def passCalls (db : Db) : List (Call Stmt) :=
  writeCalls db ++ dedupCalls (written db)

/-- The state a pass leaves when its call number {lit}`n` returns an error. -/
def stateAfterError (db : Db) (n : Nat) : Db :=
  leftBehind Stmt.exec ⟨db, db⟩ ((passCalls db).take n)

/-- The number of write batches among the first {lit}`n` calls. -/
def committedBatches (db : Db) (n : Nat) : Nat :=
  commits ((writeCalls db).take n)

/-- The resolutions that are committed after the first {lit}`n` calls. -/
def committedWrites (db : Db) (n : Nat) : List (String × Resolution) :=
  (passWrites db).take (writeBatch * committedBatches db n)

variable {db : Db}

theorem foldlM_take_stmtBatches (db : Db) (k : Nat) :
    ((stmtBatches db).take k).flatten.foldlM Stmt.exec db =
      writeMatches db ((passWrites db).take (writeBatch * k)) := by
  have hflatten : ((stmtBatches db).take k).flatten =
      ((chunks writeBatch (passWrites db)).take k).flatten.flatMap writeStmts := by
    rw [stmtBatches, ← List.map_take, List.flatMap, List.map_flatten, List.flatten_flatten,
      List.map_map]
    rfl
  rw [hflatten, flatten_take_chunks (by decide), foldlM_writeStmts]

theorem writeMatches_passWrites (hdb : db.Consistent) :
    writeMatches db (passWrites db) = some (written db) := by
  obtain ⟨db₁, hwrite⟩ := passWrites_isSome hdb fun w hw => hw
  rw [written, hwrite]
  rfl

/-- What is left behind by the reads, some of the write batches and some of the dedup
step. -/
theorem stateAfterError_cases (hdb : db.Consistent) (n : Nat) :
    ∃ db₁ w, writeMatches db (committedWrites db n) = some db₁ ∧
      stateAfterError db n =
        if (writeCalls db).length ≤ n then
          leftBehind Stmt.exec ⟨written db, w⟩
            ((dedupCalls (written db)).take (n - (writeCalls db).length))
        else db₁ := by
  have hall : (stmtBatches db).flatten.foldlM Stmt.exec db = some (written db) := by
    have htake := foldlM_take_stmtBatches db (stmtBatches db).length
    rw [List.take_length] at htake
    rw [htake, ← writeMatches_passWrites hdb]
    refine congrArg _ (List.take_of_length_le ?_)
    rw [stmtBatches, List.length_map]
    exact length_le_of_chunks (by decide) (passWrites db)
  by_cases hn : 3 ≤ n
  · obtain ⟨db₁, hcommitted, w, hleft⟩ := leftBehind_transactions (w := db) Stmt.exec hall
      (n - 1 - 1 - 1)
    refine ⟨db₁, w, ?_, ?_⟩
    · rw [foldlM_take_stmtBatches] at hcommitted
      rw [committedWrites, committedBatches, writeCalls, commits_take_select,
        commits_take_select, commits_take_select]
      exact hcommitted
    · rw [stateAfterError, passCalls, writeCalls, List.cons_append, List.cons_append,
        List.cons_append, leftBehind_take_select, leftBehind_take_select,
        leftBehind_take_select, hleft]
      simp only [List.length_cons]
      have hiff : ((stmtBatches db).flatMap transaction).length ≤ n - 1 - 1 - 1 ↔
          ((stmtBatches db).flatMap transaction).length + 1 + 1 + 1 ≤ n := by omega
      have hsub : n - 1 - 1 - 1 - ((stmtBatches db).flatMap transaction).length =
          n - (((stmtBatches db).flatMap transaction).length + 1 + 1 + 1) := by omega
      simp only [hiff, hsub]
  · have htake : ∀ cs : List (Call Stmt), cs.take (n - 1 - 1 - 1) = [] := by
      intro cs
      rw [show n - 1 - 1 - 1 = 0 by omega, List.take_zero]
    refine ⟨db, db, ?_, ?_⟩
    · rw [committedWrites, committedBatches, writeCalls, commits_take_select,
        commits_take_select, commits_take_select, htake]
      rfl
    · rw [stateAfterError, passCalls, writeCalls, List.cons_append, List.cons_append,
        List.cons_append, leftBehind_take_select, leftBehind_take_select,
        leftBehind_take_select, htake, if_neg]
      · rfl
      · simp only [List.length_cons]
        omega

/-- An error leaves exactly the batches committed before it. -/
theorem stateAfterError_eq (hdb : db.Consistent) {n : Nat} (hn : n < (passCalls db).length) :
    writeMatches db (committedWrites db n) = some (stateAfterError db n) := by
  obtain ⟨db₁, w, hwrite, hleft⟩ := stateAfterError_cases hdb n
  rw [hleft]
  split_ifs with hwritten
  · -- the error is in the dedup step, after all batches
    rw [passCalls, List.length_append] at hn
    rw [leftBehind_dedupCalls (by omega), ← writeMatches_passWrites hdb]
    refine congrArg _ (List.take_of_length_le ?_)
    rw [committedBatches, List.take_of_length_le hwritten, writeCalls]
    have hcommits : ∀ cs : List (Call Stmt),
        commits (Call.select :: Call.select :: Call.select :: cs) = commits cs := by
      intro cs
      simp [commits, Call.isCommit]
    rw [hcommits, commits_flatMap_transaction, stmtBatches, List.length_map]
    exact length_le_of_chunks (by decide) (passWrites db)
  · exact hwrite

/-- Without an error the calls have the effect of the pass. -/
theorem stateAfterError_of_length_le (hdb : db.Consistent) {n : Nat}
    (hn : (passCalls db).length ≤ n) :
    ∃ stats, resolveGames db = some (stateAfterError db n, stats) := by
  obtain ⟨db₁, w, -, hleft⟩ := stateAfterError_cases hdb n
  rw [passCalls, List.length_append] at hn
  rw [if_pos (by omega), List.take_of_length_le (by omega), leftBehind_dedupCalls_all] at hleft
  rw [hleft, resolveGames_eq, writeMatches_passWrites hdb]
  exact ⟨_, rfl⟩

/-! ## What an error exposes -/

/-- Writing these resolutions links no game twice: neither two of the written files,
nor one of them and a file that keeps its old row. -/
structure ExposesNoDuplicate (db : Db) (ws : List (String × Resolution)) : Prop where
  written : ∀ w ∈ ws, ∀ w' ∈ ws, ∀ g,
    w.2.wftdaGameId = some g → w'.2.wftdaGameId = some g → w.1 = w'.1
  kept : ∀ w ∈ ws, ∀ f, f ∉ ws.map Prod.fst → ∀ g,
    w.2.wftdaGameId = some g → db.matchedGame f ≠ some g

/-- Under a written file stands its game, under the others the game that stood there. -/
theorem matchedGame_committed (hdb : db.Consistent) {n : Nat} (hn : n < (passCalls db).length) :
    (∀ w ∈ committedWrites db n, (stateAfterError db n).matchedGame w.1 = w.2.wftdaGameId) ∧
      ∀ f, f ∉ (committedWrites db n).map Prod.fst →
        (stateAfterError db n).matchedGame f = db.matchedGame f := by
  have hres : ∀ w ∈ committedWrites db n, resolutionOf db w.1 = some w.2 :=
    fun w hw => mem_passWrites.mp (List.mem_of_mem_take hw)
  have hspec := fun f => (writeMatches_spec hres (stateAfterError_eq hdb hn) f).1
  constructor
  · intro w hw
    unfold Db.matchedGame
    rw [hspec, if_pos (List.mem_map_of_mem hw), hres w hw]
    rfl
  · intro f hf
    unfold Db.matchedGame
    rw [hspec, if_neg hf]

/-- A finished pass leaves at most one visible statsbook per game. -/
theorem oneVisible_resolveGames {db' : Db} {stats : ResolveStats} (hdb : db.Consistent)
    (h : resolveGames db = some (db', stats)) : OneVisible db' := by
  obtain ⟨-, -, hmatched, -⟩ := resolveGames_spec hdb h
  intro f f' g hf hf'
  have hfirst := (hmatched f g).mp hf
  have hfirst' := (hmatched f' g).mp hf'
  exact rankKey_injective db (le_antisymm (hfirst.2 f' hfirst'.1) (hfirst'.2 f hfirst.1))

/-- From a state with at most one visible statsbook per game, a pass that stops at any
call leaves such a state exactly when it has no call left or the batches it committed
expose no duplicate. -/
theorem oneVisible_stateAfterError_iff (hdb : db.Consistent) (hone : OneVisible db) (n : Nat) :
    OneVisible (stateAfterError db n) ↔
      (passCalls db).length ≤ n ∨ ExposesNoDuplicate db (committedWrites db n) := by
  by_cases hn : n < (passCalls db).length
  · rw [or_iff_right (not_le.mpr hn)]
    obtain ⟨hwritten, hkept⟩ := matchedGame_committed hdb hn
    constructor
    · intro h
      constructor
      · intro w hw w' hw' g hg hg'
        exact h w.1 w'.1 g ((hwritten w hw).trans hg) ((hwritten w' hw').trans hg')
      · intro w hw f hf g hg hold
        have heq := h w.1 f g ((hwritten w hw).trans hg) ((hkept f hf).trans hold)
        exact hf (heq ▸ List.mem_map_of_mem hw)
    · intro h f f' g hf hf'
      -- a visible statsbook is committed by the pass or was visible before it
      have hcases : ∀ f, (stateAfterError db n).matchedGame f = some g →
          (∃ w ∈ committedWrites db n, w.1 = f ∧ w.2.wftdaGameId = some g) ∨
            f ∉ (committedWrites db n).map Prod.fst ∧ db.matchedGame f = some g := by
        intro f hf
        by_cases hmem : f ∈ (committedWrites db n).map Prod.fst
        · obtain ⟨w, hw, rfl⟩ := List.mem_map.mp hmem
          rw [hwritten w hw] at hf
          exact Or.inl ⟨w, hw, rfl, hf⟩
        · rw [hkept f hmem] at hf
          exact Or.inr ⟨hmem, hf⟩
      rcases hcases f hf with ⟨w, hw, rfl, hg⟩ | ⟨hmem, hold⟩
      · rcases hcases f' hf' with ⟨w', hw', rfl, hg'⟩ | ⟨hmem', hold'⟩
        · exact h.written w hw w' hw' g hg hg'
        · exact absurd hold' (h.kept w hw f' hmem' g hg)
      · rcases hcases f' hf' with ⟨w', hw', rfl, hg'⟩ | ⟨-, hold'⟩
        · exact absurd hold (h.kept w' hw' f hmem g hg')
        · exact hone f f' g hold hold'
  · obtain ⟨stats, hpass⟩ := stateAfterError_of_length_le hdb (not_lt.mp hn)
    exact iff_of_true (oneVisible_resolveGames hdb hpass) (Or.inl (not_lt.mp hn))

end Pass

/-! ## A pass that exposes a duplicate -/

section Example

attribute [local instance] Text.asciiTables Numbers.f64

/-- A side without a roster. -/
def bareTeam (league : String) : TeamData where
  league := some league
  team := none
  color := none
  skaters := []

/-- A statsbook of Alpha against Beta with nothing but its score. -/
def bareGame (homeScore awayScore : Int) : GameData where
  version := ""
  venue := { name := none, city := none, state := none }
  tournament := none
  hostLeague := none
  home := bareTeam "Alpha"
  away := bareTeam "Beta"
  periods := []
  penalties := []
  gameSummary := none
  homeScore := homeScore
  awayScore := awayScore

/-- The teams Alpha and Beta as WFTDA lists them. -/
def alphaBetaApiTeams : List Wftda.ApiTeam :=
  [{ id := 1, title := "Alpha", shortName := none, region := none, regionId := none,
     location := none },
    { id := 2, title := "Beta", shortName := none, region := none, regionId := none,
      location := none }]

/-- The result of their game. -/
def alphaBetaApiResults : List Wftda.ApiResult :=
  [{ id := 10, date := 19400, team1 := { id := 1, title := "Alpha", score := some 100 },
     team2 := { id := 2, title := "Beta", score := some 95 }, region := none,
     seedingGame := false }]

/-- Two uploads of the game after a pass: the newer one is visible, the other hidden. -/
def twoUploads : Db :=
  (do
    let db ← Wftda.syncTeams Db.empty alphaBetaApiTeams []
    let db ← Wftda.syncGames db alphaBetaApiResults
    let db := Index.upsertStatsbook db 1 "f" "f.xlsx" none none 20
    let (db, _) ← Parse.storeParsedGame db "f" (bareGame 100 95) (some 19400)
    let db := Index.upsertStatsbook db 1 "g" "g.xlsx" none none 10
    let (db, _) ← Parse.storeParsedGame db "g" (bareGame 100 95) (some 19400)
    let (db, _) ← resolveGames db
    return db : Option Db).getD Db.empty

theorem consistent_twoUploads : twoUploads.Consistent :=
  Db.Consistent.of_rows (by decide +kernel) (by decide +kernel) (by decide +kernel)

theorem oneVisible_twoUploads : OneVisible twoUploads :=
  OneVisible.of_rows (by decide +kernel)

/-- The next pass commits its batch and then fails to select the duplicates: both uploads
are visible. -/
theorem not_oneVisible_stateAfterError :
    ¬ ∀ (db : Db) (n : Nat), db.Consistent → OneVisible db → OneVisible (stateAfterError db n) := by
  intro h
  have hone := h twoUploads 9 consistent_twoUploads oneVisible_twoUploads
  have hf : (stateAfterError twoUploads 9).matchedGame "f" = some 10 := by decide +kernel
  have hg : (stateAfterError twoUploads 9).matchedGame "g" = some 10 := by decide +kernel
  exact absurd (hone "f" "g" 10 hf hg) (by decide)

theorem oneVisible_stateAfterError_twoUploads :
    OneVisible (stateAfterError twoUploads 9) ↔
      (passCalls twoUploads).length ≤ 9 ∨
        ExposesNoDuplicate twoUploads (committedWrites twoUploads 9) :=
  oneVisible_stateAfterError_iff consistent_twoUploads oneVisible_twoUploads 9

end Example

end Resolve
end Statskboo
