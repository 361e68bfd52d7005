import Mathlib.Data.Int.ConditionallyCompleteOrder
import Mathlib.Order.WithBot
import Statskboo.Ingest.ResolveFailure
import Statskboo.Lib.BatchDrain
import Statskboo.Lib.Selection
import Statskboo.Web.Cache

/-!
# Draining the parse queue

A batch of the parse stage selects the oldest statsbooks that need parsing, parses and
stores them concurrently, and records a failure on the row of each file that fails.
The Drive loop takes batches until one is short or has no success.

Main results:

- Theorem {lit}`isSome_storeParsedGame`: what a statsbook must be for the schema to
  take it.
- Theorem {lit}`parsePending_spec`: one batch, in whatever order its files finish.
- Theorem {lit}`drained_iff`: the drain leaves only failing files exactly when no file
  that would succeed stands behind a whole batch of failing ones.
-/

namespace Statskboo
namespace Parse

open KeyedTable

/-- The number of files that a batch selects at most. -/
def parseBatchLimit : Nat := 500

/-- Whether the parse stage selects a row. -/
def needsParsing (row : DriveFile) : Bool :=
  decide (row.parseStatus = ParseStatus.pending) || decide (row.parseStatus = ParseStatus.failed)
    || row.parserVersion.any fun v => decide (v < parserVersion)

/-- What a batch reads of a row, in the order of the selection: the modification time,
the unknown one first, and the file. -/
abbrev PendingRow := WithBot Int ×ₗ String

/-- The file of a selected row. -/
def PendingRow.driveFileId (r : PendingRow) : String :=
  (ofLex r).2

/-- {lit}`SELECT ... ORDER BY modified_time ASC NULLS FIRST, drive_file_id`, without its
limit. -/
def pendingRows (db : Db) : List PendingRow :=
  ((db.statsbooks.filter fun _ row => needsParsing row).rows.map fun r =>
    (toLex (r.2.modifiedTime, r.1) : PendingRow)).insertionSort (· ≤ ·)

/-- How one try at a file goes, as far as the database does not decide it: what the
cached or downloaded bytes are parsed to, the database error that the store meets, and
whether a failure can be recorded. -/
structure Attempt where
  parsed : Except String (GameData × Option Int)
  storeError : Option String
  constraintError : String
  unrecorded : Bool

/-- One batch: whether the selection fails, how each file goes, and in which order the
files finish. -/
structure Batch where
  selectFails : Bool
  attempt : String → Attempt
  order : List String → List String
  perm : ∀ fs, (order fs).Perm fs

section Drain

variable [Text.UnicodeTables]

/-- Best effort: a failure that cannot be recorded leaves the row as it is. -/
def Attempt.recordFailure (a : Attempt) (db : Db) (f error : String) : Db :=
  if a.unrecorded then db else setFailed db f error

/-- Parse and store one file, and tell whether it reached a terminal state. -/
def parseRow (db : Db) (f : String) (a : Attempt) : Db × Bool :=
  match a.parsed with
  | .error e => (a.recordFailure db f e, false)
  | .ok (game, date) =>
      match a.storeError with
      | some e => (a.recordFailure db f e, false)
      | none =>
          match storeParsedGame db f game date with
          | some (db', _) => (db', true)
          | none => (a.recordFailure db f a.constraintError, false)

/-- The files of a batch one after another, with the number of successes. -/
def parseRows (attempt : String → Attempt) (db : Db) (ok : Nat) : List String → Db × Nat
  | [] => (db, ok)
  | f :: fs =>
      let r := parseRow db f (attempt f)
      parseRows attempt r.1 (ok + r.2.toNat) fs

/-- One batch; returns how many rows it selected and how many reached a terminal
state. -/
def parsePending (limit : Nat) (b : Batch) (db : Db) : Db × Nat × Nat :=
  if b.selectFails then (db, 0, 0)
  else
    let rows := (pendingRows db).take limit
    let r := parseRows b.attempt db 0 (b.order (rows.map PendingRow.driveFileId))
    (r.1, rows.length, r.2)

/-- The batch loop from the batch with number {lit}`n` on; without fuel it has no
result. -/
def drainLoop (batches : Nat → Batch) : Nat → Nat → Db → Web.Cache → Nat →
    Option (Db × Web.Cache × Nat)
  | 0, _, _, _, _ => none
  | fuel + 1, n, db, cache, succeeded =>
      let (db, selected, ok) := parsePending parseBatchLimit (batches n) db
      let succeeded := succeeded + ok
      let cache := if 0 < ok then cache.clear else cache
      if selected < parseBatchLimit ∨ ok = 0 then some (db, cache, succeeded)
      else drainLoop batches fuel (n + 1) db cache succeeded

/-- Drain the queue: what is left of the tables and the page cache, and the number of
files that reached a terminal state. -/
def drainPending (batches : Nat → Batch) (db : Db) (cache : Web.Cache) :
    Option (Db × Web.Cache × Nat) :=
  drainLoop batches ((pendingRows db).length + 1) 0 db cache 0

end Drain

/-! ## The selection -/

variable {db db' : Db} {f f' : String}

/-- The modification time of a file that needs parsing. -/
def pendingTime (db : Db) (f : String) : Option (WithBot Int) :=
  (db.statsbooks.get? f).bind fun row => if needsParsing row then some row.modifiedTime else none

theorem mem_pendingRows {r : PendingRow} :
    r ∈ pendingRows db ↔ pendingTime db r.driveFileId = some (ofLex r).1 := by
  have hrow : ∀ f (row : DriveFile),
      (f, row) ∈ (db.statsbooks.filter fun _ row => needsParsing row).rows ↔
        db.statsbooks.get? f = some row ∧ needsParsing row = true := by
    intro f row
    rw [Table.mem_rows_iff, Table.get?_filter, Option.filter_eq_some_iff]
  unfold pendingRows pendingTime
  rw [List.mem_insertionSort, List.mem_map, Option.bind_eq_some_iff]
  constructor
  · rintro ⟨⟨f, row⟩, hmem, rfl⟩
    obtain ⟨hget, hneeds⟩ := (hrow f row).mp hmem
    exact ⟨row, hget, if_pos hneeds⟩
  · rintro ⟨row, hget, htime⟩
    split_ifs at htime with hneeds
    refine ⟨(r.driveFileId, row), (hrow _ row).mpr ⟨hget, hneeds⟩, ?_⟩
    exact congrArg (fun m => toLex (m, r.driveFileId)) (Option.some.inj htime)

theorem pairwise_pendingRows (db : Db) : (pendingRows db).Pairwise (· < ·) := by
  have hsorted : (pendingRows db).Pairwise (· ≤ ·) := List.pairwise_insertionSort _ _
  have hnodup : (pendingRows db).Nodup := by
    unfold pendingRows
    rw [(List.perm_insertionSort _ _).nodup_iff]
    refine List.Pairwise.map _ (fun a b hab heq => ?_)
      (db.statsbooks.filter fun _ row => needsParsing row).ascending
    have hkey : a.1 = b.1 := congrArg (fun r : PendingRow => (ofLex r).2) heq
    exact hab.ne hkey
  exact hsorted.imp₂ (fun _ _ hle hne => lt_of_le_of_ne hle hne) hnodup

/-! ## What the schema takes -/

/-- Roster rows are inserted unless two of them, or one of them and a stored row, have the
same key. -/
theorem isSome_insertSkaters {t : Table SkaterKey StatsbookSkater}
    {rows : List (SkaterKey × StatsbookSkater)} :
    (insertSkaters t rows).isSome = true ↔
      (rows.map Prod.fst).Nodup ∧ ∀ r ∈ rows, t.has r.1 = false := by
  induction rows generalizing t with
  | nil => simp [insertSkaters]
  | cons r rows ih =>
      obtain ⟨key, row⟩ := r
      have hhas : ∀ k, (t.upsert key row).has k = false ↔ k ≠ key ∧ t.has k = false := by
        intro k
        unfold Table.has
        rw [Table.get?_upsert]
        by_cases hk : k = key <;> simp [hk]
      rw [insertSkaters]
      by_cases hkey : t.has key = true
      · simp [hkey]
      · rw [if_neg hkey, ih]
        simp only [hhas, List.map_cons, List.nodup_cons, List.mem_map, List.mem_cons,
          forall_eq_or_imp, Bool.eq_false_iff.mpr hkey, true_and]
        constructor
        · rintro ⟨hnodup, hrows⟩
          refine ⟨⟨?_, hnodup⟩, fun r hr => (hrows r hr).2⟩
          rintro ⟨r, hr, heq⟩
          exact (hrows r hr).1 heq
        · rintro ⟨⟨hnew, hnodup⟩, hrows⟩
          exact ⟨hnodup, fun r hr => ⟨fun heq => hnew ⟨r, hr, heq⟩, hrows r hr⟩⟩

section Outcomes

variable [Text.UnicodeTables] {game : GameData} {date : Option Int}

/-- The rows of both rosters. -/
def rosterRows (f : String) (game : GameData) : List (SkaterKey × StatsbookSkater) :=
  skaterRows f .home game.home.skaters ++ skaterRows f .away game.away.skaters

/-- Whether the schema takes a parsed statsbook: a placeholder, or a dated game in which no
roster lists a number twice. -/
def storable (f : String) (game : GameData) (date : Option Int) : Bool :=
  hasNoGameData game || (date.isSome && decide ((rosterRows f game).map Prod.fst).Nodup)

theorem fst_of_mem_rosterRows {r : SkaterKey × StatsbookSkater} (h : r ∈ rosterRows f game) :
    (ofLex r.1).1 = f := by
  unfold rosterRows skaterRows at h
  rcases List.mem_append.mp h with h | h <;>
    · obtain ⟨s, -, rfl⟩ := List.mem_map.mp h
      rfl

/-- After the old rows of a file are deleted, its rosters are inserted exactly when their keys
are unique. -/
theorem isSome_insertSkaters_rosterRows :
    (insertSkaters (deleteParsedRows db f).statsbookSkaters (rosterRows f game)).isSome = true ↔
      ((rosterRows f game).map Prod.fst).Nodup := by
  have hfresh : ∀ r ∈ rosterRows f game,
      (deleteParsedRows db f).statsbookSkaters.has r.1 = false := by
    intro r hr
    unfold deleteParsedRows Table.has
    rw [Table.get?_filter, fst_of_mem_rosterRows hr]
    cases db.statsbookSkaters.get? r.1 <;> simp
  rw [isSome_insertSkaters]
  exact and_iff_left hfresh

/-- A file of the index is stored exactly when the schema takes it. -/
theorem isSome_storeParsedGame (hf : db.statsbooks.has f = true) :
    (storeParsedGame db f game date).isSome = storable f game date := by
  unfold storeParsedGame storable
  cases hempty : hasNoGameData game with
  | true => rfl
  | false =>
      cases date with
      | none => rfl
      | some d =>
          have hguard : (deleteParsedRows db f).statsbooks.has f = true := hf
          simp only [Bool.false_eq_true, if_false, Option.bind_eq_bind, Option.bind_some, hguard,
            guard_true, Option.pure_def, Option.isSome_some, Bool.true_and, Bool.false_or,
            Option.isSome_bind]
          have hrows : (insertSkaters (deleteParsedRows db f).statsbookSkaters
              (rosterRows f game)).isSome = decide ((rosterRows f game).map Prod.fst).Nodup := by
            rw [Bool.eq_iff_iff, decide_eq_true_iff]
            exact isSome_insertSkaters_rosterRows
          rw [← hrows]
          unfold rosterRows
          cases insertSkaters _ _ <;> rfl

omit [Text.UnicodeTables] in
theorem needsParsing_finished {status : ParseStatus} (hpending : status ≠ ParseStatus.pending)
    (hfailed : status ≠ ParseStatus.failed) (row : DriveFile) :
    needsParsing (finished status row) = false := by
  simp [needsParsing, finished, hpending, hfailed]

/-! ## One batch -/

/-- Whether a try at a file that is in the index ends in a terminal state. -/
def Attempt.succeeds (a : Attempt) (f : String) : Bool :=
  match a.parsed with
  | .error _ => false
  | .ok (game, date) => a.storeError.isNone && storable f game date

omit [Text.UnicodeTables] in
/-- A failure leaves its file among those that need parsing. -/
theorem pendingTime_recordFailure (a : Attempt) (error : String)
    (hf : (pendingTime db f).isSome = true) :
    pendingTime (a.recordFailure db f error) f' = pendingTime db f' := by
  unfold Attempt.recordFailure
  split_ifs
  · rfl
  unfold setFailed updateStatus pendingTime at *
  rw [Table.get?_modify]
  split_ifs with heq
  · rw [heq]
    cases hrow : db.statsbooks.get? f with
    | none => rfl
    | some row =>
        rw [hrow, Option.bind_some] at hf
        split_ifs at hf with hneeds
        · rw [Option.map_some, Option.bind_some, Option.bind_some, if_pos hneeds]
          exact if_pos rfl
        · simp at hf
  · rfl

/-- A try at a file that needs parsing: a success takes the file out of the queue, a
failure leaves it there. -/
theorem parseRow_spec (a : Attempt) (hf : (pendingTime db f).isSome = true) :
    (parseRow db f a).2 = a.succeeds f ∧
      ∀ f', pendingTime (parseRow db f a).1 f' =
        if f' = f ∧ a.succeeds f = true then none else pendingTime db f' := by
  have hhas : db.statsbooks.has f = true := by
    unfold pendingTime at hf
    unfold Table.has
    cases hrow : db.statsbooks.get? f with
    | none => simp [hrow] at hf
    | some row => rfl
  unfold parseRow Attempt.succeeds
  cases a.parsed with
  | error e => exact ⟨rfl, fun f' => by simpa using pendingTime_recordFailure a e hf⟩
  | ok parsed =>
      obtain ⟨game, date⟩ := parsed
      cases a.storeError with
      | some e => exact ⟨rfl, fun f' => by simpa using pendingTime_recordFailure a e hf⟩
      | none =>
          have hsome : (storeParsedGame db f game date).isSome = storable f game date :=
            isSome_storeParsedGame hhas
          cases hstore : storeParsedGame db f game date with
          | none =>
              have hnot : storable f game date = false := by rw [← hsome, hstore]; rfl
              simp only [hstore, hnot, Option.isNone_none, Bool.and_false, Bool.false_eq_true,
                and_false, if_false, true_and]
              exact fun f' => pendingTime_recordFailure a _ hf
          | some result =>
              have hok : storable f game date = true := by rw [← hsome, hstore]; rfl
              have hmodify := storeParsedGame_statsbooks hstore
              have hfinished := fun row => needsParsing_finished
                (outcomeStatus_ne_pending game) (outcomeStatus_ne_failed game) row
              simp only [hstore, hok, Option.isNone_none, Bool.and_true, and_true, true_and]
              intro f'
              unfold pendingTime
              rw [hmodify, Table.get?_modify]
              split_ifs with heq
              · cases db.statsbooks.get? f' <;> simp [hfinished]
              · rfl

/-- The files of a batch, each once: the successes leave the queue. -/
theorem parseRows_spec {attempt : String → Attempt} {good : String → Bool}
    (hgood : ∀ f, (attempt f).succeeds f = good f) {fs : List String} (hfs : fs.Nodup)
    (hpending : ∀ f ∈ fs, (pendingTime db f).isSome = true) (ok : Nat) :
    (parseRows attempt db ok fs).2 = ok + fs.countP good ∧
      ∀ f', pendingTime (parseRows attempt db ok fs).1 f' =
        if f' ∈ fs ∧ good f' = true then none else pendingTime db f' := by
  induction fs generalizing db ok with
  | nil => simp [parseRows]
  | cons f fs ih =>
      obtain ⟨hnew, hnodup⟩ := List.nodup_cons.mp hfs
      obtain ⟨hok, htime⟩ := parseRow_spec (attempt f) (hpending f List.mem_cons_self)
      rw [hgood] at hok htime
      have hpending' : ∀ g ∈ fs, (pendingTime (parseRow db f (attempt f)).1 g).isSome = true := by
        intro g hg
        have hne : g ≠ f := fun h => hnew (h ▸ hg)
        rw [htime, if_neg fun h => hne h.1]
        exact hpending g (List.mem_cons_of_mem f hg)
      obtain ⟨hcount, hrest⟩ := ih hnodup hpending' (ok + (parseRow db f (attempt f)).2.toNat)
      rw [parseRows]
      refine ⟨?_, fun f' => ?_⟩
      · rw [hcount, hok, List.countP_cons]
        cases good f with
        | false => simp
        | true =>
            simp only [Bool.toNat_true, if_true]
            omega
      · rw [hrest, htime]
        by_cases hf : f' = f
        · cases hg : good f <;> simp [hf, hg, hnew]
        · simp [hf]

omit [Text.UnicodeTables] in
theorem nodup_driveFileId : ((pendingRows db).map PendingRow.driveFileId).Nodup := by
  refine List.Nodup.map_on (fun r hr r' hr' heq => ?_) (pairwise_pendingRows db).nodup
  have htime := mem_pendingRows.mp hr
  rw [heq, mem_pendingRows.mp hr'] at htime
  exact ofLex.injective (Prod.ext (Option.some.inj htime).symm heq)

/-- One batch, in whatever order its files finish: of the rows it selects the successes
leave the queue. -/
theorem parsePending_spec (limit : Nat) {b : Batch} {good : String → Bool}
    (hselects : b.selectFails = false) (hgood : ∀ f, (b.attempt f).succeeds f = good f) :
    pendingRows (parsePending limit b db).1 =
        BatchDrain.batch (fun r => good r.driveFileId) limit (pendingRows db) ∧
      (parsePending limit b db).2 = (((pendingRows db).take limit).length,
        ((pendingRows db).take limit).countP fun r => good r.driveFileId) := by
  set rows := (pendingRows db).take limit with hrows
  set files := b.order (rows.map PendingRow.driveFileId) with hfiles
  have hperm : files.Perm (rows.map PendingRow.driveFileId) := b.perm _
  have hmem : ∀ r ∈ pendingRows db, (r.driveFileId ∈ files ↔ r ∈ rows) := by
    intro r hr
    rw [hperm.mem_iff, List.mem_map]
    refine ⟨?_, fun h => ⟨r, h, rfl⟩⟩
    rintro ⟨r', hr', heq⟩
    have hinj := List.inj_on_of_nodup_map nodup_driveFileId (List.mem_of_mem_take hr') hr heq
    exact hinj ▸ hr'
  have hnodup : files.Nodup := by
    rw [hperm.nodup_iff, hrows, List.map_take]
    exact nodup_driveFileId.sublist (List.take_sublist _ _)
  have hpending : ∀ f ∈ files, (pendingTime db f).isSome = true := by
    intro f hf
    obtain ⟨r, hr, rfl⟩ := List.mem_map.mp (hperm.mem_iff.mp hf)
    rw [mem_pendingRows.mp (List.mem_of_mem_take hr)]
    rfl
  obtain ⟨hcount, htime⟩ := parseRows_spec hgood hnodup hpending 0
  have hbatch : parsePending limit b db =
      ((parseRows b.attempt db 0 files).1, rows.length, (parseRows b.attempt db 0 files).2) := by
    unfold parsePending
    rw [hselects, if_neg Bool.false_ne_true]
  rw [hbatch]
  refine ⟨?_, ?_⟩
  · -- both lists are in the order of the selection, so it is enough to compare members
    have hsorted := pairwise_pendingRows db
    refine (pairwise_pendingRows _).eq_of_mem_iff
      (hsorted.sublist (BatchDrain.batch_sublist limit _)) fun r => ?_
    rw [BatchDrain.mem_batch hsorted.nodup, mem_pendingRows, mem_pendingRows, htime]
    by_cases hr : r ∈ pendingRows db
    · simp only [mem_pendingRows.mp hr, hmem r hr, ← hrows]
      by_cases hdone : r ∈ rows ∧ good r.driveFileId = true <;> simp [hdone]
    · have hno : pendingTime db r.driveFileId ≠ some (ofLex r).1 := fun h =>
        hr (mem_pendingRows.mpr h)
      split_ifs <;> simp [hno]
  · rw [hcount, hperm.countP_eq, List.countP_map, Nat.zero_add]
    rfl

/-! ## The whole drain -/

/-- Every selection of the drain succeeds, and each file always meets the same fate. -/
structure FixedOutcomes (batches : Nat → Batch) (good : String → Bool) : Prop where
  selects : ∀ n, (batches n).selectFails = false
  attempts : ∀ n f, ((batches n).attempt f).succeeds f = good f

/-- No file is left that needs parsing and would succeed. -/
def Drained (good : String → Bool) (db : Db) : Prop :=
  ∀ f row, db.statsbooks.get? f = some row → needsParsing row = true → good f = false

/-- Before every file that needs parsing and would succeed, the selection has less than a
batch of failing ones. -/
def NoneStarved (good : String → Bool) (db : Db) : Prop :=
  ∀ r ∈ pendingRows db, good r.driveFileId = true →
    (pendingRows db).countP (fun r' => !good r'.driveFileId && decide (r' < r)) < parseBatchLimit

omit [Text.UnicodeTables] in
theorem drained_iff_any {good : String → Bool} :
    Drained good db ↔ ((pendingRows db).any fun r => good r.driveFileId) = false := by
  rw [List.any_eq_false]
  constructor
  · intro h r hr
    have htime := mem_pendingRows.mp hr
    unfold pendingTime at htime
    obtain ⟨row, hrow, hsome⟩ := Option.bind_eq_some_iff.mp htime
    have hneeds : needsParsing row = true := by
      by_contra hno
      rw [if_neg hno] at hsome
      cases hsome
    rw [h _ row hrow hneeds]
    exact Bool.false_ne_true
  · intro h f row hrow hneeds
    have hmem : (toLex (row.modifiedTime, f) : PendingRow) ∈ pendingRows db := by
      refine mem_pendingRows.mpr ?_
      unfold pendingTime
      exact Option.bind_eq_some_iff.mpr ⟨row, hrow, if_pos hneeds⟩
    exact Bool.eq_false_iff.mpr (h _ hmem)

/-- The batch loop ends, and the good files that it leaves are the starved ones. -/
theorem drainLoop_spec {batches : Nat → Batch} {good : String → Bool}
    (h : FixedOutcomes batches good) {fuel : Nat} (n : Nat) (db : Db) (cache : Web.Cache)
    (succeeded : Nat) (hfuel : (pendingRows db).length < fuel) :
    ∃ result, drainLoop batches fuel n db cache succeeded = some result ∧
      ((pendingRows result.1).any fun r => good r.driveFileId) =
        BatchDrain.starved (fun r => good r.driveFileId) parseBatchLimit (pendingRows db) := by
  induction fuel generalizing n db cache succeeded with
  | zero => exact absurd hfuel (Nat.not_lt_zero _)
  | succ fuel ih =>
      obtain ⟨hrows, hcounts⟩ : pendingRows (parsePending parseBatchLimit (batches n) db).1 = _ ∧ _ :=
        parsePending_spec parseBatchLimit (h.selects n) (h.attempts n)
      obtain ⟨db', selected, ok, hbatch⟩ : ∃ db' selected ok,
          parsePending parseBatchLimit (batches n) db = (db', selected, ok) := ⟨_, _, _, rfl⟩
      rw [hbatch] at hrows hcounts
      change pendingRows db' = _ at hrows
      obtain ⟨hselected, hok⟩ := Prod.mk.inj hcounts
      have hstop : (selected < parseBatchLimit ∨ ok = 0) ↔
          BatchDrain.stops (fun r => good r.driveFileId) parseBatchLimit (pendingRows db) = true := by
        rw [hselected, hok, BatchDrain.stops, Bool.or_eq_true, decide_eq_true_iff,
          decide_eq_true_iff]
      rw [drainLoop, hbatch]
      by_cases hlast : selected < parseBatchLimit ∨ ok = 0
      · refine ⟨_, if_pos hlast, ?_⟩
        rw [hrows]
        exact BatchDrain.any_batch_of_stops (hstop.mp hlast)
      · have hmore := BatchDrain.length_batch_lt (Bool.eq_false_iff.mpr (hlast ∘ hstop.mpr))
        rw [← hrows] at hmore
        obtain ⟨result, hresult, hany⟩ := ih (n + 1) db'
          (if 0 < ok then cache.clear else cache) (succeeded + ok) (by omega)
        refine ⟨result, (if_neg hlast).trans hresult, ?_⟩
        rw [hany, hrows, BatchDrain.starved_batch le_rfl]

theorem drainPending_spec {batches : Nat → Batch} {good : String → Bool}
    (h : FixedOutcomes batches good) (db : Db) (cache : Web.Cache) :
    ∃ result, drainPending batches db cache = some result ∧
      ((pendingRows result.1).any fun r => good r.driveFileId) =
        BatchDrain.starved (fun r => good r.driveFileId) parseBatchLimit (pendingRows db) :=
  drainLoop_spec h 0 db cache 0 (Nat.lt_succ_self _)

omit [Text.UnicodeTables] in
theorem noneStarved_iff {good : String → Bool} :
    NoneStarved good db ↔
      BatchDrain.starved (fun r => good r.driveFileId) parseBatchLimit (pendingRows db) = false := by
  rw [← Bool.not_eq_true, BatchDrain.starved_iff (pairwise_pendingRows db)]
  unfold NoneStarved
  simp only [not_exists, not_and, not_le]

/-- The drain ends, and it leaves only failing files exactly when no file that would succeed
stands behind a whole batch of failing ones. -/
theorem drained_iff {batches : Nat → Batch} {good : String → Bool}
    (h : FixedOutcomes batches good) (db : Db) (cache : Web.Cache) :
    ∃ result, drainPending batches db cache = some result ∧
      (Drained good result.1 ↔ NoneStarved good db) := by
  obtain ⟨result, hresult, hany⟩ := drainPending_spec h db cache
  refine ⟨result, hresult, ?_⟩
  rw [drained_iff_any, hany, noneStarved_iff]

end Outcomes

/-! ## A full batch of failing files -/

section Example

attribute [local instance] Text.asciiTables

/-- The tables after a listing of files, each with its modification time. -/
def listedDb (files : List (String × Int)) : Db :=
  files.foldl (fun db r => Index.upsertStatsbook db 1 r.1 r.1 none none r.2) Db.empty

theorem listedDb_concat (files : List (String × Int)) (r : String × Int) :
    listedDb (files ++ [r]) = Index.upsertStatsbook (listedDb files) 1 r.1 r.1 none none r.2 := by
  unfold listedDb
  rw [List.foldl_append]
  rfl

/-- Every file of a first listing needs parsing. -/
theorem needsParsing_listedDb (files : List (String × Int)) {f : String} {row : DriveFile}
    (h : (listedDb files).statsbooks.get? f = some row) : needsParsing row = true := by
  induction files using List.reverseRecOn generalizing f row with
  | nil => cases h
  | append_singleton files r ih =>
      rw [listedDb_concat] at h
      unfold Index.upsertStatsbook at h
      rw [Table.get?_upsert] at h
      by_cases hf : f = r.1
      · rw [if_pos hf] at h
        cases hold : (listedDb files).statsbooks.get? r.1 with
        | none =>
            rw [hold] at h
            cases h
            rfl
        | some old =>
            rw [hold] at h
            cases h
            have hneeds := ih hold
            by_cases hm : old.modifiedTime = some r.2
            · simp_all [needsParsing]
            · simp_all [needsParsing]
      · rw [if_neg hf] at h
        exact ih h

theorem modifiedTime_listedDb {files : List (String × Int)} (h : (files.map Prod.fst).Nodup)
    {r : String × Int} (hr : r ∈ files) : (listedDb files).modifiedTime r.1 = some r.2 := by
  induction files using List.reverseRecOn with
  | nil => cases hr
  | append_singleton files last ih =>
      rw [List.map_append, List.nodup_append] at h
      rw [listedDb_concat, Index.modifiedTime_upsertStatsbook]
      rcases List.mem_append.mp hr with hmem | hlast
      · have hne : r.1 ≠ last.1 := h.2.2 _ (List.mem_map_of_mem hmem) _ (by simp)
        rw [if_neg hne]
        exact ih h.1 hmem
      · rw [List.mem_singleton.mp hlast, if_pos rfl]

/-- Every listed file is selected at its place. -/
theorem mem_pendingRows_listedDb {files : List (String × Int)} (h : (files.map Prod.fst).Nodup)
    {r : String × Int} (hr : r ∈ files) :
    (toLex ((r.2 : WithBot Int), r.1) : PendingRow) ∈ pendingRows (listedDb files) := by
  have hm := modifiedTime_listedDb h hr
  obtain ⟨row, hrow, hmod⟩ := Option.bind_eq_some_iff.mp hm
  refine mem_pendingRows.mpr (Option.bind_eq_some_iff.mpr ⟨row, hrow, ?_⟩)
  rw [if_pos (needsParsing_listedDb files hrow)]
  exact congrArg some hmod

/-- Every file but one is not a workbook; the files finish in the order of the selection. -/
def oneGoodBatch : Batch where
  selectFails := false
  attempt f :=
    { parsed :=
        if f = "good" then .ok (Resolve.bareGame 100 95, some 19400)
        else .error "invalid Zip archive"
      storeError := none
      constraintError := ""
      unrecorded := false }
  order := id
  perm _ := List.Perm.refl _

theorem fixedOutcomes_oneGoodBatch :
    FixedOutcomes (fun _ => oneGoodBatch) (fun f => decide (f = "good")) where
  selects _ := rfl
  attempts _ f := by
    by_cases hf : f = "good"
    · rw [hf]
      decide +kernel
    · simp [Attempt.succeeds, oneGoodBatch, hf]

/-- The file with the good workbook comes after two others. -/
def threeFiles : List (String × Int) :=
  [("good", 2), ("torn", 1), ("empty", 0)]

/-- Behind fewer failing files than a batch holds, a good one is reached. -/
theorem drained_threeFiles :
    ∃ result, drainPending (fun _ => oneGoodBatch) (listedDb threeFiles) (Web.Cache.new 0) =
        some result ∧ Drained (fun f => decide (f = "good")) result.1 := by
  obtain ⟨result, hresult, hiff⟩ :=
    drained_iff fixedOutcomes_oneGoodBatch (listedDb threeFiles) (Web.Cache.new 0)
  refine ⟨result, hresult, hiff.mpr ?_⟩
  unfold NoneStarved
  decide +kernel

/-- The name of a failing file. -/
def failingId (i : Nat) : String :=
  String.ofList (List.replicate i 'a')

theorem failingId_injective : Function.Injective failingId := by
  intro i j h
  have hlength := congrArg (fun s : String => s.toList.length) h
  simpa [failingId] using hlength

theorem failingId_ne_good (i : Nat) : failingId i ≠ "good" := by
  intro h
  have hmem : 'g' ∈ (failingId i).toList := by
    rw [h]
    decide
  rw [failingId, String.toList_ofList] at hmem
  exact absurd (List.eq_of_mem_replicate hmem) (by decide)

/-- A whole batch of failing files, and a good one that was modified after them. -/
def crowdedFiles : List (String × Int) :=
  (List.range parseBatchLimit).map (fun i => (failingId i, 0)) ++ [("good", 1)]

theorem nodup_crowdedFiles : (crowdedFiles.map Prod.fst).Nodup := by
  unfold crowdedFiles
  rw [List.map_append, List.map_map, List.nodup_append]
  refine ⟨List.nodup_range.map failingId_injective, by simp, ?_⟩
  rintro f hf f' hf' rfl
  obtain ⟨i, -, rfl⟩ := List.mem_map.mp hf
  exact failingId_ne_good i (by simpa using hf')

/-- A good file behind a whole batch of failing ones is never parsed. -/
theorem not_drained :
    ¬ ∀ (batches : Nat → Batch) (good : String → Bool) (db : Db) (cache : Web.Cache)
      (result : Db × Web.Cache × Nat), FixedOutcomes batches good →
      drainPending batches db cache = some result → Drained good result.1 := by
  intro h
  obtain ⟨result, hresult, hany⟩ :=
    drainPending_spec fixedOutcomes_oneGoodBatch (listedDb crowdedFiles) (Web.Cache.new 0)
  have hdrained := h _ _ _ _ result fixedOutcomes_oneGoodBatch hresult
  rw [drained_iff_any, hany] at hdrained
  have hnone : NoneStarved (fun f => decide (f = "good")) (listedDb crowdedFiles) :=
    noneStarved_iff.mpr hdrained
  have hgood := hnone _ (mem_pendingRows_listedDb (r := ("good", 1)) nodup_crowdedFiles
    (by simp [crowdedFiles])) rfl
  -- the failing rows all come before the good one
  set failing : List PendingRow :=
    (List.range parseBatchLimit).map fun i => toLex (((0 : Int) : WithBot Int), failingId i)
    with hfailing
  have hnodup : failing.Nodup := by
    refine List.nodup_range.map fun i j hij => failingId_injective ?_
    exact congrArg PendingRow.driveFileId hij
  have hsub : failing ⊆ (pendingRows (listedDb crowdedFiles)).filter fun r' =>
      !decide (r'.driveFileId = "good") &&
        decide (r' < (toLex (((1 : Int) : WithBot Int), "good") : PendingRow)) := by
    intro r' hr'
    obtain ⟨i, hi, rfl⟩ := List.mem_map.mp hr'
    refine List.mem_filter.mpr ⟨mem_pendingRows_listedDb (r := (failingId i, 0))
      nodup_crowdedFiles ?_, ?_⟩
    · exact List.mem_append_left _ (List.mem_map_of_mem hi)
    · have hlt : (toLex (((0 : Int) : WithBot Int), failingId i) : PendingRow) <
          toLex (((1 : Int) : WithBot Int), "good") :=
        Prod.Lex.toLex_lt_toLex.mpr (Or.inl (WithBot.coe_lt_coe.mpr Int.zero_lt_one))
      exact Bool.and_eq_true_iff.mpr
        ⟨Bool.not_eq_true' _ ▸ decide_eq_false (failingId_ne_good i), decide_eq_true hlt⟩
  have hlength := (hnodup.subperm hsub).length_le
  rw [hfailing, List.length_map, List.length_range, ← List.countP_eq_length_filter] at hlength
  exact absurd hgood (not_lt.mpr hlength)

end Example

end Parse
end Statskboo
