import Statskboo.Ingest.Drain

/-!
# The drain ends

A file that fails stays in the queue and is selected again, and it may fail in one batch
and succeed in another, so the size of a batch measures nothing.  What shrinks is the set
of selectable rows: a batch that lets the loop continue takes at least one row out of it,
and nothing puts a row back.

Main results:

- Theorem {lit}`selectable_of_within`: no try makes a row selectable again.
- Theorem {lit}`exists_retired`: a batch that lets the loop continue retires a row.
- Theorem {lit}`drainPending_ends`: the number of batches is at most one more than the
  number of rows that are selectable at first.
-/

namespace Statskboo
namespace Parse

open KeyedTable

/-- The selection of the parse stage takes the row of this file. -/
def Selectable (db : Db) (f : String) : Prop :=
  ∃ row, db.statsbooks.get? f = some row ∧ needsParsing row = true

section DrainEnds

variable [Text.UnicodeTables]

/-- The files that a batch tries, in the order in which they finish. -/
def batchFiles (limit : Nat) (b : Batch) (db : Db) : List String :=
  if b.selectFails then []
  else b.order (((pendingRows db).take limit).map PendingRow.driveFileId)

/-- The tables when the first files of a batch have finished. -/
def dbWithin (b : Batch) (db : Db) (finished : Nat) : Db :=
  (parseRows b.attempt db 0 ((batchFiles parseBatchLimit b db).take finished)).1

/-- The tables after the first batches. -/
def dbAfter (batches : Nat → Batch) (db : Db) : Nat → Db
  | 0 => db
  | n + 1 => (parsePending parseBatchLimit (batches n) (dbAfter batches db n)).1

/-- A batch is neither short nor without a success. -/
def Continues (b : Batch) (db : Db) : Prop :=
  ¬((parsePending parseBatchLimit b db).2.1 < parseBatchLimit ∨
    (parsePending parseBatchLimit b db).2.2 = 0)

variable {batches : Nat → Batch} {b : Batch} {db : Db} {f : String}

/-! ## One batch -/

omit [Text.UnicodeTables] in
theorem selectable_iff : Selectable db f ↔ (pendingTime db f).isSome = true := by
  unfold Selectable pendingTime
  constructor
  · rintro ⟨row, hrow, hneeds⟩
    rw [hrow, Option.bind_some, if_pos hneeds]
    rfl
  · intro h
    cases hrow : db.statsbooks.get? f with
    | none => simp [hrow] at h
    | some row =>
        rw [hrow, Option.bind_some] at h
        split_ifs at h with hneeds
        · exact ⟨row, rfl, hneeds⟩
        · cases h

omit [Text.UnicodeTables] in
theorem selectable_iff_exists_pendingRow :
    Selectable db f ↔ ∃ r ∈ pendingRows db, r.driveFileId = f := by
  rw [selectable_iff, Option.isSome_iff_exists]
  constructor
  · rintro ⟨time, htime⟩
    exact ⟨toLex (time, f), mem_pendingRows.mpr htime, rfl⟩
  · rintro ⟨r, hr, rfl⟩
    exact ⟨_, mem_pendingRows.mp hr⟩

omit [Text.UnicodeTables] in
theorem nodup_batchFiles (limit : Nat) : (batchFiles limit b db).Nodup := by
  unfold batchFiles
  split_ifs
  · exact List.nodup_nil
  · rw [(b.perm _).nodup_iff, List.map_take]
    exact nodup_driveFileId.sublist (List.take_sublist _ _)

omit [Text.UnicodeTables] in
theorem selectable_of_mem_batchFiles {limit : Nat} (h : f ∈ batchFiles limit b db) :
    Selectable db f := by
  unfold batchFiles at h
  split_ifs at h
  · cases h
  · obtain ⟨r, hr, hfile⟩ := List.mem_map.mp ((b.perm _).mem_iff.mp h)
    exact selectable_iff_exists_pendingRow.mpr ⟨r, List.mem_of_mem_take hr, hfile⟩

/-- What is selectable within a batch: all but the files that finished with a success. -/
theorem selectable_dbWithin (finished : Nat) :
    Selectable (dbWithin b db finished) f ↔
      Selectable db f ∧ ¬(f ∈ (batchFiles parseBatchLimit b db).take finished ∧
        (b.attempt f).succeeds f = true) := by
  have hpending : ∀ g ∈ (batchFiles parseBatchLimit b db).take finished,
      (pendingTime db g).isSome = true := fun g hg =>
    selectable_iff.mp (selectable_of_mem_batchFiles (List.mem_of_mem_take hg))
  have hgood : ∀ g, (b.attempt g).succeeds g = (b.attempt g).succeeds g := fun _ => rfl
  have hspec := (parseRows_spec hgood
    ((nodup_batchFiles parseBatchLimit).sublist (List.take_sublist _ _)) hpending 0).2 f
  rw [selectable_iff, selectable_iff]
  unfold dbWithin
  rw [hspec]
  split_ifs with hdone
  · simp [hdone]
  · simp [hdone]

/-- No try makes a row selectable again. -/
theorem selectable_of_within {finished : Nat}
    (h : Selectable (dbWithin b db (finished + 1)) f) : Selectable (dbWithin b db finished) f := by
  rw [selectable_dbWithin] at h ⊢
  refine ⟨h.1, fun hdone => h.2 ⟨?_, hdone.2⟩⟩
  exact (List.take_subset_take_left _ (Nat.le_succ finished)) hdone.1

/-- A batch does nothing but its tries. -/
theorem parsePending_eq_dbWithin :
    (parsePending parseBatchLimit b db).1 =
      dbWithin b db (batchFiles parseBatchLimit b db).length := by
  unfold dbWithin parsePending
  rw [List.take_length]
  unfold batchFiles
  split_ifs <;> rfl

/-- No batch makes a row selectable again. -/
theorem selectable_of_parsePending (h : Selectable (parsePending parseBatchLimit b db).1 f) :
    Selectable db f := by
  rw [parsePending_eq_dbWithin, selectable_dbWithin] at h
  exact h.1

theorem selectFails_eq_false (h : Continues b db) : b.selectFails = false := by
  by_contra hfails
  refine h (Or.inl ?_)
  unfold parsePending
  rw [if_pos (Bool.eq_true_of_not_eq_false hfails)]
  exact Nat.succ_pos 499

/-- A batch that lets the loop continue shortens the queue. -/
theorem length_pendingRows_lt (h : Continues b db) :
    (pendingRows (parsePending parseBatchLimit b db).1).length < (pendingRows db).length := by
  obtain ⟨hrows, hcounts⟩ :=
    parsePending_spec parseBatchLimit (selectFails_eq_false h) fun _ => rfl
  rw [hrows]
  apply BatchDrain.length_batch_lt
  rw [BatchDrain.stops, Bool.or_eq_false_iff, decide_eq_false_iff_not, decide_eq_false_iff_not,
    ← not_or]
  unfold Continues at h
  rwa [hcounts] at h

/-- A batch that lets the loop continue takes a row out of the queue. -/
theorem exists_retired (h : Continues b db) :
    ∃ f, Selectable db f ∧ ¬Selectable (parsePending parseBatchLimit b db).1 f := by
  by_contra hnone
  push Not at hnone
  have hsub : pendingRows db ⊆ pendingRows (parsePending parseBatchLimit b db).1 := by
    obtain ⟨hrows, -⟩ :=
      parsePending_spec parseBatchLimit (selectFails_eq_false h) fun _ => rfl
    intro r hr
    obtain ⟨r', hr', hfile⟩ := selectable_iff_exists_pendingRow.mp
      (hnone r.driveFileId (selectable_iff_exists_pendingRow.mpr ⟨r, hr, rfl⟩))
    have hold : r' ∈ pendingRows db := by
      rw [hrows] at hr'
      exact (BatchDrain.batch_sublist _ _).subset hr'
    exact List.inj_on_of_nodup_map nodup_driveFileId hold hr hfile ▸ hr'
  have hlength := ((pairwise_pendingRows db).nodup.subperm hsub).length_le
  exact absurd (length_pendingRows_lt h) (not_lt.mpr hlength)

/-! ## The loop -/

/-- A row that has left the queue stays out of it. -/
theorem selectable_of_le {n m : Nat} (hnm : n ≤ m)
    (h : Selectable (dbAfter batches db m) f) : Selectable (dbAfter batches db n) f := by
  induction m, hnm using Nat.le_induction with
  | base => exact h
  | succ m hnm ih => exact ih (selectable_of_parsePending h)

/-- With enough fuel the loop ends after the first batch that does not let it continue. -/
theorem drainLoop_ends (batches : Nat → Batch) (db : Db) (n : Nat) (cache : Web.Cache)
    (succeeded : Nat) :
    ∃ k ≤ (pendingRows (dbAfter batches db n)).length, ∃ cache' succeeded',
      (∀ i < k, Continues (batches (n + i)) (dbAfter batches db (n + i))) ∧
      ¬Continues (batches (n + k)) (dbAfter batches db (n + k)) ∧
      ∀ fuel, drainLoop batches (k + 1 + fuel) n (dbAfter batches db n) cache succeeded =
        some (dbAfter batches db (n + k + 1), cache', succeeded') := by
  -- the induction is on the number of rows that are still selectable
  induction hlength : (pendingRows (dbAfter batches db n)).length using Nat.strong_induction_on
    generalizing n cache succeeded with
  | _ length ih =>
      set step := parsePending parseBatchLimit (batches n) (dbAfter batches db n) with hstep
      by_cases hmore : Continues (batches n) (dbAfter batches db n)
      · have hshorter : (pendingRows (dbAfter batches db (n + 1))).length < length := by
          rw [← hlength]
          exact length_pendingRows_lt hmore
        obtain ⟨k, hk, cache', succeeded', hbefore, hlast, hloop⟩ :=
          ih _ hshorter (n + 1) (if 0 < step.2.2 then cache.clear else cache)
            (succeeded + step.2.2) rfl
        have hshift : ∀ i, n + 1 + i = n + (i + 1) := fun i => by omega
        refine ⟨k + 1, by omega, cache', succeeded', ?_, ?_, fun fuel => ?_⟩
        · intro i hi
          cases i with
          | zero => exact hmore
          | succ i =>
              rw [← hshift]
              exact hbefore i (by omega)
        · rw [← hshift]
          exact hlast
        · have hfuel : k + 1 + 1 + fuel = (k + 1 + fuel) + 1 := by omega
          have hindex : n + 1 + k + 1 = n + (k + 1) + 1 := by omega
          rw [hindex] at hloop
          rw [hfuel, drainLoop]
          exact (if_neg hmore).trans (hloop fuel)
      · refine ⟨0, Nat.zero_le _, if 0 < step.2.2 then cache.clear else cache,
          succeeded + step.2.2, fun i hi => absurd hi (Nat.not_lt_zero i), hmore, fun fuel => ?_⟩
        have hfuel : 0 + 1 + fuel = fuel + 1 := by omega
        rw [hfuel, drainLoop]
        exact if_pos (not_not.mp hmore)

/-- However the tries of the batches go, the drain ends: with at most one batch more than
there are selectable rows at first, since a batch that lets it continue takes a row out
of the queue for good, and no try and no batch puts one back. -/
theorem drainPending_ends (batches : Nat → Batch) (db : Db) (cache : Web.Cache) :
    (∃ k < (pendingRows db).length + 1, ∃ cache' succeeded,
      (∀ n < k, Continues (batches n) (dbAfter batches db n)) ∧
      ¬Continues (batches k) (dbAfter batches db k) ∧
      (∀ fuel, drainLoop batches (k + 1 + fuel) 0 db cache 0 =
        some (dbAfter batches db (k + 1), cache', succeeded)) ∧
      drainPending batches db cache = some (dbAfter batches db (k + 1), cache', succeeded)) ∧
    (∀ n, Continues (batches n) (dbAfter batches db n) →
      ∃ f, Selectable (dbAfter batches db n) f ∧
        ∀ m, n < m → ¬Selectable (dbAfter batches db m) f) ∧
    ∀ n f, (∀ m, n ≤ m → Selectable (dbAfter batches db m) f →
        Selectable (dbAfter batches db n) f) ∧
      ∀ finished, Selectable (dbWithin (batches n) (dbAfter batches db n) (finished + 1)) f →
        Selectable (dbWithin (batches n) (dbAfter batches db n) finished) f := by
  refine ⟨?_, fun n hmore => ?_, fun n f => ⟨fun m hnm => selectable_of_le hnm,
    fun finished => selectable_of_within⟩⟩
  · obtain ⟨k, hk, cache', succeeded, hbefore, hlast, hloop⟩ :=
      drainLoop_ends batches db 0 cache 0
    simp only [Nat.zero_add] at hbefore hlast hloop
    refine ⟨k, Nat.lt_succ_of_le hk, cache', succeeded, hbefore, hlast, hloop, ?_⟩
    obtain ⟨fuel, hfuel⟩ := Nat.exists_eq_add_of_le (Nat.succ_le_succ hk)
    unfold drainPending
    change (pendingRows db).length + 1 = k + 1 + fuel at hfuel
    rw [hfuel]
    exact hloop fuel
  · obtain ⟨f, hf, hretired⟩ := exists_retired hmore
    exact ⟨f, hf, fun m hm h => hretired (selectable_of_le hm h)⟩

end DrainEnds

end Parse
end Statskboo
