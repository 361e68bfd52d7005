import Statskboo.Db.Schema

/-!
# The statsbook index

The index stage upserts one row per file of the Drive listing and deletes the rows
of files that have vanished, together with everything that references them.

Main results:

- Theorems {lit}`consistent_upsertStatsbook` and {lit}`consistent_markRemoved`: both
  steps keep the foreign keys.
- Theorems {lit}`modifiedTime_upsertStatsbook` and {lit}`modifiedTime_markRemoved`: the
  modification times after each step.
-/

namespace Statskboo
namespace Index

open KeyedTable

/-- Insert a listed file as pending, or update its row: a new or re-uploaded file needs
parsing, an unchanged one keeps what the parser stage recorded. -/
def upsertStatsbook (db : Db) (now : Int) (driveFileId name : String)
    (quarter mimeType : Option String) (modifiedTime : Int) : Db :=
  let row : DriveFile :=
    match db.statsbooks.get? driveFileId with
    | none =>
        { name, quarter, mimeType, modifiedTime := some modifiedTime, firstSeen := now,
          lastSeen := now, parseStatus := ParseStatus.pending, parseError := none,
          parserVersion := none }
    | some old =>
        { old with
          name, quarter, mimeType
          modifiedTime := some modifiedTime
          lastSeen := now
          parseStatus :=
            if old.modifiedTime ≠ some modifiedTime then ParseStatus.pending else old.parseStatus
          parserVersion :=
            if old.modifiedTime ≠ some modifiedTime then none else old.parserVersion }
  { db with statsbooks := db.statsbooks.upsert driveFileId row }

/-- Delete the statsbooks last seen before a marker, and return their file ids. -/
def markRemoved (db : Db) (seenBefore : Int) : Db × List String :=
  (db.deleteStatsbooks fun _ row => decide (row.lastSeen < seenBefore),
    (db.statsbooks.filter fun _ row => decide (row.lastSeen < seenBefore)).keys)

variable {db : Db}

theorem consistent_upsertStatsbook (hdb : db.Consistent) (now : Int) (f name : String)
    (quarter mimeType : Option String) (modifiedTime : Int) :
    (upsertStatsbook db now f name quarter mimeType modifiedTime).Consistent := by
  have hhas : ∀ f', db.statsbooks.has f' = true →
      (upsertStatsbook db now f name quarter mimeType modifiedTime).statsbooks.has f' = true := by
    intro f' h
    obtain ⟨row, hrow⟩ := Table.has_iff.mp h
    unfold upsertStatsbook
    rw [Table.has, Table.get?_upsert]
    split_ifs
    · rfl
    · rw [hrow]
      rfl
  exact ⟨fun f' row h => hhas f' (hdb.games f' row h),
    fun f' s row h => hhas f' (hdb.sides f' s row h),
    fun f' row h => hhas f' (hdb.matches_ f' row h)⟩

theorem consistent_markRemoved (hdb : db.Consistent) (seenBefore : Int) :
    (markRemoved db seenBefore).1.Consistent :=
  hdb.deleteStatsbooks _

/-- The listed file gets the listed modification time; the others keep theirs. -/
theorem modifiedTime_upsertStatsbook (db : Db) (now : Int) (f f' name : String)
    (quarter mimeType : Option String) (modifiedTime : Int) :
    (upsertStatsbook db now f name quarter mimeType modifiedTime).modifiedTime f' =
      if f' = f then some modifiedTime else db.modifiedTime f' := by
  unfold upsertStatsbook Db.modifiedTime
  rw [Table.get?_upsert]
  by_cases hf : f' = f
  · cases db.statsbooks.get? f <;> simp [hf]
  · simp [hf]

/-- A file that is not deleted keeps its modification time. -/
theorem modifiedTime_markRemoved {seenBefore m : Int} {f : String}
    (h : (markRemoved db seenBefore).1.modifiedTime f = some m) : db.modifiedTime f = some m := by
  unfold markRemoved Db.deleteStatsbooks Db.modifiedTime at h
  rw [Table.get?_filter] at h
  obtain ⟨row, hrow, hm⟩ := Option.bind_eq_some_iff.mp h
  rw [Db.modifiedTime, (Option.filter_eq_some_iff.mp hrow).1]
  exact hm

end Index
end Statskboo
