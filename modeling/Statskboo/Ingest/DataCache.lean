import Statskboo.Ingest.StatsbookIndex
import Statskboo.Lib.Run

/-!
# The raw-bytes cache of Drive downloads

The cache keeps one file per Drive file id in one directory.  A cached file is used
when it was written at or after the {lit}`modified_time` of the statsbook row.  Around
it stands Drive, whose files are replaced at increasing instants, the index stage, and
the downloads of the parse stage, all on one clock.

The rule compares with the time of the write, not with the time at which the bytes were
captured.  An edit between the two makes the captured bytes look as new as the edit.

Main results:

- Theorem {lit}`fresh_of_inTime`: cached bytes are never older than the row they stand
  for, in every run in which no edit falls between a capture and its write.
- Theorem {lit}`served_stale_of_late`: a single step that comes late is enough for the
  cache to serve older bytes.
-/

namespace Statskboo
namespace DataCache

open KeyedTable Transition

/-! ## The cache directory -/

/-- Raw bytes of a download. -/
abbrev Bytes := List UInt8

/-- A file of the cache directory. -/
structure CacheFile where
  bytes : Bytes
  mtime : Int
deriving DecidableEq, Repr

/-- The cache directory: its files under their names. -/
abbrev Dir := Table String CacheFile

/-- Whether a file id may be used as a single filename component. -/
def isSafeFileId (driveFileId : String) : Bool :=
  decide (driveFileId ≠ "") &&
    decide (driveFileId ≠ ".") &&
    decide (driveFileId ≠ "..") &&
    !(driveFileId.toList.contains (Char.ofNat 0)) &&
    !(driveFileId.toList.contains '/') &&
    !(driveFileId.toList.contains '\\')

/-- The name of the cache file of a statsbook, if its id is safe. -/
def cachePath (driveFileId : String) : Option String :=
  if isSafeFileId driveFileId then some (driveFileId ++ ".xlsx") else none

/-- Write the bytes at an instant; an unsafe id is refused. -/
def writeCached (dir : Dir) (now : Int) (driveFileId : String) (bytes : Bytes) : Option Dir :=
  (cachePath driveFileId).map fun path => dir.upsert path { bytes, mtime := now }

/-- The cached bytes, whatever their age. -/
def readCached (dir : Dir) (driveFileId : String) : Option Bytes := do
  let path ← cachePath driveFileId
  let file ← dir.get? path
  return file.bytes

/-- Remove a cache file.  A missing file is not an error, and a file that cannot be removed is
kept with a warning. -/
def removeCached (kept : String → Bool) (dir : Dir) (driveFileId : String) : Dir :=
  match cachePath driveFileId with
  | none => dir
  | some path => if kept driveFileId then dir else dir.erase path

/-- What the cache holds for one statsbook. -/
inductive CacheDecision where
  | disabled
  | miss
  | stale
  | use
deriving DecidableEq, Repr

/-- The freshness comparison; a missing {lit}`modified_time` always trusts the cache. -/
def cacheIsFresh (cacheMtime : Int) : Option Int → Bool
  | none => true
  | some modifiedTime => decide (modifiedTime ≤ cacheMtime)

/-- Whether the cached bytes may be parsed. -/
def decideCache (dir : Option Dir) (driveFileId : String) (modifiedTime : Option Int) :
    CacheDecision :=
  match dir with
  | none => .disabled
  | some dir =>
      match cachePath driveFileId with
      | none => .miss
      | some path =>
          match dir.get? path with
          | none => .miss
          | some file => if cacheIsFresh file.mtime modifiedTime then .use else .stale

/-- The cached bytes when the freshness rule says that they are usable. -/
def readCachedIfFresh (dir : Option Dir) (driveFileId : String) (modifiedTime : Option Int) :
    Option Bytes :=
  if decideCache dir driveFileId modifiedTime ≠ .use then none
  else dir.bind fun dir => readCached dir driveFileId

/-- Distinct ids have distinct cache files. -/
theorem cachePath_injective {f f' path : String} (h : cachePath f = some path)
    (h' : cachePath f' = some path) : f = f' := by
  unfold cachePath at h h'
  split_ifs at h h'
  have heq : f ++ ".xlsx" = f' ++ ".xlsx" :=
    (Option.some.inj h).trans (Option.some.inj h').symm
  exact (String.append_left_inj ".xlsx").mp heq

/-- A decision to use the cache is about a file that is no older than the row. -/
theorem decideCache_eq_use {dir : Dir} {f : String} {m : Int} :
    decideCache (some dir) f (some m) = .use ↔
      ∃ path file, cachePath f = some path ∧ dir.get? path = some file ∧ m ≤ file.mtime := by
  unfold decideCache
  cases hpath : cachePath f with
  | none => simp
  | some path =>
      cases hfile : dir.get? path with
      | none => simp [hfile]
      | some file => simp [hfile, cacheIsFresh]

/-- Bytes that are read as fresh are the cached bytes, and the decision was to use
them. -/
theorem readCachedIfFresh_eq_some {dir : Option Dir} {f : String} {m : Option Int}
    {bytes : Bytes} :
    readCachedIfFresh dir f m = some bytes ↔
      decideCache dir f m = .use ∧ ∃ d, dir = some d ∧ readCached d f = some bytes := by
  unfold readCachedIfFresh
  by_cases huse : decideCache dir f m = .use
  · simp [huse, Option.bind_eq_some_iff]
  · simp [huse]

/-- After a write the file of the id holds the new bytes and the others are unchanged. -/
theorem get?_writeCached {dir dir' : Dir} {now : Int} {f path : String} {bytes : Bytes}
    (h : writeCached dir now f bytes = some dir') :
    dir'.get? path =
      if cachePath f = some path then some { bytes, mtime := now } else dir.get? path := by
  obtain ⟨path', hpath, rfl⟩ := Option.map_eq_some_iff.mp h
  rw [Table.get?_upsert, hpath]
  simp only [Option.some.injEq, eq_comm]

/-- A removal removes the file of the id, unless it is kept, and no other. -/
theorem get?_removeCached (kept : String → Bool) (dir : Dir) (f path : String) :
    (removeCached kept dir f).get? path =
      if cachePath f = some path ∧ kept f = false then none else dir.get? path := by
  unfold removeCached
  cases hpath : cachePath f with
  | none => simp
  | some path' =>
      cases hkept : kept f with
      | true => simp
      | false =>
          simp only [Bool.false_eq_true, if_false, Table.get?_erase, Option.some.injEq, eq_comm,
            and_true]

/-- A removal of several files removes the files of the ids that are not kept, and no others. -/
theorem get?_foldl_removeCached (kept : String → Bool) (fs : List String) (dir : Dir)
    (path : String) :
    (fs.foldl (removeCached kept) dir).get? path =
      if ∃ f ∈ fs, cachePath f = some path ∧ kept f = false then none else dir.get? path := by
  induction fs generalizing dir with
  | nil => simp
  | cons f fs ih =>
      rw [List.foldl_cons, ih, get?_removeCached]
      by_cases hf : cachePath f = some path ∧ kept f = false
      · simp [hf]
      · simp [hf]

/-- What is left after a removal was there before. -/
theorem get?_of_get?_foldl_removeCached {kept : String → Bool} {fs : List String} {dir : Dir}
    {path : String} {file : CacheFile}
    (h : (fs.foldl (removeCached kept) dir).get? path = some file) :
    dir.get? path = some file := by
  rw [get?_foldl_removeCached] at h
  split_ifs at h
  exact h

/-! ## Drive -/

/-- One revision of a Drive file. -/
structure Revision where
  modifiedTime : Int
  bytes : Bytes
deriving DecidableEq, Repr

/-- A Drive file: its current revision and the ones it replaced, newest first. -/
structure History where
  current : Revision
  replaced : List Revision
  newestFirst : (current :: replaced).Pairwise fun r s => s.modifiedTime < r.modifiedTime

namespace History

/-- All revisions, newest first. -/
def revisions (h : History) : List Revision :=
  h.current :: h.replaced

/-- A file that has just been uploaded. -/
def upload (r : Revision) : History where
  current := r
  replaced := []
  newestFirst := List.pairwise_singleton _ r

/-- Replace the content of a file at a later instant. -/
def edit (h : History) (r : Revision) (hr : h.current.modifiedTime < r.modifiedTime) :
    History where
  current := r
  replaced := h.revisions
  newestFirst := by
    refine List.pairwise_cons.mpr ⟨?_, h.newestFirst⟩
    intro s hs
    rcases List.mem_cons.mp hs with rfl | hs
    · exact hr
    · exact ((List.pairwise_cons.mp h.newestFirst).1 s hs).trans hr

theorem mem_revisions_upload {r s : Revision} : s ∈ (upload r).revisions ↔ s = r := by
  simp [revisions, upload]

theorem mem_revisions_edit {h : History} {r s : Revision}
    {hr : h.current.modifiedTime < r.modifiedTime} :
    s ∈ (h.edit r hr).revisions ↔ s = r ∨ s ∈ h.revisions := by
  rw [revisions, edit, List.mem_cons]

theorem current_mem_revisions (h : History) : h.current ∈ h.revisions :=
  List.mem_cons_self

/-- No revision is newer than the current one, and none is as new. -/
theorem eq_current_of_le {h : History} {r : Revision} (hr : r ∈ h.revisions)
    (hle : h.current.modifiedTime ≤ r.modifiedTime) : r = h.current := by
  rcases List.mem_cons.mp hr with rfl | hmem
  · rfl
  · have hlt := (List.pairwise_cons.mp h.newestFirst).1 r hmem
    omega

theorem modifiedTime_le_current {h : History} {r : Revision} (hr : r ∈ h.revisions) :
    r.modifiedTime ≤ h.current.modifiedTime := by
  by_contra hlt
  rw [eq_current_of_le hr (by omega)] at hlt
  omega

end History

/-! ## The system -/

/-- Work under way: a row that the parse stage has selected, or a download that it has
still to write to the cache. -/
inductive Task where
  | selected (driveFileId : String) (modifiedTime : Option Int)
  | captured (driveFileId : String) (bytes : Bytes)
deriving DecidableEq, Repr

/-- Drive, the database, the cache directory and the work under way. -/
structure System where
  now : Int
  drive : Table String History
  db : Db
  dir : Dir
  tasks : List Task

/-- What happens at a step. -/
inductive Action where
  | edit (driveFileId : String) (bytes : Bytes)
  | index (driveFileId name : String) (quarter mimeType : Option String)
  | markRemoved (seenBefore : Int) (kept : String → Bool)
  | select (driveFileId : String)
  | download (driveFileId : String)
  | writeCached (i : Nat)

/-- A step: what happens, after some time has passed. -/
structure Label where
  pause : Nat
  action : Action

/-- Nothing has been uploaded, indexed or cached. -/
def start (now : Int) : System where
  now := now
  drive := Table.empty
  db := Db.empty
  dir := Table.empty
  tasks := []

/-- The effect of an action at the current instant; an edit needs a later instant than
the edit before it.  A failed cache write is passed over, and so is a failed removal. -/
def act (s : System) : Action → Option System
  | .edit f bytes =>
      let r : Revision := { modifiedTime := s.now, bytes }
      match s.drive.get? f with
      | none => some { s with drive := s.drive.upsert f (History.upload r) }
      | some h =>
          if hr : h.current.modifiedTime < r.modifiedTime then
            some { s with drive := s.drive.upsert f (h.edit r hr) }
          else none
  | .index f name quarter mimeType => do
      let h ← s.drive.get? f
      return { s with
        db := Index.upsertStatsbook s.db s.now f name quarter mimeType h.current.modifiedTime }
  | .markRemoved seenBefore kept =>
      let (db, doomed) := Index.markRemoved s.db seenBefore
      some { s with db, dir := doomed.foldl (removeCached kept) s.dir }
  | .select f => do
      let row ← s.db.statsbooks.get? f
      return { s with tasks := s.tasks ++ [.selected f row.modifiedTime] }
  | .download f => do
      let h ← s.drive.get? f
      return { s with tasks := s.tasks ++ [.captured f h.current.bytes] }
  | .writeCached i =>
      match s.tasks[i]? with
      | some (.captured f bytes) =>
          some { s with
            dir := (writeCached s.dir s.now f bytes).getD s.dir
            tasks := s.tasks.eraseIdx i }
      | _ => none

/-- Let the pause pass, then act. -/
def step (s : System) (l : Label) : Option System :=
  act { s with now := s.now + l.pause } l.action

/-! ## What the cache promises -/

/-- A row of the database, or one that the parse stage has selected, has this
{lit}`modified_time`. -/
def System.HasRow (s : System) (f : String) (m : Int) : Prop :=
  s.db.modifiedTime f = some m ∨ .selected f (some m) ∈ s.tasks

/-- The file has had a revision with these bytes, no older than an instant. -/
def System.HasRevision (s : System) (f : String) (bytes : Bytes) (m : Int) : Prop :=
  ∃ h, s.drive.get? f = some h ∧ ∃ r ∈ h.revisions, r.bytes = bytes ∧ m ≤ r.modifiedTime

/-- Whenever the decision is to use the cache for a row, the cached bytes are those of a
revision that is no older than the row. -/
def NeverOlder (s : System) : Prop :=
  ∀ f m, s.HasRow f m → decideCache (some s.dir) f (some m) = .use →
    ∃ bytes, readCached s.dir f = some bytes ∧ s.HasRevision f bytes m

/-- So what the parse stage reads from the cache for a row is no older than the row. -/
theorem NeverOlder.hasRevision {s : System} (h : NeverOlder s) {f : String} {m : Int}
    {bytes : Bytes} (hrow : s.HasRow f m)
    (hread : readCachedIfFresh (some s.dir) f (some m) = some bytes) : s.HasRevision f bytes m := by
  obtain ⟨huse, d, hd, hcached⟩ := readCachedIfFresh_eq_some.mp hread
  cases hd
  obtain ⟨bytes', hcached', hrevision⟩ := h f m hrow huse
  rw [hcached] at hcached'
  cases hcached'
  exact hrevision

/-- The action comes in time: bytes are written while they are still those of the current
revision, and an edit does not share its instant with an earlier write of other bytes. -/
def InTime (s : System) : Action → Prop
  | .writeCached i => ∀ f bytes path h, s.tasks[i]? = some (.captured f bytes) →
      cachePath f = some path → s.drive.get? f = some h → h.current.bytes = bytes
  | .edit f bytes => ∀ path file, cachePath f = some path → s.dir.get? path = some file →
      file.bytes ≠ bytes → file.mtime < s.now
  | _ => True

/-- The condition on a step, checked when its pause has passed. -/
def StepInTime (s : System) (l : Label) : Prop :=
  InTime { s with now := s.now + l.pause } l.action

/-! ## The invariant -/

/-- The cached bytes are those of a revision that nothing up to their write replaced. -/
def System.CachedFresh (s : System) (f : String) (file : CacheFile) : Prop :=
  ∃ h, s.drive.get? f = some h ∧ ∃ r ∈ h.revisions, r.bytes = file.bytes ∧
    ∀ r' ∈ h.revisions, r'.modifiedTime ≤ file.mtime → r'.modifiedTime ≤ r.modifiedTime

/-- Rows carry the times of revisions, and every cached file is the newest at its
write. -/
structure Inv (s : System) : Prop where
  past : ∀ f h, s.drive.get? f = some h → h.current.modifiedTime ≤ s.now
  rows : ∀ f m, s.HasRow f m →
    ∃ h, s.drive.get? f = some h ∧ ∃ r ∈ h.revisions, r.modifiedTime = m
  captured : ∀ f bytes, .captured f bytes ∈ s.tasks → ∃ h, s.drive.get? f = some h
  cached : ∀ f path file, cachePath f = some path → s.dir.get? path = some file →
    s.CachedFresh f file

variable {s s' : System}

theorem inv_start (now : Int) : Inv (start now) where
  past f h hh := by cases hh
  rows f m hrow := by
    rcases hrow with hrow | hrow
    · cases hrow
    · cases hrow
  captured f bytes hmem := by cases hmem
  cached f path file _ hfile := by cases hfile

/-- Time passes. -/
theorem inv_pause (h : Inv s) (pause : Nat) : Inv { s with now := s.now + pause } where
  past f hist hhist := by
    have hle := h.past f hist hhist
    dsimp only
    omega
  rows := h.rows
  captured := h.captured
  cached := h.cached

/-- The cached files are never older than the rows. -/
theorem neverOlder_of_inv (h : Inv s) : NeverOlder s := by
  intro f m hrow huse
  obtain ⟨path, file, hpath, hfile, hle⟩ := decideCache_eq_use.mp huse
  refine ⟨file.bytes, by simp [readCached, hpath, hfile], ?_⟩
  obtain ⟨hist, hhist, r, hr, hbytes, hnewest⟩ := h.cached f path file hpath hfile
  obtain ⟨hist', hhist', r', hr', rfl⟩ := h.rows f m hrow
  rw [hhist] at hhist'
  cases hhist'
  exact ⟨hist, hhist, r, hr, hbytes, hnewest r' hr' hle⟩

/-! ## What each action preserves -/

section Actions

variable {f name : String} {bytes : Bytes} {i : Nat} {hist hist' : History}

/-- A step that replaces the history of one file by one that adds a revision of the
present instant. -/
theorem inv_edit (h : Inv s) (hcurrent : hist'.current = { modifiedTime := s.now, bytes })
    (hold : ∀ hist, s.drive.get? f = some hist → ∀ r ∈ hist.revisions, r ∈ hist'.revisions)
    (hnew : ∀ r ∈ hist'.revisions, r.modifiedTime = s.now ∨
      ∃ hist, s.drive.get? f = some hist ∧ r ∈ hist.revisions)
    (htime : InTime s (.edit f bytes)) :
    Inv { s with drive := s.drive.upsert f hist' } where
  past f' hist hhist := by
    rw [Table.get?_upsert] at hhist
    split_ifs at hhist with hf
    · cases hhist
      rw [hcurrent]
    · exact h.past f' hist hhist
  rows f' m hrow := by
    obtain ⟨hist, hhist, r, hr, hm⟩ := h.rows f' m hrow
    by_cases hf : f' = f
    · subst hf
      exact ⟨hist', Table.get?_upsert_self .., r, hold hist hhist r hr, hm⟩
    · exact ⟨hist, (Table.get?_upsert_of_ne _ _ hf).trans hhist, r, hr, hm⟩
  captured f' bytes' hmem := by
    obtain ⟨hist, hhist⟩ := h.captured f' bytes' hmem
    by_cases hf : f' = f
    · exact ⟨hist', hf ▸ Table.get?_upsert_self ..⟩
    · exact ⟨hist, (Table.get?_upsert_of_ne _ _ hf).trans hhist⟩
  cached f' path file hpath hfile := by
    obtain ⟨hist, hhist, r, hr, hbytes, hnewest⟩ := h.cached f' path file hpath hfile
    by_cases hf : f' = f
    · subst hf
      by_cases hsame : file.bytes = bytes
      · refine ⟨hist', Table.get?_upsert_self .., hist'.current,
          hist'.current_mem_revisions, ?_, fun _ hr' _ => History.modifiedTime_le_current hr'⟩
        rw [hcurrent, hsame]
      · refine ⟨hist', Table.get?_upsert_self .., r, hold hist hhist r hr, hbytes, ?_⟩
        intro r' hr' hle
        rcases hnew r' hr' with hnow | ⟨hist₁, hhist₁, hmem⟩
        · have hlt := htime path file hpath hfile hsame
          omega
        · rw [hhist] at hhist₁
          cases hhist₁
          exact hnewest r' hmem hle
    · exact ⟨hist, (Table.get?_upsert_of_ne _ _ hf).trans hhist, r, hr, hbytes, hnewest⟩

/-- A step that changes rows, tasks or the directory, but not Drive. -/
theorem inv_of_same_drive (h : Inv s) (hdrive : s'.drive = s.drive) (hnow : s'.now = s.now)
    (hrows : ∀ f m, s'.HasRow f m → s.HasRow f m ∨
      ∃ hist, s.drive.get? f = some hist ∧ hist.current.modifiedTime = m)
    (hcaptured : ∀ f bytes, .captured f bytes ∈ s'.tasks → .captured f bytes ∈ s.tasks ∨
      ∃ hist, s.drive.get? f = some hist)
    (hcached : ∀ f path file, cachePath f = some path → s'.dir.get? path = some file →
      s.dir.get? path = some file ∨ s.CachedFresh f file) : Inv s' where
  past f hist hhist := by
    rw [hdrive] at hhist
    rw [hnow]
    exact h.past f hist hhist
  rows f m hrow := by
    rw [hdrive]
    rcases hrows f m hrow with hrow | ⟨hist, hhist, hm⟩
    · exact h.rows f m hrow
    · exact ⟨hist, hhist, hist.current, hist.current_mem_revisions, hm⟩
  captured f bytes hmem := by
    rw [hdrive]
    rcases hcaptured f bytes hmem with hmem | hhist
    · exact h.captured f bytes hmem
    · exact hhist
  cached f path file hpath hfile := by
    have hfresh : s.CachedFresh f file := by
      rcases hcached f path file hpath hfile with hfile | hfresh
      · exact h.cached f path file hpath hfile
      · exact hfresh
    unfold System.CachedFresh
    rw [hdrive]
    exact hfresh

/-- Bytes of the current revision that are written now are the newest at their write. -/
theorem cachedFresh_of_current (hhist : s.drive.get? f = some hist)
    (hbytes : hist.current.bytes = bytes) :
    s.CachedFresh f { bytes, mtime := s.now } :=
  ⟨hist, hhist, hist.current, hist.current_mem_revisions, hbytes,
    fun _ hr _ => History.modifiedTime_le_current hr⟩

theorem inv_writeCached (h : Inv s) (htask : s.tasks[i]? = some (.captured f bytes))
    (htime : InTime s (.writeCached i)) :
    Inv { s with
      dir := (writeCached s.dir s.now f bytes).getD s.dir
      tasks := s.tasks.eraseIdx i } := by
  refine inv_of_same_drive h rfl rfl ?_ ?_ ?_
  · intro f' m hrow
    left
    rcases hrow with hrow | hrow
    · exact Or.inl hrow
    · exact Or.inr (List.mem_of_mem_eraseIdx hrow)
  · intro f' bytes' hmem
    exact Or.inl (List.mem_of_mem_eraseIdx hmem)
  · intro f' path file hpath hfile
    cases hwrite : writeCached s.dir s.now f bytes with
    | none =>
        left
        simpa [hwrite] using hfile
    | some dir =>
        simp only [hwrite, Option.getD_some, get?_writeCached hwrite] at hfile
        split_ifs at hfile with hf
        · right
          cases hfile
          have heq := cachePath_injective hf hpath
          subst heq
          obtain ⟨hist, hhist⟩ := h.captured f bytes (List.mem_of_getElem? htask)
          exact cachedFresh_of_current hhist (htime f bytes path hist htask hf hhist)
        · exact Or.inl hfile

/-- An edit adds a revision of the present instant. -/
theorem inv_act_edit (h : Inv s) (htime : InTime s (.edit f bytes))
    (hact : act s (.edit f bytes) = some s') : Inv s' := by
  simp only [act] at hact
  cases hhist : s.drive.get? f with
  | none =>
      rw [hhist] at hact
      cases hact
      refine inv_edit h rfl ?_ ?_ htime
      · intro hist hhist'
        rw [hhist] at hhist'
        cases hhist'
      · intro r hr
        rw [History.mem_revisions_upload.mp hr]
        exact Or.inl rfl
  | some hist =>
      simp only [hhist] at hact
      split_ifs at hact with hlater
      cases hact
      refine inv_edit h rfl ?_ ?_ htime
      · intro hist₁ hhist₁ r hr
        rw [hhist] at hhist₁
        cases hhist₁
        exact History.mem_revisions_edit.mpr (Or.inr hr)
      · intro r hr
        rcases History.mem_revisions_edit.mp hr with rfl | hr
        · exact Or.inl rfl
        · exact Or.inr ⟨hist, hhist, hr⟩

/-- The index stage copies the time of the current revision into the row. -/
theorem inv_act_index (h : Inv s) {quarter mimeType : Option String}
    (hact : act s (.index f name quarter mimeType) = some s') : Inv s' := by
  obtain ⟨hist, hhist, hdone⟩ := Option.bind_eq_some_iff.mp hact
  cases hdone
  refine inv_of_same_drive h rfl rfl ?_ (fun _ _ => Or.inl) (fun _ _ _ _ => Or.inl)
  intro f' m hrow
  rcases hrow with hrow | hrow
  · rw [Index.modifiedTime_upsertStatsbook] at hrow
    split_ifs at hrow with hf
    · right
      exact ⟨hist, hf ▸ hhist, Option.some.inj hrow⟩
    · exact Or.inl (Or.inl hrow)
  · exact Or.inl (Or.inr hrow)

/-- A file that has vanished loses its row, and its cached bytes unless they cannot be removed. -/
theorem inv_act_markRemoved (h : Inv s) {seenBefore : Int} {kept : String → Bool}
    (hact : act s (.markRemoved seenBefore kept) = some s') : Inv s' := by
  cases hact
  refine inv_of_same_drive h rfl rfl ?_ (fun _ _ => Or.inl) ?_
  · intro f m hrow
    left
    rcases hrow with hrow | hrow
    · exact Or.inl (Index.modifiedTime_markRemoved hrow)
    · exact Or.inr hrow
  · intro f path file _ hfile
    exact Or.inl (get?_of_get?_foldl_removeCached hfile)

/-- The parse stage selects a row as it is stored. -/
theorem inv_act_select (h : Inv s) (hact : act s (.select f) = some s') : Inv s' := by
  obtain ⟨row, hrow, hdone⟩ := Option.bind_eq_some_iff.mp hact
  cases hdone
  refine inv_of_same_drive h rfl rfl ?_ ?_ (fun _ _ _ _ => Or.inl)
  · intro f' m hrow'
    left
    rcases hrow' with hrow' | hmem
    · exact Or.inl hrow'
    · rcases List.mem_append.mp hmem with hmem | hmem
      · exact Or.inr hmem
      · obtain ⟨rfl, hm⟩ : f' = f ∧ some m = row.modifiedTime := by simpa using hmem
        left
        rw [Db.modifiedTime, hrow]
        exact hm.symm
  · intro f' bytes hmem
    left
    simpa using hmem

/-- A download captures a file that is on Drive. -/
theorem inv_act_download (h : Inv s) (hact : act s (.download f) = some s') : Inv s' := by
  obtain ⟨hist, hhist, hdone⟩ := Option.bind_eq_some_iff.mp hact
  cases hdone
  refine inv_of_same_drive h rfl rfl ?_ ?_ (fun _ _ _ _ => Or.inl)
  · intro f' m hrow
    left
    rcases hrow with hrow | hmem
    · exact Or.inl hrow
    · right
      simpa using hmem
  · intro f' bytes hmem
    rcases List.mem_append.mp hmem with hmem | hmem
    · exact Or.inl hmem
    · obtain ⟨rfl, -⟩ : f' = f ∧ bytes = hist.current.bytes := by simpa using hmem
      exact Or.inr ⟨hist, hhist⟩

/-- Every action that comes in time keeps the invariant. -/
theorem inv_act (h : Inv s) (a : Action) (htime : InTime s a) (hact : act s a = some s') :
    Inv s' := by
  cases a with
  | edit f bytes => exact inv_act_edit h htime hact
  | index f name quarter mimeType => exact inv_act_index h hact
  | markRemoved seenBefore kept => exact inv_act_markRemoved h hact
  | select f => exact inv_act_select h hact
  | download f => exact inv_act_download h hact
  | writeCached i =>
      simp only [act] at hact
      split at hact
      · rename_i f bytes htask
        cases hact
        exact inv_writeCached h htask htime
      · cases hact

end Actions

/-! ## Every run -/

/-- Every step that comes in time keeps the invariant. -/
theorem inv_step (s : System) (l : Label) (s' : System) (h : Inv s) (htime : StepInTime s l)
    (hstep : step s l = some s') : Inv s' :=
  inv_act (inv_pause h l.pause) l.action htime hstep

/-- In every run whose steps all come in time, cached bytes that a row may use are never
older than the row. -/
theorem fresh_of_inTime {now : Int} {labels : List Label}
    (htime : EveryStep step StepInTime (start now) labels)
    (hrun : run step (start now) labels = some s) : NeverOlder s :=
  neverOlder_of_inv (run_invariant_of_everyStep inv_step (inv_start now) htime hrun)

/-! ## A step that comes late -/

/-- Other bytes that were cached at or after the current revision are served for it as soon
as the index stage records it. -/
theorem served_stale_after_index {f path : String} {file : CacheFile} {hist : History}
    (hpath : cachePath f = some path) (hfile : s.dir.get? path = some file)
    (hhist : s.drive.get? f = some hist) (hle : hist.current.modifiedTime ≤ file.mtime)
    (hbytes : hist.current.bytes ≠ file.bytes) (name : String) :
    ∃ t, step s ⟨0, .index f name none none⟩ = some t ∧ ¬ NeverOlder t := by
  refine ⟨_, by simp [step, act, hhist]; rfl, ?_⟩
  intro hnever
  obtain ⟨bytes, hread, hist', hhist', r, hr, hrbytes, hrle⟩ :=
    hnever f hist.current.modifiedTime
      (Or.inl (by simp [Index.modifiedTime_upsertStatsbook]))
      (decideCache_eq_use.mpr ⟨path, file, hpath, hfile, hle⟩)
  have hcached : file.bytes = bytes := by simpa [readCached, hpath, hfile] using hread
  have hsame : hist = hist' := Option.some.inj (hhist.symm.trans hhist')
  subst hsame
  rw [History.eq_current_of_le hr hrle] at hrbytes
  exact hbytes (hrbytes.trans hcached.symm)

/-- After an edit the current revision is the new one, and the directory is as before. -/
theorem act_edit_spec {f : String} {bytes : Bytes} (hact : act s (.edit f bytes) = some s') :
    ∃ hist, s'.drive.get? f = some hist ∧ s'.dir = s.dir ∧
      hist.current = { modifiedTime := s.now, bytes } := by
  simp only [act] at hact
  cases hhist : s.drive.get? f with
  | none =>
      rw [hhist] at hact
      cases hact
      exact ⟨_, Table.get?_upsert_self .., rfl, rfl⟩
  | some hist =>
      simp only [hhist] at hact
      split_ifs at hact
      cases hact
      exact ⟨_, Table.get?_upsert_self .., rfl, rfl⟩

/-- A single step that comes late is enough: the next time the file is indexed, the cache
serves older bytes for its row. -/
theorem served_stale_of_late (h : Inv s) {l : Label} (hlate : ¬ StepInTime s l)
    (hstep : step s l = some s') :
    ∃ l' t, step s' l' = some t ∧ ¬ NeverOlder t := by
  unfold StepInTime at hlate
  unfold step at hstep
  have hpause := inv_pause h l.pause
  generalize { s with now := s.now + l.pause } = s₁ at hlate hstep hpause
  cases hl : l.action with
  | edit f bytes =>
      rw [hl] at hlate hstep
      simp only [InTime, not_forall] at hlate
      obtain ⟨path, file, hpath, hfile, hbytes, hle⟩ := hlate
      obtain ⟨hist', hhist', hdir, hcurrent⟩ := act_edit_spec hstep
      rw [← hdir] at hfile
      have hle' : hist'.current.modifiedTime ≤ file.mtime := by
        rw [hcurrent]
        exact not_lt.mp hle
      have hbytes' : hist'.current.bytes ≠ file.bytes := by
        rw [hcurrent]
        exact Ne.symm hbytes
      obtain ⟨t, ht, hnot⟩ := served_stale_after_index hpath hfile hhist' hle' hbytes' f
      exact ⟨_, t, ht, hnot⟩
  | writeCached i =>
      rw [hl] at hlate hstep
      simp only [InTime, not_forall] at hlate
      obtain ⟨f, bytes, path, hist, htask, hpath, hhist, hbytes⟩ := hlate
      simp only [act, htask] at hstep
      cases hstep
      have hfile : ((writeCached s₁.dir s₁.now f bytes).getD s₁.dir).get? path =
          some { bytes, mtime := s₁.now } := by
        simp [writeCached, hpath]
      obtain ⟨t, ht, hnot⟩ := served_stale_after_index
        (s := { s₁ with
          dir := (writeCached s₁.dir s₁.now f bytes).getD s₁.dir
          tasks := s₁.tasks.eraseIdx i })
        hpath hfile hhist (hpause.past f hist hhist) hbytes f
      exact ⟨_, t, ht, hnot⟩
  | index | markRemoved | select | download =>
      rw [hl] at hlate
      exact absurd trivial hlate

section Example

/-- A file is uploaded and indexed, and its download is written in time. -/
def writtenInTime : List Label :=
  [⟨1, .edit "f" [1]⟩, ⟨1, .index "f" "f" none none⟩, ⟨1, .select "f"⟩, ⟨1, .download "f"⟩,
    ⟨1, .writeCached 1⟩]

/-- The same, but the file is uploaded again between the capture and the write, and its new
revision is indexed. -/
def writtenLate : List Label :=
  [⟨1, .edit "f" [1]⟩, ⟨1, .index "f" "f" none none⟩, ⟨1, .select "f"⟩, ⟨1, .download "f"⟩,
    ⟨1, .edit "f" [2]⟩, ⟨1, .writeCached 1⟩, ⟨1, .index "f" "f" none none⟩]

/-- The state after a run from the start of the clock. -/
def stateAfter (labels : List Label) : System :=
  (run step (start 0) labels).getD (start 0)

theorem run_stateAfter {labels : List Label} (h : (run step (start 0) labels).isSome = true) :
    run step (start 0) labels = some (stateAfter labels) :=
  run_eq_some_getD h _

/-- The cache serves the replaced bytes for the row of the new revision. -/
theorem not_neverOlder_of_run :
    ¬ ∀ labels s, run step (start 0) labels = some s → NeverOlder s := by
  intro hall
  have hnever := hall writtenLate _ (run_stateAfter (by decide +kernel))
  obtain ⟨bytes, hread, hist, hhist, r, hr, hrbytes, hle⟩ :=
    hnever "f" 5 (Or.inl (by decide +kernel)) (by decide +kernel)
  have hbytes : readCached (stateAfter writtenLate).dir "f" = some [1] := by decide +kernel
  have hrevisions : ((stateAfter writtenLate).drive.get? "f").map History.revisions =
      some [⟨5, [2]⟩, ⟨1, [1]⟩] := by
    decide +kernel
  rw [hread] at hbytes
  cases hbytes
  rw [hhist] at hrevisions
  rw [Option.some.inj hrevisions] at hr
  simp only [List.mem_cons, List.not_mem_nil, or_false] at hr
  rcases hr with rfl | rfl
  · cases hrbytes
  · exact absurd hle (by decide)

/-- The run that writes in time meets the condition at every step. -/
theorem everyStep_writtenInTime : EveryStep step StepInTime (start 0) writtenInTime := by
  refine ⟨fun path file _ hfile _ => (by cases hfile), fun s₁ h₁ => ?_⟩
  cases h₁
  refine ⟨trivial, fun s₂ h₂ => ?_⟩
  cases h₂
  refine ⟨trivial, fun s₃ h₃ => ?_⟩
  cases h₃
  refine ⟨trivial, fun s₄ h₄ => ?_⟩
  cases h₄
  refine ⟨?_, fun _ _ => trivial⟩
  intro f bytes path hist htask _ hhist
  cases htask
  cases hhist
  rfl

theorem neverOlder_writtenInTime :
    NeverOlder (stateAfter writtenInTime) ∧
      decideCache (some (stateAfter writtenInTime).dir) "f" (some 1) = .use :=
  ⟨fresh_of_inTime everyStep_writtenInTime (run_stateAfter (by decide +kernel)),
    by decide +kernel⟩

end Example

end DataCache
end Statskboo
