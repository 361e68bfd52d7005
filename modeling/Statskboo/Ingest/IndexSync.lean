import Statskboo.Ingest.DataCache

/-!
# The index sync

The index stage lists the quarter folders under the Drive root, upserts a row for each
listed file in a transaction of its own, and then deletes the rows last seen before the
sync began, with their cache files.  It returns early when a request, a date or a
statement fails.

Main results:

- Theorems {lit}`upsertTree_unlisted` and {lit}`upsertTree_listed`: what the upserts
  leave of each row.
- Theorem {lit}`syncStatsbookIndex_spec`: a sync that succeeds leaves the rows of the
  listing, without the cache files of the others that can be removed; one that fails removes
  nothing.
- Theorem {lit}`not_removed_of_sync`: a cache file that cannot be removed does not stop it.
-/

namespace Statskboo

/-! ## The Drive listing -/

namespace Drive

/-- A file or folder of a listing. -/
structure DriveFile where
  id : String
  name : String
  modifiedTime : String
  mimeType : Option String
deriving DecidableEq, Repr

/-- One page of a listing. -/
structure FileList where
  files : List DriveFile
  nextPageToken : Option String

/-- The answer to a list request with a query and a page token; none when its retries are
used up. -/
abbrev Answer := String → Option String → Option FileList

/-- Read pages until one has no next page token.  Also returns the answers that are left. -/
def listPages (q : String) : List DriveFile → Option String → List Answer →
    Option (List DriveFile × List Answer)
  | _, _, [] => none
  | allFiles, pageToken, answer :: answers => do
      let resp ← answer q pageToken
      match resp.nextPageToken with
      | some t => listPages q (allFiles ++ resp.files) (some t) answers
      | none => return (allFiles ++ resp.files, answers)

/-- The items directly in a folder: only its folders, or all but its folders. -/
def listItems (folderId : String) (foldersOnly : Bool) (answers : List Answer) :
    Option (List DriveFile × List Answer) :=
  let mime :=
    if foldersOnly then "mimeType = 'application/vnd.google-apps.folder'"
    else "mimeType != 'application/vnd.google-apps.folder'"
  listPages ("'" ++ folderId ++ "' in parents and " ++ mime) [] none answers

/-- The files of some folders, each with its path. -/
def listFolders (out : List (String × DriveFile)) : List DriveFile → List Answer →
    Option (List (String × DriveFile))
  | [], _ => some out
  | folder :: folders, answers => do
      let (files, answers) ← listItems folder.id false answers
      listFolders (out ++ files.map fun f => (folder.name ++ "/" ++ f.name, f)) folders answers

/-- The files in the two-level folder tree under a folder, with paths relative to it. -/
def listTreeWithPaths (folderId : String) (answers : List Answer) :
    Option (List (String × DriveFile)) := do
  let (subfolders, answers) ← listItems folderId true answers
  listFolders [] subfolders answers

end Drive

/-! ## The sync -/

namespace Index

open KeyedTable DataCache

/-- The quarter folder is the first path segment. -/
def quarterOf (path : String) : Option String :=
  let quarter := path.toList.takeWhile fun c => decide (c ≠ '/')
  if path.toList.contains '/' && !quarter.isEmpty then some (String.ofList quarter) else none

/-- What a sync reports. -/
structure IndexStats where
  seen : Nat
  upserted : Nat
  removed : Nat
deriving DecidableEq, Repr

/-- What a sync runs on: the date parser, the clock of the database at each transaction, the
transactions that the database accepts, the answers of Drive, and the files whose cache file
cannot be removed. -/
structure Host where
  parseFromRfc3339 : String → Option Int
  now : Nat → Int
  accepts : Nat → Bool
  answers : List Drive.Answer
  kept : String → Bool

/-- Upsert the listed files, each in a transaction of its own.  Also returns the number of the
next transaction, or none when a date or a statement fails. -/
def upsertTree (host : Host) (n : Nat) (db : Db) : List (String × Drive.DriveFile) → Db × Option Nat
  | [] => (db, some n)
  | (path, file) :: tree =>
      match host.parseFromRfc3339 file.modifiedTime with
      | none => (db, none)
      | some modifiedTime =>
          if host.accepts n then
            upsertTree host (n + 1)
              (upsertStatsbook db (host.now n) file.id file.name (quarterOf path) file.mimeType
                modifiedTime) tree
          else (db, none)

/-- What a sync leaves, and what it reports if it succeeds. -/
structure SyncResult where
  db : Db
  dir : Option Dir
  stats : Option IndexStats

/-- Index the quarter folders under the root folder, from the given transaction on. -/
def syncStatsbookIndex (host : Host) (n : Nat) (db : Db) (rootFolderId : String)
    (dir : Option Dir) : SyncResult :=
  if host.accepts n then
    let marker := host.now n
    match Drive.listTreeWithPaths rootFolderId host.answers with
    | none => ⟨db, dir, none⟩
    | some tree =>
        match upsertTree host (n + 1) db tree with
        | (db, none) => ⟨db, dir, none⟩
        | (db, some n) =>
            if host.accepts n then
              let (removed, doomed) := markRemoved db marker
              ⟨removed, dir.map fun dir => doomed.foldl (removeCached host.kept) dir,
                some { seen := tree.length, upserted := tree.length, removed := doomed.length }⟩
            else ⟨db, dir, none⟩
  else ⟨db, dir, none⟩

/-! ## One upsert -/

variable {db db' : Db} {host : Host} {tree : List (String × Drive.DriveFile)} {f : String}

/-- A row follows a listed time: it needs parsing if the file is new or its time has changed,
and keeps its status otherwise. -/
structure Follows (old : Option DriveFile) (m : Int) (row : DriveFile) : Prop where
  modifiedTime : row.modifiedTime = some m
  fresh : old.bind DriveFile.modifiedTime ≠ some m →
    row.parseStatus = ParseStatus.pending ∧ row.parserVersion = none
  kept : ∀ r, old = some r → r.modifiedTime = some m →
    row.parseStatus = r.parseStatus ∧ row.parserVersion = r.parserVersion

/-- A time that is listed again changes nothing. -/
theorem Follows.trans {old : Option DriveFile} {m : Int} {row row' : DriveFile}
    (h : Follows old m row) (h' : Follows (some row) m row') : Follows old m row' := by
  obtain ⟨hstatus, hversion⟩ := h'.kept row rfl h.modifiedTime
  refine ⟨h'.modifiedTime, fun hne => ?_, fun r hr hm => ?_⟩
  · rw [hstatus, hversion]
    exact h.fresh hne
  · rw [hstatus, hversion]
    exact h.kept r hr hm

theorem get?_upsertStatsbook_self (db : Db) (now : Int) (f name : String)
    (quarter mimeType : Option String) (modifiedTime : Int) :
    ∃ row, (upsertStatsbook db now f name quarter mimeType modifiedTime).statsbooks.get? f =
        some row ∧ row.lastSeen = now ∧ Follows (db.statsbooks.get? f) modifiedTime row := by
  unfold upsertStatsbook
  simp only [Table.get?_upsert_self, Option.some.injEq, exists_eq_left']
  cases hold : db.statsbooks.get? f with
  | none => exact ⟨rfl, rfl, fun _ => ⟨rfl, rfl⟩, fun _ hr => by cases hr⟩
  | some old =>
      refine ⟨rfl, rfl, fun hne => ?_, fun r hr hm => ?_⟩
      · have hchanged : old.modifiedTime ≠ some modifiedTime := hne
        simp [hchanged]
      · cases hr
        simp [hm]

theorem get?_upsertStatsbook_of_ne {g : String} (hf : f ≠ g) (db : Db) (now : Int) (name : String)
    (quarter mimeType : Option String) (modifiedTime : Int) :
    (upsertStatsbook db now g name quarter mimeType modifiedTime).statsbooks.get? f =
      db.statsbooks.get? f := by
  rw [upsertStatsbook, Table.get?_upsert, if_neg hf]

/-! ## The upserts of a sync -/

/-- Some entry of the listing has the id. -/
def Listed (tree : List (String × Drive.DriveFile)) (f : String) : Prop :=
  ∃ e ∈ tree, e.2.id = f

instance (tree : List (String × Drive.DriveFile)) : DecidablePred (Listed tree) :=
  fun f => inferInstanceAs (Decidable (∃ e ∈ tree, e.2.id = f))

/-- The last entry of a listing with an id. -/
def lastEntry (tree : List (String × Drive.DriveFile)) (f : String) :
    Option (String × Drive.DriveFile) :=
  (tree.filter fun e => decide (e.2.id = f)).getLast?

theorem listed_of_lastEntry {e : String × Drive.DriveFile} (h : lastEntry tree f = some e) :
    e ∈ tree ∧ e.2.id = f := by
  simpa using List.mem_of_getLast? h

theorem lastEntry_of_listed (h : Listed tree f) : ∃ e, lastEntry tree f = some e := by
  obtain ⟨e, he, hid⟩ := h
  have hne : tree.filter (fun e => decide (e.2.id = f)) ≠ [] :=
    List.ne_nil_of_mem (List.mem_filter.mpr ⟨he, decide_eq_true hid⟩)
  exact ⟨_, List.getLast?_eq_some_getLast hne⟩

/-- A file that is not listed keeps its row. -/
theorem upsertTree_unlisted (host : Host) (n : Nat) (db : Db) (hf : ∀ e ∈ tree, e.2.id ≠ f) :
    (upsertTree host n db tree).1.statsbooks.get? f = db.statsbooks.get? f := by
  induction tree generalizing n db with
  | nil => rfl
  | cons e tree ih =>
      obtain ⟨hne, htree⟩ := List.forall_mem_cons.mp hf
      unfold upsertTree
      split
      · rfl
      · split_ifs
        · rw [ih (n + 1) _ htree]
          exact get?_upsertStatsbook_of_ne hne.symm db _ _ _ _ _
        · rfl

/-- The upserts take no row away. -/
theorem has_upsertTree (host : Host) (n : Nat) (db : Db) (tree : List (String × Drive.DriveFile))
    (h : db.statsbooks.has f = true) : (upsertTree host n db tree).1.statsbooks.has f = true := by
  induction tree generalizing n db with
  | nil => exact h
  | cons e tree ih =>
      unfold upsertTree
      split
      · exact h
      · split_ifs
        · refine ih (n + 1) _ ?_
          unfold upsertStatsbook
          rw [Table.has_upsert, h, Bool.or_true]
        · exact h

/-- When all upserts succeed, the first one does, and the others go on from what it leaves. -/
theorem upsertTree_cons {n m : Nat} {e : String × Drive.DriveFile}
    (hall : (upsertTree host n db (e :: tree)).2 = some m) :
    ∃ t, host.parseFromRfc3339 e.2.modifiedTime = some t ∧
      upsertTree host n db (e :: tree) =
        upsertTree host (n + 1)
          (upsertStatsbook db (host.now n) e.2.id e.2.name (quarterOf e.1) e.2.mimeType t) tree := by
  rw [upsertTree] at hall ⊢
  cases htime : host.parseFromRfc3339 e.2.modifiedTime with
  | none => simp [htime] at hall
  | some t =>
      simp only [htime] at hall ⊢
      split_ifs at hall ⊢
      exact ⟨t, rfl, rfl⟩

/-- A listed file has a row that is stamped by one of the upserts and follows the listed time,
when all upserts succeed. -/
theorem upsertTree_listed {n m : Nat} {t : Int} (hall : (upsertTree host n db tree).2 = some m)
    (hf : Listed tree f)
    (htime : ∀ e ∈ tree, e.2.id = f → host.parseFromRfc3339 e.2.modifiedTime = some t) :
    ∃ row, (upsertTree host n db tree).1.statsbooks.get? f = some row ∧
      (∃ k, n ≤ k ∧ row.lastSeen = host.now k) ∧ Follows (db.statsbooks.get? f) t row := by
  induction tree generalizing n db with
  | nil => simp [Listed] at hf
  | cons e tree ih =>
      obtain ⟨t', ht', hcons⟩ := upsertTree_cons hall
      obtain ⟨hhead, htail⟩ := List.forall_mem_cons.mp htime
      rw [hcons] at hall ⊢
      by_cases hlater : Listed tree f
      · obtain ⟨row, hrow, ⟨k, hk, hstamp⟩, hfollows⟩ := ih hall hlater htail
        refine ⟨row, hrow, ⟨k, by omega, hstamp⟩, ?_⟩
        by_cases he : e.2.id = f
        · -- the file is listed again, with the time that this upsert recorded
          subst he
          obtain rfl : t' = t := Option.some.inj (ht'.symm.trans (hhead rfl))
          obtain ⟨row', hrow', -, hfollows'⟩ := get?_upsertStatsbook_self db (host.now n) e.2.id
            e.2.name (quarterOf e.1) e.2.mimeType t'
          rw [hrow'] at hfollows
          exact hfollows'.trans hfollows
        · rwa [get?_upsertStatsbook_of_ne (Ne.symm he)] at hfollows
      · have hlater : ∀ e' ∈ tree, e'.2.id ≠ f := fun e' he' hid => hlater ⟨e', he', hid⟩
        have he : e.2.id = f := by
          obtain ⟨e', he', hid⟩ := hf
          rcases List.mem_cons.mp he' with rfl | he'
          · exact hid
          · exact absurd hid (hlater e' he')
        subst he
        obtain rfl : t' = t := Option.some.inj (ht'.symm.trans (hhead rfl))
        rw [upsertTree_unlisted host (n + 1) _ hlater]
        obtain ⟨row, hrow, hstamp, hfollows⟩ := get?_upsertStatsbook_self db (host.now n) e.2.id
          e.2.name (quarterOf e.1) e.2.mimeType t'
        exact ⟨row, hrow, ⟨n, le_rfl, hstamp⟩, hfollows⟩

/-- When all upserts succeed, all dates are parsed. -/
theorem parses_of_upsertTree {n m : Nat} (hall : (upsertTree host n db tree).2 = some m)
    {e : String × Drive.DriveFile} (he : e ∈ tree) :
    ∃ t, host.parseFromRfc3339 e.2.modifiedTime = some t := by
  induction tree generalizing n db with
  | nil => cases he
  | cons e' tree ih =>
      obtain ⟨t, ht, hcons⟩ := upsertTree_cons hall
      rcases List.mem_cons.mp he with rfl | he
      · exact ⟨t, ht⟩
      · rw [hcons] at hall
        exact ih hall he

/-- The entries of one id have one modification time. -/
def SameTimes (tree : List (String × Drive.DriveFile)) : Prop :=
  ∀ e ∈ tree, ∀ e' ∈ tree, e.2.id = e'.2.id → e.2.modifiedTime = e'.2.modifiedTime

/-- The row of a listed file follows its last entry. -/
theorem upsertTree_lastEntry {n m : Nat} (hall : (upsertTree host n db tree).2 = some m)
    (hsame : SameTimes tree) (hf : Listed tree f) :
    ∃ e t row, lastEntry tree f = some e ∧
      host.parseFromRfc3339 e.2.modifiedTime = some t ∧
      (upsertTree host n db tree).1.statsbooks.get? f = some row ∧
      (∃ k, n ≤ k ∧ row.lastSeen = host.now k) ∧ Follows (db.statsbooks.get? f) t row := by
  obtain ⟨e, hlast⟩ := lastEntry_of_listed hf
  obtain ⟨he, rfl⟩ := listed_of_lastEntry hlast
  obtain ⟨t, ht⟩ := parses_of_upsertTree hall he
  obtain ⟨row, hrow⟩ := upsertTree_listed hall hf fun e' he' hid => by
    rw [hsame e' he' e he hid, ht]
  exact ⟨e, t, row, hlast, ht, hrow⟩

/-- The upserts write no other table. -/
theorem upsertTree_content (host : Host) (n : Nat) (db : Db)
    (tree : List (String × Drive.DriveFile)) :
    (upsertTree host n db tree).1 =
      { db with statsbooks := (upsertTree host n db tree).1.statsbooks } := by
  induction tree generalizing n db with
  | nil => rfl
  | cons e tree ih =>
      unfold upsertTree
      split
      · rfl
      · split_ifs
        · rw [ih (n + 1)]
          rfl
        · rfl

/-! ## The removal -/

/-- The cache file of an id, if the cache is configured. -/
def cacheFile (dir : Option Dir) (path : String) : Option CacheFile :=
  dir.bind fun dir => dir.get? path

/-! ## The sync -/

/-- The rows and cache files after a sync that succeeded, against those before. -/
structure Mirrors (host : Host) (tree : List (String × Drive.DriveFile)) (db : Db)
    (dir : Option Dir) (db' : Db) (dir' : Option Dir) : Prop where
  ids : ∀ f, db'.statsbooks.has f = true ↔ Listed tree f
  modifiedTime : ∀ f row, db'.statsbooks.get? f = some row → ∃ e t, lastEntry tree f = some e ∧
    host.parseFromRfc3339 e.2.modifiedTime = some t ∧ row.modifiedTime = some t
  fresh : ∀ f row, db'.statsbooks.get? f = some row →
    (∀ old, db.statsbooks.get? f = some old → old.modifiedTime ≠ row.modifiedTime) →
    row.parseStatus = ParseStatus.pending ∧ row.parserVersion = none
  kept : ∀ f row old, db'.statsbooks.get? f = some row → db.statsbooks.get? f = some old →
    old.modifiedTime = row.modifiedTime →
    row.parseStatus = old.parseStatus ∧ row.parserVersion = old.parserVersion
  removed : ∀ f path, cachePath f = some path → db.statsbooks.has f = true →
    db'.statsbooks.has f = false → host.kept f = false → cacheFile dir' path = none
  others : ∀ path, (∀ f, cachePath f = some path → db.statsbooks.has f = true →
    db'.statsbooks.has f = false → host.kept f = true) → cacheFile dir' path = cacheFile dir path

/-- Nothing is removed: every row of the index, every row of the other tables and every cache
file is still there. -/
structure NothingRemoved (db : Db) (dir : Option Dir) (db' : Db) (dir' : Option Dir) : Prop where
  rows : ∀ f, db.statsbooks.has f = true → db'.statsbooks.has f = true
  content : db' = { db with statsbooks := db'.statsbooks }
  dir : dir' = dir

/-- The rows once all listed files are upserted: the listed ones follow their last entries and are
stamped after the marker, and the others are as before and have older stamps. -/
structure Upserted (host : Host) (marker : Int) (tree : List (String × Drive.DriveFile))
    (db db₁ : Db) : Prop where
  listed : ∀ f, Listed tree f → ∃ e t row, lastEntry tree f = some e ∧
    host.parseFromRfc3339 e.2.modifiedTime = some t ∧ db₁.statsbooks.get? f = some row ∧
    marker < row.lastSeen ∧ Follows (db.statsbooks.get? f) t row
  unlisted : ∀ f, ¬ Listed tree f → db₁.statsbooks.get? f = db.statsbooks.get? f
  old : ∀ f row, db.statsbooks.get? f = some row → row.lastSeen < marker

theorem upserted_upsertTree {n m : Nat} (hclock : ∀ i j, i < j → host.now i < host.now j)
    (hstamped : ∀ f row, db.statsbooks.get? f = some row → ∃ k < n, row.lastSeen = host.now k)
    (hall : (upsertTree host (n + 1) db tree).2 = some m) (hsame : SameTimes tree) :
    Upserted host (host.now n) tree db (upsertTree host (n + 1) db tree).1 where
  listed f hf := by
    obtain ⟨e, t, row, hlast, ht, hrow, ⟨k, hk, hstamp⟩, hfollows⟩ :=
      upsertTree_lastEntry hall hsame hf
    refine ⟨e, t, row, hlast, ht, hrow, ?_, hfollows⟩
    rw [hstamp]
    exact hclock n k (by omega)
  unlisted f hf := upsertTree_unlisted host (n + 1) db fun e he hid => hf ⟨e, he, hid⟩
  old f row hrow := by
    obtain ⟨k, hk, hstamp⟩ := hstamped f row hrow
    rw [hstamp]
    exact hclock k n hk

namespace Upserted

variable {marker : Int} {db₁ : Db} {row : DriveFile} {path : String}

/-- The removal deletes the rows that are not listed. -/
theorem get?_markRemoved (h : Upserted host marker tree db db₁) (f : String) :
    (markRemoved db₁ marker).1.statsbooks.get? f =
      if Listed tree f then db₁.statsbooks.get? f else none := by
  unfold markRemoved Db.deleteStatsbooks
  rw [Table.get?_filter]
  split_ifs with hf
  · obtain ⟨-, -, row, -, -, hrow, hnew, -⟩ := h.listed f hf
    simp [hrow, hnew.le]
  · rw [h.unlisted f hf]
    cases hrow : db.statsbooks.get? f with
    | none => rfl
    | some row => simp [h.old f row hrow]

/-- The rows that are left are those of the listed files. -/
theorem has_markRemoved (h : Upserted host marker tree db db₁) (f : String) :
    (markRemoved db₁ marker).1.statsbooks.has f = true ↔ Listed tree f := by
  rw [Table.has, h.get?_markRemoved]
  split_ifs with hf
  · obtain ⟨-, -, row, -, -, hrow, -⟩ := h.listed f hf
    simp [hrow, hf]
  · simp [hf]

/-- A row that is left follows the last entry of its file. -/
theorem follows_markRemoved (h : Upserted host marker tree db db₁)
    (hrow : (markRemoved db₁ marker).1.statsbooks.get? f = some row) :
    ∃ e t, lastEntry tree f = some e ∧ host.parseFromRfc3339 e.2.modifiedTime = some t ∧
      Follows (db.statsbooks.get? f) t row := by
  have hf : Listed tree f := (h.has_markRemoved f).mp (Table.has_iff.mpr ⟨row, hrow⟩)
  obtain ⟨e, t, row', hlast, ht, hrow', -, hfollows⟩ := h.listed f hf
  rw [h.get?_markRemoved, if_pos hf, hrow', Option.some.injEq] at hrow
  exact ⟨e, t, hlast, ht, hrow ▸ hfollows⟩

/-- The ids that are returned are those of the deleted rows. -/
theorem mem_markRemoved (h : Upserted host marker tree db db₁) (f : String) :
    f ∈ (markRemoved db₁ marker).2 ↔ db.statsbooks.has f = true ∧ ¬ Listed tree f := by
  unfold markRemoved
  simp only [Table.mem_keys_iff, Table.get?_filter, Option.filter_eq_some_iff, Table.has_iff,
    decide_eq_true_eq]
  by_cases hf : Listed tree f
  · obtain ⟨-, -, row, -, -, hrow, hnew, -⟩ := h.listed f hf
    simp [hrow, hf, hnew.le]
  · simp only [h.unlisted f hf, hf, not_false_eq_true, and_true]
    exact exists_congr fun row => and_iff_left_of_imp (h.old f row)

/-- The cache file of a deleted row is gone, unless it cannot be removed. -/
theorem cacheFile_removed (h : Upserted host marker tree db db₁) (dir : Option Dir)
    (hpath : cachePath f = some path) (hhas : db.statsbooks.has f = true)
    (hgone : ¬ Listed tree f) (hkept : host.kept f = false) :
    cacheFile (dir.map fun dir => (markRemoved db₁ marker).2.foldl (removeCached host.kept) dir)
      path = none := by
  have hmem := (h.mem_markRemoved f).mpr ⟨hhas, hgone⟩
  cases dir with
  | none => rfl
  | some dir =>
      rw [cacheFile, Option.map_some, Option.bind_some, get?_foldl_removeCached,
        if_pos ⟨f, hmem, hpath, hkept⟩]

/-- Every other cache file stays. -/
theorem cacheFile_others (h : Upserted host marker tree db db₁) (dir : Option Dir)
    (hothers : ∀ f, cachePath f = some path → db.statsbooks.has f = true → ¬ Listed tree f →
      host.kept f = true) :
    cacheFile (dir.map fun dir => (markRemoved db₁ marker).2.foldl (removeCached host.kept) dir)
      path = cacheFile dir path := by
  have hnone : ¬ ∃ f ∈ (markRemoved db₁ marker).2, cachePath f = some path ∧
      host.kept f = false := by
    rintro ⟨f, hf, hpath, hkept⟩
    obtain ⟨hhas, hgone⟩ := (h.mem_markRemoved f).mp hf
    rw [hothers f hpath hhas hgone] at hkept
    cases hkept
  cases dir with
  | none => rfl
  | some dir =>
      rw [cacheFile, Option.map_some, Option.bind_some, get?_foldl_removeCached, if_neg hnone]
      rfl

/-- The removal after successful upserts leaves the rows and cache files of the listing. -/
theorem mirrors (h : Upserted host marker tree db db₁) (dir : Option Dir) :
    Mirrors host tree db dir (markRemoved db₁ marker).1
      (dir.map fun dir => (markRemoved db₁ marker).2.foldl (removeCached host.kept) dir) where
  ids := h.has_markRemoved
  modifiedTime f row hrow := by
    obtain ⟨e, t, hlast, ht, hfollows⟩ := h.follows_markRemoved hrow
    exact ⟨e, t, hlast, ht, hfollows.modifiedTime⟩
  fresh f row hrow hchanged := by
    obtain ⟨e, t, -, -, hfollows⟩ := h.follows_markRemoved hrow
    refine hfollows.fresh fun hold => ?_
    obtain ⟨old, hget, hm⟩ := Option.bind_eq_some_iff.mp hold
    exact hchanged old hget (hm.trans hfollows.modifiedTime.symm)
  kept f row old hrow hold hunchanged := by
    obtain ⟨e, t, -, -, hfollows⟩ := h.follows_markRemoved hrow
    exact hfollows.kept old hold (hunchanged.trans hfollows.modifiedTime)
  removed f path hpath hhas hgone hkept := by
    refine h.cacheFile_removed dir hpath hhas (fun hf => ?_) hkept
    rw [(h.has_markRemoved f).mpr hf] at hgone
    cases hgone
  others path hothers := by
    refine h.cacheFile_others dir fun f hpath hhas hgone => hothers f hpath hhas ?_
    rw [Bool.eq_false_iff, ne_eq, h.has_markRemoved]
    exact hgone

end Upserted

/-- A sync that succeeds leaves the rows of the listing, and of the cache files all but those of
the removed rows that can be removed; one that fails removes nothing. -/
theorem syncStatsbookIndex_spec {n : Nat} (rootFolderId : String) (dir : Option Dir)
    (hclock : ∀ i j, i < j → host.now i < host.now j)
    (hstamped : ∀ f row, db.statsbooks.get? f = some row → ∃ k < n, row.lastSeen = host.now k)
    (hsame : ∀ tree, Drive.listTreeWithPaths rootFolderId host.answers = some tree →
      SameTimes tree) :
    (∀ stats, (syncStatsbookIndex host n db rootFolderId dir).stats = some stats →
      ∃ tree, Drive.listTreeWithPaths rootFolderId host.answers = some tree ∧
        Mirrors host tree db dir (syncStatsbookIndex host n db rootFolderId dir).db
          (syncStatsbookIndex host n db rootFolderId dir).dir) ∧
      ((syncStatsbookIndex host n db rootFolderId dir).stats = none →
        NothingRemoved db dir (syncStatsbookIndex host n db rootFolderId dir).db
          (syncStatsbookIndex host n db rootFolderId dir).dir) := by
  have hsilent : NothingRemoved db dir db dir := ⟨fun _ h => h, rfl, rfl⟩
  unfold syncStatsbookIndex
  split_ifs with hmarker
  · cases htree : Drive.listTreeWithPaths rootFolderId host.answers with
    | none => exact ⟨nofun, fun _ => hsilent⟩
    | some tree =>
        have hupserts : NothingRemoved db dir (upsertTree host (n + 1) db tree).1 dir :=
          ⟨fun f => has_upsertTree host (n + 1) db tree, upsertTree_content host (n + 1) db tree,
            rfl⟩
        have hmirrors := fun m hall =>
          (upserted_upsertTree (m := m) hclock hstamped hall (hsame tree htree)).mirrors dir
        rcases hresult : upsertTree host (n + 1) db tree with ⟨db', _ | m⟩
        · rw [hresult] at hupserts
          simp only [hresult]
          exact ⟨nofun, fun _ => hupserts⟩
        · rw [hresult] at hupserts hmirrors
          simp only [hresult]
          split_ifs with hdelete
          · exact ⟨fun _ _ => ⟨tree, rfl, hmirrors m rfl⟩, nofun⟩
          · exact ⟨nofun, fun _ => hupserts⟩
  · exact ⟨nofun, fun _ => hsilent⟩

/-! ## A sync that keeps, renews, adds and removes a row -/

section Example

/-- A listed statsbook of 2023. -/
def oldFile (id : String) : Drive.DriveFile :=
  ⟨id, id ++ ".xlsx", "2023-01-21T18:22:04.000Z", none⟩

/-- A listed statsbook of 2026. -/
def newFile (id : String) : Drive.DriveFile :=
  ⟨id, id ++ ".xlsx", "2026-08-09T21:00:00.000Z", none⟩

/-- Four files that earlier transactions have indexed. -/
def indexedDb : Db :=
  ["f", "g", "h", "k"].zipIdx.foldl
    (fun db r => upsertStatsbook db r.2 r.1 (r.1 ++ ".xlsx") none none 1674325324) Db.empty

/-- Drive lists the first file twice, the second with a new time, and a new file; the cache file of
the fourth cannot be removed. -/
def exampleHost : Host where
  parseFromRfc3339 s :=
    if s = "2023-01-21T18:22:04.000Z" then some 1674325324
    else if s = "2026-08-09T21:00:00.000Z" then some 1786309200
    else none
  now n := n
  accepts _ := true
  answers :=
    [fun _ _ => some ⟨[⟨"q", "2023-Q1", "2023-01-21T18:22:04.000Z", none⟩], none⟩,
      fun _ _ => some ⟨[oldFile "f", newFile "g"], some "2"⟩,
      fun _ _ => some ⟨[newFile "i", oldFile "f"], none⟩]
  kept f := decide (f = "k")

/-- The cached bytes of the first, the third and the fourth file. -/
def exampleDir : Dir :=
  ["f.xlsx", "h.xlsx", "k.xlsx"].foldl (fun dir path => dir.upsert path ⟨[], 5⟩) Table.empty

/-- The sync of this listing. -/
def exampleSync : SyncResult :=
  syncStatsbookIndex exampleHost 4 indexedDb "root" (some exampleDir)

theorem stamped_indexedDb : ∀ f row, indexedDb.statsbooks.get? f = some row →
    ∃ k < 4, row.lastSeen = exampleHost.now k := by
  intro f row hrow
  have hrows : ∀ r ∈ indexedDb.statsbooks.rows, ∃ k < 4, r.2.lastSeen = exampleHost.now k := by
    decide +kernel
  exact hrows (f, row) (Table.mem_rows_iff.mpr hrow)

theorem sameTimes_exampleHost :
    ∀ tree, Drive.listTreeWithPaths "root" exampleHost.answers = some tree → SameTimes tree := by
  intro tree htree
  cases htree
  unfold SameTimes
  decide +kernel

/-- The last two files lose their rows, and the third its cached bytes; the first keeps both. -/
theorem mirrors_exampleHost :
    (∃ tree, Drive.listTreeWithPaths "root" exampleHost.answers = some tree ∧
        Mirrors exampleHost tree indexedDb (some exampleDir) exampleSync.db exampleSync.dir) ∧
      exampleSync.db.statsbooks.keys = ["f", "g", "i"] ∧
      cacheFile exampleSync.dir "h.xlsx" = none := by
  have hspec := syncStatsbookIndex_spec "root" (some exampleDir) (fun _ _ h => Int.ofNat_lt.mpr h)
    stamped_indexedDb sameTimes_exampleHost
  have hstats : exampleSync.stats = some ⟨4, 4, 2⟩ := by decide +kernel
  exact ⟨hspec.1 _ hstats, by decide +kernel, by decide +kernel⟩

/-- The sync succeeds also when the cache file of a removed row stays. -/
theorem not_removed_of_sync :
    ¬ ∀ (host : Host) (n : Nat) (db : Db) (rootFolderId : String) (dir : Option Dir),
      (∀ i j, i < j → host.now i < host.now j) →
      (∀ f row, db.statsbooks.get? f = some row → ∃ k < n, row.lastSeen = host.now k) →
      (∀ tree, Drive.listTreeWithPaths rootFolderId host.answers = some tree → SameTimes tree) →
      (syncStatsbookIndex host n db rootFolderId dir).stats.isSome = true →
      ∀ f path, cachePath f = some path → db.statsbooks.has f = true →
        (syncStatsbookIndex host n db rootFolderId dir).db.statsbooks.has f = false →
        cacheFile (syncStatsbookIndex host n db rootFolderId dir).dir path = none := by
  intro h
  have hgone := h exampleHost 4 indexedDb "root" (some exampleDir)
    (fun _ _ h => Int.ofNat_lt.mpr h) stamped_indexedDb sameTimes_exampleHost (by decide +kernel)
    "k" "k.xlsx" (by decide +kernel) (by decide +kernel) (by decide +kernel)
  have hstays : cacheFile exampleSync.dir "k.xlsx" = some ⟨[], 5⟩ := by decide +kernel
  rw [exampleSync, hgone] at hstays
  cases hstays

end Example

end Index
end Statskboo
