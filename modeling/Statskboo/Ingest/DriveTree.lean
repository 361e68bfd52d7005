import Mathlib.Data.List.TakeWhile
import Statskboo.Ingest.IndexSync

/-!
# The index of a Drive tree

Drive holds a root folder with quarter folders and files in these.  It serves every listing in
pages of its own choice, each with a token for the next one.  The index stage reads them all, so
that its rows are those of the files in the tree, whatever the pages.

Main results:

- Theorem {lit}`listTreeWithPaths_of_serves`: the listing is the whole tree, with paths.
- Theorem {lit}`upsertTree_lastRow`: a row carries the data of the last entry of its file.
- Theorem {lit}`index_of_tree`: after a sync that succeeds the rows are the files of the tree, with
  their names, quarters, types and times.
-/

namespace Statskboo

/-! ## A tree that is served in pages -/

namespace Drive

/-- From a page token on, the answers to a query make up these items in so many pages. -/
inductive Pages (serve : Answer) (q : String) : Option String → List DriveFile → Nat → Prop where
  | last {pageToken : Option String} {items : List DriveFile}
      (h : serve q pageToken = some { files := items, nextPageToken := none }) :
      Pages serve q pageToken items 1
  | more {pageToken : Option String} {items rest : List DriveFile} {t : String} {n : Nat}
      (h : serve q pageToken = some { files := items, nextPageToken := some t })
      (hrest : Pages serve q (some t) rest n) : Pages serve q pageToken (items ++ rest) (n + 1)

/-- The query for the folders in a folder. -/
def foldersQuery (folderId : String) : String :=
  "'" ++ folderId ++ "' in parents and " ++ "mimeType = 'application/vnd.google-apps.folder'"

/-- The query for the files in a folder. -/
def filesQuery (folderId : String) : String :=
  "'" ++ folderId ++ "' in parents and " ++ "mimeType != 'application/vnd.google-apps.folder'"

/-- Drive serves a tree: the folders in the root folder and the files in each of them, in so many
pages at most for each. -/
structure Serves (serve : Answer) (rootId : String) (folders : List DriveFile)
    (files : String → List DriveFile) (pages : Nat) : Prop where
  root : ∃ n ≤ pages, Pages serve (foldersQuery rootId) none folders n
  folder : ∀ d ∈ folders, ∃ n ≤ pages, Pages serve (filesQuery d.id) none (files d.id) n

/-- The files of a tree with their paths. -/
def treePaths (folders : List DriveFile) (files : String → List DriveFile) :
    List (String × DriveFile) :=
  folders.flatMap fun d => (files d.id).map fun f => (d.name ++ "/" ++ f.name, f)

variable {serve : Answer} {q : String}

/-- All pages are read, and as many answers are used. -/
theorem listPages_of_pages {pageToken : Option String} {items : List DriveFile} {n : Nat}
    (h : Pages serve q pageToken items n) (acc : List DriveFile) (k : Nat) :
    listPages q acc pageToken (List.replicate (n + k) serve) =
      some (acc ++ items, List.replicate k serve) := by
  induction h generalizing acc with
  | last h =>
      rw [Nat.add_comm, List.replicate_succ, listPages, h]
      rfl
  | @more pageToken items rest t n h hrest ih =>
      rw [Nat.add_right_comm, List.replicate_succ, listPages, h]
      change listPages q (acc ++ items) (some t) _ = _
      rw [ih, List.append_assoc]

theorem listItems_of_pages {folderId : String} {foldersOnly : Bool} {items : List DriveFile}
    {n : Nat}
    (h : Pages serve (if foldersOnly then foldersQuery folderId else filesQuery folderId) none
      items n) (k : Nat) :
    listItems folderId foldersOnly (List.replicate (n + k) serve) =
      some (items, List.replicate k serve) := by
  have hlist := listPages_of_pages h [] k
  rw [List.nil_append] at hlist
  cases foldersOnly <;> exact hlist

/-- The folders are listed one after the other. -/
theorem listFolders_of_serves {folders : List DriveFile} {files : String → List DriveFile}
    {pages : Nat}
    (h : ∀ d ∈ folders, ∃ n ≤ pages, Pages serve (filesQuery d.id) none (files d.id) n)
    (out : List (String × DriveFile)) {k : Nat} (hk : folders.length * pages ≤ k) :
    listFolders out folders (List.replicate k serve) = some (out ++ treePaths folders files) := by
  induction folders generalizing out k with
  | nil => simp [listFolders, treePaths]
  | cons d folders ih =>
      obtain ⟨⟨n, hn, hd⟩, hfolders⟩ := List.forall_mem_cons.mp h
      rw [List.length_cons, Nat.succ_mul] at hk
      obtain ⟨m, rfl⟩ : ∃ m, k = n + m := ⟨k - n, by omega⟩
      rw [listFolders, @listItems_of_pages serve d.id false _ _ hd]
      change listFolders _ folders _ = _
      rw [ih hfolders _ (by omega), List.append_assoc]
      rfl

/-- The listing is the whole tree, with paths, in whatever pages it is served. -/
theorem listTreeWithPaths_of_serves {rootId : String} {folders : List DriveFile}
    {files : String → List DriveFile} {pages k : Nat} (h : Serves serve rootId folders files pages)
    (hk : (folders.length + 1) * pages ≤ k) :
    listTreeWithPaths rootId (List.replicate k serve) = some (treePaths folders files) := by
  obtain ⟨n, hn, hroot⟩ := h.root
  rw [Nat.succ_mul] at hk
  obtain ⟨m, rfl⟩ : ∃ m, k = n + m := ⟨k - n, by omega⟩
  rw [listTreeWithPaths, @listItems_of_pages serve rootId true _ _ hroot]
  exact listFolders_of_serves h.folder [] (by omega)

end Drive

/-! ## What the rows carry -/

namespace Index

open KeyedTable DataCache

/-- A row carries the data of an entry. -/
structure Carries (host : Host) (e : String × Drive.DriveFile) (row : DriveFile) : Prop where
  name : row.name = e.2.name
  quarter : row.quarter = quarterOf e.1
  mimeType : row.mimeType = e.2.mimeType
  modifiedTime : ∃ t, host.parseFromRfc3339 e.2.modifiedTime = some t ∧ row.modifiedTime = some t

variable {db : Db} {host : Host} {tree : List (String × Drive.DriveFile)} {f : String}

theorem lastEntry_cons (e : String × Drive.DriveFile) :
    lastEntry (e :: tree) f =
      (lastEntry tree f).or (if e.2.id = f then some e else none) := by
  unfold lastEntry
  by_cases he : e.2.id = f
  · rw [List.filter_cons_of_pos (by simpa using he), if_pos he, List.getLast?_cons]
    cases (tree.filter fun e => decide (e.2.id = f)).getLast? <;> rfl
  · rw [List.filter_cons_of_neg (by simpa using he), if_neg he, Option.or_none]

theorem carries_upsertStatsbook (db : Db) (now : Int) {e : String × Drive.DriveFile} {t : Int}
    (ht : host.parseFromRfc3339 e.2.modifiedTime = some t) :
    ∃ row, (upsertStatsbook db now e.2.id e.2.name (quarterOf e.1) e.2.mimeType t).statsbooks.get?
        e.2.id = some row ∧ row.lastSeen = now ∧ Carries host e row := by
  unfold upsertStatsbook
  simp only [Table.get?_upsert_self, Option.some.injEq, exists_eq_left']
  cases db.statsbooks.get? e.2.id with
  | none => exact ⟨rfl, rfl, rfl, rfl, t, ht, rfl⟩
  | some old => exact ⟨rfl, rfl, rfl, rfl, t, ht, rfl⟩

/-- When all upserts succeed, the row of a listed file carries the data of its last entry and is
stamped by one of them. -/
theorem upsertTree_lastRow {n m : Nat} (hall : (upsertTree host n db tree).2 = some m)
    {e : String × Drive.DriveFile} (hlast : lastEntry tree f = some e) :
    ∃ row, (upsertTree host n db tree).1.statsbooks.get? f = some row ∧
      (∃ k, n ≤ k ∧ row.lastSeen = host.now k) ∧ Carries host e row := by
  induction tree generalizing n db with
  | nil => cases hlast
  | cons e' tree ih =>
      obtain ⟨t, ht, hcons⟩ := upsertTree_cons hall
      rw [hcons] at hall ⊢
      rw [lastEntry_cons] at hlast
      cases hlater : lastEntry tree f with
      | some e'' =>
          rw [hlater, Option.some_or] at hlast
          obtain ⟨row, hrow, ⟨k, hk, hstamp⟩, hcarries⟩ := ih hall (hlater.trans hlast)
          exact ⟨row, hrow, ⟨k, by omega, hstamp⟩, hcarries⟩
      | none =>
          rw [hlater, Option.none_or] at hlast
          split_ifs at hlast with he
          cases hlast
          subst he
          have hunlisted : ∀ e' ∈ tree, e'.2.id ≠ e.2.id := fun e' he' hid => by
            obtain ⟨_, hsome⟩ := lastEntry_of_listed ⟨e', he', hid⟩
            rw [hlater] at hsome
            cases hsome
          rw [upsertTree_unlisted host (n + 1) _ hunlisted]
          obtain ⟨row, hrow, hstamp, hcarries⟩ := carries_upsertStatsbook db (host.now n) ht
          exact ⟨row, hrow, ⟨n, le_rfl, hstamp⟩, hcarries⟩

/-- What a sync that succeeds has done. -/
theorem syncStatsbookIndex_eq_some {n : Nat} {rootFolderId : String} {dir : Option Dir}
    {stats : IndexStats}
    (h : (syncStatsbookIndex host n db rootFolderId dir).stats = some stats) :
    ∃ tree m, Drive.listTreeWithPaths rootFolderId host.answers = some tree ∧
      (upsertTree host (n + 1) db tree).2 = some m ∧
      (syncStatsbookIndex host n db rootFolderId dir).db =
        (markRemoved (upsertTree host (n + 1) db tree).1 (host.now n)).1 := by
  unfold syncStatsbookIndex at h ⊢
  split_ifs at h ⊢ with hmarker
  · cases htree : Drive.listTreeWithPaths rootFolderId host.answers with
    | none => simp [htree] at h
    | some tree =>
        rcases hresult : upsertTree host (n + 1) db tree with ⟨db', _ | m⟩
        · simp [htree, hresult] at h
        · simp only [htree, hresult] at h ⊢
          split_ifs at h ⊢ with hdelete
          · exact ⟨tree, m, rfl, by rw [hresult], by rw [hresult]⟩

/-- The rows after a sync that succeeds are those of the listing, each with the data of its last
entry. -/
theorem get?_syncStatsbookIndex {n : Nat} {rootFolderId : String} {dir : Option Dir}
    {stats : IndexStats} (hclock : ∀ i j, i < j → host.now i < host.now j)
    (hstamped : ∀ f row, db.statsbooks.get? f = some row → ∃ k < n, row.lastSeen = host.now k)
    (h : (syncStatsbookIndex host n db rootFolderId dir).stats = some stats)
    (htree : Drive.listTreeWithPaths rootFolderId host.answers = some tree) (f : String) :
    ((syncStatsbookIndex host n db rootFolderId dir).db.statsbooks.has f = true ↔
        Listed tree f) ∧
      ∀ row, (syncStatsbookIndex host n db rootFolderId dir).db.statsbooks.get? f = some row →
        ∃ e, lastEntry tree f = some e ∧ Carries host e row := by
  obtain ⟨tree', m, htree', hall, hdb⟩ := syncStatsbookIndex_eq_some h
  obtain rfl : tree = tree' := Option.some.inj (htree.symm.trans htree')
  rw [hdb]
  unfold markRemoved Db.deleteStatsbooks
  rw [Table.has, Table.get?_filter]
  by_cases hf : Listed tree f
  · obtain ⟨e, hlast⟩ := lastEntry_of_listed hf
    obtain ⟨row, hrow, ⟨k, hk, hstamp⟩, hcarries⟩ := upsertTree_lastRow hall hlast
    have hkept : ¬row.lastSeen < host.now n := by
      rw [hstamp]
      exact not_lt.mpr (hclock n k (by omega)).le
    have hget : Option.filter (fun row => !decide (row.lastSeen < host.now n)) (some row) =
        some row := by
      rw [Option.filter_some, if_pos (by simpa using hkept)]
    rw [hrow, hget]
    refine ⟨iff_of_true rfl hf, fun row' hrow' => ?_⟩
    cases hrow'
    exact ⟨e, hlast, hcarries⟩
  · rw [upsertTree_unlisted host (n + 1) db fun e he hid => hf ⟨e, he, hid⟩]
    have hgone : (db.statsbooks.get? f).filter (fun row => !decide (row.lastSeen < host.now n)) =
        none := by
      cases hrow : db.statsbooks.get? f with
      | none => rfl
      | some row =>
          obtain ⟨k, hk, hstamp⟩ := hstamped f row hrow
          have hold : row.lastSeen < host.now n := hstamp ▸ hclock k n hk
          rw [Option.filter_some, if_neg (by simpa using hold)]
    rw [hgone]
    exact ⟨iff_of_false (by simp) hf, fun row hrow => (by cases hrow)⟩

/-- The quarter that a folder stands for: its name up to the first slash, unless that is empty. -/
def folderQuarter (folder : String) : Option String :=
  let quarter := folder.toList.takeWhile fun c => decide (c ≠ '/')
  if quarter.isEmpty then none else some (String.ofList quarter)

theorem quarterOf_treePath (folder name : String) :
    quarterOf (folder ++ "/" ++ name) = folderQuarter folder := by
  have hpath : (folder ++ "/" ++ name).toList = folder.toList ++ '/' :: name.toList := by simp
  have htake : (folder ++ "/" ++ name).toList.takeWhile (fun c => decide (c ≠ '/')) =
      folder.toList.takeWhile fun c => decide (c ≠ '/') := by
    rw [hpath, List.takeWhile_append]
    split_ifs with hall
    · rw [(List.takeWhile_prefix _).eq_of_length hall]
      simp
    · rfl
  have hcontains : (folder ++ "/" ++ name).toList.contains '/' = true := by
    rw [hpath]
    simp
  unfold quarterOf folderQuarter
  rw [htake, hcontains]
  dsimp only
  cases (folder.toList.takeWhile fun c => decide (c ≠ '/')).isEmpty <;> rfl

/-- A folder whose name has no slash stands for its name. -/
theorem folderQuarter_eq_self {folder : String} (hne : folder ≠ "")
    (hslash : '/' ∉ folder.toList) : folderQuarter folder = some folder := by
  have htake : folder.toList.takeWhile (fun c => decide (c ≠ '/')) = folder.toList := by
    refine List.takeWhile_eq_self_iff.mpr fun c hc => decide_eq_true ?_
    rintro rfl
    exact hslash hc
  have hnonempty : folder.toList.isEmpty = false := by
    rw [List.isEmpty_eq_false_iff]
    exact fun hnil => hne (String.toList_injective (hnil.trans rfl))
  unfold folderQuarter
  rw [htake]
  dsimp only
  rw [hnonempty]
  simp

/-- After a sync that succeeds over a tree that Drive serves in whatever pages, the rows are those
of the files of the tree, and each carries the name, type and time of such a file and the quarter
that its folder stands for. -/
theorem index_of_tree {n k pages : Nat} {serve : Drive.Answer} {rootFolderId : String}
    {dir : Option Dir} {stats : IndexStats} {folders : List Drive.DriveFile}
    {files : String → List Drive.DriveFile}
    (hclock : ∀ i j, i < j → host.now i < host.now j)
    (hstamped : ∀ f row, db.statsbooks.get? f = some row → ∃ k < n, row.lastSeen = host.now k)
    (hserves : Drive.Serves serve rootFolderId folders files pages)
    (hanswers : host.answers = List.replicate k serve) (hk : (folders.length + 1) * pages ≤ k)
    (h : (syncStatsbookIndex host n db rootFolderId dir).stats = some stats) (f : String) :
    ((syncStatsbookIndex host n db rootFolderId dir).db.statsbooks.has f = true ↔
        ∃ d ∈ folders, ∃ file ∈ files d.id, file.id = f) ∧
      ∀ row, (syncStatsbookIndex host n db rootFolderId dir).db.statsbooks.get? f = some row →
        ∃ d ∈ folders, ∃ file ∈ files d.id, file.id = f ∧ row.name = file.name ∧
          row.quarter = folderQuarter d.name ∧
          (d.name ≠ "" → '/' ∉ d.name.toList → row.quarter = some d.name) ∧
          row.mimeType = file.mimeType ∧
          ∃ t, host.parseFromRfc3339 file.modifiedTime = some t ∧ row.modifiedTime = some t := by
  have htree := Drive.listTreeWithPaths_of_serves hserves hk
  rw [← hanswers] at htree
  obtain ⟨hhas, hrows⟩ := get?_syncStatsbookIndex hclock hstamped h htree f
  have hmem : ∀ e, e ∈ Drive.treePaths folders files ↔
      ∃ d ∈ folders, ∃ file ∈ files d.id, (d.name ++ "/" ++ file.name, file) = e := by
    intro e
    simp only [Drive.treePaths, List.mem_flatMap, List.mem_map]
  refine ⟨hhas.trans ⟨fun hlisted => ?_, fun hfile => ?_⟩, fun row hrow => ?_⟩
  · obtain ⟨e, he, hid⟩ := hlisted
    obtain ⟨d, hd, file, hfile, rfl⟩ := (hmem e).mp he
    exact ⟨d, hd, file, hfile, hid⟩
  · obtain ⟨d, hd, file, hfile, hid⟩ := hfile
    exact ⟨_, (hmem _).mpr ⟨d, hd, file, hfile, rfl⟩, hid⟩
  · obtain ⟨e, hlast, hcarries⟩ := hrows row hrow
    obtain ⟨he, hid⟩ := listed_of_lastEntry hlast
    obtain ⟨d, hd, file, hfile, rfl⟩ := (hmem e).mp he
    have hquarter : row.quarter = folderQuarter d.name :=
      hcarries.quarter.trans (quarterOf_treePath d.name file.name)
    exact ⟨d, hd, file, hfile, hid, hcarries.name, hquarter,
      fun hne hslash => hquarter.trans (folderQuarter_eq_self hne hslash), hcarries.mimeType,
      hcarries.modifiedTime⟩

section Example

/-- Drive serves a folder with three files, two on the first page. -/
def pagedServe : Drive.Answer := fun q pageToken =>
  if q = Drive.foldersQuery "root" then
    some ⟨[⟨"q", "2023-Q1", "2023-01-21T18:22:04.000Z", none⟩], none⟩
  else if q = Drive.filesQuery "q" then
    if pageToken = none then some ⟨[oldFile "f", newFile "g"], some "2"⟩
    else some ⟨[newFile "i"], none⟩
  else none

/-- A host with this Drive. -/
def pagedHost : Host :=
  { exampleHost with answers := List.replicate 4 pagedServe }

theorem serves_pagedServe :
    Drive.Serves pagedServe "root" [⟨"q", "2023-Q1", "2023-01-21T18:22:04.000Z", none⟩]
      (fun _ => [oldFile "f", newFile "g"] ++ [newFile "i"]) 2 where
  root := ⟨1, by decide, .last rfl⟩
  folder d hd := by
    obtain rfl := List.mem_singleton.mp hd
    exact ⟨2, le_rfl, .more rfl (.last rfl)⟩

/-- The file on the second page has its row, and the one that is gone has none. -/
theorem index_of_tree_pagedServe :
    (syncStatsbookIndex pagedHost 4 indexedDb "root" none).db.statsbooks.has "i" = true ∧
      (syncStatsbookIndex pagedHost 4 indexedDb "root" none).db.statsbooks.has "h" = false := by
  have hindex := @index_of_tree indexedDb pagedHost 4 4 2 pagedServe "root" none ⟨3, 3, 2⟩ _ _
    (fun _ _ h => Int.ofNat_lt.mpr h) stamped_indexedDb serves_pagedServe rfl (by decide)
    (by decide +kernel)
  refine ⟨(hindex "i").1.mpr ⟨_, List.mem_singleton_self _, newFile "i", by simp, rfl⟩, ?_⟩
  rw [Bool.eq_false_iff]
  intro hhas
  obtain ⟨d, -, file, hfile, hid⟩ := (hindex "h").1.mp hhas
  revert hid
  revert file
  decide

end Example

end Index
end Statskboo
