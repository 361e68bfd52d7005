import Statskboo.Ingest.DataCache

/-!
# Re-keying the cache

The old cache names its files by the canonical id of a game, the new one by the Drive file
id.  The re-key goes through the Drive ids of a mapping in ascending order; for each it
picks the candidate of highest parser version whose file is there, and renames or copies
it, unless the new name is taken.  The directory changes under the loop.  A file operation
may fail, and then the loop stops.

Main results:

- Theorem {lit}`chosen_spec`: which candidate is picked.
- Theorems {lit}`get?_carry_ok` and {lit}`get?_carry_error`: what one file operation
  leaves.
- Theorem {lit}`rekeyLoop_append`: the loop over some ids, then over the rest.
-/

namespace Statskboo
namespace Rekey

open DataCache KeyedTable

/-! ## The directory, the mapping and the report -/

/-- An entry of the cache directory. -/
inductive Entry where
  | file (f : CacheFile)
  | directory
deriving DecidableEq, Repr

/-- Whether an entry is a regular file. -/
def Entry.isFile : Entry → Bool
  | file _ => true
  | directory => false

/-- The cache directory; one that does not exist has no entries. -/
abbrev Dir := Table String Entry

/-- {lit}`Path::is_file` for a name in the directory. -/
def isFile (dir : Dir) (name : String) : Bool :=
  (dir.get? name).any Entry.isFile

/-- One legacy-to-new mapping. -/
structure MappingRow where
  driveFileId : String
  canonicalId : String
  parserVersion : Int
deriving DecidableEq, Repr

/-- A file that got its new name. -/
structure MappedFile where
  driveFileId : String
  canonicalId : String
  parserVersion : Int
deriving DecidableEq, Repr

/-- Outcome of a re-key run. -/
structure RekeyReport where
  mappingRows : Nat
  driveFileIds : Nat
  mapped : Nat
  skipped : Nat
  missing : Nat
  orphan : Nat
  copied : Bool
  dryRun : Bool
  mappedFiles : List MappedFile
  skippedIds : List String
  missingIds : List String
  orphanFiles : List String
  warnings : List String
deriving DecidableEq, Repr

/-- What stops a run. -/
inductive RekeyError where
  | metadata (src : String)
  | copying (src dst : String)
  | renaming (src dst : String)
  | readDir
deriving DecidableEq, Repr

/-- How the file operations for one Drive id go: whether reading the metadata or the rename
fails; a copy that fails leaves nothing or a first part of the bytes; the error that keeps
the times from being carried over; and the time of the copy. -/
structure Fate where
  metadataFails : Bool
  copyFails : Option (Option Nat)
  timesError : Option String
  renameFails : Bool
  now : Int

/-- How the file operations of a run go. -/
structure Faults where
  fate : String → Fate
  readDirFails : Bool

/-! ## One Drive id -/

/-- The candidates whose legacy file is there, with its name. -/
def existing (isFile : String → Bool) (candidates : List MappingRow) :
    List (String × MappingRow) :=
  candidates.filterMap fun row =>
    ((cachePath row.canonicalId).filter isFile).map fun src => (src, row)

/-- The better of the best so far and a later one, which wins a tie. -/
def laterOfHighest (best : Option (String × MappingRow)) (p : String × MappingRow) :
    String × MappingRow :=
  match best with
  | none => p
  | some b => if p.2.parserVersion < b.2.parserVersion then b else p

/-- {lit}`max_by_key` for the parser version: the last one of the highest. -/
def maxByVersion (l : List (String × MappingRow)) : Option (String × MappingRow) :=
  l.foldl (fun best p => some (laterOfHighest best p)) none

/-- Highest parser version among candidates whose legacy file exists. -/
def chosen (isFile : String → Bool) (candidates : List MappingRow) :
    Option (String × MappingRow) :=
  maxByVersion (existing isFile candidates)

/-- What is to be done for a Drive id. -/
inductive Decision where
  | missing
  | skipped
  | mapped (src dst : String) (row : MappingRow)
deriving DecidableEq, Repr

/-- The decision for a Drive id with its candidates, given which names are files and which
exist. -/
def decision (isFile has : String → Bool) (g : String × List MappingRow) : Decision :=
  match cachePath g.1 with
  | none => .missing
  | some dst =>
      match chosen isFile g.2 with
      | none => .missing
      | some (src, row) => if has dst then .skipped else .mapped src dst row

/-- Copy or rename a file; returns the warnings. -/
def carry (fate : Fate) (copy : Bool) (dir : Dir) (src dst : String) :
    Dir × Except RekeyError (List String) :=
  if copy then
    if fate.metadataFails then (dir, .error (.metadata src))
    else
      match dir.get? src with
      | some (.file f) =>
          match fate.copyFails with
          | some none => (dir, .error (.copying src dst))
          | some (some n) =>
              (dir.upsert dst (.file { bytes := f.bytes.take n, mtime := fate.now }),
                .error (.copying src dst))
          | none =>
              match fate.timesError with
              | none => (dir.upsert dst (.file f), .ok [])
              | some e =>
                  (dir.upsert dst (.file { f with mtime := fate.now }),
                    .ok ["could not preserve mtime on " ++ dst ++ ": " ++ e])
      | _ => (dir, .error (.copying src dst))
  else if fate.renameFails then (dir, .error (.renaming src dst))
  else
    match dir.get? src with
    | some entry => ((dir.erase src).upsert dst entry, .ok [])
    | none => (dir, .error (.renaming src dst))

/-- Count a decision in the report. -/
def RekeyReport.add (report : RekeyReport) (driveFileId : String) (warnings : List String) :
    Decision → RekeyReport
  | .missing =>
      { report with
        missing := report.missing + 1
        missingIds := report.missingIds ++ [driveFileId] }
  | .skipped =>
      { report with
        skipped := report.skipped + 1
        skippedIds := report.skippedIds ++ [driveFileId] }
  | .mapped _ _ row =>
      { report with
        warnings := report.warnings ++ warnings
        mapped := report.mapped + 1
        mappedFiles := report.mappedFiles ++
          [{ driveFileId := driveFileId, canonicalId := row.canonicalId,
             parserVersion := row.parserVersion }] }

/-- The turn of one Drive id. -/
def rekeyStep (faults : Faults) (copy dryRun : Bool) (dir : Dir) (report : RekeyReport)
    (g : String × List MappingRow) : Dir × Except RekeyError RekeyReport :=
  match decision (isFile dir) dir.has g with
  | .mapped src dst row =>
      if dryRun then (dir, .ok (report.add g.1 [] (.mapped src dst row)))
      else
        match carry (faults.fate g.1) copy dir src dst with
        | (dir', .error e) => (dir', .error e)
        | (dir', .ok warnings) => (dir', .ok (report.add g.1 warnings (.mapped src dst row)))
  | d => (dir, .ok (report.add g.1 [] d))

/-! ## The run -/

/-- The Drive ids in turn; an error stops the run. -/
def rekeyLoop (faults : Faults) (copy dryRun : Bool) :
    List (String × List MappingRow) → Dir → RekeyReport → Dir × Except RekeyError RekeyReport
  | [], dir, report => (dir, .ok report)
  | g :: groups, dir, report =>
      match rekeyStep faults copy dryRun dir report g with
      | (dir', .error e) => (dir', .error e)
      | (dir', .ok report') => rekeyLoop faults copy dryRun groups dir' report'

/-- The candidates of each Drive id, in the order of the ids. -/
def groupsOf (rows : List MappingRow) : List (String × List MappingRow) :=
  (Table.index MappingRow.driveFileId rows).rows

/-- The report before the first id. -/
def startReport (copy dryRun : Bool) (rows : List MappingRow) : RekeyReport where
  mappingRows := ((groupsOf rows).map fun g => g.2.length).sum
  driveFileIds := (groupsOf rows).length
  mapped := 0
  skipped := 0
  missing := 0
  orphan := 0
  copied := copy
  dryRun := dryRun
  mappedFiles := []
  skippedIds := []
  missingIds := []
  orphanFiles := []
  warnings := []

/-- {lit}`.xlsx` files that are neither a destination nor a legacy source of the mapping. -/
def orphanFiles (rows : List MappingRow) (dir : Dir) : List String :=
  dir.keys.filter fun name =>
    ".xlsx".toList.isSuffixOf name.toList &&
      !(rows.any fun row => decide (cachePath row.driveFileId = some name)) &&
      !(rows.any fun row => decide (row.canonicalId ++ ".xlsx" = name))

/-- The re-key: the directory it leaves, and its report or error. -/
def rekey (faults : Faults) (copy dryRun : Bool) (dir : Dir) (rows : List MappingRow) :
    Dir × Except RekeyError RekeyReport :=
  match rekeyLoop faults copy dryRun (groupsOf rows) dir (startReport copy dryRun rows) with
  | (dir', .error e) => (dir', .error e)
  | (dir', .ok report) =>
      if faults.readDirFails then (dir', .error .readDir)
      else
        (dir', .ok { report with
          orphan := (orphanFiles rows dir').length
          orphanFiles := orphanFiles rows dir' })

/-! ## Which candidate is picked -/

section Decide

variable {isFile has : String → Bool} {candidates : List MappingRow} {src dst : String}
  {row : MappingRow} {g : String × List MappingRow}

theorem mem_existing {p : String × MappingRow} :
    p ∈ existing isFile candidates ↔
      p.2 ∈ candidates ∧ cachePath p.2.canonicalId = some p.1 ∧ isFile p.1 = true := by
  unfold existing
  rw [List.mem_filterMap]
  constructor
  · rintro ⟨row, hrow, hmap⟩
    obtain ⟨src, hsrc, rfl⟩ := Option.map_eq_some_iff.mp hmap
    exact ⟨hrow, Option.filter_eq_some_iff.mp hsrc⟩
  · rintro ⟨hrow, hsrc⟩
    exact ⟨p.2, hrow, Option.map_eq_some_iff.mpr ⟨p.1, Option.filter_eq_some_iff.mpr hsrc, rfl⟩⟩

theorem maxByVersion_append_singleton (l : List (String × MappingRow)) (p : String × MappingRow) :
    maxByVersion (l ++ [p]) = some (laterOfHighest (maxByVersion l) p) := by
  rw [maxByVersion, List.foldl_append]
  rfl

theorem maxByVersion_eq_none {l : List (String × MappingRow)} : maxByVersion l = none ↔ l = [] := by
  induction l using List.reverseRecOn with
  | nil => exact iff_of_true rfl rfl
  | append_singleton l p _ =>
      rw [maxByVersion_append_singleton]
      simp

/-- The picked candidate is one of them, and none has a higher version. -/
theorem maxByVersion_spec {l : List (String × MappingRow)} {p : String × MappingRow}
    (h : maxByVersion l = some p) :
    p ∈ l ∧ ∀ q ∈ l, q.2.parserVersion ≤ p.2.parserVersion := by
  induction l using List.reverseRecOn generalizing p with
  | nil => cases h
  | append_singleton l last ih =>
      rw [maxByVersion_append_singleton] at h
      have hpick := Option.some.inj h
      simp only [List.mem_append, List.mem_singleton]
      cases hbest : maxByVersion l with
      | none =>
          rw [hbest, laterOfHighest] at hpick
          rw [maxByVersion_eq_none.mp hbest]
          simp [hpick]
      | some best =>
          obtain ⟨hmem, hle⟩ := ih hbest
          rw [hbest, laterOfHighest] at hpick
          split_ifs at hpick with hlt
          · subst hpick
            refine ⟨Or.inl hmem, fun q hq => ?_⟩
            rcases hq with hq | rfl
            · exact hle q hq
            · exact hlt.le
          · subst hpick
            refine ⟨Or.inr rfl, fun q hq => ?_⟩
            rcases hq with hq | rfl
            · exact (hle q hq).trans (not_lt.mp hlt)
            · exact le_rfl

/-- The file of a candidate is there. -/
def HasFile (isFile : String → Bool) (row : MappingRow) : Prop :=
  ∃ src, cachePath row.canonicalId = some src ∧ isFile src = true

/-- The picked candidate has a file and, among the candidates with one, a highest version. -/
theorem chosen_spec (h : chosen isFile candidates = some (src, row)) :
    row ∈ candidates ∧ cachePath row.canonicalId = some src ∧ isFile src = true ∧
      ∀ row' ∈ candidates, HasFile isFile row' → row'.parserVersion ≤ row.parserVersion := by
  obtain ⟨hmem, hle⟩ := maxByVersion_spec h
  obtain ⟨hrow, hpath, hfile⟩ := mem_existing.mp hmem
  refine ⟨hrow, hpath, hfile, ?_⟩
  rintro row' hrow' ⟨src', hpath', hfile'⟩
  exact hle (src', row') (mem_existing.mpr ⟨hrow', hpath', hfile'⟩)

theorem chosen_eq_none_iff :
    chosen isFile candidates = none ↔ ∀ row ∈ candidates, ¬HasFile isFile row := by
  rw [chosen, maxByVersion_eq_none, List.eq_nil_iff_forall_not_mem]
  constructor
  · rintro h row hrow ⟨src, hpath, hfile⟩
    exact h (src, row) (mem_existing.mpr ⟨hrow, hpath, hfile⟩)
  · intro h p hp
    obtain ⟨hrow, hpath, hfile⟩ := mem_existing.mp hp
    exact h p.2 hrow ⟨p.1, hpath, hfile⟩

/-- A candidate is picked exactly when one of them has a file. -/
theorem isSome_chosen_iff :
    (chosen isFile candidates).isSome = true ↔ ∃ row ∈ candidates, HasFile isFile row := by
  rw [← Option.ne_none_iff_isSome, ne_eq, chosen_eq_none_iff]
  push Not
  rfl

theorem decision_eq_mapped_iff :
    decision isFile has g = .mapped src dst row ↔
      cachePath g.1 = some dst ∧ chosen isFile g.2 = some (src, row) ∧ has dst = false := by
  unfold decision
  cases cachePath g.1 with
  | none => simp
  | some path =>
      cases chosen isFile g.2 with
      | none => simp
      | some p =>
          dsimp only
          split_ifs with hhas
          · refine iff_of_false (fun h => nomatch h) ?_
            rintro ⟨hdst, -, hfree⟩
            rw [← Option.some.inj hdst, hhas] at hfree
            cases hfree
          · rw [Decision.mapped.injEq]
            constructor
            · rintro ⟨rfl, rfl, rfl⟩
              exact ⟨rfl, rfl, Bool.eq_false_iff.mpr hhas⟩
            · rintro ⟨hdst, hchosen, -⟩
              cases hdst
              cases hchosen
              exact ⟨rfl, rfl, rfl⟩

theorem decision_eq_skipped_iff :
    decision isFile has g = .skipped ↔
      ∃ dst, cachePath g.1 = some dst ∧ (chosen isFile g.2).isSome = true ∧ has dst = true := by
  unfold decision
  cases cachePath g.1 with
  | none => simp
  | some path =>
      cases chosen isFile g.2 with
      | none => simp
      | some p => cases hhas : has path <;> simp [hhas]

theorem decision_eq_missing_iff :
    decision isFile has g = .missing ↔ cachePath g.1 = none ∨ chosen isFile g.2 = none := by
  unfold decision
  cases cachePath g.1 with
  | none => simp
  | some path =>
      cases chosen isFile g.2 with
      | none => simp
      | some p => cases hhas : has path <;> simp [hhas]

end Decide

/-! ## One file operation -/

section Carry

variable {fate : Fate} {copy : Bool} {dir dir' : Dir} {src dst : String} {f : CacheFile}

/-- A file operation that succeeds gives the bytes a new name; a rename takes the old one
away. -/
theorem get?_carry_ok {warnings : List String} (hsrc : dir.get? src = some (.file f))
    (h : carry fate copy dir src dst = (dir', .ok warnings)) :
    ∃ f', f'.bytes = f.bytes ∧ ∀ name, dir'.get? name =
      if name = dst then some (.file f')
      else if copy = false ∧ name = src then none
      else dir.get? name := by
  unfold carry at h
  rw [hsrc] at h
  cases copy with
  | true =>
      simp only [if_true] at h
      split_ifs at h
      · cases h
      split at h
      · cases h
      · cases h
      · split at h
        · cases h
          exact ⟨f, rfl, fun name => by simp [Table.get?_upsert]⟩
        · cases h
          exact ⟨{ f with mtime := fate.now }, rfl, fun name => by simp [Table.get?_upsert]⟩
  | false =>
      simp only [Bool.false_eq_true, if_false] at h
      split_ifs at h
      · cases h
      · cases h
        exact ⟨f, rfl, fun name => by simp [Table.get?_upsert, Table.get?_erase]⟩

/-- A file operation that fails touches no name but the new one. -/
theorem get?_carry_error {e : RekeyError} (h : carry fate copy dir src dst = (dir', .error e))
    {name : String} (hname : name ≠ dst) : dir'.get? name = dir.get? name := by
  unfold carry at h
  split_ifs at h
  · cases h
    rfl
  · split at h
    · split at h
      · cases h
        rfl
      · cases h
        exact Table.get?_upsert_of_ne _ _ hname
      · split at h <;> cases h
    · cases h
      rfl
  · cases h
    rfl
  · split at h
    · cases h
    · cases h
      rfl

end Carry

/-! ## The loop -/

section Loop

variable {faults : Faults} {copy dryRun : Bool} {dir dir' : Dir} {report report' : RekeyReport}
  {groups : List (String × List MappingRow)} {g : String × List MappingRow}

/-- What a decision does to the directory when its file operation succeeds. -/
inductive Moved (copy dryRun : Bool) (dir dir' : Dir) : Decision → Prop where
  | unchanged {d : Decision} (hdir : dir' = dir)
      (hd : dryRun = true ∨ ∀ src dst row, d ≠ .mapped src dst row) : Moved copy dryRun dir dir' d
  | carried {src dst : String} {row : MappingRow} {f f' : CacheFile} (hreal : dryRun = false)
      (hsrc : dir.get? src = some (.file f)) (hdst : dir.has dst = false)
      (hbytes : f'.bytes = f.bytes)
      (hdir : ∀ name, dir'.get? name =
        if name = dst then some (.file f')
        else if copy = false ∧ name = src then none
        else dir.get? name) : Moved copy dryRun dir dir' (.mapped src dst row)

theorem isFile_iff {name : String} :
    isFile dir name = true ↔ ∃ f, dir.get? name = some (.file f) := by
  unfold isFile
  rw [Option.any_eq_true]
  constructor
  · rintro ⟨entry, hentry, hisFile⟩
    cases entry with
    | file f => exact ⟨f, hentry⟩
    | directory => cases hisFile
  · rintro ⟨f, hf⟩
    exact ⟨_, hf, rfl⟩

theorem exists_file_of_mapped {src dst : String} {row : MappingRow}
    (h : decision (isFile dir) dir.has g = .mapped src dst row) :
    ∃ f, dir.get? src = some (.file f) := by
  obtain ⟨-, hchosen, -⟩ := decision_eq_mapped_iff.mp h
  exact isFile_iff.mp (chosen_spec hchosen).2.2.1

/-- The turn of an id that does not stop the run. -/
theorem rekeyStep_ok (h : rekeyStep faults copy dryRun dir report g = (dir', .ok report')) :
    ∃ d warnings, decision (isFile dir) dir.has g = d ∧ report' = report.add g.1 warnings d ∧
      Moved copy dryRun dir dir' d := by
  unfold rekeyStep at h
  cases hd : decision (isFile dir) dir.has g with
  | missing =>
      rw [hd] at h
      cases h
      exact ⟨_, [], rfl, rfl, .unchanged rfl (Or.inr fun _ _ _ heq => nomatch heq)⟩
  | skipped =>
      rw [hd] at h
      cases h
      exact ⟨_, [], rfl, rfl, .unchanged rfl (Or.inr fun _ _ _ heq => nomatch heq)⟩
  | mapped src dst row =>
      rw [hd] at h
      dsimp only at h
      split_ifs at h with hdry
      · cases h
        exact ⟨_, [], rfl, rfl, .unchanged rfl (Or.inl hdry)⟩
      · obtain ⟨f, hsrc⟩ := exists_file_of_mapped hd
        obtain ⟨-, -, hdst⟩ := decision_eq_mapped_iff.mp hd
        cases hcarry : carry (faults.fate g.1) copy dir src dst with
        | mk dir₁ outcome =>
            rw [hcarry] at h
            cases outcome with
            | error e => cases h
            | ok warnings =>
                cases h
                obtain ⟨f', hbytes, hdir⟩ := get?_carry_ok hsrc hcarry
                exact ⟨_, warnings, rfl, rfl,
                  .carried (Bool.eq_false_iff.mpr hdry) hsrc hdst hbytes hdir⟩

/-- The turn of an id that stops the run. -/
theorem rekeyStep_error {e : RekeyError}
    (h : rekeyStep faults copy dryRun dir report g = (dir', .error e)) :
    ∃ dst, cachePath g.1 = some dst ∧ dir.has dst = false ∧
      ∀ name, name ≠ dst → dir'.get? name = dir.get? name := by
  unfold rekeyStep at h
  cases hd : decision (isFile dir) dir.has g with
  | missing =>
      rw [hd] at h
      cases h
  | skipped =>
      rw [hd] at h
      cases h
  | mapped src dst row =>
      obtain ⟨hpath, -, hdst⟩ := decision_eq_mapped_iff.mp hd
      rw [hd] at h
      dsimp only at h
      split_ifs at h
      · cases h
      · cases hcarry : carry (faults.fate g.1) copy dir src dst with
        | mk dir₁ outcome =>
            rw [hcarry] at h
            cases outcome with
            | ok warnings => cases h
            | error e' =>
                cases h
                exact ⟨dst, hpath, hdst, fun name hname => get?_carry_error hcarry hname⟩

/-- The loop over some ids, then over the rest. -/
theorem rekeyLoop_append (before after : List (String × List MappingRow)) (dir : Dir)
    (report : RekeyReport) :
    rekeyLoop faults copy dryRun (before ++ after) dir report =
      match rekeyLoop faults copy dryRun before dir report with
      | (dir', .error e) => (dir', .error e)
      | (dir', .ok report') => rekeyLoop faults copy dryRun after dir' report' := by
  induction before generalizing dir report with
  | nil => rfl
  | cons g before ih =>
      rw [List.cons_append, rekeyLoop, rekeyLoop]
      cases rekeyStep faults copy dryRun dir report g with
      | mk dir₁ outcome =>
          cases outcome with
          | error e => rfl
          | ok report₁ => exact ih dir₁ report₁

/-- What each turn preserves, the loop preserves. -/
theorem rekeyLoop_invariant {P : Dir → Prop} {outcome : Except RekeyError RekeyReport}
    (hstep : ∀ g ∈ groups, ∀ dir report dir' outcome,
      rekeyStep faults copy dryRun dir report g = (dir', outcome) → P dir → P dir')
    (h : rekeyLoop faults copy dryRun groups dir report = (dir', outcome)) (hdir : P dir) :
    P dir' := by
  induction groups generalizing dir report with
  | nil =>
      cases h
      exact hdir
  | cons g groups ih =>
      rw [rekeyLoop] at h
      cases hturn : rekeyStep faults copy dryRun dir report g with
      | mk dir₁ outcome₁ =>
          rw [hturn] at h
          have hdir₁ := hstep g List.mem_cons_self dir report dir₁ outcome₁ hturn hdir
          cases outcome₁ with
          | error e =>
              cases h
              exact hdir₁
          | ok report₁ =>
              exact ih (fun g' hg' => hstep g' (List.mem_cons_of_mem g hg')) h hdir₁

/-- A run that ends well has a turn for every id, with the loop before it and after it. -/
theorem rekeyLoop_split {before after : List (String × List MappingRow)}
    (h : rekeyLoop faults copy dryRun (before ++ g :: after) dir report = (dir', .ok report')) :
    ∃ dir₁ report₁ dir₂ report₂,
      rekeyLoop faults copy dryRun before dir report = (dir₁, .ok report₁) ∧
      rekeyStep faults copy dryRun dir₁ report₁ g = (dir₂, .ok report₂) ∧
      rekeyLoop faults copy dryRun after dir₂ report₂ = (dir', .ok report') := by
  rw [rekeyLoop_append] at h
  cases hbefore : rekeyLoop faults copy dryRun before dir report with
  | mk dir₁ outcome₁ =>
      rw [hbefore] at h
      cases outcome₁ with
      | error e => cases h
      | ok report₁ =>
          dsimp only at h
          rw [rekeyLoop] at h
          cases hturn : rekeyStep faults copy dryRun dir₁ report₁ g with
          | mk dir₂ outcome₂ =>
              rw [hturn] at h
              cases outcome₂ with
              | error e => cases h
              | ok report₂ => exact ⟨dir₁, report₁, dir₂, report₂, rfl, hturn, h⟩

end Loop

/-! ## The groups of a mapping -/

section Groups

variable {rows : List MappingRow} {g : String × List MappingRow}

theorem groupsOf_ascending (rows : List MappingRow) :
    (groupsOf rows).Pairwise fun g g' => g.1 < g'.1 :=
  (Table.index MappingRow.driveFileId rows).ascending

/-- A group holds the rows of its id, of which there are some. -/
theorem mem_groupsOf_iff :
    g ∈ groupsOf rows ↔
      g.1 ∈ rows.map MappingRow.driveFileId ∧
        g.2 = rows.filter fun r => decide (r.driveFileId = g.1) :=
  Table.mem_rows_index_iff MappingRow.driveFileId rows

theorem exists_group {r : MappingRow} (hr : r ∈ rows) :
    ∃ g ∈ groupsOf rows, g.1 = r.driveFileId ∧ r ∈ g.2 :=
  ⟨(r.driveFileId, rows.filter fun r' => decide (r'.driveFileId = r.driveFileId)),
    mem_groupsOf_iff.mpr ⟨List.mem_map_of_mem hr, rfl⟩, rfl,
    List.mem_filter.mpr ⟨hr, decide_eq_true rfl⟩⟩

theorem mem_of_mem_group {r : MappingRow} (hg : g ∈ groupsOf rows) (hr : r ∈ g.2) :
    r ∈ rows ∧ r.driveFileId = g.1 := by
  rw [(mem_groupsOf_iff.mp hg).2] at hr
  obtain ⟨hmem, hid⟩ := List.mem_filter.mp hr
  exact ⟨hmem, of_decide_eq_true hid⟩

/-- The ids before a group are those below its own. -/
theorem filter_lt_eq_before {before after : List (String × List MappingRow)}
    (h : groupsOf rows = before ++ g :: after) :
    (groupsOf rows).filter (fun g' => decide (g'.1 < g.1)) = before := by
  have hascending := groupsOf_ascending rows
  rw [h] at hascending ⊢
  obtain ⟨-, hafter, hcross⟩ := List.pairwise_append.mp hascending
  rw [List.filter_append, List.filter_eq_self.mpr, List.filter_eq_nil_iff.mpr, List.append_nil]
  · intro g' hg'
    have hle : g.1 ≤ g'.1 := by
      rcases List.mem_cons.mp hg' with rfl | hg'
      · exact le_rfl
      · exact ((List.pairwise_cons.mp hafter).1 g' hg').le
    exact fun hlt => not_lt.mpr hle (of_decide_eq_true hlt)
  · intro g' hg'
    exact decide_eq_true (hcross g' hg' g List.mem_cons_self)

end Groups

/-! ## The run -/

section Run

variable {rows : List MappingRow} {faults : Faults} {copy dryRun : Bool} {dir dir' : Dir}
  {report : RekeyReport}

/-- The look for orphans changes no file. -/
theorem rekeyLoop_of_rekey {outcome : Except RekeyError RekeyReport}
    (h : rekey faults copy dryRun dir rows = (dir', outcome)) :
    ∃ outcome₀, rekeyLoop faults copy dryRun (groupsOf rows) dir (startReport copy dryRun rows) =
      (dir', outcome₀) := by
  unfold rekey at h
  split at h
  · next hloop =>
      cases h
      exact ⟨_, hloop⟩
  · next hloop =>
      split_ifs at h
      · cases h
        exact ⟨_, hloop⟩
      · cases h
        exact ⟨_, hloop⟩

/-- A run that ends well adds the orphans to what the loop reports. -/
theorem rekey_ok (h : rekey faults copy dryRun dir rows = (dir', .ok report)) :
    ∃ report₀,
      rekeyLoop faults copy dryRun (groupsOf rows) dir (startReport copy dryRun rows) =
        (dir', .ok report₀) ∧
      report = { report₀ with
        orphan := (orphanFiles rows dir').length
        orphanFiles := orphanFiles rows dir' } := by
  unfold rekey at h
  split at h
  · cases h
  · next dir₁ report₀ hloop =>
      split_ifs at h
      · cases h
      · cases h
        exact ⟨report₀, hloop, rfl⟩

end Run

end Rekey
end Statskboo
