import Statskboo.Rekey.Turns

/-!
# The re-key keeps every byte

The ids of a mapping may compete for the same legacy files, and a run may stop at any file
operation.  No turn overwrites a file, so nothing is lost; and where no canonical id is
also a Drive id, a destination is written once and never moved on.

Main results:

- Theorem {lit}`hasContent_rekeyLoop`: every content stays in the directory.
- Theorem {lit}`rekey_keeps`: what a run leaves under the new names.
-/

namespace Statskboo
namespace Rekey

open DataCache KeyedTable

variable {rows : List MappingRow} {faults : Faults} {copy dryRun : Bool} {dir dir' : Dir}
  {report : RekeyReport} {outcome : Except RekeyError RekeyReport}
  {g : String × List MappingRow} {groups : List (String × List MappingRow)} {name : String}

/-! ## No content is lost -/

/-- Some file of the directory has these bytes. -/
def HasContent (dir : Dir) (bytes : Bytes) : Prop :=
  ∃ name f, dir.get? name = some (.file f) ∧ f.bytes = bytes

/-- No turn loses a content, whether or not it stops the run. -/
theorem hasContent_rekeyStep {bytes : Bytes}
    (h : rekeyStep faults copy dryRun dir report g = (dir', outcome))
    (hcontent : HasContent dir bytes) : HasContent dir' bytes := by
  obtain ⟨name, f, hname, hbytes⟩ := hcontent
  cases outcome with
  | error e =>
      obtain ⟨dst, -, hdst, hframe⟩ := rekeyStep_error h
      exact ⟨name, f, (hframe name (ne_of_get? hdst hname)).trans hname, hbytes⟩
  | ok report' =>
      obtain ⟨d, -, -, -, hmoved⟩ := rekeyStep_ok h
      cases hmoved with
      | unchanged hdir => exact ⟨name, f, hdir ▸ hname, hbytes⟩
      | @carried src dst row f₀ f' hreal hsrc hdst hf' hdir =>
          by_cases hmove : copy = false ∧ name = src
          · -- the content goes along to the new name
            rw [hmove.2, hsrc] at hname
            cases hname
            exact ⟨dst, f', by rw [hdir, if_pos rfl], hf'.trans hbytes⟩
          · refine ⟨name, f, ?_, hbytes⟩
            rw [hdir, if_neg (ne_of_get? hdst hname), if_neg hmove, hname]

theorem hasContent_rekeyLoop {bytes : Bytes}
    (h : rekeyLoop faults copy dryRun groups dir report = (dir', outcome))
    (hcontent : HasContent dir bytes) : HasContent dir' bytes :=
  rekeyLoop_invariant (fun _ _ _ _ _ _ hturn => hasContent_rekeyStep hturn) h hcontent

/-! ## Destinations stay -/

/-- A name that no candidate has keeps what it holds. -/
theorem get?_rekeyStep (h : rekeyStep faults copy dryRun dir report g = (dir', outcome))
    (hname : ∀ row ∈ g.2, cachePath row.canonicalId ≠ some name) {entry : Entry}
    (hentry : dir.get? name = some entry) : dir'.get? name = some entry := by
  cases outcome with
  | error e =>
      obtain ⟨dst, -, hdst, hframe⟩ := rekeyStep_error h
      exact (hframe name (ne_of_get? hdst hentry)).trans hentry
  | ok report' =>
      obtain ⟨d, -, hd, -, hmoved⟩ := rekeyStep_ok h
      cases hmoved with
      | unchanged hdir => exact hdir ▸ hentry
      | @carried src dst row _ _ hreal hsrc hdst hbytes hdir =>
          obtain ⟨-, hchosen, -⟩ := decision_eq_mapped_iff.mp hd
          obtain ⟨hrow, hpath, -⟩ := chosen_spec hchosen
          have hne : name ≠ src := fun heq => hname row hrow (heq ▸ hpath)
          rw [hdir, if_neg (ne_of_get? hdst hentry), if_neg fun hmove => hne hmove.2, hentry]

theorem get?_rekeyLoop (h : rekeyLoop faults copy dryRun groups dir report = (dir', outcome))
    (hname : ∀ g ∈ groups, ∀ row ∈ g.2, cachePath row.canonicalId ≠ some name) {entry : Entry}
    (hentry : dir.get? name = some entry) : dir'.get? name = some entry :=
  rekeyLoop_invariant (P := fun dir => dir.get? name = some entry)
    (fun g hg _ _ _ _ hturn => get?_rekeyStep hturn (hname g hg)) h hentry

/-! ## The files that got a new name -/

/-- The row that a mapped file stands for. -/
def MappedFile.row (m : MappedFile) : MappingRow where
  driveFileId := m.driveFileId
  canonicalId := m.canonicalId
  parserVersion := m.parserVersion

/-- A mapped file is a candidate of its id that has a file, and none of the candidates with a
file has a higher version. -/
structure BestCandidate (rows : List MappingRow) (dir : Dir) (m : MappedFile) : Prop where
  candidate : m.row ∈ rows
  hasFile : HasFile (isFile dir) m.row
  highest : ∀ r ∈ rows, r.driveFileId = m.driveFileId → HasFile (isFile dir) r →
    r.parserVersion ≤ m.parserVersion

/-- No canonical id of the mapping is also a Drive id of it. -/
def DisjointIds (rows : List MappingRow) : Prop :=
  ∀ r ∈ rows, ∀ r' ∈ rows, r.canonicalId ≠ r'.driveFileId

/-- A destination is the file of no candidate. -/
theorem DisjointIds.ne_candidate (hdisjoint : DisjointIds rows) {r r' : MappingRow} (hr : r ∈ rows)
    (hr' : r' ∈ rows) (hpath : cachePath r.driveFileId = some name) :
    cachePath r'.canonicalId ≠ some name :=
  fun hpath' => hdisjoint _ hr' _ hr (cachePath_injective hpath' hpath)

/-- Then a turn that maps finds its source as it was before the run, and its destination is not
moved on. -/
theorem mapped_keeps (hdisjoint : DisjointIds rows) {report : RekeyReport}
    (h : rekey faults copy false dir rows = (dir', .ok report)) (hg : g ∈ groupsOf rows)
    {src dst : String} {row : MappingRow}
    (hd : decisionAt faults copy false dir rows g = .mapped src dst row) :
    ∃ f f', dir.get? src = some (.file f) ∧ dir'.get? dst = some (.file f') ∧
      f'.bytes = f.bytes := by
  obtain ⟨before, after, dir₂, hsplit, hbefore, hmoved, hafter⟩ := exists_turn h hg
  obtain ⟨hpath, hchosen, -⟩ := decision_eq_mapped_iff.mp hd
  obtain ⟨hrow, hsrcPath, -⟩ := chosen_spec hchosen
  obtain ⟨hrows, hrowId⟩ := mem_of_mem_group hg hrow
  rw [hd] at hmoved
  cases hmoved with
  | unchanged _ hnot => exact absurd rfl (hnot.resolve_left Bool.false_ne_true src dst row)
  | @carried _ _ _ f f' _ hsrc _ hbytes hdir₂ =>
      have hsource : dir.get? src = some (.file f) := by
        rcases get?_or_mapped_of_trace hbefore hsrc with hold | ⟨src', row', hmem⟩
        · exact hold
        · obtain ⟨g', hg', -, hd'⟩ := earlier_of_mem_decisions hsplit hmem
          obtain ⟨r', hr', hr'id⟩ := List.mem_map.mp (mem_groupsOf_iff.mp hg').1
          have hmade : cachePath r'.driveFileId = some src :=
            hr'id ▸ (decision_eq_mapped_iff.mp hd').1
          exact absurd hsrcPath (hdisjoint.ne_candidate hr' hrows hmade)
      have hdest : dir'.get? dst = some (.file f') := by
        refine get?_of_trace hafter ?_ ((hdir₂ dst).trans (if_pos rfl))
        rintro - src' dst' row' hmem rfl
        obtain ⟨g', hg', -, hd'⟩ := later_of_mem_decisions hsplit hmem
        obtain ⟨hrow', htaken, -⟩ := chosen_spec (decision_eq_mapped_iff.mp hd').2.1
        exact hdisjoint.ne_candidate hrows (mem_of_mem_group hg' hrow').1 (hrowId ▸ hpath) htaken
      exact ⟨f, f', hsource, hdest, hbytes⟩

/-- What a run of the re-key leaves when no canonical id is also a Drive id. -/
theorem rekey_keeps (hdisjoint : DisjointIds rows)
    (h : rekey faults copy false dir rows = (dir', outcome)) :
    (∀ report, outcome = .ok report → ∀ m ∈ report.mappedFiles,
      BestCandidate rows (dirBefore faults copy false dir rows m.driveFileId) m ∧
      ∃ src dst f f', cachePath m.canonicalId = some src ∧ cachePath m.driveFileId = some dst ∧
        dir.get? src = some (.file f) ∧ dir'.get? dst = some (.file f') ∧ f'.bytes = f.bytes) ∧
    (∀ r ∈ rows, ∀ dst entry, cachePath r.driveFileId = some dst → dir.get? dst = some entry →
      dir'.get? dst = some entry) ∧
    ∀ name f, dir.get? name = some (.file f) → HasContent dir' f.bytes := by
  obtain ⟨outcome₀, hrun⟩ := rekeyLoop_of_rekey h
  refine ⟨?_, ?_, fun name f hname => hasContent_rekeyLoop hrun ⟨name, f, hname, rfl⟩⟩
  · rintro report rfl m hm
    obtain ⟨g, hg, hid, src, dst, row, hd, hcanon, hversion⟩ :=
      exists_decision_of_mem_mappedFiles h hm
    obtain ⟨hpath, hchosen, -⟩ := decision_eq_mapped_iff.mp hd
    obtain ⟨hrow, hsrcPath, hsrcFile, hhighest⟩ := chosen_spec hchosen
    obtain ⟨hrows, hrowId⟩ := mem_of_mem_group hg hrow
    have hmrow : m.row = row := by
      rw [MappedFile.row, hid, ← hcanon, ← hversion, ← hrowId]
    refine ⟨?_, ?_⟩
    · rw [hid]
      refine ⟨hmrow ▸ hrows, hmrow ▸ ⟨src, hsrcPath, hsrcFile⟩, fun r hr hrid hfile => ?_⟩
      have hgroup : r ∈ g.2 := by
        rw [(mem_groupsOf_iff.mp hg).2]
        exact List.mem_filter.mpr ⟨hr, decide_eq_true (hrid.trans hid)⟩
      rw [← hversion]
      exact hhighest r hgroup hfile
    · obtain ⟨f, f', hsource, hdest, hbytes⟩ := mapped_keeps hdisjoint h hg hd
      exact ⟨src, dst, f, f', hcanon ▸ hsrcPath, hid ▸ hpath, hsource, hdest, hbytes⟩
  · intro r hr dst entry hpath hentry
    refine get?_rekeyLoop hrun (fun g hg row hrow => ?_) hentry
    exact hdisjoint.ne_candidate hr (mem_of_mem_group hg hrow).1 hpath

/-! ## Two ids that compete for a file -/

section Example

/-- Every file operation succeeds. -/
def noFaults : Faults where
  fate _ := { metadataFails := false, copyFails := none, timesError := none, renameFails := false,
              now := 0 }
  readDirFails := false

/-- A legacy file. -/
def legacyFile (bytes : Bytes) : Entry :=
  .file { bytes, mtime := 1 }

/-- Three legacy files. -/
def legacyDir : Dir :=
  ((Table.empty.upsert "canonA1.xlsx" (legacyFile [1])).upsert "canonA5.xlsx"
    (legacyFile [5])).upsert "canonB.xlsx" (legacyFile [2])

/-- Both ids have the file of the highest version among their candidates. -/
def sharedRows : List MappingRow :=
  [⟨"idA", "canonA1", 1⟩, ⟨"idA", "canonA5", 5⟩, ⟨"idB", "canonA5", 5⟩, ⟨"idB", "canonB", 2⟩]

/-- The first id gets the file, and the second one its next candidate. -/
theorem rekey_keeps_sharedRows :
    ∃ dir' f f', rekey noFaults false false legacyDir sharedRows = (dir', .ok
        { mappingRows := 4, driveFileIds := 2, mapped := 2, skipped := 0, missing := 0, orphan := 0,
          copied := false, dryRun := false,
          mappedFiles := [⟨"idA", "canonA5", 5⟩, ⟨"idB", "canonB", 2⟩], skippedIds := [],
          missingIds := [], orphanFiles := [], warnings := [] }) ∧
      legacyDir.get? "canonB.xlsx" = some (.file f) ∧ dir'.get? "idB.xlsx" = some (.file f') ∧
      f'.bytes = f.bytes := by
  have hrun : rekey noFaults false false legacyDir sharedRows =
      ((rekey noFaults false false legacyDir sharedRows).1, .ok _) := Prod.ext rfl rfl
  have hdisjoint : DisjointIds sharedRows := by
    unfold DisjointIds
    decide
  obtain ⟨hmapped, -, -⟩ := rekey_keeps hdisjoint hrun
  obtain ⟨-, src, dst, f, f', hsrc, hdst, hold, hnew, hbytes⟩ :=
    hmapped _ rfl ⟨"idB", "canonB", 2⟩ (by decide)
  cases hsrc
  cases hdst
  exact ⟨_, f, f', hrun, hold, hnew, hbytes⟩

end Example

end Rekey
end Statskboo
