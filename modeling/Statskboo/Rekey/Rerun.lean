import Statskboo.Rekey.DryRun

/-!
# Running the re-key again

The source of an id is looked for before its destination.  An id that is done is only
recognised as done while one of its candidates still has a file, and a rename takes that
file away.

Main results:

- Theorem {lit}`again_iff`: what a second run does, from the decisions before it.
- Theorem {lit}`decisionAt_eq_foreseen`: the decisions of a run, from its first directory.
- Theorem {lit}`rekey_again_iff`: when ids that are done are recognised as done.
- Theorem {lit}`repeatable_copy_iff`: in particular, when copies are.
-/

namespace Statskboo
namespace Rekey

open DataCache KeyedTable

/-- What a first run that ends well and a run after it make of ids that are done: an id with
its destination is skipped and left alone; the second run changes nothing, maps nothing and
skips every id that was mapped or skipped. -/
structure RecognisedAsDone (copy : Bool) (dir : Dir) (rows : List MappingRow) (dir₁ : Dir)
    (report : RekeyReport) : Prop where
  skipped : ∀ r ∈ rows, ∀ dst, cachePath r.driveFileId = some dst → dir.has dst = true →
    r.driveFileId ∈ report.skippedIds ∧ dir₁.get? dst = dir.get? dst
  unchanged : ∀ faults, (rekey faults copy false dir₁ rows).1 = dir₁
  again : ∀ faults, faults.readDirFails = false →
    ∃ report₂, (rekey faults copy false dir₁ rows).2 = .ok report₂ ∧ report₂.mappedFiles = [] ∧
      ∀ id, id ∈ report.mappedFiles.map MappedFile.driveFileId ∨ id ∈ report.skippedIds →
        id ∈ report₂.skippedIds

/-- The files that some ids take and make. -/
structure Moves where
  taken : List String
  made : List String

/-- Whether a name is a file once the moves are made in a directory. -/
def Moves.leaves (m : Moves) (dir : Dir) (name : String) : Bool :=
  isFile dir name && !m.taken.contains name || m.made.contains name

/-- One more move; a copy takes nothing. -/
def Moves.add (copy : Bool) (m : Moves) (d : Decision) : Moves where
  taken := if copy then m.taken else m.taken ++ d.source.toList
  made := m.made ++ d.destination.toList

/-- The moves that a directory calls for, id by id: an id without its destination takes the best
of the candidates' files that the smaller ids leave. -/
def movesOf (copy : Bool) (dir : Dir) (groups : List (String × List MappingRow)) : Moves :=
  groups.foldl (fun m g => m.add copy (decision (m.leaves dir) dir.has g)) ⟨[], []⟩

/-- The moves that the first directory calls for leave what is done to be recognised. -/
structure Repeatable (copy : Bool) (dir : Dir) (rows : List MappingRow) : Prop where
  /-- No move takes a file that is a destination. -/
  taken : ∀ src ∈ (movesOf copy dir (groupsOf rows)).taken,
    ∀ r ∈ rows, cachePath r.driveFileId ≠ some src
  /-- To an id with its destination the smaller ids leave a candidate's file. -/
  atTurn : ∀ g ∈ groupsOf rows, ∀ dst, cachePath g.1 = some dst → dir.has dst = true →
    ∃ row ∈ g.2, HasFile ((movesOf copy dir (earlier rows g.1)).leaves dir) row
  /-- All moves leave a candidate's file to the ids with their destinations, and to no others. -/
  spare : ∀ g ∈ groupsOf rows, ∀ dst, cachePath g.1 = some dst →
    ((∃ row ∈ g.2, HasFile ((movesOf copy dir (groupsOf rows)).leaves dir) row) ↔
      dir.has dst = true ∨ dst ∈ (movesOf copy dir (groupsOf rows)).made)

variable {faults : Faults} {copy : Bool} {dir dir₁ dir' : Dir} {rows : List MappingRow}
  {report : RekeyReport} {groups : List (String × List MappingRow)}
  {g : String × List MappingRow} {ds : List Decision} {l : List (String × Decision)}
  {name : String} {entry : Entry}

/-! ## The second run -/

/-- A loop in which nothing is to be mapped leaves the directory. -/
theorem rekeyLoop_idle {report : RekeyReport}
    (hidle : ∀ g ∈ groups, ∀ src dst row, planned dir g ≠ .mapped src dst row)
    (hlists : Lists report l) :
    ∃ report', rekeyLoop faults copy false groups dir report = (dir, .ok report') ∧
      Lists report' (l ++ groups.map fun g => (g.1, planned dir g)) := by
  induction groups generalizing report l with
  | nil => exact ⟨report, rfl, by simpa using hlists⟩
  | cons g groups ih =>
      have hturn : rekeyStep faults copy false dir report g =
          (dir, .ok (report.add g.1 [] (planned dir g))) := by
        unfold rekeyStep
        cases hd : planned dir g with
        | missing =>
            rw [planned] at hd
            rw [hd]
        | skipped =>
            rw [planned] at hd
            rw [hd]
        | mapped src dst row => exact absurd hd (hidle g List.mem_cons_self src dst row)
      obtain ⟨report', hloop, hlists'⟩ :=
        ih (fun g' hg' => hidle g' (List.mem_cons_of_mem g hg'))
          (hlists.add g.1 [] (planned dir g))
      refine ⟨report', ?_, by simpa using hlists'⟩
      rw [rekeyLoop, hturn]
      exact hloop

/-- Turns that map nothing leave the directory. -/
theorem eq_of_trace (h : Trace copy false dir groups ds dir')
    (hidle : ∀ src dst row, Decision.mapped src dst row ∉ ds) : dir' = dir := by
  induction h with
  | nil => rfl
  | cons hd hmoved hrest ih =>
      rw [ih fun src dst row hmem => hidle src dst row (List.mem_cons_of_mem _ hmem)]
      cases hmoved with
      | unchanged hdir => exact hdir
      | @carried src dst row => exact absurd List.mem_cons_self (hidle src dst row)

/-- The ids that are reported as mapped or skipped are those that were not found missing. -/
theorem done_iff (h : rekey faults copy false dir rows = (dir₁, .ok report)) {id : String} :
    id ∈ report.mappedFiles.map MappedFile.driveFileId ∨ id ∈ report.skippedIds ↔
      ∃ g ∈ groupsOf rows, g.1 = id ∧ decisionAt faults copy false dir rows g ≠ .missing := by
  have hlists := (lists_of_rekey h).2
  constructor
  · rintro (hmapped | hskipped)
    · obtain ⟨m, hm, rfl⟩ := List.mem_map.mp hmapped
      obtain ⟨g, hg, hid, src, dst, row, hd, -⟩ := exists_decision_of_mem_mappedFiles h hm
      exact ⟨g, hg, hid.symm, fun hmissing => nomatch hmissing.symm.trans hd⟩
    · rw [hlists.skippedIds] at hskipped
      obtain ⟨g, hg, heq⟩ := List.mem_map.mp (mem_skippedOf.mp hskipped)
      obtain ⟨hid, hd⟩ := Prod.mk.inj heq
      exact ⟨g, hg, hid, fun hmissing => nomatch hmissing.symm.trans hd⟩
  · rintro ⟨g, hg, rfl, hdone⟩
    cases hd : decisionAt faults copy false dir rows g with
    | missing => exact absurd hd hdone
    | skipped => exact Or.inr ((mem_skippedIds_iff h hg).mpr hd)
    | mapped src dst row =>
        have hm : MappedFile.mk g.1 row.canonicalId row.parserVersion ∈ report.mappedFiles :=
          (mem_mappedFiles_iff h hg rfl).mpr ⟨src, dst, row, hd, rfl, rfl⟩
        exact Or.inl (List.mem_map.mpr ⟨_, hm, rfl⟩)

/-- A run in which nothing is to be mapped leaves the directory and reports what it planned. -/
theorem rekey_idle
    (hidle : ∀ g ∈ groupsOf rows, ∀ src dst row, planned dir g ≠ .mapped src dst row) :
    (rekey faults copy false dir rows).1 = dir ∧
      (faults.readDirFails = false → ∃ report,
        (rekey faults copy false dir rows).2 = .ok report ∧
          Lists report ((groupsOf rows).map fun g => (g.1, planned dir g))) := by
  have hstart : Lists (startReport copy false rows) [] := ⟨rfl, rfl, rfl⟩
  have hloop : ∃ report', rekeyLoop faults copy false (groupsOf rows) dir
      (startReport copy false rows) = (dir, .ok report') ∧
        Lists report' ((groupsOf rows).map fun g => (g.1, planned dir g)) :=
    rekeyLoop_idle hidle hstart
  obtain ⟨report', hrun, hlists⟩ := hloop
  unfold rekey
  rw [hrun]
  constructor
  · cases faults.readDirFails <;> rfl
  · intro hreadDir
    rw [hreadDir]
    exact ⟨_, rfl, hlists.mappedFiles, hlists.skippedIds, hlists.missingIds⟩

/-- A run that reports no mapped file takes every decision in the directory it starts with. -/
theorem decisionAt_of_unmapped (h : rekey faults copy false dir rows = (dir₁, .ok report))
    (hmapped : report.mappedFiles = []) (hg : g ∈ groupsOf rows) :
    decisionAt faults copy false dir rows g = planned dir g ∧
      ∀ src dst row, decisionAt faults copy false dir rows g ≠ .mapped src dst row := by
  have hidle : ∀ g ∈ groupsOf rows, ∀ src dst row,
      decisionAt faults copy false dir rows g ≠ .mapped src dst row := by
    intro g hg src dst row hd
    have hm : MappedFile.mk g.1 row.canonicalId row.parserVersion ∈ report.mappedFiles :=
      (mem_mappedFiles_iff h hg rfl).mpr ⟨src, dst, row, hd, rfl, rfl⟩
    rw [hmapped] at hm
    cases hm
  obtain ⟨before, after, dir₂, hsplit, htrace, -, -⟩ := exists_turn h hg
  have hdir : dirBefore faults copy false dir rows g.1 = dir := by
    refine eq_of_trace htrace fun src dst row hmem => ?_
    obtain ⟨g', hg', -, hd⟩ := earlier_of_mem_decisions hsplit hmem
    exact hidle g' hg' src dst row hd
  exact ⟨by rw [decisionAt, hdir], hidle g hg⟩

/-- What a second run does, from the decisions in the directory before it. -/
theorem again_iff (h : rekey faults copy false dir rows = (dir₁, .ok report)) :
    ((∀ faults, (rekey faults copy false dir₁ rows).1 = dir₁) ∧
      ∀ faults, faults.readDirFails = false →
        ∃ report₂, (rekey faults copy false dir₁ rows).2 = .ok report₂ ∧
          report₂.mappedFiles = [] ∧
          ∀ id, id ∈ report.mappedFiles.map MappedFile.driveFileId ∨ id ∈ report.skippedIds →
            id ∈ report₂.skippedIds) ↔
      ∀ g ∈ groupsOf rows, (∀ src dst row, planned dir₁ g ≠ .mapped src dst row) ∧
        (decisionAt faults copy false dir rows g ≠ .missing → planned dir₁ g = .skipped) := by
  constructor
  · rintro ⟨hunchanged, hagain⟩ g hg
    obtain ⟨report₂, hok, hmapped, hskipped⟩ := hagain noFaults rfl
    have hrun : rekey noFaults copy false dir₁ rows = (dir₁, .ok report₂) :=
      Prod.ext (hunchanged noFaults) hok
    obtain ⟨hplanned, hidle⟩ := decisionAt_of_unmapped hrun hmapped hg
    refine ⟨hplanned ▸ hidle, fun hdone => ?_⟩
    have hid := hskipped g.1 ((done_iff h).mpr ⟨g, hg, rfl, hdone⟩)
    exact hplanned ▸ (mem_skippedIds_iff hrun hg).mp hid
  · intro hplan
    have hidle : ∀ g ∈ groupsOf rows, ∀ src dst row, planned dir₁ g ≠ .mapped src dst row :=
      fun g hg => (hplan g hg).1
    refine ⟨fun faults => (rekey_idle hidle).1, fun faults hreadDir => ?_⟩
    obtain ⟨report₂, hok, hlists⟩ := (rekey_idle hidle).2 hreadDir
    refine ⟨report₂, hok, ?_, fun id hid => ?_⟩
    · refine List.eq_nil_iff_forall_not_mem.mpr fun m hm => ?_
      rw [hlists.mappedFiles] at hm
      obtain ⟨src, dst, row, hmem, -⟩ := mem_mappedOf.mp hm
      obtain ⟨g, hg, heq⟩ := List.mem_map.mp hmem
      exact hidle g hg src dst row (Prod.mk.inj heq).2
    · obtain ⟨g, hg, rfl, hdone⟩ := (done_iff h).mp hid
      rw [hlists.skippedIds, mem_skippedOf, mem_decisions_iff hg]
      exact (hplan g hg).2 hdone

/-! ## When what is done is recognised -/

theorem mem_rows_of_mem_groupsOf (hg : g ∈ groupsOf rows) : ∃ r ∈ rows, r.driveFileId = g.1 :=
  List.mem_map.mp (mem_groupsOf_iff.mp hg).1

theorem source_eq_some_iff {d : Decision} {src : String} :
    d.source = some src ↔ ∃ dst row, d = .mapped src dst row := by
  cases d <;> simp [Decision.source]

/-- A decision for a rename does not take a file that is a destination. -/
def SparesDestinations (copy : Bool) (rows : List MappingRow) (d : Decision) : Prop :=
  copy = false → ∀ src, d.source = some src → ∀ r ∈ rows, cachePath r.driveFileId ≠ some src

/-- Only its own turn makes the destination of an id. -/
theorem eq_of_mapped {g' : String × List MappingRow} {src dst : String} {row : MappingRow}
    (hg : g ∈ groupsOf rows) (hg' : g' ∈ groupsOf rows) (hpath : cachePath g.1 = some dst)
    (hd : decisionAt faults copy false dir rows g' = .mapped src dst row) : g' = g := by
  obtain ⟨hpath', -⟩ := decision_eq_mapped_iff.mp hd
  exact eq_of_fst_eq hg hg' (cachePath_injective hpath' hpath)

/-- A destination that is there at the end was there before, or its id was mapped. -/
theorem get?_dst_of_rekey (h : rekey faults copy false dir rows = (dir₁, .ok report))
    (hg : g ∈ groupsOf rows) {dst : String} (hpath : cachePath g.1 = some dst)
    (hhas : dir₁.has dst = true) :
    dir.has dst = true ∨ decisionAt faults copy false dir rows g ≠ .missing := by
  obtain ⟨entry, hentry⟩ := Table.has_iff.mp hhas
  rcases get?_or_mapped_of_trace (lists_of_rekey h).1 hentry with hold | ⟨src, row, hmem⟩
  · exact Or.inl (Table.has_iff.mpr ⟨entry, hold⟩)
  · obtain ⟨g', hg', hd⟩ := List.mem_map.mp hmem
    obtain rfl := eq_of_mapped hg hg' hpath hd
    exact Or.inr fun hmissing => nomatch hmissing.symm.trans hd

/-- Where no rename takes a destination, no turn does. -/
theorem ne_of_mem_decisions {D : String × List MappingRow → Decision}
    (hspared : ∀ g ∈ groupsOf rows, SparesDestinations copy rows (D g)) (hg : g ∈ groupsOf rows)
    {dst : String} (hpath : cachePath g.1 = some dst) (hgroups : groups ⊆ groupsOf rows) :
    copy = false → ∀ src dst' row, Decision.mapped src dst' row ∈ groups.map D → src ≠ dst := by
  rintro hcopy src dst' row hmem rfl
  obtain ⟨g', hg', hd⟩ := List.mem_map.mp hmem
  obtain ⟨r, hr, hid⟩ := mem_rows_of_mem_groupsOf hg
  exact hspared g' (hgroups hg') hcopy src (by rw [hd, Decision.source]) r hr (hid ▸ hpath)

section Recognised

variable (h : rekey faults copy false dir rows = (dir₁, .ok report))
  (hskipped : ∀ g ∈ groupsOf rows, ∀ dst, cachePath g.1 = some dst → dir.has dst = true →
    decisionAt faults copy false dir rows g = .skipped ∧ dir₁.get? dst = dir.get? dst)
  (hplan : ∀ g ∈ groupsOf rows, (∀ src dst row, planned dir₁ g ≠ .mapped src dst row) ∧
    (decisionAt faults copy false dir rows g ≠ .missing → planned dir₁ g = .skipped))

include h hskipped in
/-- A destination that is there at the end belongs to an id that was done. -/
theorem ne_missing_of_has {dst : String} (hg : g ∈ groupsOf rows) (hpath : cachePath g.1 = some dst)
    (hhas : dir₁.has dst = true) : decisionAt faults copy false dir rows g ≠ .missing := by
  rcases get?_dst_of_rekey h hg hpath hhas with hold | hdone
  · exact fun hmissing => nomatch hmissing.symm.trans (hskipped g hg dst hpath hold).1
  · exact hdone

include h hskipped hplan in
/-- No rename takes a destination when what is done is recognised. -/
theorem spares_of_recognised (hg : g ∈ groupsOf rows) :
    SparesDestinations copy rows (decisionAt faults copy false dir rows g) := by
  intro hcopy src hsource r hr hpath
  obtain ⟨dst, row, hd⟩ := source_eq_some_iff.mp hsource
  obtain ⟨g', hg', hid, -⟩ := exists_group hr
  rw [← hid] at hpath
  obtain ⟨before, after, dir₂, hsplit, hbefore, hmoved, hafter⟩ := exists_turn h hg
  obtain ⟨f, hsrc⟩ := exists_file_of_mapped hd
  rw [hd] at hmoved
  -- the file was there from the start, or the turn of its own id made it
  have hborn : dir.has src = true ∨
      g' ∈ earlier rows g.1 ∧ decisionAt faults copy false dir rows g' ≠ .missing := by
    rcases get?_or_mapped_of_trace hbefore hsrc with hold | ⟨src', row', hmem⟩
    · exact Or.inl (Table.has_iff.mpr ⟨_, hold⟩)
    · obtain ⟨g'', hg'', hearlier, hd''⟩ := earlier_of_mem_decisions hsplit hmem
      obtain rfl := eq_of_mapped hg' hg'' hpath hd''
      refine Or.inr ⟨hearlier, fun hmissing => ?_⟩
      cases hmissing.symm.trans hd''
  -- either way it is there at the end, so the turn of its id comes again
  have hend : dir₁.has src = true := by
    rcases hborn with hold | ⟨-, hdone⟩
    · rw [Table.has, (hskipped g' hg' src hpath hold).2]
      exact hold
    · obtain ⟨dst', hdst', -, hhas⟩ := decision_eq_skipped_iff.mp ((hplan g' hg').2 hdone)
      cases hpath.symm.trans hdst'
      exact hhas
  obtain ⟨entry, hentry⟩ := Table.has_iff.mp hend
  rcases get?_or_mapped_of_trace hafter hentry with hold | ⟨src', row', hmem⟩
  · rw [(get?_of_moved hmoved).2 hcopy] at hold
    cases hold
  · obtain ⟨g'', hg'', hlater, hd''⟩ := later_of_mem_decisions hsplit hmem
    obtain rfl := eq_of_mapped hg' hg'' hpath hd''
    rcases hborn with hold | ⟨hearlier, -⟩
    · cases hd''.symm.trans (hskipped _ hg' src hpath hold).1
    · exact lt_asymm (mem_earlier_iff.mp hearlier).2 (mem_earlier_iff.mp hlater).2

end Recognised

/-! ## The moves along the ids -/

section Foreseen

variable {m : Moves} {d : Decision} {before after : List (String × List MappingRow)}

theorem leaves_iff :
    m.leaves dir name = true ↔ isFile dir name = true ∧ name ∉ m.taken ∨ name ∈ m.made := by
  simp [Moves.leaves]

theorem mem_taken_add :
    name ∈ (m.add copy d).taken ↔ name ∈ m.taken ∨ copy = false ∧ d.source = some name := by
  cases copy <;> simp [Moves.add]

theorem mem_made_add :
    name ∈ (m.add copy d).made ↔ name ∈ m.made ∨ d.destination = some name := by
  simp [Moves.add]

/-- The decision for an id on what the smaller ones leave of the first directory. -/
def foreseen (copy : Bool) (dir : Dir) (rows : List MappingRow) (g : String × List MappingRow) :
    Decision :=
  decision ((movesOf copy dir (earlier rows g.1)).leaves dir) dir.has g

theorem movesOf_append (hsplit : groupsOf rows = before ++ g :: after) :
    movesOf copy dir (before ++ [g]) =
      (movesOf copy dir before).add copy (foreseen copy dir rows g) := by
  rw [foreseen, earlier_eq_before hsplit, movesOf, List.foldl_append]
  rfl

/-- What the moves take and make is taken and made by one of the ids. -/
theorem mem_movesOf_iff (hsplit : groupsOf rows = before ++ after) :
    (name ∈ (movesOf copy dir before).taken ↔
        copy = false ∧ ∃ g ∈ before, (foreseen copy dir rows g).source = some name) ∧
      (name ∈ (movesOf copy dir before).made ↔
        ∃ g ∈ before, (foreseen copy dir rows g).destination = some name) := by
  induction before using List.reverseRecOn generalizing after with
  | nil => simp [movesOf]
  | append_singleton before g ih =>
      rw [List.append_assoc, List.singleton_append] at hsplit
      obtain ⟨htaken, hmade⟩ := ih hsplit
      rw [movesOf_append hsplit, mem_taken_add, mem_made_add, htaken, hmade]
      constructor
      · simp only [List.mem_append, List.mem_singleton, or_and_right, exists_or, exists_eq_left,
          and_or_left]
      · simp only [List.mem_append, List.mem_singleton, or_and_right, exists_or, exists_eq_left]

/-- A destination that is foreseen is that of an id which does not have it. -/
theorem foreseen_destination (h : (foreseen copy dir rows g).destination = some name) :
    cachePath g.1 = some name := by
  cases hd : foreseen copy dir rows g with
  | missing =>
      rw [hd] at h
      cases h
  | skipped =>
      rw [hd] at h
      cases h
  | mapped src dst row =>
      rw [hd] at h
      cases h
      exact (decision_eq_mapped_iff.mp hd).1

/-- A run that decides as foreseen makes the moves that the first directory calls for. -/
theorem entry_of_foreseen {p : Option Entry → Bool} (hnone : p none = false)
    (hfile : ∀ f, p (some (.file f)) = true) (hsplit : groupsOf rows = before ++ after)
    (hspared : ∀ g ∈ before, SparesDestinations copy rows (foreseen copy dir rows g))
    (h : Trace copy false dir before (before.map (foreseen copy dir rows)) dir') :
    p (dir'.get? name) = true ↔
      p (dir.get? name) = true ∧ name ∉ (movesOf copy dir before).taken ∨
        name ∈ (movesOf copy dir before).made := by
  induction before using List.reverseRecOn generalizing dir' after with
  | nil =>
      cases h
      simp [movesOf]
  | append_singleton before g ih =>
      rw [List.append_assoc, List.singleton_append] at hsplit
      obtain ⟨hbeforeSpared, hgSpared⟩ := List.forall_mem_append.mp hspared
      obtain ⟨ds₁, d, ds₂, dir₀, dir₂, hds, hlength, hbefore, hmoved, hafter⟩ := h.split
      cases hafter
      rw [List.map_append] at hds
      obtain ⟨rfl, hd⟩ := List.append_inj hds (by rw [List.length_map, hlength])
      cases hd
      rw [entry_of_moved hnone hfile hmoved, ih hsplit hbeforeSpared hbefore, movesOf_append hsplit,
        mem_taken_add, mem_made_add]
      -- a name that is made is a destination, so no rename takes it
      have hapart : name ∈ (movesOf copy dir before).made → copy = false →
          (foreseen copy dir rows g).source ≠ some name := by
        intro hmade hcopy hsource
        obtain ⟨g', hg', hdestination⟩ := (mem_movesOf_iff hsplit).2.mp hmade
        obtain ⟨r, hr, hid⟩ := mem_rows_of_mem_groupsOf (before_subset hsplit hg')
        exact hgSpared g (List.mem_singleton_self g) hcopy name hsource r hr
          (hid ▸ foreseen_destination hdestination)
      tauto

end Foreseen

/-- The decision looks at the destination of the id alone. -/
theorem decision_congr {isFile has has' : String → Bool}
    (h : ∀ dst, cachePath g.1 = some dst → has dst = has' dst) :
    decision isFile has g = decision isFile has' g := by
  unfold decision
  cases hpath : cachePath g.1 with
  | none => rfl
  | some dst =>
      dsimp only
      rw [h dst hpath]

section Spared

variable {before after : List (String × List MappingRow)}
  (hsplit : groupsOf rows = before ++ after)
  (hspared : ∀ g ∈ before, SparesDestinations copy rows (foreseen copy dir rows g))
  (htrace : Trace copy false dir before (before.map (foreseen copy dir rows)) dir')

include hsplit hspared htrace

/-- The files after the turns of some ids that decide as foreseen. -/
theorem isFile_of_foreseen : isFile dir' = (movesOf copy dir before).leaves dir := by
  funext name
  rw [Bool.eq_iff_iff, leaves_iff]
  exact entry_of_foreseen (p := Option.any Entry.isFile) rfl (fun _ => rfl) hsplit hspared htrace

/-- A destination is there after them if it was there before or was made. -/
theorem has_of_foreseen (hg : g ∈ groupsOf rows) {dst : String} (hpath : cachePath g.1 = some dst) :
    dir'.has dst = true ↔ dir.has dst = true ∨ dst ∈ (movesOf copy dir before).made := by
  have hkept : dst ∉ (movesOf copy dir before).taken := by
    intro htaken
    obtain ⟨hcopy, g', hg', hsource⟩ := (mem_movesOf_iff hsplit).1.mp htaken
    obtain ⟨r, hr, hid⟩ := mem_rows_of_mem_groupsOf hg
    exact hspared g' hg' hcopy dst hsource r hr (hid ▸ hpath)
  have hentry : dir'.has dst = true ↔
      dir.has dst = true ∧ dst ∉ (movesOf copy dir before).taken ∨
        dst ∈ (movesOf copy dir before).made :=
    entry_of_foreseen (p := Option.isSome) rfl (fun _ => rfl) hsplit hspared htrace
  rwa [and_iff_left hkept] at hentry

end Spared

/-- As long as no rename takes a destination, the decisions of a run are those that are foreseen
in its first directory. -/
theorem decisionAt_eq_foreseen (h : rekey faults copy false dir rows = (dir₁, .ok report))
    (hspared : ∀ g ∈ groupsOf rows,
      decisionAt faults copy false dir rows g = foreseen copy dir rows g →
        SparesDestinations copy rows (foreseen copy dir rows g)) :
    ∀ g ∈ groupsOf rows, decisionAt faults copy false dir rows g = foreseen copy dir rows g := by
  -- induction on the ids that had their turn
  suffices hprefix : ∀ before after, groupsOf rows = before ++ after →
      ∀ g ∈ before, decisionAt faults copy false dir rows g = foreseen copy dir rows g from
    hprefix (groupsOf rows) [] (List.append_nil _).symm
  intro before
  induction before using List.reverseRecOn with
  | nil => exact fun _ _ g hg => nomatch hg
  | append_singleton before last ih =>
      intro after hsplit g hg
      rw [List.append_assoc, List.singleton_append] at hsplit
      have hbefore := ih (last :: after) hsplit
      rcases List.mem_append.mp hg with hg | hg
      · exact hbefore g hg
      · obtain rfl := List.mem_singleton.mp hg
        have hmem : g ∈ groupsOf rows := hsplit ▸ List.mem_append_right _ List.mem_cons_self
        have hspared' : ∀ g' ∈ before, SparesDestinations copy rows (foreseen copy dir rows g') :=
          fun g' hg' => hspared g' (before_subset hsplit hg') (hbefore g' hg')
        obtain ⟨before', after', dir₂, hsplit', htrace, -, -⟩ := exists_turn h hmem
        rw [← earlier_eq_before hsplit', earlier_eq_before hsplit, List.map_congr_left hbefore]
          at htrace
        rw [decisionAt, planned, foreseen, earlier_eq_before hsplit,
          isFile_of_foreseen hsplit hspared' htrace]
        refine decision_congr fun dst hpath => ?_
        rw [Bool.eq_iff_iff, has_of_foreseen hsplit hspared' htrace hmem hpath]
        refine or_iff_left fun hmade => ?_
        -- only its own turn makes the destination
        obtain ⟨g', hg', hdestination⟩ := (mem_movesOf_iff hsplit).2.mp hmade
        have hlt := (mem_earlier_iff.mp ((earlier_eq_before hsplit).symm ▸ hg')).2
        rw [cachePath_injective (foreseen_destination hdestination) hpath] at hlt
        exact lt_irrefl _ hlt

/-! ## When what is done is recognised -/

/-- The moves spare the destinations when each decision does. -/
theorem spared_of_taken (htaken : ∀ src ∈ (movesOf copy dir (groupsOf rows)).taken,
    ∀ r ∈ rows, cachePath r.driveFileId ≠ some src) :
    ∀ g ∈ groupsOf rows, SparesDestinations copy rows (foreseen copy dir rows g) :=
  fun g hg hcopy src hsource => htaken src
    ((mem_movesOf_iff (List.append_nil _).symm).1.mpr ⟨hcopy, g, hg, hsource⟩)

section Agreed

variable (h : rekey faults copy false dir rows = (dir₁, .ok report))
  (hspared : ∀ g ∈ groupsOf rows, SparesDestinations copy rows (foreseen copy dir rows g))

include h hspared

theorem trace_foreseen :
    Trace copy false dir (groupsOf rows) ((groupsOf rows).map (foreseen copy dir rows)) dir₁ := by
  have htrace := (lists_of_rekey h).1
  rwa [List.map_congr_left (decisionAt_eq_foreseen h fun g hg _ => hspared g hg)] at htrace

/-- After the run an id has a candidate's file where the moves leave one. -/
theorem isSome_chosen_iff_leaves :
    (chosen (isFile dir₁) g.2).isSome = true ↔
      ∃ row ∈ g.2, HasFile ((movesOf copy dir (groupsOf rows)).leaves dir) row := by
  rw [isSome_chosen_iff,
    isFile_of_foreseen (List.append_nil _).symm hspared (trace_foreseen h hspared)]

/-- After the run a destination is there where it was before or the moves make it. -/
theorem has_iff_made (hg : g ∈ groupsOf rows) {dst : String} (hpath : cachePath g.1 = some dst) :
    dir₁.has dst = true ↔
      dir.has dst = true ∨ dst ∈ (movesOf copy dir (groupsOf rows)).made :=
  has_of_foreseen (List.append_nil _).symm hspared (trace_foreseen h hspared) hg hpath

end Agreed

/-- The condition holds of a run that leaves what is done to be recognised. -/
theorem repeatable_of_recognised (h : rekey faults copy false dir rows = (dir₁, .ok report))
    (hskipped : ∀ g ∈ groupsOf rows, ∀ dst, cachePath g.1 = some dst → dir.has dst = true →
      decisionAt faults copy false dir rows g = .skipped ∧ dir₁.get? dst = dir.get? dst)
    (hplan : ∀ g ∈ groupsOf rows, (∀ src dst row, planned dir₁ g ≠ .mapped src dst row) ∧
      (decisionAt faults copy false dir rows g ≠ .missing → planned dir₁ g = .skipped)) :
    Repeatable copy dir rows := by
  have hspared : ∀ g ∈ groupsOf rows, SparesDestinations copy rows (foreseen copy dir rows g) := by
    have hactual := fun g hg => spares_of_recognised (g := g) h hskipped hplan hg
    have hagree := decisionAt_eq_foreseen h fun g hg heq => heq ▸ hactual g hg
    exact fun g hg => hagree g hg ▸ hactual g hg
  refine ⟨?_, ?_, ?_⟩
  · intro src hsrc r hr
    obtain ⟨hcopy, g, hg, hsource⟩ := (mem_movesOf_iff (List.append_nil _).symm).1.mp hsrc
    exact hspared g hg hcopy src hsource r hr
  · intro g hg dst hpath hhas
    have hd := (hskipped g hg dst hpath hhas).1
    rw [decisionAt_eq_foreseen h (fun g hg _ => hspared g hg) g hg] at hd
    obtain ⟨-, -, hchosen, -⟩ := decision_eq_skipped_iff.mp hd
    exact isSome_chosen_iff.mp hchosen
  · intro g hg dst hpath
    rw [← isSome_chosen_iff_leaves h hspared, ← has_iff_made h hspared hg hpath]
    constructor
    · intro hchosen
      by_contra hfree
      obtain ⟨p, hp⟩ := Option.isSome_iff_exists.mp hchosen
      exact (hplan g hg).1 p.1 dst p.2
        (decision_eq_mapped_iff.mpr ⟨hpath, hp, Bool.eq_false_iff.mpr hfree⟩)
    · intro hhas
      have hdone := ne_missing_of_has h hskipped hg hpath hhas
      obtain ⟨-, -, hchosen, -⟩ := decision_eq_skipped_iff.mp ((hplan g hg).2 hdone)
      exact hchosen

section Repeats

variable (h : rekey faults copy false dir rows = (dir₁, .ok report))
  (hrep : Repeatable copy dir rows)

include h hrep

/-- An id with its destination is skipped by a repeatable run and left alone. -/
theorem skipped_of_repeatable (hg : g ∈ groupsOf rows) {dst : String}
    (hpath : cachePath g.1 = some dst) (hhas : dir.has dst = true) :
    decisionAt faults copy false dir rows g = .skipped ∧ dir₁.get? dst = dir.get? dst := by
  have hspared := spared_of_taken hrep.taken
  obtain ⟨entry, hentry⟩ := Table.has_iff.mp hhas
  have hend := get?_of_trace (trace_foreseen h hspared)
    (ne_of_mem_decisions hspared hg hpath (List.Subset.refl _)) hentry
  refine ⟨?_, hend.trans hentry.symm⟩
  rw [decisionAt_eq_foreseen h (fun g hg _ => hspared g hg) g hg]
  exact decision_eq_skipped_iff.mpr
    ⟨dst, hpath, isSome_chosen_iff.mpr (hrep.atTurn g hg dst hpath hhas), hhas⟩

/-- After a repeatable run an id has a candidate's file exactly when it has its destination. -/
theorem planned_of_repeatable (hg : g ∈ groupsOf rows) :
    (∀ src dst row, planned dir₁ g ≠ .mapped src dst row) ∧
      (decisionAt faults copy false dir rows g ≠ .missing → planned dir₁ g = .skipped) := by
  have hspared := spared_of_taken hrep.taken
  constructor
  · intro src dst row hd
    obtain ⟨hpath, hchosen, hfree⟩ := decision_eq_mapped_iff.mp hd
    have hleft := (isSome_chosen_iff_leaves h hspared).mp (Option.isSome_of_eq_some hchosen)
    rw [hrep.spare g hg dst hpath, ← has_iff_made h hspared hg hpath, hfree] at hleft
    cases hleft
  · intro hdone
    obtain ⟨dst, hpath⟩ : ∃ dst, cachePath g.1 = some dst := by
      refine Option.ne_none_iff_exists'.mp fun hnone => hdone ?_
      exact decision_eq_missing_iff.mpr (Or.inl hnone)
    have hhas : dir.has dst = true ∨ dst ∈ (movesOf copy dir (groupsOf rows)).made := by
      cases hd : decisionAt faults copy false dir rows g with
      | missing => exact absurd hd hdone
      | skipped =>
          rw [decisionAt_eq_foreseen h (fun g hg _ => hspared g hg) g hg] at hd
          obtain ⟨dst', hpath', -, hold⟩ := decision_eq_skipped_iff.mp hd
          cases hpath.symm.trans hpath'
          exact Or.inl hold
      | mapped src dst' row =>
          rw [decisionAt_eq_foreseen h (fun g hg _ => hspared g hg) g hg] at hd
          obtain ⟨hpath', -⟩ := decision_eq_mapped_iff.mp hd
          cases hpath.symm.trans hpath'
          refine Or.inr ((mem_movesOf_iff (List.append_nil _).symm).2.mpr ⟨g, hg, ?_⟩)
          rw [hd, Decision.destination]
    refine decision_eq_skipped_iff.mpr ⟨dst, hpath, ?_, (has_iff_made h hspared hg hpath).mpr hhas⟩
    exact (isSome_chosen_iff_leaves h hspared).mpr ((hrep.spare g hg dst hpath).mpr hhas)

end Repeats

/-- When ids that are done are recognised as done. -/
theorem rekey_again_iff (h : rekey faults copy false dir rows = (dir₁, .ok report)) :
    RecognisedAsDone copy dir rows dir₁ report ↔ Repeatable copy dir rows := by
  constructor
  · rintro ⟨hskipped, hunchanged, hagain⟩
    refine repeatable_of_recognised h (fun g hg dst hpath hhas => ?_)
      ((again_iff h).mp ⟨hunchanged, hagain⟩)
    obtain ⟨r, hr, hid⟩ := mem_rows_of_mem_groupsOf hg
    obtain ⟨hmem, hsame⟩ := hskipped r hr dst (hid ▸ hpath) hhas
    exact ⟨(mem_skippedIds_iff h hg).mp (hid ▸ hmem), hsame⟩
  · intro hrep
    obtain ⟨hunchanged, hagain⟩ := (again_iff h).mpr fun g hg => planned_of_repeatable h hrep hg
    refine ⟨fun r hr dst hpath hhas => ?_, hunchanged, hagain⟩
    obtain ⟨g, hg, hid, -⟩ := exists_group hr
    obtain ⟨hd, hsame⟩ := skipped_of_repeatable h hrep hg (hid ▸ hpath) hhas
    exact ⟨hid ▸ (mem_skippedIds_iff h hg).mpr hd, hsame⟩

/-! ## Copies of files that are no destinations -/

section Copies

/-- Copies that make no candidate's file leave the candidates' files as they are. -/
theorem hasFile_leaves_iff (hdisjoint : DisjointIds rows)
    {before after : List (String × List MappingRow)} (hsplit : groupsOf rows = before ++ after)
    {row : MappingRow} (hrow : row ∈ rows) :
    HasFile ((movesOf true dir before).leaves dir) row ↔ HasFile (isFile dir) row := by
  refine exists_congr fun src => and_congr_right fun hsrc => ?_
  rw [leaves_iff]
  constructor
  · rintro (⟨hfile, -⟩ | hmade)
    · exact hfile
    · obtain ⟨g, hg, hdestination⟩ := (mem_movesOf_iff hsplit).2.mp hmade
      obtain ⟨r, hr, hid⟩ := mem_rows_of_mem_groupsOf (hsplit ▸ List.mem_append_left _ hg)
      have hpath := foreseen_destination hdestination
      exact absurd hsrc (hdisjoint.ne_candidate hr hrow (hid ▸ hpath))
  · intro hfile
    refine Or.inl ⟨hfile, fun htaken => ?_⟩
    cases ((mem_movesOf_iff hsplit).1.mp htaken).1

/-- Copies are recognised exactly when no id has its destination without a candidate's file. -/
theorem repeatable_copy_iff (hdisjoint : DisjointIds rows) :
    Repeatable true dir rows ↔ ∀ g ∈ groupsOf rows, ∀ dst, cachePath g.1 = some dst →
      dir.has dst = true → ∃ row ∈ g.2, HasFile (isFile dir) row := by
  have hsame {before after : List (String × List MappingRow)}
      (hsplit : groupsOf rows = before ++ after) {g : String × List MappingRow}
      (hg : g ∈ groupsOf rows) :
      (∃ row ∈ g.2, HasFile ((movesOf true dir before).leaves dir) row) ↔
        ∃ row ∈ g.2, HasFile (isFile dir) row :=
    exists_congr fun row => and_congr_right fun hrow =>
      hasFile_leaves_iff hdisjoint hsplit (mem_of_mem_group hg hrow).1
  have hearlier {g : String × List MappingRow} (hg : g ∈ groupsOf rows) :
      ∃ after, groupsOf rows = earlier rows g.1 ++ after := by
    obtain ⟨before, after, hsplit⟩ := List.append_of_mem hg
    exact ⟨g :: after, (earlier_eq_before hsplit).symm ▸ hsplit⟩
  constructor
  · intro h g hg dst hpath hhas
    obtain ⟨after, hsplit⟩ := hearlier hg
    exact (hsame hsplit hg).mp (h.atTurn g hg dst hpath hhas)
  · intro h
    refine ⟨fun src hsrc => ?_, fun g hg dst hpath hhas => ?_, fun g hg dst hpath => ?_⟩
    · cases ((mem_movesOf_iff (List.append_nil _).symm).1.mp hsrc).1
    · obtain ⟨after, hsplit⟩ := hearlier hg
      exact (hsame hsplit hg).mpr (h g hg dst hpath hhas)
    · obtain ⟨after, hsplit⟩ := hearlier hg
      rw [hsame (List.append_nil _).symm hg]
      constructor
      · intro hfile
        by_contra hfree
        obtain ⟨hfree, hmade⟩ := not_or.mp hfree
        -- the turn of the id would have made its destination
        obtain ⟨p, hp⟩ := Option.isSome_iff_exists.mp
          (isSome_chosen_iff.mpr ((hsame hsplit hg).mpr hfile))
        have hd : foreseen true dir rows g = .mapped p.1 dst p.2 :=
          decision_eq_mapped_iff.mpr ⟨hpath, hp, Bool.eq_false_iff.mpr hfree⟩
        exact hmade ((mem_movesOf_iff (List.append_nil _).symm).2.mpr
          ⟨g, hg, by rw [hd, Decision.destination]⟩)
      · rintro (hhas | hmade)
        · exact h g hg dst hpath hhas
        · obtain ⟨g', hg', hdestination⟩ := (mem_movesOf_iff (List.append_nil _).symm).2.mp hmade
          obtain rfl :=
            eq_of_fst_eq hg hg' (cachePath_injective (foreseen_destination hdestination) hpath)
          cases hd : foreseen true dir rows g' with
          | missing => simp [hd, Decision.destination] at hdestination
          | skipped => simp [hd, Decision.destination] at hdestination
          | mapped src dst' row =>
              obtain ⟨-, hchosen, -⟩ := decision_eq_mapped_iff.mp hd
              exact (hsame hsplit hg).mp (isSome_chosen_iff.mp (Option.isSome_of_eq_some hchosen))

end Copies

/-! ## Several ids, and one file twice -/

section Example

instance (isFile : String → Bool) : DecidablePred (HasFile isFile) := fun row =>
  decidable_of_iff ((cachePath row.canonicalId).any isFile = true) (Option.any_eq_true _ _)

/-- Beside the legacy files the second id has its destination. -/
def halfDoneDir : Dir :=
  legacyDir.upsert "idB.xlsx" (legacyFile [2])

/-- The first id has two files, the second one, and the third none. -/
def threeIds : List MappingRow :=
  [⟨"idA", "canonA1", 1⟩, ⟨"idA", "canonA5", 5⟩, ⟨"idB", "canonB", 2⟩, ⟨"idC", "canonC", 1⟩]

/-- The rename leaves a file to the first id, so that it is recognised with the second. -/
theorem rekey_again_threeIds :
    ∃ dir₁ report, rekey noFaults false false halfDoneDir threeIds = (dir₁, .ok report) ∧
      report.mappedFiles = [⟨"idA", "canonA5", 5⟩] ∧ report.skippedIds = ["idB"] ∧
      RecognisedAsDone false halfDoneDir threeIds dir₁ report := by
  have hrun : rekey noFaults false false halfDoneDir threeIds =
    ((rekey noFaults false false halfDoneDir threeIds).1, .ok _) := Prod.ext rfl rfl
  have hatTurn : ∀ g ∈ groupsOf threeIds, ∀ dst ∈ cachePath g.1, halfDoneDir.has dst = true →
      ∃ row ∈ g.2, HasFile ((movesOf false halfDoneDir (earlier threeIds g.1)).leaves halfDoneDir)
        row := by
    decide +kernel
  have hspare : ∀ g ∈ groupsOf threeIds, ∀ dst ∈ cachePath g.1,
      ((∃ row ∈ g.2,
          HasFile ((movesOf false halfDoneDir (groupsOf threeIds)).leaves halfDoneDir) row) ↔
        halfDoneDir.has dst = true ∨
          dst ∈ (movesOf false halfDoneDir (groupsOf threeIds)).made) := by
    decide +kernel
  refine ⟨_, _, hrun, by decide +kernel, by decide +kernel, (rekey_again_iff hrun).mpr ?_⟩
  exact ⟨by decide +kernel, hatTurn, hspare⟩

/-- One id with one file. -/
def oneRow : List MappingRow :=
  [⟨"idB", "canonB", 1⟩]

/-- After a rename the id is missing in the second run. -/
theorem not_recognised :
    ¬∀ (faults : Faults) (copy : Bool) (dir : Dir) (rows : List MappingRow) (dir₁ : Dir)
      (report : RekeyReport), rekey faults copy false dir rows = (dir₁, .ok report) →
        RecognisedAsDone copy dir rows dir₁ report := by
  intro h
  have hrun : rekey noFaults false false legacyDir oneRow =
    ((rekey noFaults false false legacyDir oneRow).1, .ok _) := Prod.ext rfl rfl
  obtain ⟨report₂, hok, -, hskipped⟩ := (h _ _ _ _ _ _ hrun).again noFaults rfl
  have hid := hskipped "idB" (Or.inl (by decide))
  have hagain : (rekey noFaults false false (rekey noFaults false false legacyDir oneRow).1
      oneRow).2 = .ok _ := rfl
  cases hagain.symm.trans hok
  revert hid
  decide

end Example

end Rekey
end Statskboo
