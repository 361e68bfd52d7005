import Statskboo.Rekey.Cache

/-!
# The turns of a re-key

A run that ends well has a turn for every id.  Between the smaller ids and the larger ones
stands the decision for the id, taken in the directory at its turn; the report lists these
decisions.

Main results:

- Theorem {lit}`exists_turn`: the turn of an id, with the turns before and after it.
- Theorems {lit}`mem_skippedIds_iff`, {lit}`mem_missingIds_iff` and
  {lit}`mem_mappedFiles_iff`: what the report says of an id.
-/

namespace Statskboo
namespace Rekey

open DataCache KeyedTable

/-- The decisions that a run takes for some ids, each in the directory at its turn. -/
inductive Trace (copy dryRun : Bool) :
    Dir → List (String × List MappingRow) → List Decision → Dir → Prop where
  | nil (dir : Dir) : Trace copy dryRun dir [] [] dir
  | cons {dir dir₁ dir' : Dir} {g : String × List MappingRow}
      {groups : List (String × List MappingRow)} {d : Decision} {ds : List Decision}
      (hd : decision (isFile dir) dir.has g = d) (hmoved : Moved copy dryRun dir dir₁ d)
      (hrest : Trace copy dryRun dir₁ groups ds dir') :
      Trace copy dryRun dir (g :: groups) (d :: ds) dir'

/-- The files that are reported as mapped. -/
def mappedOf (l : List (String × Decision)) : List MappedFile :=
  l.filterMap fun p =>
    match p.2 with
    | .mapped _ _ row =>
        some
          { driveFileId := p.1, canonicalId := row.canonicalId,
            parserVersion := row.parserVersion }
    | _ => none

/-- The ids that are reported as skipped. -/
def skippedOf (l : List (String × Decision)) : List String :=
  (l.filter fun p => decide (p.2 = .skipped)).map Prod.fst

/-- The ids that are reported as missing. -/
def missingOf (l : List (String × Decision)) : List String :=
  (l.filter fun p => decide (p.2 = .missing)).map Prod.fst

/-- A report lists these decisions. -/
structure Lists (report : RekeyReport) (l : List (String × Decision)) : Prop where
  mappedFiles : report.mappedFiles = mappedOf l
  skippedIds : report.skippedIds = skippedOf l
  missingIds : report.missingIds = missingOf l

/-- The decision for an id in a directory. -/
def planned (dir : Dir) (g : String × List MappingRow) : Decision :=
  decision (isFile dir) dir.has g

/-- The directory when the turn of an id comes. -/
def dirBefore (faults : Faults) (copy dryRun : Bool) (dir : Dir) (rows : List MappingRow)
    (driveFileId : String) : Dir :=
  (rekeyLoop faults copy dryRun ((groupsOf rows).filter fun g => decide (g.1 < driveFileId)) dir
    (startReport copy dryRun rows)).1

/-- The decision for an id in the directory at its turn. -/
def decisionAt (faults : Faults) (copy dryRun : Bool) (dir : Dir) (rows : List MappingRow)
    (g : String × List MappingRow) : Decision :=
  planned (dirBefore faults copy dryRun dir rows g.1) g

/-- The ids below one, with their candidates. -/
def earlier (rows : List MappingRow) (driveFileId : String) : List (String × List MappingRow) :=
  (groupsOf rows).filter fun g => decide (g.1 < driveFileId)

variable {faults : Faults} {copy dryRun : Bool} {dir dir' : Dir} {rows : List MappingRow}
  {report report' : RekeyReport} {groups : List (String × List MappingRow)}
  {g g' : String × List MappingRow} {l : List (String × Decision)} {id : String}
  {ds : List Decision} {name : String} {entry : Entry}

/-! ## The loop and its decisions -/

theorem Lists.add (h : Lists report l) (id : String) (warnings : List String) (d : Decision) :
    Lists (report.add id warnings d) (l ++ [(id, d)]) := by
  obtain ⟨hmapped, hskipped, hmissing⟩ := h
  cases d with
  | missing =>
      constructor <;>
        simp [RekeyReport.add, mappedOf, skippedOf, missingOf, hmapped, hskipped, hmissing]
  | skipped =>
      constructor <;>
        simp [RekeyReport.add, mappedOf, skippedOf, missingOf, hmapped, hskipped, hmissing]
  | mapped src dst row =>
      constructor <;>
        simp [RekeyReport.add, mappedOf, skippedOf, missingOf, hmapped, hskipped, hmissing]

/-- A trace has a turn for every id. -/
theorem Trace.split {before after : List (String × List MappingRow)} {ds : List Decision}
    (h : Trace copy dryRun dir (before ++ g :: after) ds dir') :
    ∃ ds₁ d ds₂ dir₁ dir₂, ds = ds₁ ++ d :: ds₂ ∧ ds₁.length = before.length ∧
      Trace copy dryRun dir before ds₁ dir₁ ∧ Moved copy dryRun dir₁ dir₂ d ∧
      Trace copy dryRun dir₂ after ds₂ dir' := by
  induction before generalizing dir ds with
  | nil =>
      cases h with
      | cons hd hmoved hrest => exact ⟨[], _, _, _, _, rfl, rfl, .nil _, hmoved, hrest⟩
  | cons g' before ih =>
      cases h with
      | cons hd hmoved hrest =>
          obtain ⟨ds₁, d, ds₂, dir₁, dir₂, rfl, hlength, hbefore, hturn⟩ := ih hrest
          exact ⟨_ :: ds₁, d, ds₂, dir₁, dir₂, rfl, by simp [hlength], .cons hd hmoved hbefore,
            hturn⟩

/-- A loop takes for each id the decision in the directory that the ids before leave. -/
theorem trace_of_rekeyLoop {D : String × List MappingRow → Decision}
    (h : rekeyLoop faults copy dryRun groups dir report = (dir', .ok report'))
    (hD : ∀ before g after, groups = before ++ g :: after →
      planned (rekeyLoop faults copy dryRun before dir report).1 g = D g)
    (hlists : Lists report l) :
    Trace copy dryRun dir groups (groups.map D) dir' ∧
      Lists report' (l ++ groups.map fun g => (g.1, D g)) := by
  induction groups generalizing dir report l with
  | nil =>
      cases h
      exact ⟨.nil _, by simpa using hlists⟩
  | cons g groups ih =>
      have hg : planned dir g = D g := hD [] g groups rfl
      rw [rekeyLoop] at h
      cases hturn : rekeyStep faults copy dryRun dir report g with
      | mk dir₁ outcome =>
          rw [hturn] at h
          cases outcome with
          | error e => cases h
          | ok report₁ =>
              obtain ⟨d, warnings, hd, rfl, hmoved⟩ := rekeyStep_ok hturn
              cases hd.symm.trans hg
              have hD₁ : ∀ before g' after, groups = before ++ g' :: after →
                  planned (rekeyLoop faults copy dryRun before dir₁
                    (report.add g.1 warnings (D g))).1 g' = D g' := by
                intro before g' after hsplit
                rw [← hD (g :: before) g' after (by rw [hsplit, List.cons_append]), rekeyLoop,
                  hturn]
              obtain ⟨htrace, hreport⟩ := ih h hD₁ (hlists.add g.1 warnings (D g))
              exact ⟨.cons hd hmoved htrace, by simpa using hreport⟩

theorem dirBefore_eq {before after : List (String × List MappingRow)}
    (hsplit : groupsOf rows = before ++ g :: after) :
    dirBefore faults copy dryRun dir rows g.1 =
      (rekeyLoop faults copy dryRun before dir (startReport copy dryRun rows)).1 := by
  rw [dirBefore, filter_lt_eq_before hsplit]

/-- The turn of an id, between the turns before and after it. -/
theorem exists_turn (h : rekey faults copy dryRun dir rows = (dir', .ok report))
    (hg : g ∈ groupsOf rows) :
    ∃ before after dir₂, groupsOf rows = before ++ g :: after ∧
      Trace copy dryRun dir before (before.map (decisionAt faults copy dryRun dir rows))
        (dirBefore faults copy dryRun dir rows g.1) ∧
      Moved copy dryRun (dirBefore faults copy dryRun dir rows g.1) dir₂
        (decisionAt faults copy dryRun dir rows g) ∧
      Trace copy dryRun dir₂ after (after.map (decisionAt faults copy dryRun dir rows)) dir' := by
  obtain ⟨before, after, hsplit⟩ := List.append_of_mem hg
  obtain ⟨report₀, hloop, -⟩ := rekey_ok h
  rw [hsplit] at hloop
  obtain ⟨dir₁, report₁, dir₂, report₂, hbefore, hturn, hafter⟩ := rekeyLoop_split hloop
  have hstart : Lists (startReport copy dryRun rows) [] := ⟨rfl, rfl, rfl⟩
  have hdir₁ : dirBefore faults copy dryRun dir rows g.1 = dir₁ := by
    rw [dirBefore_eq hsplit, hbefore]
  obtain ⟨htrace, hreport₁⟩ :=
    trace_of_rekeyLoop hbefore (D := decisionAt faults copy dryRun dir rows)
      (fun before' g' after' hbefore' => by
        have hsplit' : groupsOf rows = before' ++ g' :: (after' ++ g :: after) := by
          rw [hsplit, hbefore', List.append_assoc, List.cons_append]
        rw [decisionAt, dirBefore_eq hsplit']) hstart
  obtain ⟨d, warnings, hd, hreport₂, hmoved⟩ := rekeyStep_ok hturn
  refine ⟨before, after, dir₂, hsplit, ?_, ?_, ?_⟩
  · rw [hdir₁]
    exact htrace
  · rw [decisionAt, hdir₁, planned, hd]
    exact hmoved
  · have hlists : Lists report₂ _ := hreport₂ ▸ hreport₁.add g.1 warnings d
    refine (trace_of_rekeyLoop hafter (fun before' g' after' hafter' => ?_) hlists).1
    have hsplit' : groupsOf rows = (before ++ g :: before') ++ g' :: after' := by
      rw [hsplit, hafter', List.append_assoc, List.cons_append]
    rw [decisionAt, dirBefore_eq hsplit', rekeyLoop_append, hbefore]
    dsimp only
    rw [rekeyLoop, hturn]

/-- A run reports the decisions of all ids. -/
theorem lists_of_rekey (h : rekey faults copy dryRun dir rows = (dir', .ok report)) :
    Trace copy dryRun dir (groupsOf rows)
        ((groupsOf rows).map (decisionAt faults copy dryRun dir rows)) dir' ∧
      Lists report
        ((groupsOf rows).map fun g => (g.1, decisionAt faults copy dryRun dir rows g)) := by
  obtain ⟨report₀, hloop, rfl⟩ := rekey_ok h
  have hstart : Lists (startReport copy dryRun rows) [] := ⟨rfl, rfl, rfl⟩
  obtain ⟨htrace, hlists⟩ :=
    trace_of_rekeyLoop hloop (D := decisionAt faults copy dryRun dir rows)
      (fun before g after hsplit => by rw [decisionAt, dirBefore_eq hsplit]) hstart
  exact ⟨htrace, hlists.mappedFiles, hlists.skippedIds, hlists.missingIds⟩

/-! ## What stays and what is new -/

theorem ne_of_get? {dst : String} {entry : Entry} (hdst : dir.has dst = false)
    (h : dir.get? name = some entry) : name ≠ dst := by
  rintro rfl
  rw [Table.has, h] at hdst
  cases hdst

/-- A name that no turn takes keeps its entry. -/
theorem get?_of_trace (h : Trace copy false dir groups ds dir')
    (hname : copy = false → ∀ src dst row, Decision.mapped src dst row ∈ ds → src ≠ name)
    (hentry : dir.get? name = some entry) : dir'.get? name = some entry := by
  induction h with
  | nil => exact hentry
  | cons hd hmoved hrest ih =>
      refine ih (fun hc src dst row hmem => hname hc src dst row (List.mem_cons_of_mem _ hmem)) ?_
      cases hmoved with
      | unchanged hdir => exact hdir ▸ hentry
      | @carried src dst row _ _ _ hsrc hdst _ hdir =>
          have hkept : ¬(copy = false ∧ name = src) := fun hgone =>
            hname hgone.1 src dst row List.mem_cons_self hgone.2.symm
          rw [hdir, if_neg (ne_of_get? hdst hentry), if_neg hkept, hentry]

/-- An entry was there before the turns, or one of them made it. -/
theorem get?_or_mapped_of_trace (h : Trace copy false dir groups ds dir')
    (hentry : dir'.get? name = some entry) :
    dir.get? name = some entry ∨ ∃ src row, Decision.mapped src name row ∈ ds := by
  induction h with
  | nil => exact Or.inl hentry
  | cons hd hmoved hrest ih =>
      rcases ih hentry with hold | ⟨src, row, hmem⟩
      · cases hmoved with
        | unchanged hdir => exact Or.inl (hdir ▸ hold)
        | @carried src dst row _ _ _ hsrc hdst _ hdir =>
            rw [hdir] at hold
            split_ifs at hold with hnew
            · exact Or.inr ⟨src, row, hnew ▸ List.mem_cons_self⟩
            · exact Or.inl hold
      · exact Or.inr ⟨src, row, List.mem_cons_of_mem _ hmem⟩

/-- A turn that maps makes the destination, and a rename takes the source. -/
theorem get?_of_moved {src dst : String} {row : MappingRow}
    (h : Moved copy false dir dir' (.mapped src dst row)) :
    (∃ f, dir'.get? dst = some (.file f)) ∧ (copy = false → dir'.get? src = none) := by
  cases h with
  | unchanged _ hd => exact absurd rfl (hd.resolve_left Bool.false_ne_true src dst row)
  | @carried _ _ _ f f' _ hsrc hdst _ hdir =>
      refine ⟨⟨f', by rw [hdir, if_pos rfl]⟩, fun hcopy => ?_⟩
      rw [hdir, if_neg (ne_of_get? hdst hsrc), if_pos ⟨hcopy, rfl⟩]

/-! ## The report -/

theorem mem_skippedOf : id ∈ skippedOf l ↔ (id, Decision.skipped) ∈ l := by
  simp [skippedOf]

theorem mem_missingOf : id ∈ missingOf l ↔ (id, Decision.missing) ∈ l := by
  simp [missingOf]

theorem mem_mappedOf {m : MappedFile} :
    m ∈ mappedOf l ↔ ∃ src dst row, (m.driveFileId, Decision.mapped src dst row) ∈ l ∧
      row.canonicalId = m.canonicalId ∧ row.parserVersion = m.parserVersion := by
  unfold mappedOf
  rw [List.mem_filterMap]
  constructor
  · rintro ⟨⟨id, d⟩, hmem, hm⟩
    cases d with
    | missing => cases hm
    | skipped => cases hm
    | mapped src dst row =>
        cases hm
        exact ⟨src, dst, row, hmem, rfl, rfl⟩
  · rintro ⟨src, dst, row, hmem, hcanonical, hversion⟩
    refine ⟨_, hmem, ?_⟩
    dsimp only
    rw [hcanonical, hversion]

theorem earlier_eq_before {before after : List (String × List MappingRow)}
    (h : groupsOf rows = before ++ g :: after) : earlier rows g.1 = before :=
  filter_lt_eq_before h

theorem mem_earlier_iff : g' ∈ earlier rows id ↔ g' ∈ groupsOf rows ∧ g'.1 < id := by
  rw [earlier, List.mem_filter, decide_eq_true_iff]

theorem mem_earlier_of_mem_after {before after : List (String × List MappingRow)}
    (h : groupsOf rows = before ++ g :: after) (hg' : g' ∈ after) : g ∈ earlier rows g'.1 := by
  have hascending := groupsOf_ascending rows
  rw [h] at hascending
  obtain ⟨-, hafter, -⟩ := List.pairwise_append.mp hascending
  exact mem_earlier_iff.mpr
    ⟨h ▸ List.mem_append_right _ List.mem_cons_self, (List.pairwise_cons.mp hafter).1 g' hg'⟩

theorem before_subset {before after : List (String × List MappingRow)}
    (h : groupsOf rows = before ++ g :: after) : before ⊆ groupsOf rows :=
  h ▸ List.subset_append_left _ _

theorem after_subset {before after : List (String × List MappingRow)}
    (h : groupsOf rows = before ++ g :: after) : after ⊆ groupsOf rows :=
  h ▸ List.subset_append_of_subset_right _ (List.subset_cons_self _ _)

/-- A decision of the turns before an id is that of a smaller id. -/
theorem earlier_of_mem_decisions {before after : List (String × List MappingRow)}
    {D : String × List MappingRow → Decision} {d : Decision}
    (h : groupsOf rows = before ++ g :: after) (hd : d ∈ before.map D) :
    ∃ g' ∈ groupsOf rows, g' ∈ earlier rows g.1 ∧ D g' = d := by
  obtain ⟨g', hg', hd'⟩ := List.mem_map.mp hd
  rw [← earlier_eq_before h] at hg'
  exact ⟨g', (mem_earlier_iff.mp hg').1, hg', hd'⟩

/-- A decision of the turns after an id is that of a larger id. -/
theorem later_of_mem_decisions {before after : List (String × List MappingRow)}
    {D : String × List MappingRow → Decision} {d : Decision}
    (h : groupsOf rows = before ++ g :: after) (hd : d ∈ after.map D) :
    ∃ g' ∈ groupsOf rows, g ∈ earlier rows g'.1 ∧ D g' = d := by
  obtain ⟨g', hg', hd'⟩ := List.mem_map.mp hd
  exact ⟨g', after_subset h hg', mem_earlier_of_mem_after h hg', hd'⟩

theorem eq_of_fst_eq (hg : g ∈ groupsOf rows) (hg' : g' ∈ groupsOf rows) (h : g'.1 = g.1) :
    g' = g := by
  refine Prod.ext h ?_
  rw [(mem_groupsOf_iff.mp hg').2, (mem_groupsOf_iff.mp hg).2, h]

/-- Of each id one decision is listed. -/
theorem mem_decisions_iff {D : String × List MappingRow → Decision} {d : Decision}
    (hg : g ∈ groupsOf rows) :
    (g.1, d) ∈ ((groupsOf rows).map fun g => (g.1, D g)) ↔ D g = d := by
  rw [List.mem_map]
  constructor
  · rintro ⟨g', hg', heq⟩
    obtain ⟨hid, hd⟩ := Prod.mk.inj heq
    rw [← eq_of_fst_eq hg hg' hid, hd]
  · rintro rfl
    exact ⟨g, hg, rfl⟩

theorem mem_skippedIds_iff (h : rekey faults copy dryRun dir rows = (dir', .ok report))
    (hg : g ∈ groupsOf rows) :
    g.1 ∈ report.skippedIds ↔ decisionAt faults copy dryRun dir rows g = .skipped := by
  rw [(lists_of_rekey h).2.skippedIds, mem_skippedOf, mem_decisions_iff hg]

theorem mem_missingIds_iff (h : rekey faults copy dryRun dir rows = (dir', .ok report))
    (hg : g ∈ groupsOf rows) :
    g.1 ∈ report.missingIds ↔ decisionAt faults copy dryRun dir rows g = .missing := by
  rw [(lists_of_rekey h).2.missingIds, mem_missingOf, mem_decisions_iff hg]

/-- Every mapped file was decided on at the turn of its id. -/
theorem exists_decision_of_mem_mappedFiles {m : MappedFile}
    (h : rekey faults copy dryRun dir rows = (dir', .ok report)) (hm : m ∈ report.mappedFiles) :
    ∃ g ∈ groupsOf rows, m.driveFileId = g.1 ∧ ∃ src dst row,
      decisionAt faults copy dryRun dir rows g = .mapped src dst row ∧
        row.canonicalId = m.canonicalId ∧ row.parserVersion = m.parserVersion := by
  rw [(lists_of_rekey h).2.mappedFiles] at hm
  obtain ⟨src, dst, row, hmem, hrow⟩ := mem_mappedOf.mp hm
  obtain ⟨g, hg, heq⟩ := List.mem_map.mp hmem
  obtain ⟨hid, hd⟩ := Prod.mk.inj heq
  exact ⟨g, hg, hid.symm, src, dst, row, hd, hrow⟩

theorem mem_mappedFiles_iff {m : MappedFile}
    (h : rekey faults copy dryRun dir rows = (dir', .ok report)) (hg : g ∈ groupsOf rows)
    (hid : m.driveFileId = g.1) :
    m ∈ report.mappedFiles ↔ ∃ src dst row,
      decisionAt faults copy dryRun dir rows g = .mapped src dst row ∧
        row.canonicalId = m.canonicalId ∧ row.parserVersion = m.parserVersion := by
  rw [(lists_of_rekey h).2.mappedFiles, mem_mappedOf, hid]
  simp only [mem_decisions_iff hg]

end Rekey
end Statskboo
