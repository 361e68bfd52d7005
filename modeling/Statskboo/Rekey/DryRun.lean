import Statskboo.Rekey.Contents

/-!
# What a dry run predicts

A dry run takes every decision in the directory as it stands; the real run takes it in the
directory that the smaller ids left.  The two agree where no planned move of a smaller id
reaches into the decision of a later one.

Main results:

- Theorem {lit}`decision_afterMoves_iff`: when the planned moves leave a decision as it is.
- Theorem {lit}`dryRun_predicts_iff`: when a dry run reports what the real run does.
-/

namespace Statskboo
namespace Rekey

open DataCache KeyedTable

/-! ## The last candidate of the highest version -/

section Highest

variable {l : List (String × MappingRow)} {p q : String × MappingRow}
  {candidates : List MappingRow} {isFile isFile' : String → Bool}

theorem maxByVersion_append_singleton_eq_some_iff :
    maxByVersion (l ++ [p]) = some q ↔
      maxByVersion l = some q ∧ p.2.parserVersion < q.2.parserVersion ∨
        q = p ∧ ∀ r ∈ l, r.2.parserVersion ≤ p.2.parserVersion := by
  rw [maxByVersion_append_singleton, Option.some.injEq]
  cases hbest : maxByVersion l with
  | none =>
      rw [maxByVersion_eq_none.mp hbest]
      simp [laterOfHighest, eq_comm]
  | some best =>
      obtain ⟨hmem, hle⟩ := maxByVersion_spec hbest
      dsimp only [laterOfHighest]
      rw [Option.some.injEq]
      split_ifs with hlt
      · constructor
        · rintro rfl
          exact Or.inl ⟨rfl, hlt⟩
        · rintro (⟨rfl, -⟩ | ⟨-, hall⟩)
          · rfl
          · exact absurd hlt (not_lt.mpr (hall best hmem))
      · constructor
        · rintro rfl
          exact Or.inr ⟨rfl, fun r hr => (hle r hr).trans (not_lt.mp hlt)⟩
        · rintro (⟨rfl, hlt'⟩ | ⟨rfl, -⟩)
          · exact absurd hlt' hlt
          · rfl

/-- With candidates taken away, one that is left stays the pick. -/
theorem maxByVersion_filter {keep : String × MappingRow → Bool} (h : maxByVersion l = some p)
    (hkeep : keep p = true) : maxByVersion (l.filter keep) = some p := by
  induction l using List.reverseRecOn with
  | nil => cases h
  | append_singleton l last ih =>
      rw [List.filter_append]
      rcases maxByVersion_append_singleton_eq_some_iff.mp h with ⟨hbest, hlt⟩ | ⟨rfl, hle⟩
      · cases hlast : keep last with
        | false => simpa [hlast] using ih hbest
        | true =>
            rw [List.filter_singleton, hlast]
            exact maxByVersion_append_singleton_eq_some_iff.mpr (Or.inl ⟨ih hbest, hlt⟩)
      · rw [List.filter_singleton, hkeep]
        exact maxByVersion_append_singleton_eq_some_iff.mpr
          (Or.inr ⟨rfl, fun r hr => hle r (List.mem_filter.mp hr).1⟩)

/-- One more candidate that is not the pick leaves the pick to the others. -/
theorem maxByVersion_append_of_ne {keep : String × MappingRow → Bool} (hne : q ≠ p) :
    maxByVersion (l ++ [q].filter keep) = some p ↔
      maxByVersion l = some p ∧ (keep q = true → q.2.parserVersion < p.2.parserVersion) := by
  rw [List.filter_singleton]
  cases keep q with
  | false => simp
  | true =>
      rw [cond_true, maxByVersion_append_singleton_eq_some_iff]
      simp [hne.symm]

/-- The pick of two selections is the pick of both together. -/
theorem maxByVersion_filter_or {k k' : String × MappingRow → Bool}
    (h : maxByVersion (l.filter k) = some p) (h' : maxByVersion (l.filter k') = some p) :
    maxByVersion (l.filter fun r => k r || k' r) = some p := by
  induction l using List.reverseRecOn with
  | nil => cases h
  | append_singleton l last ih =>
      have hle : ∀ r ∈ l.filter fun r => k r || k' r, r.2.parserVersion ≤ p.2.parserVersion := by
        intro r hr
        obtain ⟨hmem, hor⟩ := List.mem_filter.mp hr
        have hmem' : r ∈ l ++ [last] := List.mem_append_left _ hmem
        rcases Bool.or_eq_true_iff.mp hor with hk | hk
        · exact (maxByVersion_spec h).2 r (List.mem_filter.mpr ⟨hmem', hk⟩)
        · exact (maxByVersion_spec h').2 r (List.mem_filter.mpr ⟨hmem', hk⟩)
      rw [List.filter_append] at h h' ⊢
      by_cases hlast : last = p
      · subst hlast
        rw [List.filter_singleton] at h h' ⊢
        cases hor : k last || k' last with
        | true => exact maxByVersion_append_singleton_eq_some_iff.mpr (Or.inr ⟨rfl, hle⟩)
        | false =>
            obtain ⟨hk, hk'⟩ := Bool.or_eq_false_iff.mp hor
            rw [hk, cond_false, List.append_nil] at h
            rw [hk', cond_false, List.append_nil] at h'
            rw [cond_false, List.append_nil]
            exact ih h h'
      · obtain ⟨hbest, hlt⟩ := (maxByVersion_append_of_ne hlast).mp h
        obtain ⟨hbest', hlt'⟩ := (maxByVersion_append_of_ne hlast).mp h'
        refine (maxByVersion_append_of_ne hlast).mpr ⟨ih hbest hbest', fun hor => ?_⟩
        exact (Bool.or_eq_true_iff.mp hor).elim hlt hlt'

theorem existing_eq_filter (isFile : String → Bool) (candidates : List MappingRow) :
    existing isFile candidates =
      (existing (fun _ => true) candidates).filter fun p => isFile p.1 := by
  unfold existing
  rw [List.filter_filterMap]
  refine List.filterMap_congr fun row _ => ?_
  cases cachePath row.canonicalId with
  | none => rfl
  | some src => cases hsrc : isFile src <;> simp [Option.filter, hsrc]

variable {src : String} {row : MappingRow}

theorem chosen_and {k : String → Bool} (h : chosen isFile candidates = some (src, row))
    (hsrc : k src = true) :
    chosen (fun name => k name && isFile name) candidates = some (src, row) := by
  unfold chosen at h ⊢
  rw [existing_eq_filter] at h ⊢
  rw [← List.filter_filter]
  exact maxByVersion_filter h hsrc

theorem chosen_or (h : chosen isFile candidates = some (src, row))
    (h' : chosen isFile' candidates = some (src, row)) :
    chosen (fun name => isFile name || isFile' name) candidates = some (src, row) := by
  unfold chosen at h h' ⊢
  rw [existing_eq_filter] at h h' ⊢
  exact maxByVersion_filter_or h h'

end Highest

/-! ## The moves that the directory calls for -/

/-- The name that a decision takes. -/
def Decision.source : Decision → Option String
  | mapped src _ _ => some src
  | _ => none

/-- The name that a decision makes. -/
def Decision.destination : Decision → Option String
  | mapped _ dst _ => some dst
  | _ => none

/-- The files that are to be taken for some ids. -/
def plannedSources (dir : Dir) (groups : List (String × List MappingRow)) : List String :=
  groups.filterMap fun g => (planned dir g).source

/-- The files that are to be made for some ids. -/
def plannedDestinations (dir : Dir) (groups : List (String × List MappingRow)) : List String :=
  groups.filterMap fun g => (planned dir g).destination

/-- Whether a name is there once the planned moves are made, given whether it was there. -/
def afterMoves (copy : Bool) (dir : Dir) (earlier : List (String × List MappingRow))
    (old : String → Bool) (name : String) : Bool :=
  old name && (copy || !(plannedSources dir earlier).contains name) ||
    (plannedDestinations dir earlier).contains name

/-- The planned moves of the ids before one leave its decision as it is. -/
structure Undisturbed (copy : Bool) (dir : Dir) (earlier : List (String × List MappingRow))
    (g : String × List MappingRow) : Prop where
  /-- No move makes a file for an id that has none. -/
  missing : ∀ dst, cachePath g.1 = some dst → chosen (isFile dir) g.2 = none →
    ∀ row ∈ g.2, ∀ src, cachePath row.canonicalId = some src →
      src ∉ plannedDestinations dir earlier
  /-- No move takes the destination of an id that has it, or the last of its files. -/
  skipped : ∀ dst, cachePath g.1 = some dst → planned dir g = .skipped → copy = false →
    dst ∉ plannedSources dir earlier ∧
      ∃ row ∈ g.2, ∃ src, cachePath row.canonicalId = some src ∧
        (isFile dir src = true ∧ src ∉ plannedSources dir earlier ∨
          src ∈ plannedDestinations dir earlier)
  /-- No move takes the file that is picked for an id, or makes one to be picked instead. -/
  mapped : ∀ src dst row, planned dir g = .mapped src dst row →
    (copy = false → src ∉ plannedSources dir earlier) ∧
      chosen (fun name => isFile dir name || (plannedDestinations dir earlier).contains name)
        g.2 = some (src, row)

section Moves

variable {copy : Bool} {dir dir' : Dir} {earlier : List (String × List MappingRow)}
  {g : String × List MappingRow} {src dst name : String} {row : MappingRow}

theorem exists_of_mem_plannedDestinations (h : dst ∈ plannedDestinations dir earlier) :
    ∃ g ∈ earlier, cachePath g.1 = some dst ∧ dir.has dst = false := by
  obtain ⟨g, hg, hdst⟩ := List.mem_filterMap.mp h
  cases hd : planned dir g with
  | missing =>
      rw [hd] at hdst
      cases hdst
  | skipped =>
      rw [hd] at hdst
      cases hdst
  | mapped src dst' row =>
      rw [hd] at hdst
      cases hdst
      obtain ⟨hpath, -, hfree⟩ := decision_eq_mapped_iff.mp hd
      exact ⟨g, hg, hpath, hfree⟩

theorem has_of_isFile (h : isFile dir name = true) : dir.has name = true := by
  obtain ⟨f, hf⟩ := isFile_iff.mp h
  exact Table.has_iff.mpr ⟨_, hf⟩

theorem not_isFile_of_mem_plannedDestinations (h : dst ∈ plannedDestinations dir earlier) :
    isFile dir dst = false := by
  obtain ⟨-, -, -, hfree⟩ := exists_of_mem_plannedDestinations h
  refine Bool.eq_false_iff.mpr fun hfile => ?_
  rw [has_of_isFile hfile] at hfree
  cases hfree

theorem afterMoves_iff {old : String → Bool} :
    afterMoves copy dir earlier old name = true ↔
      old name = true ∧ (copy = false → name ∉ plannedSources dir earlier) ∨
        name ∈ plannedDestinations dir earlier := by
  unfold afterMoves
  cases copy <;> simp

theorem isSome_chosen_afterMoves_iff :
    (chosen (afterMoves copy dir earlier (isFile dir)) g.2).isSome = true ↔
      ∃ row ∈ g.2, ∃ src, cachePath row.canonicalId = some src ∧
        (isFile dir src = true ∧ (copy = false → src ∉ plannedSources dir earlier) ∨
          src ∈ plannedDestinations dir earlier) := by
  rw [isSome_chosen_iff]
  unfold HasFile
  simp only [afterMoves_iff]

/-- An id without a file stays without one unless a move makes one. -/
theorem chosen_afterMoves_eq_none_iff (h : chosen (isFile dir) g.2 = none) :
    chosen (afterMoves copy dir earlier (isFile dir)) g.2 = none ↔
      ∀ row ∈ g.2, ∀ src, cachePath row.canonicalId = some src →
        src ∉ plannedDestinations dir earlier := by
  have hnone := chosen_eq_none_iff.mp h
  rw [chosen_eq_none_iff]
  constructor
  · intro hafter row hrow src hpath hmem
    exact hafter row hrow ⟨src, hpath, afterMoves_iff.mpr (Or.inr hmem)⟩
  · rintro hmoves row hrow ⟨src, hpath, hfile⟩
    rcases afterMoves_iff.mp hfile with ⟨hold, -⟩ | hmade
    · exact hnone row hrow ⟨src, hpath, hold⟩
    · exact hmoves row hrow src hpath hmade

/-- The picked candidate stays the pick unless its file is taken or a better one is made. -/
theorem chosen_afterMoves_iff (h : chosen (isFile dir) g.2 = some (src, row)) :
    chosen (afterMoves copy dir earlier (isFile dir)) g.2 = some (src, row) ↔
      (copy = false → src ∉ plannedSources dir earlier) ∧
        chosen (fun name => isFile dir name || (plannedDestinations dir earlier).contains name)
          g.2 = some (src, row) := by
  obtain ⟨-, -, hfile, -⟩ := chosen_spec h
  have hnew : src ∉ plannedDestinations dir earlier := fun hmem => by
    rw [not_isFile_of_mem_plannedDestinations hmem] at hfile
    cases hfile
  constructor
  · intro hafter
    obtain ⟨-, -, hstays, -⟩ := chosen_spec hafter
    refine ⟨((afterMoves_iff.mp hstays).resolve_right hnew).2, ?_⟩
    rw [← chosen_or h hafter]
    congr 1
    funext name
    unfold afterMoves
    cases isFile dir name <;> simp
  · rintro ⟨hkept, hunion⟩
    have hstays : (copy || !(plannedSources dir earlier).contains src) = true := by
      cases copy with
      | true => rfl
      | false => simp [hkept rfl]
    rw [← chosen_and (k := fun name => copy || !(plannedSources dir earlier).contains name ||
      (plannedDestinations dir earlier).contains name) hunion (by simp only [hstays, Bool.true_or])]
    congr 1
    funext name
    unfold afterMoves
    cases isFile dir name <;> cases (plannedDestinations dir earlier).contains name <;> simp

/-- No move makes a destination that is not its own, so it is there only if it was. -/
theorem afterMoves_dst_iff (hother : ∀ g' ∈ earlier, g'.1 ≠ g.1)
    (hpath : cachePath g.1 = some dst) :
    afterMoves copy dir earlier dir.has dst = true ↔
      dir.has dst = true ∧ (copy = false → dst ∉ plannedSources dir earlier) := by
  refine afterMoves_iff.trans (or_iff_left fun hmem => ?_)
  obtain ⟨g', hg', hpath', -⟩ := exists_of_mem_plannedDestinations hmem
  exact hother g' hg' (cachePath_injective hpath' hpath)

theorem undisturbed_missing_iff (hpath : cachePath g.1 = some dst)
    (hchosen : chosen (isFile dir) g.2 = none) :
    Undisturbed copy dir earlier g ↔
      ∀ row ∈ g.2, ∀ src, cachePath row.canonicalId = some src →
        src ∉ plannedDestinations dir earlier := by
  have hplanned : planned dir g = .missing := decision_eq_missing_iff.mpr (Or.inr hchosen)
  constructor
  · exact fun h => h.missing dst hpath hchosen
  · intro hmoves
    refine ⟨fun _ _ _ => hmoves, ?_, ?_⟩
    · intro dst' _ hd
      cases hplanned.symm.trans hd
    · intro src' dst' row' hd
      cases hplanned.symm.trans hd

theorem undisturbed_skipped_iff (hpath : cachePath g.1 = some dst)
    (hplanned : planned dir g = .skipped) :
    Undisturbed copy dir earlier g ↔
      (copy = false → dst ∉ plannedSources dir earlier) ∧
        ∃ row ∈ g.2, ∃ src, cachePath row.canonicalId = some src ∧
          (isFile dir src = true ∧ (copy = false → src ∉ plannedSources dir earlier) ∨
            src ∈ plannedDestinations dir earlier) := by
  obtain ⟨-, -, hsome, -⟩ := decision_eq_skipped_iff.mp hplanned
  constructor
  · intro h
    cases copy with
    | true =>
        -- a copy takes no file, so the one that is there stays
        obtain ⟨row, hrow, src, hsrcPath, hfile⟩ := isSome_chosen_iff.mp hsome
        exact ⟨fun hc => absurd hc (by decide), row, hrow, src, hsrcPath,
          Or.inl ⟨hfile, fun hc => absurd hc (by decide)⟩⟩
    | false =>
        obtain ⟨hkept, row, hrow, src, hsrcPath, hfile⟩ := h.skipped dst hpath hplanned rfl
        refine ⟨fun _ => hkept, row, hrow, src, hsrcPath, hfile.imp_left ?_⟩
        exact fun hstays => ⟨hstays.1, fun _ => hstays.2⟩
  · rintro ⟨hkept, row, hrow, src, hsrcPath, hfile⟩
    refine ⟨?_, ?_, ?_⟩
    · intro _ _ hnone
      rw [hnone] at hsome
      cases hsome
    · intro dst' hdst' _ hmove
      cases hpath.symm.trans hdst'
      refine ⟨hkept hmove, row, hrow, src, hsrcPath, hfile.imp_left ?_⟩
      exact fun hstays => ⟨hstays.1, hstays.2 hmove⟩
    · intro src' dst' row' hd
      cases hplanned.symm.trans hd

theorem undisturbed_mapped_iff (hplanned : planned dir g = .mapped src dst row) :
    Undisturbed copy dir earlier g ↔
      (copy = false → src ∉ plannedSources dir earlier) ∧
        chosen (fun name => isFile dir name || (plannedDestinations dir earlier).contains name)
          g.2 = some (src, row) := by
  obtain ⟨-, hchosen, -⟩ := decision_eq_mapped_iff.mp hplanned
  constructor
  · exact fun h => h.mapped src dst row hplanned
  · intro hpick
    refine ⟨?_, ?_, ?_⟩
    · intro _ _ hnone
      cases hnone.symm.trans hchosen
    · intro dst' _ hd
      cases hplanned.symm.trans hd
    · intro src' dst' row' hd
      cases hplanned.symm.trans hd
      exact hpick

/-- When the planned moves leave a decision as it is. -/
theorem decision_afterMoves_iff (hother : ∀ g' ∈ earlier, g'.1 ≠ g.1) :
    decision (afterMoves copy dir earlier (isFile dir)) (afterMoves copy dir earlier dir.has) g =
        planned dir g ↔ Undisturbed copy dir earlier g := by
  cases hplanned : planned dir g with
  | missing =>
      cases hpath : cachePath g.1 with
      | none =>
          have hmissing (isFile has : String → Bool) : decision isFile has g = .missing :=
            decision_eq_missing_iff.mpr (Or.inl hpath)
          refine iff_of_true (hmissing ..) ⟨?_, ?_, ?_⟩
          · intro dst hdst
            cases hpath.symm.trans hdst
          · intro dst hdst
            cases hpath.symm.trans hdst
          · intro src dst row hd
            cases hplanned.symm.trans hd
      | some dst =>
          have hchosen : chosen (isFile dir) g.2 = none :=
            (decision_eq_missing_iff.mp hplanned).resolve_left (by simp [hpath])
          rw [undisturbed_missing_iff hpath hchosen, decision_eq_missing_iff, hpath,
            or_iff_right (Option.some_ne_none dst), chosen_afterMoves_eq_none_iff hchosen]
  | skipped =>
      obtain ⟨dst, hpath, -, hhas⟩ := decision_eq_skipped_iff.mp hplanned
      rw [undisturbed_skipped_iff hpath hplanned, decision_eq_skipped_iff]
      simp only [hpath, Option.some.injEq, exists_eq_left', afterMoves_dst_iff hother hpath, hhas,
        true_and, isSome_chosen_afterMoves_iff]
      exact and_comm
  | mapped src dst row =>
      obtain ⟨hpath, hchosen, hhas⟩ := decision_eq_mapped_iff.mp hplanned
      have hfree : afterMoves copy dir earlier dir.has dst = false := by
        refine Bool.eq_false_iff.mpr fun h => ?_
        cases hhas.symm.trans ((afterMoves_dst_iff hother hpath).mp h).1
      rw [undisturbed_mapped_iff hplanned, decision_eq_mapped_iff, chosen_afterMoves_iff hchosen]
      exact ⟨fun h => h.2.1, fun hpick => ⟨hpath, hpick, hfree⟩⟩

end Moves

/-! ## The run along the plan -/

section Along

variable {copy : Bool} {dir dir₁ dir₂ dir' : Dir} {earlier groups : List (String × List MappingRow)}
  {g : String × List MappingRow} {d : Decision} {ds : List Decision} {name : String}

/-- A turn of the real run takes the source and makes the destination. -/
theorem entry_of_moved {p : Option Entry → Bool} (hnone : p none = false)
    (hfile : ∀ f, p (some (.file f)) = true) (h : Moved copy false dir₁ dir₂ d) :
    p (dir₂.get? name) = true ↔
      p (dir₁.get? name) = true ∧ (copy = false → d.source ≠ some name) ∨
        d.destination = some name := by
  cases h with
  | unchanged hdir hd =>
      subst hdir
      have hnot := hd.resolve_left Bool.false_ne_true
      cases d with
      | missing => simp [Decision.source, Decision.destination]
      | skipped => simp [Decision.source, Decision.destination]
      | mapped src dst row => exact absurd rfl (hnot src dst row)
  | @carried src dst row f f' _ hsrc hdst hbytes hdir =>
      simp only [hdir, Decision.source, Decision.destination, ne_eq, Option.some.injEq]
      split_ifs with hnew hgone
      · exact iff_of_true (hfile f') (Or.inr hnew.symm)
      · refine iff_of_false (by simp [hnone]) ?_
        rintro (⟨-, hkept⟩ | rfl)
        · exact hkept hgone.1 hgone.2.symm
        · exact hnew rfl
      · constructor
        · exact fun hp => Or.inl ⟨hp, fun hc heq => hgone ⟨hc, heq.symm⟩⟩
        · rintro (⟨hp, -⟩ | rfl)
          · exact hp
          · exact absurd rfl hnew

theorem mem_plannedSources_append :
    name ∈ plannedSources dir (earlier ++ [g]) ↔
      name ∈ plannedSources dir earlier ∨ (planned dir g).source = some name := by
  simp [plannedSources]

theorem mem_plannedDestinations_append :
    name ∈ plannedDestinations dir (earlier ++ [g]) ↔
      name ∈ plannedDestinations dir earlier ∨ (planned dir g).destination = some name := by
  simp [plannedDestinations]

theorem isFile_of_source (h : (planned dir g).source = some name) : isFile dir name = true := by
  cases hd : planned dir g with
  | missing =>
      rw [hd] at h
      cases h
  | skipped =>
      rw [hd] at h
      cases h
  | mapped src dst row =>
      rw [hd] at h
      cases h
      obtain ⟨-, hchosen, -⟩ := decision_eq_mapped_iff.mp hd
      exact (chosen_spec hchosen).2.2.1

/-- A run that takes the planned decisions makes the planned moves. -/
theorem entry_of_trace {p : Option Entry → Bool} (hnone : p none = false)
    (hfile : ∀ f, p (some (.file f)) = true)
    (h : Trace copy false dir earlier (earlier.map (planned dir)) dir₁) :
    p (dir₁.get? name) = true ↔
      afterMoves copy dir earlier (fun name => p (dir.get? name)) name = true := by
  induction earlier using List.reverseRecOn generalizing dir₁ with
  | nil =>
      cases h
      simp [afterMoves_iff, plannedSources, plannedDestinations]
  | append_singleton earlier g ih =>
      obtain ⟨ds₁, d, ds₂, dir₀, dir₂, hds, hlength, hbefore, hmoved, hafter⟩ := h.split
      cases hafter
      rw [List.map_append] at hds
      obtain ⟨rfl, hd⟩ := List.append_inj hds (by rw [List.length_map, hlength])
      cases hd
      rw [entry_of_moved hnone hfile hmoved, ih hbefore, afterMoves_iff, afterMoves_iff,
        mem_plannedSources_append, mem_plannedDestinations_append]
      -- what is to be taken was there, so it is not among what the moves before make
      have hapart : name ∈ plannedDestinations dir earlier →
          (planned dir g).source ≠ some name := by
        intro hmade hsource
        have hnew := not_isFile_of_mem_plannedDestinations hmade
        rw [isFile_of_source hsource] at hnew
        cases hnew
      tauto

/-- So the decision at the next turn is the one that the plan leads to. -/
theorem decision_of_trace (h : Trace copy false dir earlier (earlier.map (planned dir)) dir₁) :
    decision (isFile dir₁) dir₁.has g =
      decision (afterMoves copy dir earlier (isFile dir)) (afterMoves copy dir earlier dir.has)
        g := by
  have hisFile : isFile dir₁ = afterMoves copy dir earlier (isFile dir) :=
    funext fun name => Bool.eq_iff_iff.mpr
      (entry_of_trace (p := Option.any Entry.isFile) rfl (fun _ => rfl) h)
  have hhas : dir₁.has = afterMoves copy dir earlier dir.has :=
    funext fun name => Bool.eq_iff_iff.mpr
      (entry_of_trace (p := Option.isSome) rfl (fun _ => rfl) h)
  rw [hisFile, hhas]

end Along

/-! ## What is reported -/

section Reports

variable {faults : Faults} {copy dryRun dryRun' : Bool} {dir dir' : Dir} {rows : List MappingRow}
  {report report' : RekeyReport} {g : String × List MappingRow}

/-- A dry run takes every decision in the directory as it stands. -/
theorem rekeyLoop_dryRun {groups : List (String × List MappingRow)}
    {outcome : Except RekeyError RekeyReport}
    (h : rekeyLoop faults copy true groups dir report = (dir', outcome)) : dir' = dir := by
  refine rekeyLoop_invariant (P := fun dir' => dir' = dir) ?_ h rfl
  rintro g - dir₁ report₁ dir₂ outcome₂ hturn rfl
  unfold rekeyStep at hturn
  split at hturn <;> cases hturn <;> rfl

theorem decisionAt_dryRun : decisionAt faults copy true dir rows g = planned dir g := by
  rw [decisionAt, dirBefore, rekeyLoop_dryRun (Prod.eta _).symm]

/-- As long as the decisions are the planned ones, the next is the one the plan leads to. -/
theorem decisionAt_of_earlier (h : rekey faults copy false dir rows = (dir', .ok report))
    (hg : g ∈ groupsOf rows)
    (hearlier : ∀ g' ∈ earlier rows g.1,
      decisionAt faults copy false dir rows g' = planned dir g') :
    decisionAt faults copy false dir rows g =
      decision (afterMoves copy dir (earlier rows g.1) (isFile dir))
        (afterMoves copy dir (earlier rows g.1) dir.has) g := by
  obtain ⟨before, after, dir₂, hsplit, htrace, -, -⟩ := exists_turn h hg
  rw [← earlier_eq_before hsplit, List.map_congr_left hearlier] at htrace
  exact decision_of_trace htrace

/-- The run takes the planned decisions exactly when the planned moves leave each as it is. -/
theorem decisionAt_eq_planned_iff (h : rekey faults copy false dir rows = (dir', .ok report)) :
    (∀ g ∈ groupsOf rows, decisionAt faults copy false dir rows g = planned dir g) ↔
      ∀ g ∈ groupsOf rows, Undisturbed copy dir (earlier rows g.1) g := by
  have hother (g : String × List MappingRow) : ∀ g' ∈ earlier rows g.1, g'.1 ≠ g.1 :=
    fun g' hg' => ne_of_lt (of_decide_eq_true (List.mem_filter.mp hg').2)
  constructor
  · intro hplan g hg
    rw [← decision_afterMoves_iff (hother g), ← hplan g hg]
    exact (decisionAt_of_earlier h hg fun g' hg' => hplan g' (List.mem_filter.mp hg').1).symm
  · intro hundisturbed
    -- induction on the ids that had their turn
    suffices hprefix : ∀ before after, groupsOf rows = before ++ after →
        ∀ g ∈ before, decisionAt faults copy false dir rows g = planned dir g from
      hprefix (groupsOf rows) [] (List.append_nil _).symm
    intro before
    induction before using List.reverseRecOn with
    | nil => exact fun _ _ g hg => nomatch hg
    | append_singleton before last ih =>
        intro after hsplit g hg
        rw [List.append_assoc, List.singleton_append] at hsplit
        have hbefore := ih (last :: after) hsplit
        rcases List.mem_append.mp hg with hg | hg
        · exact hbefore g hg
        · obtain rfl := List.mem_singleton.mp hg
          have hmem : g ∈ groupsOf rows := hsplit ▸ List.mem_append_right _ List.mem_cons_self
          rw [decisionAt_of_earlier h hmem ((earlier_eq_before hsplit).symm ▸ hbefore),
            (decision_afterMoves_iff (hother g)).mpr (hundisturbed g hmem)]

/-- Runs whose reports list the same decide the same. -/
theorem decisionAt_eq_of_lists (h : rekey faults copy dryRun dir rows = (dir', .ok report))
    {dir₂ : Dir} (h' : rekey faults copy dryRun' dir rows = (dir₂, .ok report'))
    (hmapped : report.mappedFiles = report'.mappedFiles)
    (hskipped : report.skippedIds = report'.skippedIds)
    (hmissing : report.missingIds = report'.missingIds) (hg : g ∈ groupsOf rows) :
    decisionAt faults copy dryRun dir rows g = decisionAt faults copy dryRun' dir rows g := by
  cases hd : decisionAt faults copy dryRun dir rows g with
  | missing =>
      rw [← mem_missingIds_iff h hg, hmissing, mem_missingIds_iff h' hg] at hd
      exact hd.symm
  | skipped =>
      rw [← mem_skippedIds_iff h hg, hskipped, mem_skippedIds_iff h' hg] at hd
      exact hd.symm
  | mapped src dst row =>
      have hm : MappedFile.mk g.1 row.canonicalId row.parserVersion ∈ report'.mappedFiles :=
        hmapped ▸ (mem_mappedFiles_iff h hg rfl).mpr ⟨src, dst, row, hd, rfl, rfl⟩
      obtain ⟨src', dst', row', hd', hcanonical, hversion⟩ := (mem_mappedFiles_iff h' hg rfl).mp hm
      obtain ⟨hdst, hchosen, -⟩ := decision_eq_mapped_iff.mp hd
      obtain ⟨hdst', hchosen', -⟩ := decision_eq_mapped_iff.mp hd'
      obtain ⟨hrow, hsrc, -⟩ := chosen_spec hchosen
      obtain ⟨hrow', hsrc', -⟩ := chosen_spec hchosen'
      have heq : row' = row := by
        obtain ⟨-, hid⟩ := mem_of_mem_group hg hrow
        obtain ⟨-, hid'⟩ := mem_of_mem_group hg hrow'
        cases row
        cases row'
        simp_all
      subst heq
      cases hdst.symm.trans hdst'
      cases hsrc.symm.trans hsrc'
      exact hd'.symm

/-- Every file operation succeeds, the times carried over or not. -/
structure Faultless (faults : Faults) : Prop where
  metadata : ∀ id, (faults.fate id).metadataFails = false
  copies : ∀ id, (faults.fate id).copyFails = none
  renames : ∀ id, (faults.fate id).renameFails = false
  readDir : faults.readDirFails = false

theorem rekeyStep_faultless (hfaults : Faultless faults) (copy dryRun : Bool) (dir : Dir)
    (report : RekeyReport) (g : String × List MappingRow) :
    ∃ dir' report', rekeyStep faults copy dryRun dir report g = (dir', .ok report') := by
  unfold rekeyStep
  cases hd : decision (isFile dir) dir.has g with
  | missing => exact ⟨_, _, rfl⟩
  | skipped => exact ⟨_, _, rfl⟩
  | mapped src dst row =>
      obtain ⟨f, hsrc⟩ := exists_file_of_mapped hd
      have hcarry : ∃ dir' warnings,
          carry (faults.fate g.1) copy dir src dst = (dir', .ok warnings) := by
        unfold carry
        rw [hfaults.metadata, hfaults.copies, hfaults.renames, hsrc]
        cases copy with
        | true => cases (faults.fate g.1).timesError <;> exact ⟨_, _, rfl⟩
        | false => exact ⟨_, _, rfl⟩
      obtain ⟨dir', warnings, hcarry⟩ := hcarry
      dsimp only
      rw [hcarry]
      cases dryRun <;> exact ⟨_, _, rfl⟩

theorem rekeyLoop_faultless (hfaults : Faultless faults) (copy dryRun : Bool)
    (groups : List (String × List MappingRow)) (dir : Dir) (report : RekeyReport) :
    ∃ dir' report', rekeyLoop faults copy dryRun groups dir report = (dir', .ok report') := by
  induction groups generalizing dir report with
  | nil => exact ⟨_, _, rfl⟩
  | cons g groups ih =>
      obtain ⟨dir₁, report₁, hturn⟩ := rekeyStep_faultless hfaults copy dryRun dir report g
      rw [rekeyLoop, hturn]
      exact ih dir₁ report₁

/-- A run in which no file operation fails ends well. -/
theorem rekey_faultless (hfaults : Faultless faults) (copy dryRun : Bool) (dir : Dir)
    (rows : List MappingRow) :
    ∃ dir' report', rekey faults copy dryRun dir rows = (dir', .ok report') := by
  obtain ⟨dir', report', hloop⟩ := rekeyLoop_faultless hfaults copy dryRun (groupsOf rows) dir
    (startReport copy dryRun rows)
  unfold rekey
  rw [hloop, hfaults.readDir]
  exact ⟨_, _, rfl⟩

/-- A dry run leaves the directory and reports what the real run does. -/
def PredictsRun (faults : Faults) (copy : Bool) (dir : Dir) (rows : List MappingRow) : Prop :=
  ∃ predicted report dir', rekey faults copy true dir rows = (dir, .ok predicted) ∧
    rekey faults copy false dir rows = (dir', .ok report) ∧
    predicted.mappedFiles = report.mappedFiles ∧ predicted.skippedIds = report.skippedIds ∧
    predicted.missingIds = report.missingIds

/-- When a dry run reports what the real run does. -/
theorem dryRun_predicts_iff (hfaults : Faultless faults) :
    PredictsRun faults copy dir rows ↔
      ∀ g ∈ groupsOf rows, Undisturbed copy dir (earlier rows g.1) g := by
  obtain ⟨dir₁, predicted, hdry⟩ := rekey_faultless hfaults copy true dir rows
  obtain ⟨dir', report, hreal⟩ := rekey_faultless hfaults copy false dir rows
  obtain ⟨outcome, hloop⟩ := rekeyLoop_of_rekey hdry
  obtain rfl := rekeyLoop_dryRun hloop
  rw [← decisionAt_eq_planned_iff hreal]
  constructor
  · rintro ⟨predicted', report', dir'', hdry', hreal', hmapped, hskipped, hmissing⟩ g hg
    rw [← decisionAt_eq_of_lists hdry' hreal' hmapped hskipped hmissing hg, decisionAt_dryRun]
  · intro hplan
    have hlists := (lists_of_rekey hdry).2
    have hlists' := (lists_of_rekey hreal).2
    have hdecisions :
        ((groupsOf rows).map fun g => (g.1, decisionAt faults copy true dir₁ rows g)) =
        (groupsOf rows).map fun g => (g.1, decisionAt faults copy false dir₁ rows g) :=
      List.map_congr_left fun g hg => by rw [decisionAt_dryRun, hplan g hg]
    rw [hdecisions] at hlists
    refine ⟨predicted, report, dir', hdry, hreal, ?_, ?_, ?_⟩
    · rw [hlists.mappedFiles, hlists'.mappedFiles]
    · rw [hlists.skippedIds, hlists'.skippedIds]
    · rw [hlists.missingIds, hlists'.missingIds]

end Reports

/-! ## One file for two ids -/

section Example

theorem faultless_noFaults : Faultless noFaults :=
  ⟨fun _ => rfl, fun _ => rfl, fun _ => rfl, rfl⟩

/-- Copies leave the file of the first id to the second. -/
theorem dryRun_predicts_sharedRows :
    PredictsRun noFaults true legacyDir sharedRows ∧
      ∀ g ∈ groupsOf sharedRows, Undisturbed true legacyDir (earlier sharedRows g.1) g := by
  have hpredicts : PredictsRun noFaults true legacyDir sharedRows :=
    ⟨_, _, _, Prod.ext rfl rfl, Prod.ext rfl rfl, rfl, rfl, rfl⟩
  exact ⟨hpredicts, (dryRun_predicts_iff faultless_noFaults).mp hpredicts⟩

/-- Two ids with one canonical id. -/
def oneFile : List MappingRow :=
  [⟨"idA", "canonB", 1⟩, ⟨"idB", "canonB", 1⟩]

/-- A dry run maps the file twice, and the real run only for the first id. -/
theorem not_dryRun_predicts :
    ¬∀ (faults : Faults) (copy : Bool) (dir : Dir) (rows : List MappingRow), Faultless faults →
      PredictsRun faults copy dir rows := by
  intro h
  obtain ⟨predicted, report, dir', hdry, hreal, -, -, hmissing⟩ :=
    h noFaults false legacyDir oneFile faultless_noFaults
  have hpredicted : predicted.missingIds = [] := by
    have hrun : rekey noFaults false true legacyDir oneFile =
      (legacyDir, .ok _) := Prod.ext rfl rfl
    cases hrun.symm.trans hdry
    rfl
  have hreport : report.missingIds = ["idB"] := by
    have hrun : rekey noFaults false false legacyDir oneFile =
      ((rekey noFaults false false legacyDir oneFile).1, .ok _) := Prod.ext rfl rfl
    cases hrun.symm.trans hreal
    rfl
  rw [hpredicted, hreport] at hmissing
  cases hmissing

end Example

end Rekey
end Statskboo
