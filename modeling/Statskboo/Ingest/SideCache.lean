import Statskboo.Ingest.ResolveFailure
import Statskboo.Lib.Memo

/-!
# The side cache

One cache of team lookups serves a whole pass.  It is keyed by the name of a side while the
lookup goes by its trigrams, and an entry does not say how it was computed; it remembers names
without a team as well.  Here the cache is a plain table, and that its entries are right is an
invariant of the pass: a statsbook has the trigrams of its own names.

Main results:

- Theorem {lit}`Matcher.resolveIn_spec`: with a coherent cache a statsbook resolves as it does on
  its own, and the cache stays coherent.
- Theorem {lit}`Matcher.sideCache_invisible`: one shared cache shows neither in the resolutions
  nor, whatever the order and the batches, in what a pass leaves.
-/

namespace Statskboo
namespace Resolve

open Canon Chunks KeyedTable Memo

/-- Memoized best-team lookup per canonical side name. -/
abbrev NameCache := Table String (Option (Int × ℚ))

/-! ## Resolving with a plain cache -/

namespace Matcher

variable [Text.UnicodeTables] [Numbers.Rounding] (m : Matcher)

/-- Best team for a side name, looked up in the cache first. -/
def resolveSideIn (name : String) (trigrams : TrigramSet) (cache : NameCache) :
    Option (Int × ℚ) × NameCache :=
  lookup cache name (m.bestTeam trigrams)

/-- Path 1 with a cache. -/
def signatureMatchIn (sb : Statsbook) (cache : NameCache) : Option Resolution × NameCache :=
  match m.resolveSideIn sb.homeName sb.home cache with
  | (none, cache) => (none, cache)
  | (some (homeId, _), cache) =>
      match m.resolveSideIn sb.awayName sb.away cache with
      | (none, cache) => (none, cache)
      | (some (awayId, _), cache) => (m.signatureGame sb homeId awayId, cache)

/-- Resolve one statsbook with a cache. -/
def resolveIn (sb : Statsbook) (cache : NameCache) : Resolution × NameCache :=
  match m.signatureMatchIn sb cache with
  | (some resolution, cache) => (resolution, cache)
  | (none, cache) => (m.windowMatch sb, cache)

/-- Resolve statsbooks one after another with one cache. -/
def resolveAll : NameCache → List Statsbook → List Resolution × NameCache
  | cache, [] => ([], cache)
  | cache, sb :: sbs =>
      let (resolution, cache) := m.resolveIn sb cache
      let (resolutions, cache) := resolveAll cache sbs
      (resolution :: resolutions, cache)

/-! ## The cache stays coherent -/

/-- The team that a name resolves to. -/
def teamOfName (name : String) : Option (Int × ℚ) :=
  m.bestTeam (TrigramSet.new name)

variable {m} {cache : NameCache} (hcache : Coherent m.teamOfName cache)
include hcache

theorem resolveSideIn_spec {name : String} {trigrams : TrigramSet}
    (htrigrams : trigrams = TrigramSet.new name) :
    (m.resolveSideIn name trigrams cache).1 = m.bestTeam trigrams ∧
      Coherent m.teamOfName (m.resolveSideIn name trigrams cache).2 := by
  rw [htrigrams]
  exact ⟨lookup_fst hcache name, hcache.lookup name⟩

/-- The signature path answers as it does on its own, also where it stops after one side. -/
theorem signatureMatchIn_spec (sb : Statsbook) :
    (m.signatureMatchIn sb cache).1 = m.signature sb ∧
      Coherent m.teamOfName (m.signatureMatchIn sb cache).2 := by
  obtain ⟨hhome, hcache'⟩ := resolveSideIn_spec hcache sb.home_eq
  unfold signatureMatchIn signature
  rcases hhomeSide : m.resolveSideIn sb.homeName sb.home cache with ⟨home, cache'⟩
  rw [hhomeSide] at hhome hcache'
  rw [← hhome]
  cases home with
  | none => exact ⟨rfl, hcache'⟩
  | some home =>
      obtain ⟨haway, hcache''⟩ := resolveSideIn_spec hcache' sb.away_eq
      dsimp only
      rcases hawaySide : m.resolveSideIn sb.awayName sb.away cache' with ⟨away, cache''⟩
      rw [hawaySide] at haway hcache''
      rw [← haway]
      cases away with
      | none => exact ⟨rfl, hcache''⟩
      | some away => exact ⟨rfl, hcache''⟩

/-- A statsbook resolves as it does on its own, and the cache stays coherent. -/
theorem resolveIn_spec (sb : Statsbook) :
    (m.resolveIn sb cache).1 = m.resolution sb ∧
      Coherent m.teamOfName (m.resolveIn sb cache).2 := by
  obtain ⟨hsignature, hcache'⟩ := signatureMatchIn_spec hcache sb
  unfold resolveIn resolution
  rcases hpath : m.signatureMatchIn sb cache with ⟨found, cache'⟩
  rw [hpath] at hsignature hcache'
  rw [← hsignature]
  cases found with
  | none => exact ⟨rfl, hcache'⟩
  | some resolution => exact ⟨rfl, hcache'⟩

/-- All statsbooks resolve as they do on their own. -/
theorem resolveAll_spec (sbs : List Statsbook) :
    (m.resolveAll cache sbs).1 = sbs.map m.resolution ∧
      Coherent m.teamOfName (m.resolveAll cache sbs).2 := by
  induction sbs generalizing cache with
  | nil => exact ⟨rfl, hcache⟩
  | cons sb sbs ih =>
      obtain ⟨hresolution, hcache'⟩ := resolveIn_spec hcache sb
      obtain ⟨hresolutions, hcache''⟩ := ih hcache'
      refine ⟨?_, hcache''⟩
      rw [List.map_cons, ← hresolution, ← hresolutions]
      rfl

end Matcher

/-! ## The loop of a pass -/

/-- What a pass carries from statsbook to statsbook. -/
structure PassState where
  cache : NameCache
  stats : ResolveStats
  db : Db

section Loop

variable [Text.UnicodeTables] [Numbers.Rounding]

/-- One round of a pass: resolve, count, write. -/
def resolveRow (m : Matcher) (s : PassState) (row : BookRow) : Option PassState := do
  let (resolution, cache) := m.resolveIn row.statsbook s.cache
  let db ← writeMatch s.db (row.driveFileId, resolution)
  return { cache, stats := s.stats.record resolution.method, db }

/-- A pass over batches of statsbooks with one cache for all of them. -/
def passOver (m : Matcher) (db : Db) (batches : List (List BookRow)) :
    Option (Db × ResolveStats) := do
  let s ← batches.foldlM (fun s batch => batch.foldlM (resolveRow m) s)
    ⟨Table.empty, ⟨0, 0, 0, 0, 0⟩, db⟩
  return (dedupMatchedGames s.db, s.stats)

/-- A round without a cache. -/
def writeRow (m : Matcher) (s : ResolveStats × Db) (row : BookRow) : Option (ResolveStats × Db) :=
  (writeMatch s.2 (row.driveFileId, m.resolution row.statsbook)).map fun db =>
    (s.1.record (m.resolution row.statsbook).method, db)

theorem resolveRow_eq (m : Matcher) (s : PassState) (row : BookRow) :
    resolveRow m s row =
      (writeMatch s.db (row.driveFileId, (m.resolveIn row.statsbook s.cache).1)).map fun db =>
        ⟨(m.resolveIn row.statsbook s.cache).2,
          s.stats.record (m.resolveIn row.statsbook s.cache).1.method, db⟩ := by
  unfold resolveRow
  rcases m.resolveIn row.statsbook s.cache with ⟨resolution, cache⟩
  dsimp only
  cases writeMatch s.db (row.driveFileId, resolution) <;> rfl

/-- The rounds of a pass do the same without a cache. -/
theorem foldlM_resolveRow {m : Matcher} {s : PassState}
    (hcache : Coherent m.teamOfName s.cache) (rows : List BookRow) :
    (rows.foldlM (resolveRow m) s).map (fun s => (s.stats, s.db)) =
      rows.foldlM (writeRow m) (s.stats, s.db) := by
  induction rows generalizing s with
  | nil => rfl
  | cons row rows ih =>
      obtain ⟨hresolution, hcache'⟩ := Matcher.resolveIn_spec hcache row.statsbook
      rw [List.foldlM_cons, List.foldlM_cons, resolveRow_eq, writeRow, ← hresolution]
      cases writeMatch s.db (row.driveFileId, (m.resolveIn row.statsbook s.cache).1) with
      | none => rfl
      | some db => exact @ih ⟨_, _, db⟩ hcache'

end Loop

/-! ## The order of the writes -/

section Order

/-- The foreign keys of a write are in place. -/
def Writable (db : Db) (w : String × Resolution) : Prop :=
  (db.statsbooks.has w.1 = true ∧ ∀ g ∈ w.2.wftdaGameId, db.wftdaGames.has g = true) ∧
    ∀ s, (db.side? w.1 s).isSome = true → ∀ t ∈ w.2.team s, db.wftdaTeams.has t = true

/-- The database after a write. -/
def dbAfterWrite (db : Db) (w : String × Resolution) : Db :=
  ({ db with gameMatches := db.gameMatches.upsert w.1 (matchRow w.2) } : Db).setSideTeams w.1
    w.2.team

variable {db db' : Db} {w w' : String × Resolution}

theorem writeMatch_iff : writeMatch db w = some db' ↔ Writable db w ∧ db' = dbAfterWrite db w := by
  rw [writeMatch_eq_some]
  exact and_assoc.symm

theorem writable_of_sameContent (h : Db.SameContent db db') (w : String × Resolution) :
    Writable db' w ↔ Writable db w := by
  unfold Writable
  simp only [h.statsbooks, h.wftdaGames, h.wftdaTeams, h.isSome_side?]

/-- Writes for different files leave the same database in either order. -/
theorem written_comm (hne : w.1 ≠ w'.1) (db : Db) :
    dbAfterWrite (dbAfterWrite db w) w' = dbAfterWrite (dbAfterWrite db w') w := by
  have hsides : (dbAfterWrite (dbAfterWrite db w) w').statsbookSides =
      (dbAfterWrite (dbAfterWrite db w') w).statsbookSides := by
    apply Table.ext_get?
    intro k
    simp only [dbAfterWrite, Db.setSideTeams, Table.get?_mapVals, Option.map_map]
    congr 1
    funext row
    dsimp only [Function.comp_apply]
    split_ifs with h h'
    · exact absurd (h'.symm.trans h) hne
    · rfl
    · rfl
    · rfl
  have hmatches : (dbAfterWrite (dbAfterWrite db w) w').gameMatches =
      (dbAfterWrite (dbAfterWrite db w') w).gameMatches :=
    Table.upsert_comm db.gameMatches hne _ _
  unfold dbAfterWrite Db.setSideTeams at hsides hmatches ⊢
  dsimp only at hsides hmatches ⊢
  rw [hsides, hmatches]

theorem writeMatch_swap (hne : w.1 ≠ w'.1)
    (h : ((writeMatch db w).bind fun db => writeMatch db w') = some db') :
    ((writeMatch db w').bind fun db => writeMatch db w) = some db' := by
  obtain ⟨db₁, hw, hw'⟩ := Option.bind_eq_some_iff.mp h
  have hsame := sameContent_writeMatch hw
  obtain ⟨hwritable, rfl⟩ := writeMatch_iff.mp hw
  obtain ⟨hwritable', rfl⟩ := writeMatch_iff.mp hw'
  have hfirst : writeMatch db w' = some (dbAfterWrite db w') :=
    writeMatch_iff.mpr ⟨(writable_of_sameContent hsame w').mp hwritable', rfl⟩
  rw [hfirst, Option.bind_some, written_comm hne]
  exact writeMatch_iff.mpr
    ⟨(writable_of_sameContent (sameContent_writeMatch hfirst) w).mpr hwritable, rfl⟩

/-- Writes for different files can be exchanged. -/
theorem writeMatch_comm (hne : w.1 ≠ w'.1) (db : Db) :
    ((writeMatch db w).bind fun db => writeMatch db w') =
      (writeMatch db w').bind fun db => writeMatch db w := by
  apply Option.ext
  intro db'
  exact ⟨writeMatch_swap hne, writeMatch_swap hne.symm⟩

theorem record_comm (stats : ResolveStats) (a b : Method) :
    (stats.record a).record b = (stats.record b).record a := by
  cases a <;> cases b <;> rfl

variable [Text.UnicodeTables] [Numbers.Rounding]

/-- Rounds for different files can be exchanged. -/
theorem writeRow_comm (m : Matcher) {row row' : BookRow} (hne : row.driveFileId ≠ row'.driveFileId)
    (s : ResolveStats × Db) :
    ((writeRow m s row).bind fun s => writeRow m s row') =
      (writeRow m s row').bind fun s => writeRow m s row := by
  have hcomm := @writeMatch_comm (row.driveFileId, m.resolution row.statsbook)
    (row'.driveFileId, m.resolution row'.statsbook) hne s.2
  have hround : ∀ row row' : BookRow, ((writeRow m s row).bind fun s => writeRow m s row') =
      ((writeMatch s.2 (row.driveFileId, m.resolution row.statsbook)).bind fun db =>
        writeMatch db (row'.driveFileId, m.resolution row'.statsbook)).map fun db =>
          ((s.1.record (m.resolution row.statsbook).method).record
            (m.resolution row'.statsbook).method, db) := by
    intro row row'
    unfold writeRow
    cases writeMatch s.2 (row.driveFileId, m.resolution row.statsbook) <;> rfl
  rw [hround, hround, hcomm, record_comm]

/-- A pass over statsbooks of different files, by its rounds without a cache. -/
theorem passOver_eq (m : Matcher) (db : Db) (batches : List (List BookRow)) :
    passOver m db batches =
      (batches.flatten.foldlM (writeRow m) (⟨0, 0, 0, 0, 0⟩, db)).map fun s =>
        (dedupMatchedGames s.2, s.1) := by
  unfold passOver
  rw [foldlM_flatten, ← foldlM_resolveRow (s := ⟨Table.empty, ⟨0, 0, 0, 0, 0⟩, db⟩)
    coherent_empty]
  cases batches.flatten.foldlM (resolveRow m) ⟨Table.empty, ⟨0, 0, 0, 0, 0⟩, db⟩ <;> rfl

end Order

/-! ## The cache does not show -/

section Invisible

variable [Text.UnicodeTables] [Numbers.Rounding]

/-- The side cache is invisible: statsbooks resolved one after another with one cache resolve as
each does alone with an empty cache, and what a pass leaves depends neither on the order of its
statsbooks nor on their batches. -/
theorem Matcher.sideCache_invisible (m : Matcher) :
    (∀ sbs : List Statsbook, (m.resolveAll Table.empty sbs).1 =
      sbs.map fun sb => (m.resolveIn sb Table.empty).1) ∧
    ∀ (db : Db) (batches batches' : List (List BookRow)),
      batches.flatten.Perm batches'.flatten →
      (batches.flatten.map BookRow.driveFileId).Nodup →
      passOver m db batches = passOver m db batches' := by
  constructor
  · intro sbs
    rw [(resolveAll_spec coherent_empty sbs).1]
    exact List.map_congr_left fun sb _ => (resolveIn_spec coherent_empty sb).1.symm
  · intro db batches batches' hperm hnodup
    rw [passOver_eq, passOver_eq]
    refine congrArg _ (foldlM_perm hperm (fun row hrow row' hrow' s => ?_) _)
    by_cases heq : row = row'
    · rw [heq]
    · apply writeRow_comm
      intro hid
      exact heq (List.inj_on_of_nodup_map hnodup hrow hrow' hid)

theorem foldlM_writeRow (m : Matcher) (s : ResolveStats × Db) (rows : List BookRow) :
    rows.foldlM (writeRow m) s =
      (writeMatches s.2 (rows.map fun row => (row.driveFileId, m.resolution row.statsbook))).map
        fun db => (rows.foldl (fun stats row =>
          stats.record (m.resolution row.statsbook).method) s.1, db) := by
  induction rows generalizing s with
  | nil => rfl
  | cons row rows ih =>
      rw [List.foldlM_cons, List.map_cons, List.foldl_cons, writeMatches, List.foldlM_cons,
        writeRow]
      cases writeMatch s.2 (row.driveFileId, m.resolution row.statsbook) with
      | none => rfl
      | some db => exact ih _

/-- The pass over the stored statsbooks in their batches is the pass of the resolver. -/
theorem passOver_bookRows (db : Db) :
    passOver (matcherOf db) db (chunks writeBatch (bookRows db)) = resolveGames db := by
  rw [passOver_eq, flatten_chunks (by decide), foldlM_writeRow, resolveGames_eq, passWrites,
    resolveBooks_eq_map, List.foldl_map, Option.map_map, Option.map_eq_bind]
  rfl

end Invisible

section Example

attribute [local instance] Text.asciiTables Numbers.f64

/-- Two uploads of one game in one batch, or one by one in the other order. -/
theorem sideCache_invisible_twoUploads :
    (bookRows twoUploads).map BookRow.driveFileId = ["f", "g"] ∧
      passOver (matcherOf twoUploads) twoUploads [bookRows twoUploads] =
        passOver (matcherOf twoUploads) twoUploads
          ((bookRows twoUploads).reverse.map fun row => [row]) := by
  have hids : (bookRows twoUploads).map BookRow.driveFileId = ["f", "g"] := by decide +kernel
  refine ⟨hids, (matcherOf twoUploads).sideCache_invisible.2 twoUploads _ _ ?_ ?_⟩
  · rw [List.flatten_singleton, ← List.flatMap_def, List.flatMap_singleton']
    exact (List.reverse_perm _).symm
  · rw [List.flatten_singleton, hids]
    decide

end Example

end Resolve
end Statskboo
