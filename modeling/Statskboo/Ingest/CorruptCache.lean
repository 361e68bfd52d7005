import Statskboo.Ingest.DataCache
import Statskboo.Ingest.Drain

/-!
# Corrupt cache entries

The parse stage takes the bytes of a file from the cache when the entry is no older than the row,
and from Drive otherwise.  When the bytes cannot be parsed it records the failure on the row and
leaves the entry as it is, so the next try at the row finds the same entry by the same rule.

Main results:

- Theorem {lit}`cacheFile_run`: what happens between two tries at a file leaves its entry alone
  or removes it.
- Theorem {lit}`parsesOtherBytes_iff`: the next try at a file parses other bytes exactly when the
  entry was removed or the row has become newer than it.
-/

namespace Statskboo
namespace CorruptCache

open DataCache KeyedTable Parse Transition

/-! ## The parse stage with its cache -/

/-- The tables and the cache directory. -/
structure State where
  db : Db
  dir : Dir

/-- How one try at a file goes, as far as the tables and the cache do not decide it. -/
structure Outside where
  download : Except String Bytes
  cacheWriteFails : Bool
  now : Int
  storeError : Option String
  constraintError : String
  unrecorded : Bool

/-- The bytes of a selected row, from the cache or downloaded, and the cache afterwards; a
failed cache write is passed over. -/
def fetch (s : State) (f : String) (row : DriveFile) (o : Outside) : Except String Bytes × Dir :=
  match readCachedIfFresh (some s.dir) f row.modifiedTime with
  | some bytes => (.ok bytes, s.dir)
  | none =>
      match o.download with
      | .error e => (.error e, s.dir)
      | .ok bytes =>
          (.ok bytes,
            if o.cacheWriteFails then s.dir
            else (writeCached s.dir o.now f bytes).getD s.dir)

/-- What happens to the tables and the cache: a listed file is indexed, files that are no longer
listed are removed, up to cache files that cannot be, and the parse stage tries a file. -/
inductive Event where
  | index (now : Int) (driveFileId name : String) (quarter mimeType : Option String)
      (modifiedTime : Int)
  | markRemoved (seenBefore : Int) (kept : String → Bool)
  | parse (driveFileId : String) (o : Outside)

/-- The event is a try at a file. -/
def Event.Tries (f : String) : Event → Prop
  | .parse f' _ => f' = f
  | _ => False

section System

variable [Text.UnicodeTables] (parseBytes : String → Bytes → Except String (GameData × Option Int))

/-- One try at a selected row: fetch the bytes, parse them, and store the result or record the
failure. -/
def parseFile (s : State) (f : String) (row : DriveFile) (o : Outside) : State :=
  let (fetched, dir) := fetch s f row o
  let attempt : Attempt :=
    { parsed := fetched.bind (parseBytes row.name), storeError := o.storeError,
      constraintError := o.constraintError, unrecorded := o.unrecorded }
  { db := (parseRow s.db f attempt).1, dir }

/-- The effect of an event; the parse stage tries only rows that need parsing. -/
def step (s : State) : Event → Option State
  | .index now f name quarter mimeType modifiedTime =>
      some { s with db := Index.upsertStatsbook s.db now f name quarter mimeType modifiedTime }
  | .markRemoved seenBefore kept =>
      let (db, doomed) := Index.markRemoved s.db seenBefore
      some { db, dir := doomed.foldl (removeCached kept) s.dir }
  | .parse f o => do
      let row ← s.db.statsbooks.get? f
      guard (needsParsing row)
      return parseFile parseBytes s f row o

/-- The cache entry of a file. -/
def cacheFile (s : State) (f : String) : Option CacheFile :=
  (cachePath f).bind s.dir.get?

/-- The event removes the row of a file and its cache entry. -/
def Removes (f : String) (s : State) : Event → Prop
  | .markRemoved seenBefore kept =>
      kept f = false ∧ ∃ row, s.db.statsbooks.get? f = some row ∧ row.lastSeen < seenBefore
  | _ => False

/-- The parse stage selects a row, takes its bytes from the cache, cannot parse them, and records
the failure. -/
structure FailsFromCache (s : State) (f : String) (row : DriveFile) (bytes : Bytes) (o : Outside)
    (s' : State) : Prop where
  found : s.db.statsbooks.get? f = some row
  selected : needsParsing row = true
  cached : readCachedIfFresh (some s.dir) f row.modifiedTime = some bytes
  rejected : ∃ e, parseBytes row.name bytes = .error e
  recorded : o.unrecorded = false
  processed : step parseBytes s (.parse f o) = some s'

/-- The parse stage selects the row of a file and parses these bytes from the cache. -/
def ParsesCached (s : State) (f : String) (bytes : Bytes) : Prop :=
  ∃ row, s.db.statsbooks.get? f = some row ∧ needsParsing row = true ∧
    readCachedIfFresh (some s.dir) f row.modifiedTime = some bytes

/-- The next try at a failed file does not parse the same cached bytes again. -/
def SelfHeals : Prop :=
  ∀ s f row bytes o s', FailsFromCache parseBytes s f row bytes o s' →
    ∀ events t, (∀ e ∈ events, ¬ e.Tries f) → run (step parseBytes) s' events = some t →
      ¬ ParsesCached t f bytes

theorem step_parse {s : State} {f : String} {row : DriveFile}
    (hrow : s.db.statsbooks.get? f = some row) (hselected : needsParsing row = true)
    (o : Outside) : step parseBytes s (.parse f o) = some (parseFile parseBytes s f row o) := by
  simp [step, hrow, hselected]

end System

/-! ## What happens to an entry -/

section Entry

variable [Text.UnicodeTables] {parseBytes : String → Bytes → Except String (GameData × Option Int)}
  {s s' : State} {f : String} {e : Event}

omit [Text.UnicodeTables] in
/-- A removal deletes the entry of a file when it returns the file and can unlink the entry. -/
theorem removes_iff {seenBefore : Int} {kept : String → Bool} {path : String}
    (hpath : cachePath f = some path) :
    (∃ f' ∈ (Index.markRemoved s.db seenBefore).2, cachePath f' = some path ∧ kept f' = false) ↔
      Removes f s (.markRemoved seenBefore kept) := by
  have hdoomed : f ∈ (Index.markRemoved s.db seenBefore).2 ↔
      ∃ row, s.db.statsbooks.get? f = some row ∧ row.lastSeen < seenBefore := by
    rw [Index.markRemoved, Table.mem_keys_iff]
    simp only [Table.get?_filter, Option.filter_eq_some_iff, decide_eq_true_eq]
  rw [Removes, ← hdoomed]
  constructor
  · rintro ⟨f', hmem, hpath', hkept⟩
    obtain rfl := cachePath_injective hpath hpath'
    exact ⟨hkept, hmem⟩
  · rintro ⟨hkept, hmem⟩
    exact ⟨f, hmem, hpath, hkept⟩

omit [Text.UnicodeTables] in
/-- Only a try at the file itself writes its entry. -/
theorem get?_fetch_of_ne {f' path : String} (hne : f' ≠ f) (hpath : cachePath f = some path)
    (row : DriveFile) (o : Outside) : (fetch s f' row o).2.get? path = s.dir.get? path := by
  unfold fetch
  split
  · rfl
  · split
    · rfl
    · next bytes _ =>
        dsimp only
        split_ifs
        · rfl
        · cases hwrite : writeCached s.dir o.now f' bytes with
          | none => rfl
          | some dir =>
              rw [Option.getD_some, get?_writeCached hwrite,
                if_neg fun h => hne (cachePath_injective h hpath)]

/-- An event that is no try at the file removes its entry or leaves it alone. -/
theorem cacheFile_step (htry : ¬ e.Tries f) (h : step parseBytes s e = some s') :
    (Removes f s e → cacheFile s' f = none) ∧
      (¬ Removes f s e → cacheFile s' f = cacheFile s f) := by
  unfold cacheFile
  cases hpath : cachePath f with
  | none => exact ⟨fun _ => rfl, fun _ => rfl⟩
  | some path =>
      simp only [Option.bind_some]
      cases e with
      | index now f' name quarter mimeType modifiedTime =>
          cases h
          exact ⟨fun hremoves => hremoves.elim, fun _ => rfl⟩
      | markRemoved seenBefore kept =>
          cases h
          constructor
          · intro hremoves
            exact (get?_foldl_removeCached kept _ _ path).trans
              (if_pos ((removes_iff hpath).mpr hremoves))
          · intro hremoves
            exact (get?_foldl_removeCached kept _ _ path).trans
              (if_neg fun hmem => hremoves ((removes_iff hpath).mp hmem))
      | parse f' o =>
          obtain ⟨row, -, hrest⟩ := Option.bind_eq_some_iff.mp h
          obtain ⟨-, -, hdone⟩ := Option.bind_eq_some_iff.mp hrest
          cases hdone
          exact ⟨fun hremoves => hremoves.elim, fun _ => get?_fetch_of_ne htry hpath row o⟩

/-- What happens between two tries at a file removes its entry, once some event does, or leaves it
alone. -/
theorem cacheFile_run {events : List Event} {t : State} (htries : ∀ e ∈ events, ¬ e.Tries f)
    (hrun : run (step parseBytes) s events = some t) :
    (EveryStep (step parseBytes) (fun s e => ¬ Removes f s e) s events →
      cacheFile t f = cacheFile s f) ∧
    (¬ EveryStep (step parseBytes) (fun s e => ¬ Removes f s e) s events →
      cacheFile t f = none) := by
  induction events generalizing s with
  | nil =>
      cases hrun
      exact ⟨fun _ => rfl, fun h => absurd trivial h⟩
  | cons e events ih =>
      rw [List.forall_mem_cons] at htries
      obtain ⟨s', hs', hrest⟩ := run_cons_eq_some.mp hrun
      obtain ⟨hremoved, hkept⟩ := cacheFile_step htries.1 hs'
      obtain ⟨hsame, hnone⟩ := ih htries.2 hrest
      by_cases hevery : EveryStep (step parseBytes) (fun s e => ¬ Removes f s e) s' events
      · by_cases hremoves : Removes f s e
        · refine ⟨fun h => absurd hremoves h.1, fun _ => ?_⟩
          rw [hsame hevery, hremoved hremoves]
        · refine ⟨fun _ => ?_, fun h => absurd ⟨hremoves, fun t ht => ?_⟩ h⟩
          · rw [hsame hevery, hkept hremoves]
          · rw [hs'] at ht
            cases ht
            exact hevery
      · exact ⟨fun h => absurd (h.2 s' hs') hevery, fun _ => hnone hevery⟩

end Entry

/-! ## The next try -/

section NextTry

variable [Text.UnicodeTables] {parseBytes : String → Bytes → Except String (GameData × Option Int)}
  {s s' t : State} {f : String} {row row' : DriveFile} {bytes : Bytes} {o : Outside}
  {events : List Event}

omit [Text.UnicodeTables] in
/-- The cache is used exactly for an entry that is no older than the row. -/
theorem readCachedIfFresh_iff {modifiedTime : Option Int} :
    readCachedIfFresh (some s.dir) f modifiedTime = some bytes ↔
      ∃ file, cacheFile s f = some file ∧ cacheIsFresh file.mtime modifiedTime = true ∧
        file.bytes = bytes := by
  unfold readCachedIfFresh decideCache readCached cacheFile
  cases cachePath f with
  | none => simp
  | some path =>
      cases hfile : s.dir.get? path with
      | none => simp [hfile]
      | some file => cases hfresh : cacheIsFresh file.mtime modifiedTime <;> simp [hfile, hfresh]

/-- A try that takes its bytes from the cache leaves the cache as it is. -/
theorem dir_of_failsFromCache (h : FailsFromCache parseBytes s f row bytes o s') :
    s'.dir = s.dir := by
  have hdone := h.processed
  rw [step_parse parseBytes h.found h.selected o] at hdone
  cases hdone
  change (fetch s f row o).2 = s.dir
  unfold fetch
  rw [h.cached]

/-- The failure is recorded on the row, which the parse stage selects again. -/
theorem selected_of_failsFromCache (h : FailsFromCache parseBytes s f row bytes o s') :
    ∃ e, s'.db.statsbooks.get? f =
      some { row with parseStatus := .failed, parseError := some e } := by
  obtain ⟨e, hrejected⟩ := h.rejected
  have hdone := h.processed
  rw [step_parse parseBytes h.found h.selected o] at hdone
  cases hdone
  refine ⟨e, ?_⟩
  have hfetched : (fetch s f row o).1 = .ok bytes := by
    unfold fetch
    rw [h.cached]
  have hparsed : (fetch s f row o).1.bind (parseBytes row.name) = .error e := by
    rw [hfetched]
    exact hrejected
  unfold parseFile
  dsimp only
  rw [hparsed]
  unfold parseRow Attempt.recordFailure setFailed updateStatus
  dsimp only
  rw [h.recorded, if_neg Bool.false_ne_true]
  dsimp only
  rw [Table.get?_modify, if_pos rfl, h.found]
  rfl

/-- After a failed try with cached bytes, the next try at the file parses other bytes exactly when
the entry was removed in between or the row is newer than it. -/
theorem parsesOtherBytes_iff (h : FailsFromCache parseBytes s f row bytes o s')
    (htries : ∀ e ∈ events, ¬ e.Tries f) (hrun : run (step parseBytes) s' events = some t)
    (hrow' : t.db.statsbooks.get? f = some row') (hselected' : needsParsing row' = true) :
    ¬ ParsesCached t f bytes ↔
      ¬ EveryStep (step parseBytes) (fun s e => ¬ Removes f s e) s' events ∨
        ∃ file, cacheFile s f = some file ∧ cacheIsFresh file.mtime row'.modifiedTime = false := by
  obtain ⟨file, hfile, -, hbytes⟩ := readCachedIfFresh_iff.mp h.cached
  have hstart : cacheFile s' f = some file := by
    rw [cacheFile, dir_of_failsFromCache h]
    exact hfile
  obtain ⟨hsame, hnone⟩ := cacheFile_run htries hrun
  have hparses : ParsesCached t f bytes ↔ ∃ file, cacheFile t f = some file ∧
      cacheIsFresh file.mtime row'.modifiedTime = true ∧ file.bytes = bytes := by
    rw [← readCachedIfFresh_iff, ParsesCached, hrow']
    simp [hselected']
  rw [hfile, hparses]
  by_cases hevery : EveryStep (step parseBytes) (fun s e => ¬ Removes f s e) s' events
  · rw [hsame hevery, hstart]
    cases hfresh : cacheIsFresh file.mtime row'.modifiedTime with
    | false =>
        refine ⟨fun _ => Or.inr ⟨file, rfl, hfresh⟩, ?_⟩
        rintro - ⟨file', heq, hfresh', -⟩
        cases heq
        rw [hfresh] at hfresh'
        cases hfresh'
    | true =>
        constructor
        · exact fun hother => absurd ⟨file, rfl, hfresh, hbytes⟩ hother
        · rintro (hremoved | ⟨file', heq, hstale⟩)
          · exact absurd hevery hremoved
          · cases heq
            rw [hfresh] at hstale
            cases hstale
  · rw [hnone hevery]
    refine ⟨fun _ => Or.inl hevery, ?_⟩
    rintro - ⟨file', heq, -⟩
    cases heq

end NextTry

/-! ## A torn entry -/

section Example

attribute [local instance] Text.asciiTables

/-- The parser of bytes that are no workbook. -/
def rejectBytes (_ : String) (_ : Bytes) : Except String (GameData × Option Int) :=
  .error "invalid Zip archive: Could not find EOCD"

/-- One listed file with a torn cache entry that is newer than it. -/
def tornEntry : State where
  db := listedDb [("f", 10)]
  dir := Table.empty.upsert "f.xlsx" { bytes := [80, 75, 3], mtime := 20 }

/-- Drive would have the whole file. -/
def driveAnswers : Outside where
  download := .ok [80, 75, 3, 4]
  cacheWriteFails := false
  now := 30
  storeError := none
  constraintError := ""
  unrecorded := false

/-- The row of the listed file. -/
def listedRow : DriveFile :=
  { name := "f", quarter := none, mimeType := none, modifiedTime := some 10, firstSeen := 1,
    lastSeen := 1, parseStatus := .pending, parseError := none, parserVersion := none }

/-- The state after the failed try. -/
def afterTornEntry : State :=
  parseFile rejectBytes tornEntry "f" listedRow driveAnswers

theorem failsFromCache_tornEntry :
    FailsFromCache rejectBytes tornEntry "f" listedRow [80, 75, 3] driveAnswers afterTornEntry where
  found := by decide +kernel
  selected := by decide
  cached := by decide +kernel
  rejected := ⟨_, rfl⟩
  recorded := rfl
  processed := step_parse rejectBytes (by decide +kernel) (by decide) driveAnswers

/-- The torn entry is parsed at every try, and Drive is never asked. -/
theorem not_selfHeals : ¬ SelfHeals rejectBytes := by
  intro h
  obtain ⟨e, hrow⟩ := selected_of_failsFromCache failsFromCache_tornEntry
  refine h _ _ _ _ _ _ failsFromCache_tornEntry [] afterTornEntry (by simp) rfl ⟨_, hrow, rfl, ?_⟩
  rw [dir_of_failsFromCache failsFromCache_tornEntry]
  exact failsFromCache_tornEntry.cached

/-- The state when the file was replaced on Drive and listed again. -/
def afterReupload : State :=
  { afterTornEntry with db := Index.upsertStatsbook afterTornEntry.db 40 "f" "f" none none 35 }

/-- The row of the replaced file. -/
def replacedRow : DriveFile :=
  { listedRow with
    modifiedTime := some 35
    lastSeen := 40
    parseError := some "invalid Zip archive: Could not find EOCD" }

theorem parsesOtherBytes_afterReupload :
    ¬ ParsesCached afterReupload "f" [80, 75, 3] ↔
      ¬ EveryStep (step rejectBytes) (fun s e => ¬ Removes "f" s e) afterTornEntry
          [.index 40 "f" "f" none none 35] ∨
        ∃ file, cacheFile tornEntry "f" = some file ∧
          cacheIsFresh file.mtime replacedRow.modifiedTime = false :=
  parsesOtherBytes_iff failsFromCache_tornEntry (by simp [Event.Tries]) rfl (by decide +kernel)
    (by decide)

end Example

end CorruptCache
end Statskboo
