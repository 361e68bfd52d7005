import Statskboo.Ingest.DataCache
import Statskboo.Ingest.Library

/-!
# The tables mirror Drive

Uploaders replace the files on Drive at any time.  The Drive loop lists the files, selects the
rows that need parsing, takes the bytes of each from the cache or from Drive, parses them, and
stores the result or records a failure; it lists again only when no file is being worked on.  The
syncs and the resolve passes come in between.

A stored result does not say which revision it was made of.  That no listing happens while a file
is worked on keeps a result from being recorded for a revision that is newer than its bytes.

Main results:

- Theorem {lit}`inv_step`: every step keeps what the tables hold tied to revisions on Drive.
- Theorem {lit}`mirrors_of_run`: the tables hold of each file the parse of one of its revisions,
  and of the current one when the listed time is the current one and nothing is left to parse.
-/

namespace Statskboo
namespace Mirror

open KeyedTable Parse Transition
open DataCache (Bytes History readCachedIfFresh)

/-! ## The system -/

/-- A row that the parse stage has selected, and the bytes of its file once it has them. -/
structure Work where
  row : DriveFile
  bytes : Option Bytes

/-- The clock, Drive, the tables and the cache, and the files that are worked on. -/
structure System where
  world : DataCache.System
  working : Table String Work

namespace System

/-- The tables. -/
def db (s : System) : Db :=
  s.world.db

/-- The same with other tables. -/
def withDb (s : System) (db : Db) : System :=
  { s with world := { s.world with db } }

@[simp]
theorem db_withDb (s : System) (db : Db) : (s.withDb db).db = db :=
  rfl

end System

/-- How a try ends, as far as the bytes and the tables do not decide it. -/
structure Ending where
  panicked : Option String
  storeError : Option String
  constraintError : String
  unrecorded : Bool

/-- What happens at a step. -/
inductive Label where
  | outside (l : DataCache.Label)
  | other (a : Visibility.Step)
  | select (driveFileId : String)
  | fetch (driveFileId : String)
  | fail (driveFileId error : String) (unrecorded : Bool)
  | finish (driveFileId : String) (ending : Ending)

/-- Nothing has been uploaded, listed or cached. -/
def start (now : Int) : System where
  world := DataCache.start now
  working := Table.empty

/-- Uploads and cache writes happen at any time, and the listing when no file is worked on. -/
def admits (idle : Bool) : DataCache.Action → Bool
  | .edit .. => true
  | .writeCached _ => true
  | .index .. => idle
  | .markRemoved .. => idle
  | .select _ => false
  | .download _ => false

/-- The steps of the ingest that do not belong to the Drive loop's own stages. -/
def isOther : Visibility.Step → Bool
  | .stage (.syncTeams ..) => true
  | .stage (.syncGames _) => true
  | .stage _ => false
  | .resolveGames => true
  | .resolveFailing _ => true

section Steps

variable [Text.UnicodeTables] [Numbers.Rounding]
  (parseBytes : String → Bytes → Except String (GameData × Option Int))

/-- The try at a file whose bytes are there. -/
def attempt (w : Work) (bytes : Bytes) (e : Ending) : Attempt where
  parsed :=
    match e.panicked with
    | some error => .error error
    | none => parseBytes w.row.name bytes
  storeError := e.storeError
  constraintError := e.constraintError
  unrecorded := e.unrecorded

/-- The try at a file whose download fails. -/
def failedDownload (error : String) (unrecorded : Bool) : Attempt where
  parsed := .error error
  storeError := none
  constraintError := ""
  unrecorded := unrecorded

/-- The tables after a try, which is no longer worked on. -/
def endTry (s : System) (f : String) (a : Attempt) : System :=
  { s.withDb (parseRow s.db f a).1 with working := s.working.erase f }

/-- The effect of a step. -/
def step (s : System) : Label → Option System
  | .outside l => do
      guard (admits s.working.rows.isEmpty l.action)
      let world ← DataCache.step s.world l
      return { s with world }
  | .other a => do
      guard (isOther a)
      let db ← Visibility.step s.db a
      return s.withDb db
  | .select f => do
      let row ← s.db.statsbooks.get? f
      guard (needsParsing row && !s.working.has f)
      let world ← DataCache.act s.world (.select f)
      return { world, working := s.working.upsert f { row, bytes := none } }
  | .fetch f => do
      let w ← s.working.get? f
      guard w.bytes.isNone
      match readCachedIfFresh (some s.world.dir) f w.row.modifiedTime with
      | some bytes =>
          return { s with working := s.working.upsert f { w with bytes := some bytes } }
      | none =>
          let hist ← s.world.drive.get? f
          let world ← DataCache.act s.world (.download f)
          let w := { w with bytes := some hist.current.bytes }
          return { world, working := s.working.upsert f w }
  | .fail f error unrecorded => do
      let w ← s.working.get? f
      guard w.bytes.isNone
      return endTry s f (failedDownload error unrecorded)
  | .finish f e => do
      let w ← s.working.get? f
      let bytes ← w.bytes
      return endTry s f (attempt parseBytes w bytes e)

/-- The step comes in time for the cache: bytes are written while they are current. -/
def StepInTime (s : System) : Label → Prop
  | .outside l => DataCache.StepInTime s.world l
  | _ => True

/-- A file is listed under one of its names. -/
def StepNamed (named : String → String → Prop) : Label → Prop
  | .outside ⟨_, .index f name _ _⟩ => named f name
  | _ => True

/-- Both conditions on a step. -/
def InOrder (named : String → String → Prop) (s : System) (l : Label) : Prop :=
  StepInTime s l ∧ StepNamed named l

end Steps

/-! ## What the tables are tied to -/

/-- What is kept of a parsed game: nothing of a placeholder or of a game without a date. -/
def kept (game : GameData) (date : Option Int) : Option (GameData × Int) :=
  if hasNoGameData game then none else date.map fun d => (game, d)

section Invariant

variable [Text.UnicodeTables] {parseBytes : String → Bytes → Except String (GameData × Option Int)}
  {named : String → String → Prop} {s s' : System} {lib lib' : Library} {f : String}

/-- A revision of the file, no older than an instant, parses to this game and date under one of
the names of the file. -/
def ParsedFrom (parseBytes : String → Bytes → Except String (GameData × Option Int))
    (named : String → String → Prop) (s : System) (f : String) (m : Int) (game : GameData)
    (date : Option Int) : Prop :=
  ∃ bytes name, s.world.HasRevision f bytes m ∧ named f name ∧
    parseBytes name bytes = .ok (game, date)

/-- The row is the one that was selected, and the bytes are those of a revision no older. -/
def Fetched (named : String → String → Prop) (s : System) (f : String) (w : Work) : Prop :=
  named f w.row.name ∧ ∃ row m, s.db.statsbooks.get? f = some row ∧
    row.modifiedTime = some m ∧ w.row.modifiedTime = some m ∧
    ∀ bytes, w.bytes = some bytes → s.world.HasRevision f bytes m

/-- What is kept of a file comes from a revision no older than its row. -/
def Done (parseBytes : String → Bytes → Except String (GameData × Option Int))
    (named : String → String → Prop) (s : System) (lib : Library) (f : String) (row : DriveFile) :
    Prop :=
  ∃ m game date, row.modifiedTime = some m ∧ ParsedFrom parseBytes named s f m game date ∧
    lib.content f = kept game date

/-- The cache is fresh, the tables hold the library, and the library and the work under way are
tied to revisions on Drive. -/
structure Inv (parseBytes : String → Bytes → Except String (GameData × Option Int))
    (named : String → String → Prop) (s : System) (lib : Library) : Prop where
  world : DataCache.Inv s.world
  consistent : s.db.Consistent
  tables : Represents s.db lib
  rows : ∀ f row, s.db.statsbooks.get? f = some row →
    named f row.name ∧ ∃ m, row.modifiedTime = some m
  working : ∀ f w, s.working.get? f = some w → Fetched named s f w
  content : ∀ f game d, lib.content f = some (game, d) →
    ∃ m, ParsedFrom parseBytes named s f m game (some d)
  done : ∀ f row, s.db.statsbooks.get? f = some row → needsParsing row = false →
    Done parseBytes named s lib f row

theorem inv_start (now : Int) : Inv parseBytes named (start now) Library.empty where
  world := DataCache.inv_start now
  consistent := Db.consistent_empty
  tables := represents_empty
  rows f row h := by cases h
  working f w h := by cases h
  content f game d h := by cases h
  done f row h := by cases h

/-- No revision is lost. -/
def Grows (s s' : System) : Prop :=
  ∀ f bytes m, s.world.HasRevision f bytes m → s'.world.HasRevision f bytes m

omit [Text.UnicodeTables] in
theorem ParsedFrom.grow {m : Int} {game : GameData} {date : Option Int}
    (h : ParsedFrom parseBytes named s f m game date) (hgrow : Grows s s') :
    ParsedFrom parseBytes named s' f m game date := by
  obtain ⟨bytes, name, hrevision, hname, hparse⟩ := h
  exact ⟨bytes, name, hgrow f bytes m hrevision, hname, hparse⟩

/-- A step that loses no revision and ties what is new to one keeps the rest tied. -/
theorem Inv.frame (h : Inv parseBytes named s lib) (hworld : DataCache.Inv s'.world)
    (hconsistent : s'.db.Consistent) (htables : Represents s'.db lib') (hgrow : Grows s s')
    (hrows : ∀ f row', s'.db.statsbooks.get? f = some row' →
      (∃ row, s.db.statsbooks.get? f = some row ∧ row.name = row'.name ∧
        row.modifiedTime = row'.modifiedTime) ∨
      named f row'.name ∧ ∃ m, row'.modifiedTime = some m)
    (hworking : ∀ f w, s'.working.get? f = some w → Fetched named s' f w)
    (hcontent : ∀ f, lib'.content f = lib.content f ∨ lib'.content f = none ∨
      ∃ m game d, lib'.content f = some (game, d) ∧
        ParsedFrom parseBytes named s' f m game (some d))
    (hdone : ∀ f row', s'.db.statsbooks.get? f = some row' → needsParsing row' = false →
      (∃ row, s.db.statsbooks.get? f = some row ∧ needsParsing row = false ∧
        row.modifiedTime = row'.modifiedTime ∧ lib'.content f = lib.content f) ∨
      Done parseBytes named s' lib' f row') : Inv parseBytes named s' lib' where
  world := hworld
  consistent := hconsistent
  tables := htables
  rows f row' hrow' := by
    rcases hrows f row' hrow' with ⟨row, hrow, hname, htime⟩ | hnew
    · rw [← hname, ← htime]
      exact h.rows f row hrow
    · exact hnew
  working := hworking
  content f game d hgame := by
    rcases hcontent f with hsame | hnone | ⟨m, game', d', hnew, hparsed⟩
    · rw [hsame] at hgame
      obtain ⟨m, hparsed⟩ := h.content f game d hgame
      exact ⟨m, hparsed.grow hgrow⟩
    · rw [hnone] at hgame
      cases hgame
    · rw [hnew] at hgame
      cases hgame
      exact ⟨m, hparsed⟩
  done f row' hrow' hneeds := by
    rcases hdone f row' hrow' hneeds with ⟨row, hrow, hneeds', htime, hsame⟩ | hnew
    · obtain ⟨m, game, date, hm, hparsed, hkept⟩ := h.done f row hrow hneeds'
      exact ⟨m, game, date, htime ▸ hm, hparsed.grow hgrow, hsame.trans hkept⟩
    · exact hnew

omit [Text.UnicodeTables] in
/-- The work under way stays tied while its rows keep their times. -/
theorem Fetched.frame {w : Work} (h : Fetched named s f w) (hgrow : Grows s s')
    (hrow : ∀ row, s.db.statsbooks.get? f = some row →
      ∃ row', s'.db.statsbooks.get? f = some row' ∧ row'.modifiedTime = row.modifiedTime) :
    Fetched named s' f w := by
  obtain ⟨hname, row, m, hget, hm, hw, hbytes⟩ := h
  obtain ⟨row', hget', hm'⟩ := hrow row hget
  exact ⟨hname, row', m, hget', hm'.trans hm, hw, fun bytes hb => hgrow f bytes m (hbytes bytes hb)⟩

/-- A step that leaves the rows of the files, the work and Drive alone. -/
theorem Inv.of_sameRows (h : Inv parseBytes named s lib) (hworld : DataCache.Inv s'.world)
    (hconsistent : s'.db.Consistent) (htables : Represents s'.db lib) (hgrow : Grows s s')
    (hrows : s'.db.statsbooks = s.db.statsbooks)
    (hworking : ∀ f w, s'.working.get? f = some w →
      s.working.get? f = some w ∨ Fetched named s' f w) : Inv parseBytes named s' lib := by
  refine h.frame hworld hconsistent htables hgrow (fun f row' hrow' => ?_) (fun f w hw => ?_)
    (fun f => Or.inl rfl) fun f row' hrow' hneeds => ?_
  · exact Or.inl ⟨row', hrows ▸ hrow', rfl, rfl⟩
  · rcases hworking f w hw with hold | hnew
    · exact (h.working f w hold).frame hgrow fun row hrow => ⟨row, hrows ▸ hrow, rfl⟩
    · exact hnew
  · exact Or.inl ⟨row', hrows ▸ hrow', hneeds, rfl, rfl⟩

/-! ## Uploads, the listing and the cache -/

omit [Text.UnicodeTables] in
/-- Drive loses no revision. -/
theorem hasRevision_act {w w' : DataCache.System} {a : DataCache.Action}
    (hact : DataCache.act w a = some w') {bytes : Bytes} {m : Int}
    (h : w.HasRevision f bytes m) : w'.HasRevision f bytes m := by
  obtain ⟨hist, hhist, r, hr, hbytes, hle⟩ := h
  cases a with
  | edit f' bytes' =>
      simp only [DataCache.act] at hact
      by_cases hf : f = f'
      · subst hf
        simp only [hhist] at hact
        split_ifs at hact with hlater
        cases hact
        exact ⟨hist.edit _ hlater, Table.get?_upsert_self .., r,
          History.mem_revisions_edit.mpr (Or.inr hr), hbytes, hle⟩
      · have hkept : w'.drive.get? f = w.drive.get? f := by
          cases hhist' : w.drive.get? f' with
          | none =>
              rw [hhist'] at hact
              cases hact
              exact Table.get?_upsert_of_ne _ _ hf
          | some hist' =>
              simp only [hhist'] at hact
              split_ifs at hact
              cases hact
              exact Table.get?_upsert_of_ne _ _ hf
        exact ⟨hist, hkept.trans hhist, r, hr, hbytes, hle⟩
  | index f' name quarter mimeType =>
      obtain ⟨hist', -, hdone⟩ := Option.bind_eq_some_iff.mp hact
      cases hdone
      exact ⟨hist, hhist, r, hr, hbytes, hle⟩
  | markRemoved seenBefore kept =>
      cases hact
      exact ⟨hist, hhist, r, hr, hbytes, hle⟩
  | select f' =>
      obtain ⟨row, -, hdone⟩ := Option.bind_eq_some_iff.mp hact
      cases hdone
      exact ⟨hist, hhist, r, hr, hbytes, hle⟩
  | download f' =>
      obtain ⟨hist', -, hdone⟩ := Option.bind_eq_some_iff.mp hact
      cases hdone
      exact ⟨hist, hhist, r, hr, hbytes, hle⟩
  | writeCached i =>
      simp only [DataCache.act] at hact
      split at hact
      · cases hact
        exact ⟨hist, hhist, r, hr, hbytes, hle⟩
      · cases hact

omit [Text.UnicodeTables] in
/-- Uploads, downloads and cache writes leave the tables alone. -/
theorem db_act {w w' : DataCache.System} {a : DataCache.Action}
    (hact : DataCache.act w a = some w')
    (ha : admits false a = true ∨ ∃ f, a = .select f ∨ a = .download f) : w'.db = w.db := by
  cases a with
  | edit f' bytes =>
      simp only [DataCache.act] at hact
      cases hhist : w.drive.get? f' with
      | none =>
          rw [hhist] at hact
          cases hact
          rfl
      | some hist =>
          simp only [hhist] at hact
          split_ifs at hact
          cases hact
          rfl
  | index f' name quarter mimeType => simp [admits] at ha
  | markRemoved seenBefore kept => simp [admits] at ha
  | select f' =>
      obtain ⟨row, -, hdone⟩ := Option.bind_eq_some_iff.mp hact
      cases hdone
      rfl
  | download f' =>
      obtain ⟨hist, -, hdone⟩ := Option.bind_eq_some_iff.mp hact
      cases hdone
      rfl
  | writeCached i =>
      simp only [DataCache.act] at hact
      split at hact
      · cases hact
        rfl
      · cases hact

omit [Text.UnicodeTables] in
theorem get?_of_idle (h : s.working.rows.isEmpty = true) (f : String) :
    s.working.get? f = none := by
  cases hw : s.working.get? f with
  | none => rfl
  | some w =>
      have hmem := Table.mem_rows_iff.mpr hw
      rw [List.isEmpty_iff.mp h] at hmem
      cases hmem

omit [Text.UnicodeTables] in
/-- The row of a listed file: it is done only when it was and its time is the same. -/
theorem row_upsertStatsbook {db : Db} {now modifiedTime : Int} {name : String}
    {quarter mimeType : Option String} {row' : DriveFile}
    (h : (Index.upsertStatsbook db now f name quarter mimeType modifiedTime).statsbooks.get? f =
      some row') :
    row'.name = name ∧ row'.modifiedTime = some modifiedTime ∧
      (needsParsing row' = false → ∃ row, db.statsbooks.get? f = some row ∧
        needsParsing row = false ∧ row.modifiedTime = row'.modifiedTime) := by
  unfold Index.upsertStatsbook at h
  rw [Table.get?_upsert_self] at h
  cases hold : db.statsbooks.get? f with
  | none =>
      rw [hold] at h
      cases h
      exact ⟨rfl, rfl, fun hneeds => (by cases hneeds)⟩
  | some row =>
      rw [hold] at h
      cases h
      refine ⟨rfl, rfl, fun hneeds => ⟨row, rfl, ?_⟩⟩
      by_cases htime : row.modifiedTime = some modifiedTime
      · simp only [htime, ne_eq, not_true_eq_false, if_false] at hneeds
        exact ⟨hneeds, htime⟩
      · simp [needsParsing, htime] at hneeds

variable [Numbers.Rounding]

/-- A listed file: its row takes the time of the current revision, and keeps its status only when
that is the time it had. -/
theorem inv_index (h : Inv parseBytes named s lib) (hidle : s.working.rows.isEmpty = true)
    {pause : Nat} {name : String} {quarter mimeType : Option String} {w : DataCache.System}
    (hname : named f name)
    (hact : DataCache.step s.world ⟨pause, .index f name quarter mimeType⟩ = some w) :
    ∃ lib', Inv parseBytes named { s with world := w } lib' := by
  have hworld := DataCache.inv_step s.world ⟨pause, .index f name quarter mimeType⟩ w h.world
    trivial hact
  have hgrow : Grows s { s with world := w } := fun f' bytes m hrev => hasRevision_act hact hrev
  obtain ⟨hist, hhist, hdone⟩ := Option.bind_eq_some_iff.mp hact
  cases hdone
  have hstep : Visibility.step s.db (.stage (.upsertStatsbook (s.world.now + pause) f name quarter
        mimeType hist.current.modifiedTime)) =
      some (Index.upsertStatsbook s.db (s.world.now + pause) f name quarter mimeType
        hist.current.modifiedTime) := rfl
  refine ⟨_, h.frame hworld (consistent_step h.consistent hstep)
    (represents_step h.consistent h.tables hstep) hgrow (fun f' row' hrow' => ?_)
    (fun f' w hw => ?_) (fun f' => Or.inl rfl) fun f' row' hrow' hneeds => ?_⟩
  · by_cases hf : f' = f
    · subst hf
      obtain ⟨hname', htime, -⟩ := row_upsertStatsbook hrow'
      exact Or.inr ⟨hname' ▸ hname, _, htime⟩
    · exact Or.inl ⟨row', (Table.get?_upsert_of_ne _ _ hf).symm.trans hrow', rfl, rfl⟩
  · rw [show _ = none from get?_of_idle hidle f'] at hw
    cases hw
  · by_cases hf : f' = f
    · subst hf
      obtain ⟨row, hrow, hneeds', htime⟩ := (row_upsertStatsbook hrow').2.2 hneeds
      exact Or.inl ⟨row, hrow, hneeds', htime, rfl⟩
    · exact Or.inl ⟨row', (Table.get?_upsert_of_ne _ _ hf).symm.trans hrow', hneeds, rfl, rfl⟩

/-- Files that are no longer listed lose their rows, and what was kept of them is dropped. -/
theorem inv_markRemoved (h : Inv parseBytes named s lib) (hidle : s.working.rows.isEmpty = true)
    {pause : Nat} {seenBefore : Int} {kept : String → Bool} {w : DataCache.System}
    (hact : DataCache.step s.world ⟨pause, .markRemoved seenBefore kept⟩ = some w) :
    ∃ lib', Inv parseBytes named { s with world := w } lib' := by
  have hworld :=
    DataCache.inv_step s.world ⟨pause, .markRemoved seenBefore kept⟩ w h.world trivial hact
  have hgrow : Grows s { s with world := w } := fun f' bytes m hrev => hasRevision_act hact hrev
  cases hact
  have hstep : Visibility.step s.db (.stage (.markRemoved seenBefore)) =
      some (Index.markRemoved s.db seenBefore).1 := rfl
  have hrow : ∀ f' row', (Index.markRemoved s.db seenBefore).1.statsbooks.get? f' = some row' →
      s.db.statsbooks.get? f' = some row' ∧ ¬ row'.lastSeen < seenBefore := by
    intro f' row' hrow'
    unfold Index.markRemoved Db.deleteStatsbooks at hrow'
    rw [Table.get?_filter] at hrow'
    obtain ⟨hget, hkept⟩ := Option.filter_eq_some_iff.mp hrow'
    exact ⟨hget, by simpa using hkept⟩
  have hcontent : ∀ f' row', s.db.statsbooks.get? f' = some row' → ¬ row'.lastSeen < seenBefore →
      (lib.removeBefore seenBefore).content f' = lib.content f' := by
    intro f' row' hget hseen
    have hlisted : lib.listed f' = some row'.lastSeen := by
      rw [← h.tables.listed, hget]
      rfl
    unfold Library.removeBefore
    dsimp only
    rw [hlisted]
    exact if_neg (by simpa using hseen)
  refine ⟨_, h.frame hworld (consistent_step h.consistent hstep)
    (represents_step h.consistent h.tables hstep) hgrow
    (fun f' row' hrow' => Or.inl ⟨row', (hrow f' row' hrow').1, rfl, rfl⟩)
    (fun f' w hw => ?_) (fun f' => ?_) fun f' row' hrow' hneeds => ?_⟩
  · rw [show _ = none from get?_of_idle hidle f'] at hw
    cases hw
  · by_cases hgone : ((lib.listed f').any fun seen => decide (seen < seenBefore)) = true
    · exact Or.inr (Or.inl (if_pos hgone))
    · exact Or.inl (if_neg hgone)
  · obtain ⟨hget, hseen⟩ := hrow f' row' hrow'
    exact Or.inl ⟨row', hget, hneeds, rfl, hcontent f' row' hget hseen⟩

/-- Uploads come at any time, and so do cache writes, as long as the bytes are current. -/
theorem inv_outside (h : Inv parseBytes named s lib) {l : DataCache.Label}
    (htime : StepInTime s (.outside l)) (hnamed : StepNamed named (.outside l))
    (hstep : step parseBytes s (.outside l) = some s') : ∃ lib', Inv parseBytes named s' lib' := by
  obtain ⟨_, hguard, hrest⟩ := Option.bind_eq_some_iff.mp hstep
  obtain ⟨w, hact, hdone⟩ := Option.bind_eq_some_iff.mp hrest
  cases hdone
  have hadmits : admits s.working.rows.isEmpty l.action = true := by simpa using hguard
  have hquiet : admits false l.action = true →
      Inv parseBytes named { s with world := w } lib := by
    intro hquiet
    have hact' : DataCache.act { s.world with now := s.world.now + l.pause } l.action = some w :=
      hact
    have hdb := db_act hact' (Or.inl hquiet)
    have hrows : System.db { s with world := w } = s.db := hdb
    exact h.of_sameRows (DataCache.inv_step _ _ _ h.world htime hact) (hrows ▸ h.consistent)
      (hrows ▸ h.tables) (fun f bytes m hrev => hasRevision_act hact hrev) (by rw [hrows])
      fun f w hw => Or.inl hw
  obtain ⟨pause, a⟩ := l
  cases a with
  | edit f bytes => exact ⟨lib, hquiet rfl⟩
  | index f name quarter mimeType => exact inv_index h hadmits hnamed hact
  | markRemoved seenBefore kept => exact inv_markRemoved h hadmits hact
  | select f => cases hadmits
  | download f => cases hadmits
  | writeCached i => exact ⟨lib, hquiet rfl⟩

/-! ## The syncs and the passes -/

omit [Text.UnicodeTables] [Numbers.Rounding] in
/-- The cache is as fresh as before when the rows of the tables carry the same times. -/
theorem world_withDb (h : DataCache.Inv s.world) {db : Db}
    (hrows : ∀ f, db.modifiedTime f = s.db.modifiedTime f) :
    DataCache.Inv (s.withDb db).world := by
  refine DataCache.inv_of_same_drive h rfl rfl (fun f m hrow => Or.inl ?_)
    (fun _ _ => Or.inl) fun _ _ _ _ => Or.inl
  rcases hrow with hrow | hrow
  · exact Or.inl ((hrows f).symm.trans hrow)
  · exact Or.inr hrow

/-- A sync or a pass leaves the rows of the files alone and keeps the library. -/
theorem other_keeps (hdb : s.db.Consistent) {a : Visibility.Step} {db : Db} (ha : isOther a = true)
    (hstep : Visibility.step s.db a = some db) :
    db.statsbooks = s.db.statsbooks ∧ lib.step a = lib := by
  cases a with
  | stage a =>
      cases hstep
      cases a with
      | syncTeams teams listing => exact ⟨(Stage.sameFiles_syncTeams teams listing).statsbooks, rfl⟩
      | syncGames results => exact ⟨(Stage.sameFiles_syncGames results).statsbooks, rfl⟩
      | upsertStatsbook => cases ha
      | storeParsedGame => cases ha
      | setFailed => cases ha
      | markRemoved => cases ha
  | resolveGames =>
      obtain ⟨⟨db₁, stats⟩, hpass, rfl⟩ := Option.map_eq_some_iff.mp hstep
      exact ⟨(Resolve.resolveGames_spec hdb hpass).1.statsbooks, rfl⟩
  | resolveFailing calls =>
      cases hstep
      exact ⟨(Visibility.stateAfterError_keeps hdb calls).1.statsbooks, rfl⟩

theorem inv_other (h : Inv parseBytes named s lib) {a : Visibility.Step}
    (hstep : step parseBytes s (.other a) = some s') : Inv parseBytes named s' lib := by
  obtain ⟨_, hguard, hrest⟩ := Option.bind_eq_some_iff.mp hstep
  obtain ⟨db, hdb, hdone⟩ := Option.bind_eq_some_iff.mp hrest
  cases hdone
  have ha : isOther a = true := by simpa using hguard
  have hkeeps : db.statsbooks = s.db.statsbooks ∧ lib.step a = lib :=
    other_keeps h.consistent ha hdb
  obtain ⟨hrows, hlib⟩ := hkeeps
  have htables := represents_step h.consistent h.tables hdb
  rw [hlib] at htables
  exact h.of_sameRows (world_withDb h.world fun f => by rw [Db.modifiedTime, hrows]; rfl)
    (consistent_step h.consistent hdb) htables (fun _ _ _ hrev => hrev) hrows
    fun f w hw => Or.inl hw

/-! ## The work on a file -/

theorem inv_select (h : Inv parseBytes named s lib)
    (hstep : step parseBytes s (.select f) = some s') : Inv parseBytes named s' lib := by
  obtain ⟨row, hrow, hrest⟩ := Option.bind_eq_some_iff.mp hstep
  obtain ⟨_, hguard, hrest⟩ := Option.bind_eq_some_iff.mp hrest
  obtain ⟨w, hact, hdone⟩ := Option.bind_eq_some_iff.mp hrest
  cases hdone
  obtain ⟨hname, m, hm⟩ := h.rows f row hrow
  have hdb : w.db = s.world.db := db_act hact (Or.inr ⟨f, Or.inl rfl⟩)
  have hrows : System.db ⟨w, s.working.upsert f ⟨row, none⟩⟩ = s.db := hdb
  refine h.of_sameRows (DataCache.inv_act h.world (.select f) trivial hact) (hrows ▸ h.consistent)
    (hrows ▸ h.tables) (fun _ _ _ hrev => hasRevision_act hact hrev) (by rw [hrows]) ?_
  intro f' w' hw'
  rw [Table.get?_upsert] at hw'
  split_ifs at hw' with hf
  · subst hf
    cases hw'
    exact Or.inr ⟨hname, row, m, hrows ▸ hrow, hm, hm, fun bytes hb => (by cases hb)⟩
  · exact Or.inl hw'

/-- The bytes that a row gets, from the cache or from Drive, are those of a revision that is no
older than the row. -/
theorem inv_fetch (h : Inv parseBytes named s lib)
    (hstep : step parseBytes s (.fetch f) = some s') : Inv parseBytes named s' lib := by
  obtain ⟨w, hw, hrest⟩ := Option.bind_eq_some_iff.mp hstep
  obtain ⟨_, hguard, hrest⟩ := Option.bind_eq_some_iff.mp hrest
  obtain ⟨hname, row, m, hrow, hm, hwm, -⟩ := h.working f w hw
  have hmodified : s.world.db.modifiedTime f = some m := by
    rw [Db.modifiedTime, show s.world.db.statsbooks.get? f = some row from hrow]
    exact hm
  have hfetched : ∀ (s' : System) (bytes : Bytes), s'.db = s.db →
      s'.world.HasRevision f bytes m → Fetched named s' f { w with bytes := some bytes } := by
    intro s' bytes hdb hrevision
    refine ⟨hname, row, m, hdb ▸ hrow, hm, hwm, fun bytes' hb => ?_⟩
    cases hb
    exact hrevision
  have hfresh := DataCache.neverOlder_of_inv h.world
  rw [hwm] at hrest
  cases hread : readCachedIfFresh (some s.world.dir) f (some m) with
  | some bytes =>
      rw [hread] at hrest
      cases hrest
      refine h.of_sameRows h.world h.consistent h.tables (fun _ _ _ hrev => hrev) rfl ?_
      intro f' w' hw'
      rw [Table.get?_upsert] at hw'
      split_ifs at hw' with hf
      · subst hf
        cases hw'
        exact Or.inr (hfetched _ bytes rfl (hfresh.hasRevision (Or.inl hmodified) hread))
      · exact Or.inl hw'
  | none =>
      rw [hread] at hrest
      obtain ⟨hist, hhist, hrest⟩ := Option.bind_eq_some_iff.mp hrest
      obtain ⟨w₁, hact, hdone⟩ := Option.bind_eq_some_iff.mp hrest
      cases hdone
      have hdb : w₁.db = s.world.db := db_act hact (Or.inr ⟨f, Or.inr rfl⟩)
      have hrows : System.db ⟨w₁, s.working.upsert f { w with bytes := some hist.current.bytes }⟩ =
        s.db := hdb
      -- the listed time is that of a revision, and the current one is no older
      have hcurrent : s.world.HasRevision f hist.current.bytes m := by
        obtain ⟨hist', hhist', r, hr, rfl⟩ := h.world.rows f m (Or.inl hmodified)
        rw [hhist] at hhist'
        cases hhist'
        exact ⟨hist, hhist, hist.current, hist.current_mem_revisions, rfl,
          History.modifiedTime_le_current hr⟩
      refine h.of_sameRows (DataCache.inv_act h.world (.download f) trivial hact)
        (hrows ▸ h.consistent) (hrows ▸ h.tables)
        (fun _ _ _ hrev => hasRevision_act hact hrev) (by rw [hrows]) ?_
      intro f' w' hw'
      rw [Table.get?_upsert] at hw'
      split_ifs at hw' with hf
      · subst hf
        cases hw'
        exact Or.inr (hfetched _ _ hrows (hasRevision_act hact hcurrent))
      · exact Or.inl hw'

omit [Numbers.Rounding] in
/-- A try records a failure, or stores what the bytes are parsed to. -/
theorem parseRow_cases (db : Db) (f : String) (a : Attempt) :
    (∃ error, parseRow db f a = (a.recordFailure db f error, false)) ∨
      ∃ game date db' outcome, a.parsed = .ok (game, date) ∧
        storeParsedGame db f game date = some (db', outcome) ∧ parseRow db f a = (db', true) := by
  unfold parseRow
  split
  · exact Or.inl ⟨_, rfl⟩
  · next game date hparsed =>
      split
      · exact Or.inl ⟨_, rfl⟩
      · split
        · next db' outcome hstore => exact Or.inr ⟨game, date, db', outcome, hparsed, hstore, rfl⟩
        · exact Or.inl ⟨_, rfl⟩

omit [Text.UnicodeTables] [Numbers.Rounding] in
/-- The rows of the other files, and the times of all, are the same after a row is updated. -/
theorem row_modify {db db' : Db} {update : DriveFile → DriveFile}
    (hmodify : db'.statsbooks = db.statsbooks.modify f update)
    (hupdate : ∀ row, (update row).name = row.name ∧
      (update row).modifiedTime = row.modifiedTime) {f' : String} {row' : DriveFile}
    (hrow' : db'.statsbooks.get? f' = some row') :
    ∃ row, db.statsbooks.get? f' = some row ∧ row.name = row'.name ∧
      row.modifiedTime = row'.modifiedTime ∧ (f' = f → row' = update row) ∧
      (f' ≠ f → row' = row) := by
  rw [hmodify, Table.get?_modify] at hrow'
  split_ifs at hrow' with hf
  · obtain ⟨row, hrow, rfl⟩ := Option.map_eq_some_iff.mp hrow'
    exact ⟨row, hf ▸ hrow, (hupdate row).1.symm, (hupdate row).2.symm, fun _ => rfl,
      fun hne => absurd hf hne⟩
  · exact ⟨row', hrow', rfl, rfl, fun heq => absurd heq hf, fun _ => rfl⟩

omit [Text.UnicodeTables] [Numbers.Rounding] in
theorem modifiedTime_modify {db db' : Db} {update : DriveFile → DriveFile}
    (hmodify : db'.statsbooks = db.statsbooks.modify f update)
    (hupdate : ∀ row, (update row).modifiedTime = row.modifiedTime) (f' : String) :
    db'.modifiedTime f' = db.modifiedTime f' := by
  unfold Db.modifiedTime
  rw [hmodify, Table.get?_modify]
  split_ifs with hf
  · cases db.statsbooks.get? f' with
    | none => rfl
    | some row => exact hupdate row
  · rfl

omit [Numbers.Rounding] in
/-- The work that goes on after a try has ended. -/
theorem fetched_after_try (h : Inv parseBytes named s lib) {db : Db}
    {update : DriveFile → DriveFile} (hmodify : db.statsbooks = s.db.statsbooks.modify f update)
    {f' : String} {w : Work} (hw : (s.working.erase f).get? f' = some w) :
    Fetched named { s.withDb db with working := s.working.erase f } f' w := by
  rw [Table.get?_erase] at hw
  split_ifs at hw with hf
  refine (h.working f' w hw).frame (fun _ _ _ hrev => hrev) fun row hrow => ⟨row, ?_, rfl⟩
  change db.statsbooks.get? f' = some row
  rw [hmodify, Table.get?_modify, if_neg hf]
  exact hrow

/-- A failure that is recorded leaves its file among those that need parsing. -/
theorem inv_setFailed (h : Inv parseBytes named s lib) (error : String) :
    Inv parseBytes named
      { s.withDb (setFailed s.db f error) with working := s.working.erase f } lib := by
  have hstep : Visibility.step s.db (.stage (.setFailed f error)) =
      some (setFailed s.db f error) := rfl
  have hmodify : (setFailed s.db f error).statsbooks = s.db.statsbooks.modify f fun row =>
      { row with parseStatus := ParseStatus.failed, parseError := some error } := rfl
  refine h.frame (world_withDb h.world (modifiedTime_modify hmodify fun _ => rfl))
    (consistent_step h.consistent hstep) (represents_step h.consistent h.tables hstep)
    (fun _ _ _ hrev => hrev) (fun f' row' hrow' => ?_)
    (fun f' w hw => fetched_after_try h hmodify hw) (fun f' => Or.inl rfl)
    fun f' row' hrow' hneeds => ?_
  · obtain ⟨row, hrow, hname, htime, -⟩ := row_modify hmodify (fun _ => ⟨rfl, rfl⟩) hrow'
    exact Or.inl ⟨row, hrow, hname, htime⟩
  · obtain ⟨row, hrow, -, htime, hself, hother⟩ :=
      row_modify hmodify (fun _ => ⟨rfl, rfl⟩) hrow'
    by_cases hf : f' = f
    · rw [hself hf] at hneeds
      cases hneeds
    · rw [hother hf] at hneeds
      exact Or.inl ⟨row, hrow, hneeds, htime, rfl⟩

omit [Numbers.Rounding] in
/-- What the library keeps after a result is stored. -/
theorem content_store {db db' : Db} (h : Represents db lib) {game : GameData} {date : Option Int}
    {outcome : ParseOutcome} (hstore : storeParsedGame db f game date = some (db', outcome))
    (f' : String) :
    (lib.store f game date).content f' = if f' = f then kept game date else lib.content f' := by
  unfold Library.store kept
  cases hdata : hasNoGameData game with
  | true => exact Function.update_apply lib.content f none f'
  | false =>
      obtain ⟨⟨d, rfl⟩, hall⟩ := (exists_storeParsedGame_iff h hdata date).mp ⟨_, hstore⟩
      simp only [Bool.false_eq_true, if_false, if_pos hall, Option.map_some]
      exact Function.update_apply lib.content f _ f'

/-- A result that is stored is what the bytes of a revision no older than the row are parsed to,
and the row has the time that was selected. -/
theorem inv_stored (h : Inv parseBytes named s lib) {w : Work} {bytes : Bytes}
    (hw : s.working.get? f = some w) (hbytes : w.bytes = some bytes) {game : GameData}
    {date : Option Int} {db' : Db} {outcome : ParseOutcome}
    (hparse : parseBytes w.row.name bytes = .ok (game, date))
    (hstore : storeParsedGame s.db f game date = some (db', outcome)) :
    Inv parseBytes named { s.withDb db' with working := s.working.erase f }
      (lib.store f game date) := by
  obtain ⟨hname, row₀, m, hrow₀, hm, hwm, hrevision⟩ := h.working f w hw
  have hmodify := storeParsedGame_statsbooks hstore
  have hstep : Visibility.step s.db (.stage (.storeParsedGame f game date)) = some db' := by
    change some (((storeParsedGame s.db f game date).map Prod.fst).getD s.db) = some db'
    rw [hstore]
    rfl
  have hcontent := content_store h.tables hstore
  have hparsed : ParsedFrom parseBytes named { s.withDb db' with working := s.working.erase f } f m
      game date := ⟨bytes, w.row.name, hrevision bytes hbytes, hname, hparse⟩
  refine h.frame (world_withDb h.world (modifiedTime_modify hmodify fun _ => rfl))
    (consistent_step h.consistent hstep) (represents_step h.consistent h.tables hstep)
    (fun _ _ _ hrev => hrev) (fun f' row' hrow' => ?_)
    (fun f' w hw => fetched_after_try h hmodify hw) (fun f' => ?_) fun f' row' hrow' hneeds => ?_
  · obtain ⟨row, hrow, hname, htime, -⟩ := row_modify hmodify (fun _ => ⟨rfl, rfl⟩) hrow'
    exact Or.inl ⟨row, hrow, hname, htime⟩
  · rw [hcontent]
    split_ifs with hf
    · subst hf
      unfold kept
      split_ifs
      · exact Or.inr (Or.inl rfl)
      · cases date with
        | none => exact Or.inr (Or.inl rfl)
        | some d => exact Or.inr (Or.inr ⟨m, game, d, rfl, hparsed⟩)
    · exact Or.inl rfl
  · obtain ⟨row, hrow, -, htime, -, hother⟩ :=
      row_modify hmodify (fun _ => ⟨rfl, rfl⟩) hrow'
    by_cases hf : f' = f
    · subst hf
      rw [hrow₀] at hrow
      cases hrow
      exact Or.inr ⟨m, game, date, htime ▸ hm, hparsed, (hcontent f').trans (if_pos rfl)⟩
    · rw [hother hf] at hneeds
      exact Or.inl ⟨row, hrow, hneeds, htime, (hcontent f').trans (if_neg hf)⟩

/-- The end of a try, whose result is that of the bytes if there is one. -/
theorem inv_endTry (h : Inv parseBytes named s lib) {w : Work} {a : Attempt}
    (hw : s.working.get? f = some w)
    (hparsed : ∀ parsed, a.parsed = .ok parsed →
      ∃ bytes, w.bytes = some bytes ∧ parseBytes w.row.name bytes = .ok parsed) :
    ∃ lib', Inv parseBytes named (endTry s f a) lib' := by
  unfold endTry
  rcases parseRow_cases s.db f a with
    ⟨error, hfailed⟩ | ⟨game, date, db', outcome, hok, hstore, hdone⟩
  · rw [hfailed]
    unfold Attempt.recordFailure
    split_ifs
    · refine ⟨lib, h.of_sameRows h.world h.consistent h.tables (fun _ _ _ hrev => hrev) rfl ?_⟩
      intro f' w' hw'
      change (s.working.erase f).get? f' = some w' at hw'
      rw [Table.get?_erase] at hw'
      split_ifs at hw'
      exact Or.inl hw'
    · exact ⟨lib, inv_setFailed h error⟩
  · obtain ⟨bytes, hbytes, hparse⟩ := hparsed _ hok
    rw [hdone]
    exact ⟨_, inv_stored h hw hbytes hparse hstore⟩

/-! ## Every run -/

/-- Every step keeps what the tables hold tied to revisions on Drive. -/
theorem inv_step (h : Inv parseBytes named s lib) {l : Label} (horder : InOrder named s l)
    (hstep : step parseBytes s l = some s') : ∃ lib', Inv parseBytes named s' lib' := by
  cases l with
  | outside l => exact inv_outside h horder.1 horder.2 hstep
  | other a => exact ⟨lib, inv_other h hstep⟩
  | select f => exact ⟨lib, inv_select h hstep⟩
  | fetch f => exact ⟨lib, inv_fetch h hstep⟩
  | fail f error unrecorded =>
      obtain ⟨w, hw, hrest⟩ := Option.bind_eq_some_iff.mp hstep
      obtain ⟨_, -, hdone⟩ := Option.bind_eq_some_iff.mp hrest
      cases hdone
      exact inv_endTry h hw fun parsed hok => (by cases hok)
  | finish f e =>
      obtain ⟨w, hw, hrest⟩ := Option.bind_eq_some_iff.mp hstep
      obtain ⟨bytes, hbytes, hdone⟩ := Option.bind_eq_some_iff.mp hrest
      cases hdone
      refine inv_endTry h hw fun parsed hok => ⟨bytes, hbytes, ?_⟩
      unfold attempt at hok
      cases hpanicked : e.panicked with
      | some error =>
          rw [hpanicked] at hok
          cases hok
      | none =>
          rw [hpanicked] at hok
          exact hok

/-- The tables hold what is kept of a parsed game, or no rows where nothing is kept. -/
def HoldsKept (db : Db) (f : String) (game : GameData) (date : Option Int) : Prop :=
  match kept game date with
  | some (game, d) => Holds db f game d
  | none => Cleared db f

omit [Numbers.Rounding] in
theorem holdsKept_of_content {db : Db} (h : Represents db lib) {game : GameData}
    {date : Option Int} (hcontent : lib.content f = kept game date) : HoldsKept db f game date := by
  unfold HoldsKept
  cases hkept : kept game date with
  | none => exact h.blank f (hcontent.trans hkept)
  | some content => exact h.filled f _ _ (hcontent.trans hkept)

/-- In every run in which cache writes come in time, the tables hold of each file nothing or what
one of its revisions is parsed to, whatever is being uploaded, worked on or synced.  A row that
needs no parsing and has the time of the current revision stands for what that is parsed to. -/
theorem mirrors_of_run {now : Int} {labels : List Label}
    (horder : EveryStep (step parseBytes) (InOrder named) (start now) labels)
    (hrun : run (step parseBytes) (start now) labels = some s) (f : String) :
    (Cleared s.db f ∨ ∃ hist r name game d, s.world.drive.get? f = some hist ∧
      r ∈ hist.revisions ∧ named f name ∧ parseBytes name r.bytes = .ok (game, some d) ∧
      Holds s.db f game d) ∧
    ∀ row hist, s.db.statsbooks.get? f = some row → needsParsing row = false →
      s.world.drive.get? f = some hist → row.modifiedTime = some hist.current.modifiedTime →
      ∃ name game date, named f name ∧
        parseBytes name hist.current.bytes = .ok (game, date) ∧ HoldsKept s.db f game date := by
  have hinv : ∃ lib, Inv parseBytes named s lib := by
    refine run_invariant_of_everyStep (P := fun s => ∃ lib, Inv parseBytes named s lib) ?_
      ⟨_, inv_start now⟩ horder hrun
    rintro s l s' ⟨lib, h⟩ hl hstep
    exact inv_step h hl hstep
  obtain ⟨lib, h⟩ := hinv
  constructor
  · cases hcontent : lib.content f with
    | none => exact Or.inl (h.tables.blank f hcontent)
    | some content =>
        obtain ⟨game, d⟩ := content
        obtain ⟨m, _, name, ⟨hist, hhist, r, hr, rfl, -⟩, hname, hparse⟩ :=
          h.content f game d hcontent
        exact Or.inr ⟨hist, r, name, game, d, hhist, hr, hname, hparse,
          h.tables.filled f game d hcontent⟩
  · intro row hist hrow hneeds hhist htime
    obtain ⟨m, game, date, hm, ⟨_, name, ⟨hist', hhist', r, hr, rfl, hle⟩, hname, hparse⟩, hkept⟩ :=
      h.done f row hrow hneeds
    rw [hhist] at hhist'
    cases hhist'
    rw [htime] at hm
    cases hm
    rw [History.eq_current_of_le hr hle] at hparse
    exact ⟨name, game, date, hname, hparse, holdsKept_of_content h.tables hkept⟩

end Invariant

/-! ## A file that is replaced -/

section Example

attribute [local instance] Text.asciiTables Numbers.f64

/-- Two revisions of a statsbook. -/
def twoRevisions (_ : String) (bytes : Bytes) : Except String (GameData × Option Int) :=
  .ok (if bytes = [1] then Resolve.bareGame 90 80 else Resolve.bareGame 100 95, some 19400)

/-- The file is uploaded, listed, downloaded and stored; it is replaced while it is worked on, and
listed and parsed again. -/
def replacedLabels : List Label :=
  [.outside ⟨1, .edit "f" [1]⟩, .outside ⟨1, .index "f" "f.xlsx" none none⟩, .select "f",
    .fetch "f", .outside ⟨1, .edit "f" [2]⟩, .finish "f" ⟨none, none, "", false⟩,
    .outside ⟨1, .index "f" "f.xlsx" none none⟩, .select "f", .fetch "f",
    .finish "f" ⟨none, none, "", false⟩]

/-- The state after these labels. -/
def replacedState : System :=
  (run (step twoRevisions) (start 0) replacedLabels).getD (start 0)

theorem run_replacedState :
    run (step twoRevisions) (start 0) replacedLabels = some replacedState :=
  run_eq_some_getD (by decide +kernel) _

/-- The name of the file. -/
def onlyName (f name : String) : Prop :=
  f = "f" ∧ name = "f.xlsx"

theorem inOrder_replacedLabels :
    EveryStep (step twoRevisions) (InOrder onlyName) (start 0) replacedLabels := by
  refine ⟨⟨fun path file _ hfile _ => (by cases hfile), trivial⟩, fun s₁ h₁ => ?_⟩
  cases h₁
  refine ⟨⟨trivial, rfl, rfl⟩, fun s₂ h₂ => ?_⟩
  cases h₂
  refine ⟨⟨trivial, trivial⟩, fun s₃ h₃ => ?_⟩
  cases h₃
  refine ⟨⟨trivial, trivial⟩, fun s₄ h₄ => ?_⟩
  cases h₄
  refine ⟨⟨fun path file _ hfile _ => (by cases hfile), trivial⟩, fun s₅ h₅ => ?_⟩
  cases h₅
  exact ⟨⟨trivial, trivial⟩, fun _ _ => ⟨⟨trivial, rfl, rfl⟩, fun _ _ => ⟨⟨trivial, trivial⟩,
    fun _ _ => ⟨⟨trivial, trivial⟩, fun _ _ => ⟨⟨trivial, trivial⟩, fun _ _ => trivial⟩⟩⟩⟩⟩

/-- The tables end with the revision that came in while the first one was worked on. -/
theorem mirrors_of_run_replacedState :
    Holds replacedState.db "f" (Resolve.bareGame 100 95) 19400 := by
  have hdone : ((replacedState.db.statsbooks.get? "f").any fun row =>
      (replacedState.world.drive.get? "f").any fun hist => !needsParsing row &&
        decide (row.modifiedTime = some hist.current.modifiedTime) &&
        decide (hist.current.bytes = [2])) = true := by decide +kernel
  simp only [Option.any_eq_true, Bool.and_eq_true, Bool.not_eq_true', decide_eq_true_eq] at hdone
  obtain ⟨row, hrow, hist, hhist, ⟨hneeds, htime⟩, hbytes⟩ := hdone
  obtain ⟨name, game, date, -, hparse, hholds⟩ :=
    (mirrors_of_run inOrder_replacedLabels run_replacedState "f").2 row hist hrow hneeds hhist htime
  rw [hbytes] at hparse
  cases hparse
  exact hholds

end Example

end Mirror
end Statskboo
