import Statskboo.Ingest.Passes

/-!
# The two background loops

The WFTDA loop syncs teams and games, the Drive loop indexes and parses statsbooks, and
each ends its cycle with a resolve pass.  They share the database and take no lock.  Every
transaction of a stage, every read of a pass, every write batch and every dedup update is
one atomic step.

A pass resolves what it has read and writes it later.  When the other loop changes the
content in between and commits the results of its own pass first, the batches of the
older pass replace them.

Main results:

- Theorem {lit}`inv_step`: a pass that has read the content as it stands leaves every
  file that it has written up to date, as long as no older pass writes after it.
- Theorem {lit}`upToDate_of_inTime`: so the matches are up to date whenever both loops
  sleep, in every run in which no batch is overtaken.
-/

namespace Statskboo
namespace Loops

open Chunks KeyedTable Resolve Transition
open Passes (Pass passStep)

/-! ## The loops -/

/-- Where a loop stands.  The Drive loop parses and resolves what an earlier run has left
before it lists the files for the first time; {lit}`indexed` says that it has listed
them in this cycle. -/
inductive Phase where
  | syncTeams
  | syncGames
  | index
  | drain (indexed : Bool)
  | resolve (p : Pass) (indexed : Bool)
  | asleep
deriving DecidableEq

/-- Where a loop begins its cycle. -/
def Phase.begin : Loop → Phase
  | .wftdaSync => syncTeams
  | .driveIndex => index

/-- Where a loop stands after a transaction of its stages, if it may issue it. -/
def Phase.afterStage : Phase → Stage → Option Phase
  | syncTeams, .syncTeams _ _ => some syncGames
  | syncGames, .syncGames _ => some (resolve .selectTeams true)
  | index, .upsertStatsbook .. => some index
  | index, .markRemoved _ => some (drain true)
  | drain indexed, .storeParsedGame .. => some (drain indexed)
  | drain indexed, .setFailed _ _ => some (drain indexed)
  | _, _ => none

/-- Where a loop goes on when nothing of the present phase is left to do. -/
def Phase.next (l : Loop) : Phase → Option Phase
  | drain indexed => some (resolve .selectTeams indexed)
  | resolve .finished true => some asleep
  | resolve .finished false => some (begin l)
  | asleep => some (begin l)
  | _ => none

/-- A loop, with the content its last pass began to read and the content after its own
last change; the code keeps neither number. -/
structure Worker where
  phase : Phase
  startedAt : Nat
  lastChange : Nat

/-- The rows that a pass reads. -/
structure Content where
  teams : List (Int × String)
  games : List (Int × WftdaGame)
  books : List BookRow
deriving DecidableEq

/-- The rows that a pass would read now. -/
def contentOf (db : Db) : Content where
  teams := teamRows db
  games := gameRows db
  books := bookRows db

/-- The database and the loops.  The version counts the changes of the content, and the
newest writer is the version that the most up-to-date pass with a committed batch began
to read. -/
structure System where
  db : Db
  version : Nat
  newestWriter : Nat
  worker : Loop → Worker

/-- What happens at a step: a transaction of a stage, a step of a pass, or a loop going
on. -/
inductive Label where
  | stage (l : Loop) (a : Stage)
  | pass (l : Loop)
  | next (l : Loop)

/-- Both loops start with the process. -/
def start (db : Db) : System where
  db := db
  version := 0
  newestWriter := 0
  worker
    | .wftdaSync => { phase := .syncTeams, startedAt := 0, lastChange := 0 }
    | .driveIndex => { phase := .drain false, startedAt := 0, lastChange := 0 }

/-- Replace the state of one loop. -/
def setWorker (worker : Loop → Worker) (l : Loop) (w : Worker) : Loop → Worker :=
  fun l' => if l' = l then w else worker l'

section Steps

variable [Text.UnicodeTables] [Numbers.Rounding]

/-- The effect of a step; every transaction succeeds. -/
def step (s : System) : Label → Option System
  | .stage l a => do
      let w := s.worker l
      let phase ← w.phase.afterStage a
      guard (a.succeeds s.db)
      let db := a.exec s.db
      if contentOf db = contentOf s.db then
        return { s with db, worker := setWorker s.worker l { w with phase } }
      else
        return { s with
          db
          version := s.version + 1
          worker := setWorker s.worker l { w with phase, lastChange := s.version + 1 } }
  | .pass l => do
      let w := s.worker l
      match w.phase with
      | .resolve p indexed =>
          let (db, p') ← passStep s.db p
          return { s with
            db
            newestWriter := match p with
              | .writing .. => max s.newestWriter w.startedAt
              | _ => s.newestWriter
            worker := setWorker s.worker l { w with
              phase := .resolve p' indexed
              startedAt := match p with
                | .selectTeams => s.version
                | _ => w.startedAt } }
      | _ => none
  | .next l => do
      let w := s.worker l
      let phase ← w.phase.next l
      return { s with worker := setWorker s.worker l { w with phase } }

end Steps

/-! ## What sleeping loops promise -/

/-- A row as the dedup update leaves it. -/
def hiddenRow (row : GameMatch) : GameMatch :=
  { row with wftdaGameId := none, method := StoredMethod.duplicate }

/-- The match of a file is a resolution, or the file is hidden as a duplicate with the
evidence of that resolution. -/
def RowIs (db : Db) (f : String) (r : Resolution) : Prop :=
  ∃ row, db.gameMatches.get? f = some row ∧ (row = matchRow r ∨ row = hiddenRow (matchRow r))

/-- Every file with parsed content has the match that its content resolves to. -/
def UpToDate [Text.UnicodeTables] [Numbers.Rounding] (db : Db) : Prop :=
  ∀ f r, resolutionOf db f = some r → RowIs db f r

/-- Both loops sleep. -/
def BothAsleep (s : System) : Prop :=
  ∀ l, (s.worker l).phase = .asleep

/-- The next step of the loop commits a batch. -/
def Phase.isWriting : Phase → Bool
  | resolve (.writing _ _) _ => true
  | _ => false

/-- A batch comes in time when no pass that began to read newer content has committed a
batch before it. -/
def InTime (s : System) : Label → Prop
  | .pass l => (s.worker l).phase.isWriting = true → s.newestWriter ≤ (s.worker l).startedAt
  | _ => True

instance (s : System) : (a : Label) → Decidable (InTime s a)
  | .pass l => inferInstanceAs (Decidable ((s.worker l).phase.isWriting = true → _))
  | .stage _ _ => inferInstanceAs (Decidable True)
  | .next _ => inferInstanceAs (Decidable True)

/-! ## Content and matches -/

section Rows

variable {db db' : Db} {f : String} {r : Resolution}

/-- The rows that a pass reads determine what the files resolve to. -/
theorem resolutionOf_of_contentOf [Text.UnicodeTables] [Numbers.Rounding]
    (h : contentOf db' = contentOf db) (f : String) : resolutionOf db' f = resolutionOf db f := by
  obtain ⟨hteams, hgames, hbooks⟩ := Content.mk.inj h
  have hrow : bookRow db' f = bookRow db f := by
    apply Option.ext
    intro row
    constructor
    · intro hrow
      have hid := driveFileId_of_bookRow hrow
      have hmem : row ∈ bookRows db' := mem_bookRows.mpr (hid ▸ hrow)
      rw [hbooks, mem_bookRows, hid] at hmem
      exact hmem
    · intro hrow
      have hid := driveFileId_of_bookRow hrow
      have hmem : row ∈ bookRows db := mem_bookRows.mpr (hid ▸ hrow)
      rw [← hbooks, mem_bookRows, hid] at hmem
      exact hmem
  unfold resolutionOf matcherOf
  rw [hrow, hteams, hgames]

/-- Resolving does not change the rows that a pass reads. -/
theorem contentOf_of_sameContent (h : Db.SameContent db db') : contentOf db' = contentOf db := by
  have hbooks : bookRows db' = bookRows db := by
    unfold bookRows
    rw [h.statsbookGames]
    exact congrArg (fun row => List.filterMap row _) (funext (bookRow_of_sameContent h))
  unfold contentOf teamRows gameRows
  rw [h.wftdaTeams, h.wftdaGames, hbooks]

theorem RowIs.of_get?_eq (h : RowIs db f r)
    (heq : db'.gameMatches.get? f = db.gameMatches.get? f) : RowIs db' f r := by
  unfold RowIs
  rw [heq]
  exact h

theorem RowIs.hideLoser (h : RowIs db f r) (loser : String) :
    RowIs (Resolve.hideLoser db loser) f r := by
  obtain ⟨row, hrow, hr⟩ := h
  have hget : (Resolve.hideLoser db loser).gameMatches.get? f =
      if f = loser then some (hiddenRow row) else some row := by
    unfold Resolve.hideLoser Db.clearSides
    rw [Db.gameMatches_setSideTeams, Db.hideMatch, Table.get?_modify, hrow]
    rfl
  split_ifs at hget
  · refine ⟨hiddenRow row, hget, Or.inr ?_⟩
    rcases hr with rfl | rfl
    · rfl
    · rfl
  · exact ⟨row, hget, hr⟩

/-- Hiding duplicates keeps a match or hides it. -/
theorem RowIs.hideLosers (h : RowIs db f r) (losers : List String) :
    RowIs (Resolve.hideLosers db losers) f r := by
  induction losers generalizing db with
  | nil => exact h
  | cons loser losers ih => exact ih (h.hideLoser loser)

end Rows

section Settled

variable [Text.UnicodeTables] [Numbers.Rounding]

/-- Every file with content is about to be written, or its match is up to date and a pass
over the present content has committed a batch. -/
def Settled (db : Db) (version newestWriter : Nat) (remaining : List (String × Resolution)) :
    Prop :=
  ∀ f r, resolutionOf db f = some r →
    f ∈ remaining.map Prod.fst ∨ (RowIs db f r ∧ version ≤ newestWriter)

variable {db db' : Db} {v n n' : Nat} {remaining batch : List (String × Resolution)}

/-- What keeps the content, and the matches of the files with content, keeps them
settled. -/
theorem Settled.frame (h : Settled db v n remaining) (hcontent : contentOf db' = contentOf db)
    (hrows : ∀ f r, resolutionOf db f = some r → RowIs db f r → RowIs db' f r) :
    Settled db' v n remaining := by
  intro f r hr
  rw [resolutionOf_of_contentOf hcontent] at hr
  rcases h f r hr with hmem | ⟨hrow, hle⟩
  · exact Or.inl hmem
  · exact Or.inr ⟨hrows f r hr hrow, hle⟩

theorem Settled.append_left (h : Settled db v n remaining)
    (batch : List (String × Resolution)) : Settled db v n (batch ++ remaining) := by
  intro f r hr
  rcases h f r hr with hmem | hrow
  · left
    rw [List.map_append, List.mem_append]
    exact Or.inr hmem
  · exact Or.inr hrow

/-- A batch of up-to-date resolutions settles its files. -/
theorem Settled.write (h : Settled db v n (batch ++ remaining))
    (hres : ∀ w ∈ batch, resolutionOf db w.1 = some w.2)
    (hwrite : writeMatches db batch = some db') : Settled db' v (max n v) remaining := by
  intro f r hr
  rw [resolutionOf_of_sameContent (sameContent_writeMatches hwrite)] at hr
  have hmatch := (writeMatches_spec hres hwrite f).1
  by_cases hf : f ∈ batch.map Prod.fst
  · right
    rw [if_pos hf, hr] at hmatch
    exact ⟨⟨matchRow r, hmatch, Or.inl rfl⟩, le_max_right n v⟩
  · rw [if_neg hf] at hmatch
    rcases h f r hr with hmem | ⟨hrow, hle⟩
    · left
      rw [List.map_append, List.mem_append] at hmem
      exact hmem.resolve_left hf
    · exact Or.inr ⟨hrow.of_get?_eq hmatch, le_max_of_le_left hle⟩

/-- While no pass over the present content has committed a batch, all files with content
are about to be written, whatever an older pass writes before. -/
theorem Settled.write_stale (h : Settled db v n remaining) (hstale : n < v)
    (hcontent : contentOf db' = contentOf db) : Settled db' v n' remaining := by
  intro f r hr
  rw [resolutionOf_of_contentOf hcontent] at hr
  rcases h f r hr with hmem | ⟨-, hle⟩
  · exact Or.inl hmem
  · omega

/-! ## The invariant -/

/-- What a pass over the present content has read and has still to write. -/
def FreshPass (db : Db) (v n : Nat) : Pass → Prop
  | .selectTeams => True
  | .selectGames teams => teams = teamRows db
  | .selectBooks teams games => teams = teamRows db ∧ games = gameRows db
  | .writing batch rest =>
      (∀ w ∈ batch ++ rest.flatten, resolutionOf db w.1 = some w.2) ∧
        Settled db v n (batch ++ rest.flatten)
  | _ => Settled db v n []

/-- The same for the phase of a loop: a sleeping loop has written everything. -/
def FreshPhase (db : Db) (v n : Nat) : Phase → Prop
  | .resolve p _ => FreshPass db v n p
  | .asleep => Settled db v n []
  | _ => True

/-- The last pass of the loop has begun to read, and the loop has changed nothing
since. -/
def Phase.HasRead : Phase → Prop
  | resolve p _ => p ≠ .selectTeams
  | asleep => True
  | _ => False

/-- A loop reads after its own changes, and what it read as the content still stands is
settled when it is done. -/
structure WorkerInv (db : Db) (v n : Nat) (w : Worker) : Prop where
  startedAt_le : w.startedAt ≤ v
  lastChange_le : w.lastChange ≤ v
  read : w.phase.HasRead → w.lastChange ≤ w.startedAt
  fresh : w.phase.HasRead → w.startedAt = v → FreshPhase db v n w.phase

/-- The invariant: the last change was made by one of the loops. -/
structure Inv (s : System) : Prop where
  workers : ∀ l, WorkerInv s.db s.version s.newestWriter (s.worker l)
  changed : ∃ l, s.version ≤ (s.worker l).lastChange

theorem FreshPass.frame {p : Pass} (h : FreshPass db v n p)
    (hcontent : contentOf db' = contentOf db)
    (hsettled : ∀ remaining, Settled db v n remaining → Settled db' v n' remaining) :
    FreshPass db' v n' p := by
  obtain ⟨hteams, hgames, -⟩ := Content.mk.inj hcontent
  cases p with
  | selectTeams => trivial
  | selectGames teams => exact Eq.trans h hteams.symm
  | selectBooks teams games => exact ⟨h.1.trans hteams.symm, h.2.trans hgames.symm⟩
  | writing batch rest =>
      refine ⟨fun w hw => ?_, hsettled _ h.2⟩
      rw [resolutionOf_of_contentOf hcontent]
      exact h.1 w hw
  | dedupSelect => exact hsettled _ h
  | dedupUpdate losers => exact hsettled _ h
  | finished => exact hsettled _ h

/-- What one loop does keeps the invariant of the other if it keeps files settled. -/
theorem WorkerInv.frame {w : Worker} (h : WorkerInv db v n w)
    (hcontent : contentOf db' = contentOf db)
    (hsettled : ∀ remaining, Settled db v n remaining → Settled db' v n' remaining) :
    WorkerInv db' v n' w where
  startedAt_le := h.startedAt_le
  lastChange_le := h.lastChange_le
  read := h.read
  fresh hread hv := by
    have hfresh := h.fresh hread hv
    cases hphase : w.phase with
    | resolve p indexed =>
        rw [hphase] at hfresh
        exact FreshPass.frame hfresh hcontent hsettled
    | asleep =>
        rw [hphase] at hfresh
        exact hsettled _ hfresh
    | syncTeams | syncGames | index | drain => trivial

/-- A loop that has not begun to read is bound to nothing. -/
theorem workerInv_of_not_hasRead {w : Worker} (hstarted : w.startedAt ≤ v)
    (hchange : w.lastChange ≤ v) (hread : ¬ w.phase.HasRead) : WorkerInv db v n w where
  startedAt_le := hstarted
  lastChange_le := hchange
  read h := absurd h hread
  fresh h := absurd h hread

theorem inv_start (db : Db) : Inv (start db) where
  workers l := by
    cases l with
    | wftdaSync => exact workerInv_of_not_hasRead le_rfl le_rfl id
    | driveIndex => exact workerInv_of_not_hasRead le_rfl le_rfl id
  changed := ⟨.wftdaSync, le_rfl⟩

/-! ## What each step preserves -/

/-- The batches of a pass over the present content are up to date. -/
theorem freshPass_ofBatches {batches : List (List (String × Resolution))}
    (hres : ∀ w ∈ batches.flatten, resolutionOf db w.1 = some w.2)
    (hsettled : Settled db v n batches.flatten) : FreshPass db v n (Pass.ofBatches batches) := by
  cases batches with
  | nil => exact hsettled
  | cons batch rest => exact ⟨hres, hsettled⟩

/-- A pass that has read all of the present content has everything to write. -/
theorem freshPass_read (db : Db) (v n : Nat) :
    FreshPass db v n (Pass.ofBatches (chunks writeBatch (passWrites db))) := by
  apply freshPass_ofBatches
  · intro w hw
    rw [flatten_chunks (by decide)] at hw
    exact mem_passWrites.mp hw
  · intro f r hr
    left
    rw [flatten_chunks (by decide)]
    exact mem_map_passWrites.mpr ⟨r, hr⟩

theorem freshPass_ofLosers {losers : List String} (h : Settled db v n []) :
    FreshPass db v n (Pass.ofLosers losers) := by
  cases losers with
  | nil => exact h
  | cons loser losers => exact h

omit [Text.UnicodeTables] [Numbers.Rounding] in
theorem not_hasRead_afterStage {phase phase' : Phase} {a : Stage}
    (h : phase.afterStage a = some phase') : ¬ phase'.HasRead := by
  unfold Phase.afterStage at h
  split at h <;> cases h
  · exact id
  · exact fun hread => hread rfl
  · exact id
  · exact id
  · exact id
  · exact id

omit [Text.UnicodeTables] [Numbers.Rounding] in
theorem not_hasRead_begin (l : Loop) : ¬ (Phase.begin l).HasRead := by
  cases l with
  | wftdaSync => exact id
  | driveIndex => exact id

variable {s s' : System} {w : Worker} {l : Loop}

/-- One loop moves, and the other keeps its part of the invariant. -/
theorem inv_setWorker (h : Inv s) (hown : WorkerInv db v n w)
    (hother : ∀ w', WorkerInv s.db s.version s.newestWriter w' → WorkerInv db v n w')
    (hchanged : ∃ l', v ≤ (setWorker s.worker l w l').lastChange) :
    Inv { db, version := v, newestWriter := n, worker := setWorker s.worker l w } where
  workers l' := by
    dsimp only [setWorker]
    split_ifs
    · exact hown
    · exact hother _ (h.workers l')
  changed := hchanged

omit [Text.UnicodeTables] [Numbers.Rounding] in
/-- A loop that has not changed the content leaves the last change where it was. -/
theorem changed_setWorker {worker : Loop → Worker} (h : ∃ l', v ≤ (worker l').lastChange)
    (hw : w.lastChange = (worker l).lastChange) :
    ∃ l', v ≤ (setWorker worker l w l').lastChange := by
  obtain ⟨l', hle⟩ := h
  refine ⟨l', ?_⟩
  unfold setWorker
  split_ifs with hl
  · rw [hw, ← hl]
    exact hle
  · exact hle

/-- After a change of the content no pass is up to date. -/
theorem WorkerInv.change (h : WorkerInv db v n w) (db' : Db) : WorkerInv db' (v + 1) n w where
  startedAt_le := h.startedAt_le.trans (Nat.le_succ v)
  lastChange_le := h.lastChange_le.trans (Nat.le_succ v)
  read := h.read
  fresh _ hv := by
    have hle := h.startedAt_le
    omega

theorem inv_stage (h : Inv s) {a : Stage} (hstep : step s (.stage l a) = some s') : Inv s' := by
  obtain ⟨phase, hphase, hstep⟩ := Option.bind_eq_some_iff.mp hstep
  obtain ⟨-, -, hdone⟩ := Option.bind_eq_some_iff.mp hstep
  dsimp only at hdone
  have hread := not_hasRead_afterStage hphase
  have hworker := h.workers l
  split_ifs at hdone with hcontent
  · cases hdone
    refine inv_setWorker h
      (workerInv_of_not_hasRead hworker.startedAt_le hworker.lastChange_le hread) ?_
      (changed_setWorker h.changed rfl)
    intro w' hw'
    refine hw'.frame hcontent fun remaining hsettled => hsettled.frame hcontent ?_
    intro f r hr hrow
    rw [← resolutionOf_of_contentOf hcontent] at hr
    obtain ⟨row, hbook, -⟩ := Option.map_eq_some_iff.mp hr
    exact hrow.of_get?_eq (Stage.gameMatches_exec a hbook)
  · cases hdone
    refine inv_setWorker h ?_ (fun w' hw' => hw'.change _) ⟨l, ?_⟩
    · exact workerInv_of_not_hasRead (hworker.startedAt_le.trans (Nat.le_succ _)) le_rfl hread
    · simp [setWorker]

theorem inv_next (h : Inv s) (hstep : step s (.next l) = some s') : Inv s' := by
  obtain ⟨phase, hphase, hdone⟩ := Option.bind_eq_some_iff.mp hstep
  cases hdone
  have hworker := h.workers l
  refine inv_setWorker h ?_ (fun _ => id) (changed_setWorker h.changed rfl)
  have hidle : ∀ phase : Phase, ¬ phase.HasRead →
      WorkerInv s.db s.version s.newestWriter { s.worker l with phase } := by
    intro phase hread
    exact workerInv_of_not_hasRead hworker.startedAt_le hworker.lastChange_le hread
  generalize hold : (s.worker l).phase = old at hphase
  unfold Phase.next at hphase
  split at hphase <;> cases hphase
  · exact hidle _ fun hread => hread rfl
  · have hread : (s.worker l).phase.HasRead := by
      rw [hold]
      exact fun heq => by cases heq
    refine ⟨hworker.startedAt_le, hworker.lastChange_le, fun _ => hworker.read hread, ?_⟩
    intro _ hv
    have hfresh := hworker.fresh hread hv
    rwa [hold] at hfresh
  · exact hidle _ (not_hasRead_begin l)
  · exact hidle _ (not_hasRead_begin l)

/-- A loop goes on with its pass. -/
theorem WorkerInv.pass {p : Pass} {indexed : Bool} (h : WorkerInv db v n w)
    (hphase : w.phase = .resolve p indexed) (hp : p ≠ .selectTeams) {p' : Pass}
    (hfresh : w.startedAt = v → FreshPass db v n p → FreshPass db' v n' p') :
    WorkerInv db' v n' { w with phase := .resolve p' indexed } := by
  have hread : w.phase.HasRead := by
    rw [hphase]
    exact hp
  refine ⟨h.startedAt_le, h.lastChange_le, fun _ => h.read hread, ?_⟩
  intro _ hv
  have hold := h.fresh hread hv
  rw [hphase] at hold
  exact hfresh hv hold

/-- A batch of a pass that has read the present content settles its files; an older pass
writes only while no present one has. -/
theorem inv_write (h : Inv s) {batch : List (String × Resolution)}
    {rest : List (List (String × Resolution))} {indexed : Bool}
    (hphase : (s.worker l).phase = .resolve (.writing batch rest) indexed)
    (htime : InTime s (.pass l)) (hwrite : writeMatches s.db batch = some db) :
    Inv { s with
      db
      newestWriter := max s.newestWriter (s.worker l).startedAt
      worker := setWorker s.worker l { s.worker l with
        phase := .resolve (Pass.ofBatches rest) indexed } } := by
  have hworker := h.workers l
  have hcontent := contentOf_of_sameContent (sameContent_writeMatches hwrite)
  by_cases hv : (s.worker l).startedAt = s.version
  · -- the pass has read the present content
    have hfresh : FreshPass s.db s.version s.newestWriter (.writing batch rest) := by
      have hphaseFresh := hworker.fresh (by rw [hphase]; exact fun heq => by cases heq) hv
      rwa [hphase] at hphaseFresh
    have hbatch : ∀ w ∈ batch, resolutionOf s.db w.1 = some w.2 := fun w hw =>
      hfresh.1 w (List.mem_append_left _ hw)
    refine inv_setWorker h ?_ ?_ (changed_setWorker h.changed rfl)
    · refine hworker.pass hphase (by simp) fun _ _ => ?_
      rw [hv]
      apply freshPass_ofBatches
      · intro w hw
        rw [resolutionOf_of_contentOf hcontent]
        exact hfresh.1 w (List.mem_append_right _ hw)
      · exact hfresh.2.write hbatch hwrite
    · intro w' hw'
      rw [hv]
      exact hw'.frame hcontent fun remaining hsettled =>
        (hsettled.append_left batch).write hbatch hwrite
  · -- an older pass: the condition says that no present one has written yet
    have hle : s.newestWriter ≤ (s.worker l).startedAt := htime (by rw [hphase]; rfl)
    have hstarted := hworker.startedAt_le
    refine inv_setWorker h ?_ ?_ (changed_setWorker h.changed rfl)
    · exact hworker.pass hphase (by simp) fun hpresent => absurd hpresent hv
    · intro w' hw'
      exact hw'.frame hcontent fun remaining hsettled =>
        hsettled.write_stale (by omega) hcontent

theorem inv_pass (h : Inv s) (htime : InTime s (.pass l)) (hstep : step s (.pass l) = some s') :
    Inv s' := by
  have hworker := h.workers l
  simp only [step, Option.bind_eq_bind] at hstep
  split at hstep
  swap
  · cases hstep
  rename_i p indexed hphase
  obtain ⟨⟨db', p'⟩, hpass, hdone⟩ := Option.bind_eq_some_iff.mp hstep
  cases hdone
  cases p with
  | selectTeams =>
      cases hpass
      refine inv_setWorker h ?_ (fun _ => id) (changed_setWorker h.changed rfl)
      exact ⟨le_rfl, hworker.lastChange_le, fun _ => hworker.lastChange_le, fun _ _ => rfl⟩
  | selectGames teams =>
      cases hpass
      refine inv_setWorker h ?_ (fun _ => id) (changed_setWorker h.changed rfl)
      exact hworker.pass hphase (by simp) fun _ hteams => ⟨hteams, rfl⟩
  | selectBooks teams games =>
      cases hpass
      refine inv_setWorker h ?_ (fun _ => id) (changed_setWorker h.changed rfl)
      refine hworker.pass hphase (by simp) fun _ hread => ?_
      obtain ⟨rfl, rfl⟩ := hread
      exact freshPass_read s.db _ _
  | writing batch rest =>
      obtain ⟨db₁, hwrite, heq⟩ := Option.map_eq_some_iff.mp hpass
      cases heq
      exact inv_write h hphase htime hwrite
  | dedupSelect =>
      cases hpass
      refine inv_setWorker h ?_ (fun _ => id) (changed_setWorker h.changed rfl)
      exact hworker.pass hphase (by simp) fun _ => freshPass_ofLosers
  | dedupUpdate losers =>
      cases hpass
      have hcontent := contentOf_of_sameContent (@sameContent_hideLosers s.db losers)
      have hsettled : ∀ remaining, Settled s.db s.version s.newestWriter remaining →
          Settled (hideLosers s.db losers) s.version s.newestWriter remaining :=
        fun remaining hs => hs.frame hcontent fun f r _ hrow => hrow.hideLosers losers
      refine inv_setWorker h ?_ (fun w' hw' => hw'.frame hcontent hsettled)
        (changed_setWorker h.changed rfl)
      exact hworker.pass hphase (by simp) fun _ => hsettled []
  | finished => cases hpass

/-! ## Every run -/

/-- Every step that comes in time keeps the invariant. -/
theorem inv_step (s : System) (a : Label) (s' : System) (h : Inv s) (htime : InTime s a)
    (hstep : step s a = some s') : Inv s' := by
  cases a with
  | stage l a => exact inv_stage h hstep
  | pass l => exact inv_pass h htime hstep
  | next l => exact inv_next h hstep

/-- When both loops sleep, every file is settled with nothing left to write. -/
theorem upToDate_of_inv (h : Inv s) (hasleep : BothAsleep s) : UpToDate s.db := by
  obtain ⟨l, hle⟩ := h.changed
  have hworker := h.workers l
  have hread : (s.worker l).phase.HasRead := by
    rw [hasleep l]
    trivial
  have hstarted := hworker.read hread
  have hbound := hworker.startedAt_le
  have hsettled := hworker.fresh hread (by omega)
  rw [hasleep l] at hsettled
  intro f r hr
  rcases hsettled f r hr with hmem | ⟨hrow, -⟩
  · cases hmem
  · exact hrow

/-- In every run whose batches all come in time, the matches are up to date whenever both
loops sleep. -/
theorem upToDate_of_inTime {db : Db} {labels : List Label}
    (htime : EveryStep step InTime (start db) labels)
    (hrun : run step (start db) labels = some s) (hasleep : BothAsleep s) : UpToDate s.db :=
  upToDate_of_inv (run_invariant_of_everyStep inv_step (inv_start db) htime hrun) hasleep

end Settled

section Example

attribute [local instance] Text.asciiTables Numbers.f64

/-- The first cycle of the WFTDA loop finds the teams and no games. -/
def firstSync : List Label :=
  [.stage .wftdaSync (.syncTeams alphaBetaApiTeams []), .stage .wftdaSync (.syncGames []),
    .pass .wftdaSync, .pass .wftdaSync, .pass .wftdaSync, .pass .wftdaSync, .next .wftdaSync]

/-- The Drive loop starts, lists one file, parses it and begins its pass. -/
def indexAndRead : List Label :=
  [.next .driveIndex, .pass .driveIndex, .pass .driveIndex, .pass .driveIndex,
    .pass .driveIndex, .next .driveIndex,
    .stage .driveIndex (.upsertStatsbook 1 "f" "f.xlsx" none none 20),
    .stage .driveIndex (.markRemoved 1),
    .stage .driveIndex (.storeParsedGame "f" (bareGame 100 95) (some 19400)),
    .next .driveIndex, .pass .driveIndex, .pass .driveIndex, .pass .driveIndex]

/-- The pass of the Drive loop writes its batch and ends, and the loop sleeps. -/
def writeAndSleep : List Label :=
  [.pass .driveIndex, .pass .driveIndex, .next .driveIndex]

/-- The next cycle of the WFTDA loop finds the game of the file. -/
def secondSync : List Label :=
  [.next .wftdaSync, .stage .wftdaSync (.syncTeams alphaBetaApiTeams []),
    .stage .wftdaSync (.syncGames alphaBetaApiResults), .pass .wftdaSync, .pass .wftdaSync,
    .pass .wftdaSync, .pass .wftdaSync, .pass .wftdaSync, .next .wftdaSync]

/-- The whole second cycle falls between the reads and the batch of the Drive loop. -/
def overtaken : List Label :=
  firstSync ++ indexAndRead ++ secondSync ++ writeAndSleep

/-- The second cycle follows when the Drive loop sleeps. -/
def inTurn : List Label :=
  firstSync ++ indexAndRead ++ writeAndSleep ++ secondSync

/-- The state after a run from the fresh database. -/
def stateAfter (labels : List Label) : System :=
  (run step (start Db.empty) labels).getD (start Db.empty)

theorem run_stateAfter {labels : List Label}
    (h : (run step (start Db.empty) labels).isSome = true) :
    run step (start Db.empty) labels = some (stateAfter labels) :=
  run_eq_some_getD h _

/-- The batch of the older pass takes away the game that the newer one has linked. -/
theorem not_upToDate_of_run :
    ¬ ∀ labels s, run step (start Db.empty) labels = some s → BothAsleep s → UpToDate s.db := by
  intro hall
  have hasleep : BothAsleep (stateAfter overtaken) := by
    intro l
    cases l <;> decide +kernel
  have hupToDate := hall overtaken _ (run_stateAfter (by decide +kernel)) hasleep
  have hgame : (resolutionOf (stateAfter overtaken).db "f").map Resolution.wftdaGameId =
      some (some 10) := by
    decide +kernel
  have hstored : ((stateAfter overtaken).db.gameMatches.get? "f").map
      (fun row => (row.wftdaGameId, row.method)) = some (none, .resolved .none) := by
    decide +kernel
  obtain ⟨r, hr, hgame⟩ := Option.map_eq_some_iff.mp hgame
  obtain ⟨row, hrow, hcases⟩ := hupToDate "f" r hr
  rw [hrow] at hstored
  rcases hcases with rfl | rfl
  · simp [matchRow, hgame] at hstored
  · simp [hiddenRow] at hstored

theorem upToDate_inTurn :
    UpToDate (stateAfter inTurn).db ∧
      (stateAfter inTurn).db.matchedGame "f" = some 10 := by
  have hasleep : BothAsleep (stateAfter inTurn) := by
    intro l
    cases l <;> decide +kernel
  exact ⟨upToDate_of_inTime (by decide +kernel) (run_stateAfter (by decide +kernel)) hasleep,
    by decide +kernel⟩

end Example

end Loops
end Statskboo
