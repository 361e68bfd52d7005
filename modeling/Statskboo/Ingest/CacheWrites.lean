import Statskboo.Ingest.DataCache

/-!
# Concurrent writes to the cache directory

A write to the cache goes through a temporary file: it takes a number from the counter of the
process, writes a file whose name holds the number, and renames it to the cache file.  Any number
of writes in one process take their steps in any order.  A step may fail, an interrupted
{lit}`fs::write` leaves a prefix of the bytes, and the process may stop after any step.

The counter is an unsigned 64-bit integer and comes round, so the names are distinct only up to
that many writes.

Main results:

- Theorem {lit}`step_refines`: a step shows at the cache files as nothing, or as the whole write
  of the single-step model of the cache.
- Theorem {lit}`atomic_of_run`: up to {lit}`2 ^ 64` numbers, writes are atomic in every run.
- Theorem {lit}`not_writesAtomic`: one number more, and two writes that share a temporary file
  leave a torn entry.
-/

namespace Statskboo
namespace CacheWrites

open DataCache KeyedTable Transition

/-! ## Writers -/

/-- The name of a temporary file. -/
def tmpName (pid : Nat) (driveFileId : String) (number : Nat) : String :=
  "." ++ driveFileId ++ "." ++ toString pid ++ "." ++ toString number ++ ".tmp"

/-- How far a write has come, with the number that it took from the counter. -/
inductive Phase where
  | starting
  | refused
  | named (number : Nat)
  | writing (number written : Nat)
  | complete (number : Nat)
  | cleaning (number : Nat)
  | failed (number : Nat) (removed : Bool)
  | succeeded (number : Nat)
deriving DecidableEq, Repr

/-- The number that a write has taken. -/
def Phase.number : Phase → Option Nat
  | .starting | .refused => none
  | .named n | .writing n _ | .complete n | .cleaning n | .failed n _ | .succeeded n => some n

/-- One call to write a file of the cache. -/
structure Writer where
  driveFileId : String
  bytes : Bytes
  phase : Phase
deriving DecidableEq, Repr

/-- The temporary file of a write, once it has a number. -/
def Writer.tmp (pid : Nat) (w : Writer) : Option String :=
  w.phase.number.map (tmpName pid w.driveFileId)

/-- The next step of a write.  Opening or writing a file sets its time, and an I/O step may
fail. -/
inductive Action where
  | refuse
  | takeNumber
  | create (now : Int)
  | write (written : Nat) (now : Int)
  | finish
  | rename
  | fail
  | removeTmp (removed : Bool)
deriving DecidableEq, Repr

/-- The value of the counter when so many numbers were taken from it. -/
def tempCounter (taken : Nat) : Nat :=
  taken % 2 ^ 64

/-- One step of a write: the directory, the numbers taken, and the phase afterwards. -/
def writerStep (pid : Nat) (dir : Dir) (taken : Nat) (w : Writer) (a : Action) :
    Option (Dir × Nat × Phase) :=
  match w.phase, a with
  -- The id is unsafe, or the directory cannot be created.
  | .starting, .refuse => some (dir, taken, .refused)
  | .starting, .takeNumber =>
      if isSafeFileId w.driveFileId then some (dir, taken + 1, .named (tempCounter taken)) else none
  | .named n, .create now =>
      some (dir.upsert (tmpName pid w.driveFileId n) { bytes := [], mtime := now }, taken,
        .writing n 0)
  | .writing n k, .write k' now =>
      if k < k' ∧ k' ≤ w.bytes.length then
        some (dir.upsert (tmpName pid w.driveFileId n) { bytes := w.bytes.take k', mtime := now },
          taken, .writing n k')
      else none
  | .writing n k, .finish => if k = w.bytes.length then some (dir, taken, .complete n) else none
  | .complete n, .rename => do
      let path ← cachePath w.driveFileId
      let file ← dir.get? (tmpName pid w.driveFileId n)
      return ((dir.erase (tmpName pid w.driveFileId n)).upsert path file, taken, .succeeded n)
  | .named n, .fail => some (dir, taken, .cleaning n)
  | .writing n _, .fail => some (dir, taken, .cleaning n)
  | .complete n, .fail => some (dir, taken, .cleaning n)
  | .cleaning n, .removeTmp removed =>
      some (if removed then dir.erase (tmpName pid w.driveFileId n) else dir, taken,
        .failed n removed)
  | _, _ => none

/-! ## The process -/

/-- The cache directory, how many numbers were taken, and the writes of the process. -/
structure System where
  dir : Dir
  taken : Nat
  writers : List Writer

/-- A write is called, or one of the writes takes a step. -/
inductive Label where
  | call (driveFileId : String) (bytes : Bytes)
  | act (i : Nat) (a : Action)
deriving DecidableEq, Repr

/-- A process starts with what earlier ones left in the directory. -/
def start (init : Dir) : System where
  dir := init
  taken := 0
  writers := []

/-- One step of the process. -/
def step (pid : Nat) (s : System) : Label → Option System
  | .call f bytes =>
      some { s with writers := s.writers ++ [{ driveFileId := f, bytes, phase := .starting }] }
  | .act i a => do
      let w ← s.writers[i]?
      let (dir, taken, phase) ← writerStep pid s.dir s.taken w a
      return { dir, taken, writers := s.writers.set i { w with phase } }

/-- What atomic writes promise of the state of a process. -/
structure Atomic (pid : Nat) (init : Dir) (s : System) : Prop where
  entries : ∀ f, readCached s.dir f = readCached init f ∨
    ∃ w ∈ s.writers, w.driveFileId = f ∧ readCached s.dir f = some w.bytes
  ownTmp : ∀ (i j : Nat) (v w : Writer) (name : String), s.writers[i]? = some v →
    s.writers[j]? = some w → v.tmp pid = some name → w.tmp pid = some name → i = j
  noCacheFile : ∀ w ∈ s.writers, ∀ name, w.tmp pid = some name → ∀ f, cachePath f ≠ some name
  cleanedUp : ∀ w ∈ s.writers, ∀ n, w.phase = .failed n true →
    s.dir.get? (tmpName pid w.driveFileId n) = none

/-- Writes are atomic in every state that a process can reach, and can be stopped in. -/
def WritesAtomic : Prop :=
  ∀ pid init labels s, run (step pid) (start init) labels = some s → Atomic pid init s

/-! ## Temporary names -/

theorem toList_tmpName (pid : Nat) (f : String) (n : Nat) :
    (tmpName pid f n).toList =
      (('.' :: f.toList ++ '.' :: Nat.toDigits 10 pid) ++ '.' :: Nat.toDigits 10 n) ++
        ".tmp".toList := by
  simp [tmpName, Nat.toList_repr, String.toList_append]

/-- What follows the last dot of a name. -/
theorem takeWhile_reverse_of_dot {l ds : List Char} (hds : '.' ∉ ds) :
    (l ++ '.' :: ds).reverse.takeWhile (fun c => decide (c ≠ '.')) = ds.reverse := by
  have hall : ∀ c ∈ ds.reverse, decide (c ≠ '.') = true := by
    intro c hc
    have hmem : c ∈ ds := List.mem_reverse.mp hc
    simp only [decide_eq_true_eq]
    rintro rfl
    exact hds hmem
  rw [List.reverse_append, List.reverse_cons, List.append_assoc,
    List.takeWhile_append_of_pos hall]
  simp

theorem dot_notMem_toDigits (n : Nat) : '.' ∉ Nat.toDigits 10 n := by
  intro hmem
  have hdigit := Nat.isDigit_of_mem_toDigits (b := 10) (by decide) (by decide) hmem
  exact absurd hdigit (by decide)

/-- Writes with different numbers have different temporary files, whatever their ids. -/
theorem number_of_tmpName_eq {pid n n' : Nat} {f f' : String}
    (h : tmpName pid f n = tmpName pid f' n') : n = n' := by
  have hlist := congrArg String.toList h
  rw [toList_tmpName, toList_tmpName] at hlist
  have hstem := List.append_cancel_right hlist
  have hlast := congrArg (fun l => l.reverse.takeWhile fun c => decide (c ≠ '.')) hstem
  rw [takeWhile_reverse_of_dot (dot_notMem_toDigits n),
    takeWhile_reverse_of_dot (dot_notMem_toDigits n')] at hlast
  have hdigits : Nat.toDigits 10 n = Nat.toDigits 10 n' := List.reverse_injective hlast
  rw [← Nat.ofDigitChars_ten_toDigits (n := n), hdigits, Nat.ofDigitChars_ten_toDigits]

/-- Writers with one temporary file have one number. -/
theorem number_of_tmp_eq {pid : Nat} {v w : Writer} {name : String} (hv : v.tmp pid = some name)
    (hw : w.tmp pid = some name) : ∃ n, v.phase.number = some n ∧ w.phase.number = some n := by
  obtain ⟨n, hn, hname⟩ := Option.map_eq_some_iff.mp hv
  obtain ⟨n', hn', hname'⟩ := Option.map_eq_some_iff.mp hw
  have heq : n = n' := number_of_tmpName_eq (hname.trans hname'.symm)
  exact ⟨n, hn, heq ▸ hn'⟩

/-- A temporary file is no cache file. -/
theorem cachePath_ne_tmpName (f f' : String) (pid n : Nat) :
    cachePath f ≠ some (tmpName pid f' n) := by
  intro h
  unfold cachePath at h
  split_ifs at h
  have hlist := congrArg String.toList (Option.some.inj h)
  rw [toList_tmpName, String.toList_append] at hlist
  have hlast := congrArg List.getLast? hlist
  rw [List.getLast?_append, List.getLast?_append] at hlast
  simp at hlast

/-! ## One step -/

/-- What the temporary file of a write holds. -/
def TmpHolds (pid : Nat) (dir : Dir) (w : Writer) : Prop :=
  match w.phase with
  | .writing n k =>
      ∃ file, dir.get? (tmpName pid w.driveFileId n) = some file ∧ file.bytes = w.bytes.take k
  | .complete n =>
      ∃ file, dir.get? (tmpName pid w.driveFileId n) = some file ∧ file.bytes = w.bytes
  | .failed n true => dir.get? (tmpName pid w.driveFileId n) = none
  | _ => True

/-- Two directories have the same files up to one name. -/
def SameExcept (dir dir' : Dir) (tmp : Option String) : Prop :=
  ∀ name, tmp ≠ some name → dir'.get? name = dir.get? name

/-- What a step does: the writer may take the next number, and when its temporary file held what it
should, it still does, and up to that file nothing happens or the whole write does. -/
structure StepSpec (pid : Nat) (dir : Dir) (taken : Nat) (w : Writer) (dir' : Dir) (taken' : Nat)
    (w' : Writer) : Prop where
  number : w'.phase.number = w.phase.number ∧ taken' = taken ∨
    w.phase.number = none ∧ w'.phase.number = some (tempCounter taken) ∧ taken' = taken + 1
  holds : TmpHolds pid dir w → TmpHolds pid dir' w'
  effect : TmpHolds pid dir w → SameExcept dir dir' (w'.tmp pid) ∨
    ∃ now dir'', writeCached dir now w.driveFileId w.bytes = some dir'' ∧
      SameExcept dir'' dir' (w'.tmp pid)

section WriterStep

variable {pid taken taken' : Nat} {dir dir' : Dir} {w : Writer} {a : Action} {phase : Phase}

theorem sameExcept_refl (dir : Dir) (tmp : Option String) : SameExcept dir dir tmp :=
  fun _ _ => rfl

theorem sameExcept_upsert (dir : Dir) (name : String) (file : CacheFile) :
    SameExcept dir (dir.upsert name file) (some name) := by
  intro name' hne
  apply Table.get?_upsert_of_ne
  rintro rfl
  exact hne rfl

theorem sameExcept_erase (dir : Dir) (name : String) :
    SameExcept dir (dir.erase name) (some name) := by
  intro name' hne
  rw [Table.get?_erase, if_neg]
  rintro rfl
  exact hne rfl

/-- A step that leaves the directory alone. -/
theorem spec_of_unchanged (hnumber : phase.number = w.phase.number)
    (hholds : TmpHolds pid dir w → TmpHolds pid dir { w with phase }) :
    StepSpec pid dir taken w dir taken { w with phase } :=
  ⟨Or.inl ⟨hnumber, rfl⟩, hholds, fun _ => Or.inl (sameExcept_refl _ _)⟩

/-- A step that writes the temporary file. -/
theorem spec_of_upsert {file : CacheFile} {name : String} (hnumber : phase.number = w.phase.number)
    (htmp : Writer.tmp pid { w with phase } = some name)
    (hholds : TmpHolds pid (dir.upsert name file) { w with phase }) :
    StepSpec pid dir taken w (dir.upsert name file) taken { w with phase } := by
  refine ⟨Or.inl ⟨hnumber, rfl⟩, fun _ => hholds, fun _ => Or.inl ?_⟩
  rw [htmp]
  exact sameExcept_upsert _ _ _

/-- A rename moves the whole bytes to the cache file. -/
theorem spec_rename {n : Nat} (hphase : w.phase = .complete n)
    (h : writerStep pid dir taken w .rename = some (dir', taken', phase)) :
    StepSpec pid dir taken w dir' taken' { w with phase } := by
  obtain ⟨f, bytes, phase₀⟩ := w
  cases hphase
  obtain ⟨path, hpath, hrest⟩ := Option.bind_eq_some_iff.mp h
  obtain ⟨file, hfile, hdone⟩ := Option.bind_eq_some_iff.mp hrest
  cases hdone
  refine ⟨Or.inl ⟨rfl, rfl⟩, fun _ => trivial, ?_⟩
  rintro ⟨file', hfile', hbytes⟩
  have hsame : file' = file := Option.some.inj (hfile'.symm.trans hfile)
  subst hsame
  dsimp only at hbytes
  refine Or.inr ⟨file'.mtime, dir.upsert path file', ?_, ?_⟩
  · rw [writeCached, hpath, ← hbytes]
    rfl
  · intro name hne
    rw [Table.get?_upsert, Table.get?_upsert]
    split_ifs with hname
    · rfl
    · exact sameExcept_erase dir _ name hne

/-- What a step of a write does. -/
theorem writerStep_spec (h : writerStep pid dir taken w a = some (dir', taken', phase)) :
    StepSpec pid dir taken w dir' taken' { w with phase } := by
  obtain ⟨f, bytes, phase₀⟩ := w
  cases phase₀ with
  | starting =>
      cases a with
      | refuse =>
          cases h
          exact spec_of_unchanged rfl fun _ => trivial
      | takeNumber =>
          unfold writerStep at h
          dsimp only at h
          split_ifs at h
          cases h
          exact ⟨Or.inr ⟨rfl, rfl, rfl⟩, fun _ => trivial, fun _ => Or.inl (sameExcept_refl _ _)⟩
      | _ => cases h
  | named n =>
      cases a with
      | create now =>
          cases h
          exact spec_of_upsert rfl rfl ⟨_, Table.get?_upsert_self _ _ _, rfl⟩
      | fail =>
          cases h
          exact spec_of_unchanged rfl fun _ => trivial
      | _ => cases h
  | writing n k =>
      cases a with
      | write k' now =>
          unfold writerStep at h
          dsimp only at h
          split_ifs at h
          cases h
          exact spec_of_upsert rfl rfl ⟨_, Table.get?_upsert_self _ _ _, rfl⟩
      | finish =>
          unfold writerStep at h
          dsimp only at h
          split_ifs at h with hwhole
          cases h
          refine spec_of_unchanged rfl ?_
          rintro ⟨file, hfile, hbytes⟩
          rw [hwhole, List.take_length] at hbytes
          exact ⟨file, hfile, hbytes⟩
      | fail =>
          cases h
          exact spec_of_unchanged rfl fun _ => trivial
      | _ => cases h
  | complete n =>
      cases a with
      | rename => exact spec_rename rfl h
      | fail =>
          cases h
          exact spec_of_unchanged rfl fun _ => trivial
      | _ => cases h
  | cleaning n =>
      cases a with
      | removeTmp removed =>
          cases h
          cases removed with
          | true =>
              refine ⟨Or.inl ⟨rfl, rfl⟩, fun _ => ?_, fun _ => Or.inl (sameExcept_erase _ _)⟩
              exact (Table.get?_erase _ _ _).trans (if_pos rfl)
          | false => exact spec_of_unchanged rfl fun _ => trivial
      | _ => cases h
  | _ => cases h

end WriterStep

/-! ## What a step shows -/

/-- Two directories have the same cache files. -/
def SameEntries (dir dir' : Dir) : Prop :=
  ∀ f path, cachePath f = some path → dir'.get? path = dir.get? path

section Step

variable {pid : Nat} {init dir dir' : Dir} {s s' : System} {v w : Writer} {l : Label} {i : Nat}
  {a : Action}

theorem readCached_of_sameEntries (h : SameEntries dir dir') (f : String) :
    readCached dir' f = readCached dir f := by
  unfold readCached
  cases hpath : cachePath f with
  | none => rfl
  | some path =>
      simp only [Option.bind_eq_bind, Option.bind_some]
      rw [h f path hpath]

/-- After a write its bytes are read under its own id. -/
theorem readCached_writeCached {now : Int} {f : String} {bytes : Bytes}
    (h : writeCached dir now f bytes = some dir') (f' : String) :
    readCached dir' f' = if f = f' then some bytes else readCached dir f' := by
  obtain ⟨path, hpath, -⟩ := Option.map_eq_some_iff.mp h
  unfold readCached
  cases hpath' : cachePath f' with
  | none =>
      have hne : f ≠ f' := by
        rintro rfl
        cases hpath.symm.trans hpath'
      rw [if_neg hne]
      rfl
  | some path' =>
      simp only [Option.bind_eq_bind, Option.bind_some]
      rw [get?_writeCached h]
      by_cases hf : f = f'
      · subst hf
        rw [if_pos hpath', if_pos rfl]
        rfl
      · rw [if_neg hf, if_neg fun hpath'' => hf (cachePath_injective hpath'' hpath')]

theorem cachePath_ne_of_tmp {name : String} (h : w.tmp pid = some name) (f : String) :
    cachePath f ≠ some name := by
  obtain ⟨n, -, hname⟩ := Option.map_eq_some_iff.mp h
  rw [← hname]
  exact cachePath_ne_tmpName f w.driveFileId pid n

/-- Directories that are the same up to a temporary file have the same cache files. -/
theorem SameExcept.sameEntries (h : SameExcept dir dir' (w.tmp pid)) : SameEntries dir dir' := by
  intro f path hpath
  apply h
  intro htmp
  exact cachePath_ne_of_tmp htmp f hpath

/-- A step of a write changes the directory, the numbers taken, and its own phase. -/
theorem step_act (h : step pid s (.act i a) = some s') :
    ∃ w phase, s.writers[i]? = some w ∧
      writerStep pid s.dir s.taken w a = some (s'.dir, s'.taken, phase) ∧
      s'.writers = s.writers.set i { w with phase } := by
  obtain ⟨w, hw, hrest⟩ := Option.bind_eq_some_iff.mp h
  obtain ⟨⟨dir', taken', phase⟩, hstep, hdone⟩ := Option.bind_eq_some_iff.mp hrest
  cases hdone
  exact ⟨w, phase, hw, hstep, rfl⟩

/-- A step shows at the cache files as nothing, or as the whole write of one of the calls. -/
theorem step_refines (hholds : ∀ w ∈ s.writers, TmpHolds pid s.dir w)
    (h : step pid s l = some s') :
    SameEntries s.dir s'.dir ∨
      ∃ w ∈ s.writers, ∃ now dir, writeCached s.dir now w.driveFileId w.bytes = some dir ∧
        SameEntries dir s'.dir := by
  cases l with
  | call f bytes =>
      cases h
      exact Or.inl fun _ _ _ => rfl
  | act i a =>
      obtain ⟨w, phase, hw, hstep, -⟩ := step_act h
      have hmem : w ∈ s.writers := List.mem_of_getElem? hw
      have heffect := (writerStep_spec hstep).effect (hholds w hmem)
      rcases heffect with hsame | ⟨now, dir, hwrite, hsame⟩
      · exact Or.inl hsame.sameEntries
      · exact Or.inr ⟨w, hmem, now, dir, hwrite, hsame.sameEntries⟩

end Step

/-! ## Every run -/

/-- Numbers are those already taken and not shared, temporary files hold what they should, and
every entry was there at the start or is the whole write of a call. -/
structure Inv (pid : Nat) (init : Dir) (s : System) : Prop where
  numbers : ∀ (i : Nat) (w : Writer) (n : Nat), s.writers[i]? = some w →
    w.phase.number = some n → n < s.taken
  distinct : ∀ (i j : Nat) (v w : Writer) (n : Nat), s.writers[i]? = some v →
    s.writers[j]? = some w → v.phase.number = some n → w.phase.number = some n → i = j
  holds : ∀ (i : Nat) (w : Writer), s.writers[i]? = some w → TmpHolds pid s.dir w
  entries : ∀ f, readCached s.dir f = readCached init f ∨
    ∃ w ∈ s.writers, w.driveFileId = f ∧ readCached s.dir f = some w.bytes

section Run

variable {pid : Nat} {init dir dir' : Dir} {s s' : System} {v w : Writer} {l : Label} {i j : Nat}
  {a : Action}

theorem inv_start (pid : Nat) (init : Dir) : Inv pid init (start init) where
  numbers i w n hw := by cases hw
  distinct i j v w n hv := by cases hv
  holds i w hw := by cases hw
  entries f := Or.inl rfl

/-- A temporary file that is left alone holds what it held. -/
theorem tmpHolds_congr (hsame : ∀ name, w.tmp pid = some name → dir'.get? name = dir.get? name)
    (h : TmpHolds pid dir w) : TmpHolds pid dir' w := by
  obtain ⟨f, bytes, phase⟩ := w
  cases phase with
  | writing n k =>
      have hname := hsame (tmpName pid f n) rfl
      unfold TmpHolds at h ⊢
      dsimp only at h ⊢
      rwa [hname]
  | complete n =>
      have hname := hsame (tmpName pid f n) rfl
      unfold TmpHolds at h ⊢
      dsimp only at h ⊢
      rwa [hname]
  | failed n removed =>
      cases removed with
      | true => exact (hsame (tmpName pid f n) rfl).trans h
      | false => trivial
  | _ => trivial

/-- A step of a write leaves the temporary files of the others alone. -/
theorem get?_tmp_of_stepSpec {taken taken' : Nat} {w' : Writer} {name : String}
    (h : StepSpec pid dir taken w dir' taken' w') (hholds : TmpHolds pid dir w)
    (hv : v.tmp pid = some name) (hother : w'.tmp pid ≠ some name) :
    dir'.get? name = dir.get? name := by
  rcases h.effect hholds with hsame | ⟨now, dir'', hwrite, hsame⟩
  · exact hsame name hother
  · rw [hsame name hother, get?_writeCached hwrite, if_neg (cachePath_ne_of_tmp hv w.driveFileId)]

/-- Who stands at a place after one writer has changed. -/
theorem eq_or_of_getElem?_set {ws : List Writer} {w' : Writer}
    (h : (ws.set i w')[j]? = some v) : i = j ∧ v = w' ∨ i ≠ j ∧ ws[j]? = some v := by
  rw [List.getElem?_set] at h
  split_ifs at h with hij hlt
  · exact Or.inl ⟨hij, (Option.some.inj h).symm⟩
  · exact Or.inr ⟨hij, h⟩

/-- The number of a writer after its step was its number before, or is the next one. -/
theorem number_of_stepSpec {taken taken' n : Nat} {w' : Writer}
    (h : StepSpec pid dir taken w dir' taken' w') (htaken : taken' ≤ 2 ^ 64)
    (hn : w'.phase.number = some n) :
    w.phase.number = some n ∧ taken' = taken ∨ n = taken ∧ taken' = taken + 1 := by
  rcases h.number with ⟨hsame, heq⟩ | ⟨-, hnew, hsucc⟩
  · exact Or.inl ⟨hsame ▸ hn, heq⟩
  · have hlt : taken < 2 ^ 64 := by omega
    have hvalue : tempCounter taken = n := Option.some.inj (hnew.symm.trans hn)
    rw [tempCounter, Nat.mod_eq_of_lt hlt] at hvalue
    exact Or.inr ⟨hvalue.symm, hsucc⟩

theorem taken_le_of_stepSpec {taken taken' : Nat} {w' : Writer}
    (h : StepSpec pid dir taken w dir' taken' w') : taken ≤ taken' := by
  rcases h.number with ⟨-, heq⟩ | ⟨-, -, hsucc⟩
  · exact heq.ge
  · omega

/-- Later steps take no number back. -/
theorem taken_le_step (hstep : step pid s l = some s') : s.taken ≤ s'.taken := by
  cases l with
  | call f bytes =>
      cases hstep
      exact le_rfl
  | act i a =>
      obtain ⟨w, phase, hw, hwriter, -⟩ := step_act hstep
      exact taken_le_of_stepSpec (writerStep_spec hwriter)

theorem entries_step (h : Inv pid init s) (hstep : step pid s l = some s')
    (hcalls : ∀ w ∈ s.writers, ∃ w' ∈ s'.writers,
      w'.driveFileId = w.driveFileId ∧ w'.bytes = w.bytes) (f : String) :
    readCached s'.dir f = readCached init f ∨
      ∃ w ∈ s'.writers, w.driveFileId = f ∧ readCached s'.dir f = some w.bytes := by
  have hold : readCached s.dir f = readCached init f ∨
      ∃ w ∈ s'.writers, w.driveFileId = f ∧ readCached s.dir f = some w.bytes := by
    rcases h.entries f with hinit | ⟨w, hw, hid, hread⟩
    · exact Or.inl hinit
    · obtain ⟨w', hw', hid', hbytes'⟩ := hcalls w hw
      exact Or.inr ⟨w', hw', hid'.trans hid, hbytes' ▸ hread⟩
  have hholds : ∀ w ∈ s.writers, TmpHolds pid s.dir w := by
    intro w hw
    obtain ⟨i, hi⟩ := List.mem_iff_getElem?.mp hw
    exact h.holds i w hi
  rcases step_refines hholds hstep with hsame | ⟨w, hw, now, dir, hwrite, hsame⟩
  · rwa [readCached_of_sameEntries hsame]
  · rw [readCached_of_sameEntries hsame, readCached_writeCached hwrite]
    split_ifs with hf
    · obtain ⟨w', hw', hid', hbytes'⟩ := hcalls w hw
      exact Or.inr ⟨w', hw', hid'.trans hf, congrArg some hbytes'.symm⟩
    · exact hold

/-- A call starts a write that has no number and no file. -/
theorem inv_call {f : String} {bytes : Bytes} (h : Inv pid init s)
    (hstep : step pid s (.call f bytes) = some s') : Inv pid init s' := by
  have hcalls : ∀ w ∈ s.writers, ∃ w' ∈ s'.writers,
      w'.driveFileId = w.driveFileId ∧ w'.bytes = w.bytes := by
    intro w hw
    cases hstep
    exact ⟨w, List.mem_append_left _ hw, rfl, rfl⟩
  have hentries := entries_step h hstep hcalls
  cases hstep
  have hplace : ∀ (j : Nat) (v : Writer),
      (s.writers ++ [{ driveFileId := f, bytes, phase := .starting }])[j]? = some v →
        s.writers[j]? = some v ∨ v.phase = .starting := by
    intro j v hv
    rw [List.getElem?_append] at hv
    split_ifs at hv
    · exact Or.inl hv
    · have hmem := List.mem_of_getElem? hv
      rw [List.mem_singleton.mp hmem]
      exact Or.inr rfl
  refine ⟨?_, ?_, ?_, hentries⟩
  · intro j v n hv hn
    rcases hplace j v hv with hold | hnew
    · exact h.numbers j v n hold hn
    · rw [hnew] at hn
      cases hn
  · intro j k v v' n hv hv' hn hn'
    rcases hplace j v hv with hold | hnew
    · rcases hplace k v' hv' with hold' | hnew'
      · exact h.distinct j k v v' n hold hold' hn hn'
      · rw [hnew'] at hn'
        cases hn'
    · rw [hnew] at hn
      cases hn
  · intro j v hv
    rcases hplace j v hv with hold | hnew
    · exact h.holds j v hold
    · unfold TmpHolds
      rw [hnew]
      trivial

/-- As long as the counter has not come round, a writer has the number of no other one. -/
theorem number_ne_of_stepSpec {w' : Writer} {n : Nat} (h : Inv pid init s)
    (hw : s.writers[i]? = some w)
    (hspec : StepSpec pid s.dir s.taken w s'.dir s'.taken w') (htaken : s'.taken ≤ 2 ^ 64)
    (hij : i ≠ j) (hv : s.writers[j]? = some v) (hn : v.phase.number = some n) :
    w'.phase.number ≠ some n := by
  intro hn'
  rcases number_of_stepSpec hspec htaken hn' with ⟨hold, -⟩ | ⟨hnew, -⟩
  · exact hij (h.distinct i j w v n hw hv hold hn)
  · exact absurd hnew (h.numbers j v n hv hn).ne

/-- A step of a write changes no call. -/
theorem calls_set {ws : List Writer} {phase : Phase} (hw : ws[i]? = some w) :
    ∀ v ∈ ws, ∃ v' ∈ ws.set i { w with phase },
      v'.driveFileId = v.driveFileId ∧ v'.bytes = v.bytes := by
  intro v hv
  obtain ⟨j, hj⟩ := List.mem_iff_getElem?.mp hv
  by_cases hij : i = j
  · subst hij
    have hvw : v = w := Option.some.inj (hj.symm.trans hw)
    have hlt := (List.getElem?_eq_some_iff.mp hw).1
    exact ⟨_, List.mem_set hlt _, by rw [hvw], by rw [hvw]⟩
  · have hplace : (ws.set i { w with phase })[j]? = some v := by
      rw [List.getElem?_set_ne hij]
      exact hj
    exact ⟨v, List.mem_of_getElem? hplace, rfl, rfl⟩

/-- A step of a write keeps the invariant as long as the counter has not come round. -/
theorem inv_act (h : Inv pid init s) (hstep : step pid s (.act i a) = some s')
    (htaken : s'.taken ≤ 2 ^ 64) : Inv pid init s' := by
  obtain ⟨w, phase, hw, hwriter, hwriters⟩ := step_act hstep
  have hspec := writerStep_spec hwriter
  have hle := taken_le_of_stepSpec hspec
  have hplace : ∀ (j : Nat) (v : Writer), s'.writers[j]? = some v →
      i = j ∧ v = { w with phase } ∨ i ≠ j ∧ s.writers[j]? = some v := by
    intro j v hv
    rw [hwriters] at hv
    exact eq_or_of_getElem?_set hv
  refine ⟨?_, ?_, ?_, ?_⟩
  · intro j v n hv hn
    rcases hplace j v hv with ⟨-, rfl⟩ | ⟨-, hold⟩
    · rcases number_of_stepSpec hspec htaken hn with ⟨hsame, -⟩ | ⟨hnew, hsucc⟩
      · exact (h.numbers i w n hw hsame).trans_le hle
      · omega
    · exact (h.numbers j v n hold hn).trans_le hle
  · intro j k v v' n hv hv' hn hn'
    rcases hplace j v hv with ⟨hij, rfl⟩ | ⟨hij, hold⟩
    · rcases hplace k v' hv' with ⟨hik, -⟩ | ⟨hik, hold'⟩
      · exact hij.symm.trans hik
      · exact absurd hn (number_ne_of_stepSpec h hw hspec htaken hik hold' hn')
    · rcases hplace k v' hv' with ⟨-, rfl⟩ | ⟨-, hold'⟩
      · exact absurd hn' (number_ne_of_stepSpec h hw hspec htaken hij hold hn)
      · exact h.distinct j k v v' n hold hold' hn hn'
  · intro j v hv
    rcases hplace j v hv with ⟨-, rfl⟩ | ⟨hij, hold⟩
    · exact hspec.holds (h.holds i w hw)
    · refine tmpHolds_congr (fun name hname => ?_) (h.holds j v hold)
      apply get?_tmp_of_stepSpec hspec (h.holds i w hw) hname
      intro htmp
      obtain ⟨n, hn, hn'⟩ := number_of_tmp_eq hname htmp
      exact number_ne_of_stepSpec h hw hspec htaken hij hold hn hn'
  · apply entries_step h hstep
    rw [hwriters]
    exact calls_set hw

theorem inv_step (h : Inv pid init s) (hstep : step pid s l = some s')
    (htaken : s'.taken ≤ 2 ^ 64) : Inv pid init s' := by
  cases l with
  | call f bytes => exact inv_call h hstep
  | act i a => exact inv_act h hstep htaken

/-- Up to {lit}`2 ^ 64` numbers, every run keeps the invariant. -/
theorem inv_run {labels : List Label} (hrun : run (step pid) (start init) labels = some s)
    (htaken : s.taken ≤ 2 ^ 64) : Inv pid init s := by
  refine run_invariant (P := fun s => s.taken ≤ 2 ^ 64 → Inv pid init s) ?_
    (fun _ => inv_start pid init) hrun htaken
  intro s l s' h hstep htaken'
  exact inv_step (h ((taken_le_step hstep).trans htaken')) hstep htaken'

theorem atomic_of_inv (h : Inv pid init s) : Atomic pid init s where
  entries := h.entries
  ownTmp i j v w name hv hw htmp htmp' := by
    obtain ⟨n, hn, hn'⟩ := number_of_tmp_eq htmp htmp'
    exact h.distinct i j v w n hv hw hn hn'
  noCacheFile w _ name hname f := cachePath_ne_of_tmp hname f
  cleanedUp w hw n hphase := by
    obtain ⟨i, hi⟩ := List.mem_iff_getElem?.mp hw
    have hholds := h.holds i w hi
    unfold TmpHolds at hholds
    rwa [hphase] at hholds

/-- Writes are atomic in every state that a process reaches before its counter comes round. -/
theorem atomic_of_run {labels : List Label}
    (hrun : run (step pid) (start init) labels = some s) (htaken : s.taken ≤ 2 ^ 64) :
    Atomic pid init s :=
  atomic_of_inv (inv_run hrun htaken)

end Run

/-! ## Runs -/

section Example

/-- A temporary file of an earlier process, and a cached file. -/
def debris : Dir :=
  (Table.empty.upsert ".f.1.0.tmp" { bytes := [80], mtime := 1 }).upsert "f.xlsx"
    { bytes := [80, 75], mtime := 2 }

/-- Two writes of one file take turns; the first is renamed, the second fails and cleans up. -/
def takingTurns : List Label :=
  [.call "f" [80, 75, 3], .call "f" [80, 75, 4], .act 0 .takeNumber, .act 1 .takeNumber,
    .act 0 (.create 10), .act 1 (.create 11), .act 1 (.write 2 12), .act 0 (.write 3 13),
    .act 1 .fail, .act 0 .finish, .act 0 .rename, .act 1 (.removeTmp true)]

/-- The state after the two writes. -/
def afterTurns : System :=
  (run (step 1) (start debris) takingTurns).getD (start debris)

theorem run_takingTurns : run (step 1) (start debris) takingTurns = some afterTurns :=
  run_eq_some_getD (by decide +kernel) _

theorem atomic_takingTurns : Atomic 1 debris afterTurns :=
  atomic_of_run run_takingTurns (by decide +kernel)

example : readCached afterTurns.dir "f" = some [80, 75, 3] := by decide +kernel

/-- So many calls for one file that each take a number. -/
def manyCalls (n : Nat) : List Label :=
  (List.range n).flatMap fun i => [.call "f" [80, 75, 3], .act i .takeNumber]

/-- The call for the file that took the number at a place. -/
def numbered (i : Nat) : Writer where
  driveFileId := "f"
  bytes := [80, 75, 3]
  phase := .named (tempCounter i)

/-- The state after so many calls. -/
def afterManyCalls (init : Dir) (n : Nat) : System where
  dir := init
  taken := n
  writers := (List.range n).map numbered

theorem run_manyCalls (init : Dir) (n : Nat) :
    run (step 1) (start init) (manyCalls n) = some (afterManyCalls init n) := by
  induction n with
  | zero => rfl
  | succ n ih =>
      have hlast : manyCalls (n + 1) =
          manyCalls n ++ [.call "f" [80, 75, 3], .act n .takeNumber] := by
        simp [manyCalls, List.range_succ]
      have hsafe : isSafeFileId "f" = true := by decide
      rw [hlast, run_append, ih, Option.bind_some]
      simp [run_cons, step, writerStep, hsafe, afterManyCalls, List.range_succ, numbered]

/-- The first write is complete when a second one creates the same temporary file anew, and is
renamed then. -/
def renamedAnew (second : Nat) : List Label :=
  [.act 0 (.create 10), .act 0 (.write 3 11), .act 0 .finish, .act second (.create 12),
    .act 0 .rename]

/-- Two writes that share a temporary file can leave a torn entry. -/
theorem torn_of_renamedAnew {init : Dir} {second n : Nat} (hlt : second < n) (hpos : 0 < second)
    (hround : tempCounter second = tempCounter 0) :
    ∃ s, run (step 1) (start init) (manyCalls n ++ renamedAnew second) = some s ∧
      readCached s.dir "f" = some [] ∧ ∀ w ∈ s.writers, w.bytes = [80, 75, 3] := by
  have hpath : cachePath "f" = some "f.xlsx" := by decide
  have hfirst : 0 < n := hpos.trans hlt
  have hbytes : ∀ w ∈ ((((List.range n).map numbered).set 0
      { numbered 0 with phase := .complete (tempCounter 0) }).set second
      { numbered second with phase := .writing (tempCounter 0) 0 }).set 0
      { numbered 0 with phase := .succeeded (tempCounter 0) }, w.bytes = [80, 75, 3] := by
    intro w hw
    rcases List.mem_or_eq_of_mem_set hw with hw | rfl
    · rcases List.mem_or_eq_of_mem_set hw with hw | rfl
      · rcases List.mem_or_eq_of_mem_set hw with hw | rfl
        · obtain ⟨i, -, rfl⟩ := List.mem_map.mp hw
          rfl
        · rfl
      · rfl
    · rfl
  rw [run_append, run_manyCalls, Option.bind_some]
  simp only [run_cons, renamedAnew, step, writerStep, afterManyCalls, readCached]
  simpa [hfirst, hlt, hpos.ne, hpos.ne', hround, hpath, numbered] using hbytes

/-- Writes are not atomic in every run: the counter comes round after {lit}`2 ^ 64` calls. -/
theorem not_writesAtomic : ¬ WritesAtomic := by
  intro h
  obtain ⟨s, hrun, htorn, hbytes⟩ := torn_of_renamedAnew
    (Nat.lt_add_one (2 ^ 64)) (Nat.two_pow_pos 64) (Nat.mod_self (2 ^ 64))
  rcases (h 1 debris _ s hrun).entries "f" with hinit | ⟨w, hw, -, hwhole⟩
  · have hdebris : readCached debris "f" = some [80, 75] := by decide +kernel
    rw [htorn, hdebris] at hinit
    cases hinit
  · rw [htorn, hbytes w hw] at hwhole
    cases hwhole

end Example

end CacheWrites
end Statskboo
