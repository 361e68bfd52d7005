import Statskboo.Ingest.ResolveFailure
import Statskboo.Ingest.Stages
import Statskboo.Lib.Run

/-!
# Concurrent resolve passes

Several resolve passes run at the same time, with transactions of the other stages
in between.  Every read, every write batch and every dedup update is one atomic step.
A pass first links files again that another pass has hidden and hides them later, so
two files may share a game while passes run.

The argument looks at the last dedup read.  From then on, no pass writes a batch any
more, and of two files that share a game one is a loser that some pass has read and
not hidden yet.

Main results:

- Theorem {lit}`inv_step`: every step keeps that invariant.
- Theorem {lit}`oneVisible_of_finished`: when all passes have finished, no two files
  share a game.
- Theorem {lit}`run_alone`: a pass that runs alone has the effect of the sequential
  pass.
-/

namespace Statskboo
namespace Passes

open Chunks KeyedTable Resolve Transition

/-! ## A pass as a sequence of atomic steps -/

/-- Where a pass stands, with what it has read. -/
inductive Pass where
  | selectTeams
  | selectGames (teams : List (Int × String))
  | selectBooks (teams : List (Int × String)) (games : List (Int × WftdaGame))
  | writing (batch : List (String × Resolution)) (rest : List (List (String × Resolution)))
  | dedupSelect
  | dedupUpdate (losers : List String)
  | finished
deriving DecidableEq

/-- Where a pass stands with these batches left to write. -/
def Pass.ofBatches : List (List (String × Resolution)) → Pass
  | [] => dedupSelect
  | batch :: rest => writing batch rest

/-- Where a pass stands after reading these losers. -/
def Pass.ofLosers : List String → Pass
  | [] => finished
  | losers => dedupUpdate losers

/-- The database and the passes that run on it. -/
structure System where
  db : Db
  passes : List Pass

/-- A label: a step of one pass, or a transaction of another stage. -/
inductive Label where
  | pass (i : Nat)
  | stage (a : Stage)

/-- {lit}`n` passes that are about to start. -/
def start (db : Db) (n : Nat) : System where
  db := db
  passes := List.replicate n .selectTeams

section Steps

variable [Text.UnicodeTables] [Numbers.Rounding]

/-- The next step of a pass; there is none when a statement is rejected. -/
def passStep (db : Db) : Pass → Option (Db × Pass)
  | .selectTeams => some (db, .selectGames (teamRows db))
  | .selectGames teams => some (db, .selectBooks teams (gameRows db))
  | .selectBooks teams games =>
      let m := loadMatcher teams games
      let ws := resolveBooks m (Matcher.SideCache.empty m) (bookRows db)
      some (db, Pass.ofBatches (chunks writeBatch ws))
  | .writing batch rest => (writeMatches db batch).map fun db => (db, Pass.ofBatches rest)
  | .dedupSelect => some (db, Pass.ofLosers (Resolve.dedupSelect db))
  | .dedupUpdate losers => some (hideLosers db losers, .finished)
  | .finished => none

/-- The effect of a label. -/
def step (s : System) : Label → Option System
  | .pass i => do
      let p ← s.passes[i]?
      let (db, p') ← passStep s.db p
      return { db, passes := s.passes.set i p' }
  | .stage a => some { s with db := a.exec s.db }

end Steps

/-! ## The invariant -/

/-- The pass has read its losers. -/
def Pass.PastSelect : Pass → Prop
  | .dedupUpdate _ => True
  | .finished => True
  | _ => False

/-- The file is a loser that the pass has still to hide. -/
def Pass.WillHide (f : String) : Pass → Prop
  | .dedupUpdate losers => f ∈ losers
  | _ => False

/-- Once every pass has read its losers, of two files that share a game one is about to
be hidden. -/
structure Inv (s : System) : Prop where
  consistent : s.db.Consistent
  sharers : (∀ p ∈ s.passes, p.PastSelect) → ∀ f f' g,
    s.db.matchedGame f = some g → s.db.matchedGame f' = some g → f ≠ f' →
      ∃ p ∈ s.passes, p.WillHide f ∨ p.WillHide f'

variable {s s' : System} {p p' : Pass} {db : Db} {i : Nat}

theorem inv_start {n : Nat} (hdb : db.Consistent) (h : 0 < n ∨ OneVisible db) :
    Inv (start db n) where
  consistent := hdb
  sharers hpast f f' g hf hf' hne := by
    rcases h with hn | hone
    · exact (hpast .selectTeams (List.mem_replicate.mpr ⟨hn.ne', rfl⟩)).elim
    · exact absurd (hone f f' g hf hf') hne

/-- A pass that is not past its dedup read after a step leaves nothing to show. -/
theorem inv_of_not_pastSelect (hi : i < s.passes.length) (hdb : db.Consistent)
    (hp' : ¬ p'.PastSelect) : Inv { db, passes := s.passes.set i p' } where
  consistent := hdb
  sharers hpast := absurd (hpast p' (List.mem_set hi p')) hp'

theorem not_pastSelect_ofBatches (batches : List (List (String × Resolution))) :
    ¬ (Pass.ofBatches batches).PastSelect := by
  cases batches with
  | nil => exact id
  | cons batch rest => exact id

theorem willHide_ofLosers {f : String} {losers : List String} :
    (Pass.ofLosers losers).WillHide f ↔ f ∈ losers := by
  cases losers with
  | nil => simp [Pass.ofLosers, Pass.WillHide]
  | cons loser losers => exact Iff.rfl

/-- The pass that reads its losers reads one of any two files that share a game. -/
theorem inv_dedupSelect (h : Inv s) (hi : i < s.passes.length) :
    Inv { s with passes := s.passes.set i (Pass.ofLosers (Resolve.dedupSelect s.db)) } where
  consistent := h.consistent
  sharers _ f f' g hf hf' hne := by
    refine ⟨_, List.mem_set hi _, ?_⟩
    rw [willHide_ofLosers, willHide_ofLosers, mem_dedupSelect h.consistent,
      mem_dedupSelect h.consistent]
    rcases lt_trichotomy (rankKey s.db f) (rankKey s.db f') with hlt | heq | hlt
    · exact Or.inr ⟨g, f, hf', hf, hlt⟩
    · exact absurd (rankKey_injective s.db heq) hne
    · exact Or.inl ⟨g, f', hf, hf', hlt⟩

/-- The pass that hides its losers leaves the others their part. -/
theorem inv_dedupUpdate (h : Inv s) {losers : List String}
    (hp : s.passes[i]? = some (.dedupUpdate losers)) :
    Inv { db := hideLosers s.db losers, passes := s.passes.set i .finished } where
  consistent := consistent_hideLosers h.consistent losers
  sharers hpast f f' g hf hf' hne := by
    obtain ⟨hi, hget⟩ := List.getElem?_eq_some_iff.mp hp
    dsimp only at hf hf'
    rw [(hideLosers_spec losers f).1] at hf
    rw [(hideLosers_spec losers f').1] at hf'
    split_ifs at hf with hmem
    split_ifs at hf' with hmem'
    have hpastBefore : ∀ q ∈ s.passes, q.PastSelect := by
      intro q hq
      obtain ⟨j, hj, rfl⟩ := List.mem_iff_getElem.mp hq
      by_cases hij : i = j
      · subst hij
        rw [hget]
        trivial
      · refine hpast _ (List.mem_iff_getElem.mpr ⟨j, by simpa using hj, ?_⟩)
        exact List.getElem_set_ne hij _
    obtain ⟨q, hq, hwill⟩ := h.sharers hpastBefore f f' g hf hf' hne
    obtain ⟨j, hj, rfl⟩ := List.mem_iff_getElem.mp hq
    by_cases hij : i = j
    · subst hij
      rw [hget] at hwill
      rcases hwill with hwill | hwill
      · exact absurd hwill hmem
      · exact absurd hwill hmem'
    · refine ⟨_, List.mem_iff_getElem.mpr ⟨j, by simpa using hj, ?_⟩, hwill⟩
      exact List.getElem_set_ne hij _

section Runs

variable [Text.UnicodeTables] [Numbers.Rounding]

omit [Numbers.Rounding] in
theorem inv_stage (h : Inv s) (a : Stage) : Inv { s with db := a.exec s.db } where
  consistent := Stage.consistent_exec h.consistent a
  sharers hpast f f' g hf hf' hne :=
    h.sharers hpast f f' g (Stage.matchedGame_exec a hf) (Stage.matchedGame_exec a hf') hne

/-- Every step keeps the invariant. -/
theorem inv_step (s : System) (l : Label) (s' : System) (h : Inv s) (hstep : step s l = some s') :
    Inv s' := by
  cases l with
  | stage a =>
      cases hstep
      exact inv_stage h a
  | pass i =>
      obtain ⟨p, hp, hstep⟩ := Option.bind_eq_some_iff.mp hstep
      obtain ⟨⟨db', p'⟩, hpass, hdone⟩ := Option.bind_eq_some_iff.mp hstep
      cases hdone
      obtain ⟨hi, -⟩ := List.getElem?_eq_some_iff.mp hp
      cases p with
      | selectTeams =>
          cases hpass
          exact inv_of_not_pastSelect hi h.consistent id
      | selectGames teams =>
          cases hpass
          exact inv_of_not_pastSelect hi h.consistent id
      | selectBooks teams games =>
          cases hpass
          exact inv_of_not_pastSelect hi h.consistent (not_pastSelect_ofBatches _)
      | writing batch rest =>
          obtain ⟨db₁, hwrite, heq⟩ := Option.map_eq_some_iff.mp hpass
          cases heq
          exact inv_of_not_pastSelect hi (consistent_writeMatches h.consistent hwrite)
            (not_pastSelect_ofBatches _)
      | dedupSelect =>
          cases hpass
          exact inv_dedupSelect h hi
      | dedupUpdate losers =>
          cases hpass
          exact inv_dedupUpdate h hp
      | finished => cases hpass

/-- In every interleaving, when all passes have finished, no two files share a game; the
passes start on any database, or none starts and the database has the property. -/
theorem oneVisible_of_finished {n : Nat} {labels : List Label} (hdb : db.Consistent)
    (hstart : 0 < n ∨ OneVisible db) (hrun : run step (start db n) labels = some s)
    (hfinished : ∀ p ∈ s.passes, p = .finished) : OneVisible s.db := by
  have hinv : Inv s := run_invariant inv_step (inv_start hdb hstart) hrun
  intro f f' g hf hf'
  by_contra hne
  obtain ⟨p, hp, hwill⟩ := hinv.sharers
    (fun p hp => by rw [hfinished p hp]; trivial) f f' g hf hf' hne
  rw [hfinished p hp] at hwill
  rcases hwill with hwill | hwill <;> exact hwill

end Runs

section Example

attribute [local instance] Text.asciiTables Numbers.f64

/-- Two passes over two uploads of one game, the second writing after the first has read
its losers. -/
def twoPasses : List Label :=
  [.pass 0, .pass 1, .pass 0, .pass 1, .pass 0, .pass 1, .pass 0, .pass 0, .pass 1, .pass 0,
    .pass 1]

/-- The state after these steps. -/
def twoPassesState : System :=
  (run step (start twoUploads 2) twoPasses).getD (start twoUploads 2)

theorem oneVisible_twoPasses : OneVisible twoPassesState.db := by
  have hrun : run step (start twoUploads 2) twoPasses = some twoPassesState :=
    run_eq_some_getD (by decide +kernel) _
  exact oneVisible_of_finished consistent_twoUploads (Or.inl (by decide)) hrun
    (by decide +kernel)

end Example

/-! ## A pass alone -/

section Alone

variable [Text.UnicodeTables] [Numbers.Rounding]

theorem step_single {p p' : Pass} {db db' : Db} (h : passStep db p = some (db', p')) :
    step ⟨db, [p]⟩ (.pass 0) = some ⟨db', [p']⟩ := by
  simp [step, h]

/-- A pass that runs alone has the effect of the sequential pass. -/
theorem run_alone {db db' : Db} {stats : ResolveStats}
    (h : resolveGames db = some (db', stats)) :
    ∃ labels, run step (start db 1) labels = some ⟨db', [.finished]⟩ := by
  have hbatches : ∀ (batches : List (List (String × Resolution))) (db db₁ : Db),
      batches.foldlM writeMatches db = some db₁ →
      run step ⟨db, [Pass.ofBatches batches]⟩ (List.replicate batches.length (.pass 0)) =
        some ⟨db₁, [.dedupSelect]⟩ := by
    intro batches
    induction batches with
    | nil =>
        intro db db₁ hwrite
        cases hwrite
        rfl
    | cons batch rest ih =>
        intro db db₁ hwrite
        obtain ⟨db₂, hbatch, hrest⟩ := Option.bind_eq_some_iff.mp hwrite
        rw [List.length_cons, List.replicate_succ, run_cons_eq_some]
        exact ⟨_, step_single (by simp [Pass.ofBatches, passStep, hbatch]), ih db₂ db₁ hrest⟩
  obtain ⟨db₁, hwrite, hdone⟩ := Option.bind_eq_some_iff.mp h
  cases hdone
  have hdedup : ∃ labels, run step ⟨db₁, [.dedupSelect]⟩ labels =
      some ⟨dedupMatchedGames db₁, [.finished]⟩ := by
    unfold dedupMatchedGames
    cases hlosers : Resolve.dedupSelect db₁ with
    | nil =>
        refine ⟨[.pass 0], run_cons_eq_some.mpr ⟨_, step_single rfl, ?_⟩⟩
        rw [hlosers]
        rfl
    | cons f losers =>
        refine ⟨[.pass 0, .pass 0], run_cons_eq_some.mpr ⟨_, step_single rfl, ?_⟩⟩
        rw [hlosers]
        exact run_cons_eq_some.mpr ⟨_, step_single rfl, rfl⟩
  obtain ⟨labels, hlabels⟩ := hdedup
  refine ⟨[.pass 0, .pass 0, .pass 0] ++ (List.replicate (chunks writeBatch (passWrites db)).length
    (.pass 0) ++ labels), ?_⟩
  have hreads : run step (start db 1) [.pass 0, .pass 0, .pass 0] =
      some ⟨db, [Pass.ofBatches (chunks writeBatch (passWrites db))]⟩ := rfl
  rw [run_append, hreads, Option.bind_some, run_append, hbatches _ _ _ hwrite, Option.bind_some]
  exact hlabels

end Alone

end Passes
end Statskboo
