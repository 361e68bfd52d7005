import Mathlib.Data.Finset.Max
import Mathlib.Data.Finset.Image
import Statskboo.Ingest.ResolveFailure
import Statskboo.Ingest.Stages
import Statskboo.Lib.Run

/-!
# Which statsbooks are visible

The ingest stages one after another, in any order and any number of times, with
resolve passes that finish or stop with an error.  A file is visible when it is
linked to a WFTDA game, and a pass should leave visible, for each game, the newest
file whose content resolves to it.

A placeholder upload deletes the content of its file but not its link.  The file is
then still in the running for its game when a later pass hides the duplicates.

Main results:

- Theorem {lit}`inv_step`: every step keeps the foreign keys and both sides of a file
  with its game.
- Theorem {lit}`linkedHaveContent_step`: links without content come from placeholders
  alone.
- Theorem {lit}`visibleNewest_after_resolve`: when a pass leaves visible exactly the
  newest file of each game.
-/

namespace Statskboo
namespace Visibility

open KeyedTable Resolve Transition

section Ingest

variable [Text.UnicodeTables] [Numbers.Rounding]

/-! ## Stages and passes as steps -/

/-- One step of the ingest. -/
inductive Step where
  | stage (a : Stage)
  | resolveGames
  /-- A pass that stops with an error after some of its calls. -/
  | resolveFailing (calls : Nat)

/-- The effect of a step. -/
def step (db : Db) : Step → Option Db
  | .stage a => some (a.exec db)
  | .resolveGames => (Resolve.resolveGames db).map Prod.fst
  | .resolveFailing calls => some (stateAfterError db calls)

/-! ## What every step keeps -/

/-- The foreign keys hold, and a file has a game row exactly when it has its sides. -/
structure Inv (db : Db) : Prop where
  consistent : db.Consistent
  paired : Stage.Paired db

omit [Text.UnicodeTables] [Numbers.Rounding] in
theorem inv_empty : Inv Db.empty where
  consistent := Db.consistent_empty
  paired _ _ := rfl

omit [Text.UnicodeTables] [Numbers.Rounding] in
/-- Resolving keeps the invariant. -/
theorem Inv.of_sameContent {db db' : Db} (h : Inv db) (hsame : Db.SameContent db db')
    (hdb : db'.Consistent) : Inv db' where
  consistent := hdb
  paired f s := by
    rw [hsame.isSome_side?, hsame.statsbookGames]
    exact h.paired f s

/-- A pass that stops at some call keeps the content and the foreign keys. -/
theorem stateAfterError_keeps {db : Db} (hdb : db.Consistent) (n : Nat) :
    Db.SameContent db (stateAfterError db n) ∧ (stateAfterError db n).Consistent := by
  by_cases hn : n < (passCalls db).length
  · have hwrite := stateAfterError_eq hdb hn
    exact ⟨sameContent_writeMatches hwrite, consistent_writeMatches hdb hwrite⟩
  · obtain ⟨stats, hpass⟩ := stateAfterError_of_length_le hdb (not_lt.mp hn)
    obtain ⟨hsame, hdb', -⟩ := resolveGames_spec hdb hpass
    exact ⟨hsame, hdb'⟩

/-- Every step keeps the invariant. -/
theorem inv_step (db : Db) (a : Step) (db' : Db) (h : Inv db) (hstep : step db a = some db') :
    Inv db' := by
  cases a with
  | stage a =>
      cases hstep
      exact ⟨Stage.consistent_exec h.consistent a, Stage.paired_exec h.paired a⟩
  | resolveGames =>
      obtain ⟨⟨db₁, stats⟩, hpass, rfl⟩ := Option.map_eq_some_iff.mp hstep
      obtain ⟨hsame, hdb', -⟩ := resolveGames_spec h.consistent hpass
      exact h.of_sameContent hsame hdb'
  | resolveFailing calls =>
      cases hstep
      obtain ⟨hsame, hdb'⟩ := stateAfterError_keeps h.consistent calls
      exact h.of_sameContent hsame hdb'

/-! ## Links without content -/

/-- The file has a parsed game with both sides. -/
def HasContent (db : Db) (f : String) : Prop :=
  ∃ row, bookRow db f = some row

omit [Text.UnicodeTables] [Numbers.Rounding] in
theorem hasContent_iff {db : Db} (h : Inv db) (f : String) :
    HasContent db f ↔ (db.statsbookGames.get? f).isSome = true := by
  unfold HasContent bookRow
  have hhome := h.paired f .home
  have haway := h.paired f .away
  cases hgame : db.statsbookGames.get? f with
  | none => simp
  | some g =>
      rw [hgame] at hhome haway
      obtain ⟨home, hhome⟩ := Option.isSome_iff_exists.mp hhome
      obtain ⟨away, haway⟩ := Option.isSome_iff_exists.mp haway
      simp [hhome, haway]

theorem resolutionOf_isSome_iff {db : Db} (f : String) :
    (∃ r, resolutionOf db f = some r) ↔ HasContent db f := by
  unfold resolutionOf HasContent
  simp only [Option.map_eq_some_iff]
  constructor
  · intro h
    obtain ⟨-, row, hrow, -⟩ := h
    exact ⟨row, hrow⟩
  · intro h
    obtain ⟨row, hrow⟩ := h
    exact ⟨_, row, hrow, rfl⟩

/-- Every linked file has a stored game. -/
def LinkedHaveContent (db : Db) : Prop :=
  ∀ f g, db.matchedGame f = some g → (db.statsbookGames.get? f).isSome = true

/-- A step that stores a placeholder stores it for a file without a link. -/
def SkipsUnlinked (db : Db) : Step → Prop
  | .stage (.storeParsedGame f game _) =>
      Parse.hasNoGameData game = true → db.matchedGame f = none
  | _ => True

instance (db : Db) : (a : Step) → Decidable (SkipsUnlinked db a)
  | .stage (.storeParsedGame _ _ _) => inferInstanceAs (Decidable (_ = true → _ = none))
  | .stage (.upsertStatsbook ..) => inferInstanceAs (Decidable True)
  | .stage (.setFailed ..) => inferInstanceAs (Decidable True)
  | .stage (.markRemoved _) => inferInstanceAs (Decidable True)
  | .stage (.syncTeams ..) => inferInstanceAs (Decidable True)
  | .stage (.syncGames _) => inferInstanceAs (Decidable True)
  | .resolveGames => inferInstanceAs (Decidable True)
  | .resolveFailing _ => inferInstanceAs (Decidable True)

/-- What a resolved file claims it claims with content. -/
theorem linkedHaveContent_of_claims {db db' : Db} (hinv : Inv db) (h : LinkedHaveContent db)
    (hsame : Db.SameContent db db')
    (hclaims : ∀ f g, db'.matchedGame f = some g →
      (∃ r, resolutionOf db f = some r) ∨ db.matchedGame f = some g) :
    LinkedHaveContent db' := by
  intro f g hlinked
  rw [hsame.statsbookGames]
  rcases hclaims f g hlinked with hr | hold
  · exact (hasContent_iff hinv f).mp ((resolutionOf_isSome_iff f).mp hr)
  · exact h f g hold

theorem claimedGame_cases {db : Db} {f : String} {g : Int} (h : claimedGame db f = some g) :
    (∃ r, resolutionOf db f = some r) ∨ db.matchedGame f = some g := by
  unfold claimedGame at h
  cases hr : resolutionOf db f with
  | none =>
      rw [hr] at h
      exact Or.inr h
  | some r => exact Or.inl ⟨r, rfl⟩

theorem linkedHaveContent_resolveFailing {db : Db} (hinv : Inv db) (h : LinkedHaveContent db)
    (n : Nat) : LinkedHaveContent (stateAfterError db n) := by
  refine linkedHaveContent_of_claims hinv h (stateAfterError_keeps hinv.consistent n).1 ?_
  intro f g hlinked
  by_cases hn : n < (passCalls db).length
  · obtain ⟨hwritten, hkept⟩ := matchedGame_committed hinv.consistent hn
    by_cases hmem : f ∈ (committedWrites db n).map Prod.fst
    · obtain ⟨w, hw, rfl⟩ := List.mem_map.mp hmem
      exact Or.inl ⟨w.2, mem_passWrites.mp (List.mem_of_mem_take hw)⟩
    · rw [hkept f hmem] at hlinked
      exact Or.inr hlinked
  · obtain ⟨stats, hpass⟩ := stateAfterError_of_length_le hinv.consistent (not_lt.mp hn)
    obtain ⟨-, -, hmatched, -⟩ := resolveGames_spec hinv.consistent hpass
    exact claimedGame_cases ((hmatched f g).mp hlinked).1

omit [Numbers.Rounding] in
/-- Among the stages, placeholders alone leave links without content. -/
theorem linkedHaveContent_stage {db : Db} {a : Stage} (h : LinkedHaveContent db)
    (hskip : SkipsUnlinked db (.stage a)) : LinkedHaveContent (a.exec db) := by
  intro f g hlinked
  have hcontent := h f g (Stage.matchedGame_exec a hlinked)
  cases a with
  | upsertStatsbook now f' name quarter mimeType modifiedTime => exact hcontent
  | storeParsedGame f' game date =>
      rcases Stage.storeParsedGame_cases db f' game date with
        hsame | ⟨hempty, hskipped⟩ | ⟨-, hstored⟩
      · rwa [hsame]
      · have hother : f ≠ f' := by
          rintro rfl
          have hold := Stage.matchedGame_exec _ hlinked
          rw [hskip hempty] at hold
          cases hold
        rw [hskipped]
        change ((Parse.deleteParsedRows db f').statsbookGames.get? f).isSome = true
        rwa [Parse.statsbookGames_deleteParsedRows, if_neg hother]
      · obtain ⟨d, -, hgames⟩ := hstored.statsbookGames
        rw [hgames]
        split_ifs
        · rfl
        · exact hcontent
  | setFailed f' error => exact hcontent
  | markRemoved seenBefore =>
      simp only [Stage.exec, Index.markRemoved, Db.deleteStatsbooks, Db.matchedGame,
        Table.get?_filter, Option.bind_eq_some_iff, Option.filter_eq_some_iff] at hlinked
      obtain ⟨row, ⟨-, hkept⟩, -⟩ := hlinked
      obtain ⟨game, hgame⟩ := Option.isSome_iff_exists.mp hcontent
      refine Option.isSome_iff_exists.mpr ⟨game, ?_⟩
      simp only [Stage.exec, Index.markRemoved, Db.deleteStatsbooks, Table.get?_filter,
        Option.filter_eq_some_iff]
      exact ⟨hgame, hkept⟩
  | syncTeams teams listing => rwa [(Stage.sameFiles_syncTeams teams listing).statsbookGames]
  | syncGames results => rwa [(Stage.sameFiles_syncGames results).statsbookGames]

/-- Placeholders alone leave links without content. -/
theorem linkedHaveContent_step {db : Db} {a : Step} {db' : Db} (hinv : Inv db)
    (h : LinkedHaveContent db) (hskip : SkipsUnlinked db a) (hstep : step db a = some db') :
    LinkedHaveContent db' := by
  cases a with
  | stage a =>
      cases hstep
      exact linkedHaveContent_stage h hskip
  | resolveGames =>
      obtain ⟨⟨db₁, stats⟩, hpass, rfl⟩ := Option.map_eq_some_iff.mp hstep
      obtain ⟨hsame, -, hmatched, -⟩ := resolveGames_spec hinv.consistent hpass
      exact linkedHaveContent_of_claims hinv h hsame
        fun f g hlinked => claimedGame_cases ((hmatched f g).mp hlinked).1
  | resolveFailing calls =>
      cases hstep
      exact linkedHaveContent_resolveFailing hinv h calls

/-! ## The newest file of each game -/

/-- The content of the file resolves to the game. -/
def ResolvesTo (db : Db) (f : String) (g : Int) : Prop :=
  ∃ r, resolutionOf db f = some r ∧ r.wftdaGameId = some g

/-- The file is the newest of those whose content resolves to the game. -/
def IsNewest (db : Db) (f : String) (g : Int) : Prop :=
  ResolvesTo db f g ∧ ∀ f', ResolvesTo db f' g → rankKey db f ≤ rankKey db f'

/-- The visible files are the newest ones, one for each game that some content resolves
to; their sides carry the teams of the game and the sides of the others none. -/
structure VisibleNewest (db : Db) : Prop where
  visible : ∀ f g, db.matchedGame f = some g ↔ IsNewest db f g
  sides : ∀ f g, db.matchedGame f = some g → ∃ game, db.wftdaGames.get? g = some game ∧
    ((db.sideTeam f .home = some game.team1Id ∧ db.sideTeam f .away = some game.team2Id) ∨
      (db.sideTeam f .home = some game.team2Id ∧ db.sideTeam f .away = some game.team1Id))
  hidden : ∀ f, db.matchedGame f = none → ∀ s, db.sideTeam f s = none

/-- Every link without content ranks after some content that resolves to its game. -/
def OrphansRankLater (db : Db) : Prop :=
  ∀ o g, ¬ HasContent db o → db.matchedGame o = some g →
    ∃ f, ResolvesTo db f g ∧ rankKey db f < rankKey db o

/-- Resolving does not change which file is the newest of a game. -/
theorem isNewest_of_sameContent {db db' : Db} (h : Db.SameContent db db') (f : String) (g : Int) :
    IsNewest db' f g ↔ IsNewest db f g := by
  unfold IsNewest ResolvesTo
  simp only [resolutionOf_of_sameContent h, rankKey_of_sameContent h]

theorem claimedGame_of_resolvesTo {db : Db} {f : String} {g : Int} (h : ResolvesTo db f g) :
    claimedGame db f = some g := by
  obtain ⟨r, hr, hg⟩ := h
  simp [claimedGame, hr, hg]

theorem claimedGame_some {db : Db} {f : String} {g : Int} (h : claimedGame db f = some g) :
    ResolvesTo db f g ∨ (¬ HasContent db f ∧ db.matchedGame f = some g) := by
  unfold claimedGame at h
  cases hr : resolutionOf db f with
  | none =>
      rw [hr] at h
      refine Or.inr ⟨fun hcontent => ?_, h⟩
      obtain ⟨r, hsome⟩ := (resolutionOf_isSome_iff f).mpr hcontent
      simp [hr] at hsome
  | some r =>
      rw [hr] at h
      exact Or.inl ⟨r, hr, h⟩

/-- Among the claimants of a game one claims it first. -/
theorem exists_claimsFirst {db : Db} {f : String} {g : Int} (h : claimedGame db f = some g) :
    ∃ f', ClaimsFirst db f' g ∧ rankKey db f' ≤ rankKey db f := by
  classical
  have hfinite : ∀ f, claimedGame db f = some g →
      f ∈ ((passWrites db).map Prod.fst ++ db.gameMatches.keys).toFinset := by
    intro f hf
    rw [List.mem_toFinset, List.mem_append, mem_map_passWrites]
    rcases claimedGame_cases hf with hr | hold
    · exact Or.inl hr
    · obtain ⟨row, hrow, -⟩ := Option.bind_eq_some_iff.mp hold
      exact Or.inr (Table.mem_keys_iff.mpr ⟨row, hrow⟩)
  obtain ⟨f', hf', hleast⟩ := Finset.exists_min_image
    (((passWrites db).map Prod.fst ++ db.gameMatches.keys).toFinset.filter
      fun f => claimedGame db f = some g) (rankKey db)
    ⟨f, Finset.mem_filter.mpr ⟨hfinite f h, h⟩⟩
  refine ⟨f', ⟨(Finset.mem_filter.mp hf').2, fun f'' hf'' => ?_⟩, ?_⟩
  · exact hleast f'' (Finset.mem_filter.mpr ⟨hfinite f'' hf'', hf''⟩)
  · exact hleast f (Finset.mem_filter.mpr ⟨hfinite f h, h⟩)

/-- When every orphan ranks later, the first claimant of a game is its newest file. -/
theorem claimsFirst_iff_isNewest {db : Db} (h : OrphansRankLater db) (f : String) (g : Int) :
    ClaimsFirst db f g ↔ IsNewest db f g := by
  constructor
  · intro hfirst
    rcases claimedGame_some hfirst.1 with hresolves | ⟨horphan, hlinked⟩
    · exact ⟨hresolves, fun f' hf' => hfirst.2 f' (claimedGame_of_resolvesTo hf')⟩
    · obtain ⟨f', hf', hrank⟩ := h f g horphan hlinked
      exact absurd (hfirst.2 f' (claimedGame_of_resolvesTo hf')) (not_le.mpr hrank)
  · intro hnewest
    refine ⟨claimedGame_of_resolvesTo hnewest.1, fun f' hf' => ?_⟩
    rcases claimedGame_some hf' with hresolves | ⟨horphan, hlinked⟩
    · exact hnewest.2 f' hresolves
    · obtain ⟨f'', hf'', hrank⟩ := h f' g horphan hlinked
      exact (hnewest.2 f'' hf'').trans hrank.le

/-- A link without content that ranked first for its game would still be there. -/
theorem orphansRankLater_of_visible {db db' : Db} {stats : ResolveStats} (hinv : Inv db)
    (hpass : Resolve.resolveGames db = some (db', stats))
    (hvisible : ∀ f g, db'.matchedGame f = some g ↔ IsNewest db' f g) : OrphansRankLater db := by
  obtain ⟨hsame, -, hmatched, -⟩ := resolveGames_spec hinv.consistent hpass
  intro o g horphan hlinked
  have hclaimed : claimedGame db o = some g := by
    unfold claimedGame
    cases hr : resolutionOf db o with
    | none => exact hlinked
    | some r => exact absurd ((resolutionOf_isSome_iff o).mp ⟨r, hr⟩) horphan
  obtain ⟨f, hfirst, hrank⟩ := exists_claimsFirst hclaimed
  have hnewest := (hvisible f g).mp ((hmatched f g).mpr hfirst)
  rw [isNewest_of_sameContent hsame] at hnewest
  refine ⟨f, hnewest.1, lt_of_le_of_ne hrank fun heq => ?_⟩
  obtain ⟨r, hr, -⟩ := hnewest.1
  exact horphan (rankKey_injective db heq ▸ (resolutionOf_isSome_iff f).mp ⟨r, hr⟩)

/-- The sides of a file with content carry the teams of its resolution while the file is
linked. -/
theorem sideTeam_resolveGames {db db' : Db} {stats : ResolveStats} (hinv : Inv db)
    (hpass : Resolve.resolveGames db = some (db', stats)) {f : String} {g : Int} {r : Resolution}
    (hr : resolutionOf db f = some r) (hlinked : db'.matchedGame f = some g) (s : Side) :
    db'.sideTeam f s = r.team s := by
  obtain ⟨-, -, -, hsides⟩ := resolveGames_spec hinv.consistent hpass
  have hside : (db.side? f s).isSome = true := by
    rw [hinv.paired]
    exact (hasContent_iff hinv f).mp ((resolutionOf_isSome_iff f).mp ⟨r, hr⟩)
  obtain ⟨row, hrow⟩ := Option.isSome_iff_exists.mp hside
  rw [hsides f r hr s, hlinked, hrow]
  rfl

/-- The sides of a file that is not linked carry no team. -/
theorem sideTeam_of_hidden {db db' : Db} {stats : ResolveStats} (hinv : Inv db)
    (hpass : Resolve.resolveGames db = some (db', stats)) {f : String}
    (hhidden : db'.matchedGame f = none) (s : Side) : db'.sideTeam f s = none := by
  obtain ⟨hsame, -, -, hsides⟩ := resolveGames_spec hinv.consistent hpass
  cases hr : resolutionOf db f with
  | some r => rw [hsides f r hr s, hhidden, Option.bind_none]
  | none =>
      have hnone : (db'.side? f s).isSome = false := by
        rw [hsame.isSome_side?, hinv.paired, Bool.eq_false_iff]
        intro hsome
        obtain ⟨r, hsome⟩ := (resolutionOf_isSome_iff f).mpr ((hasContent_iff hinv f).mpr hsome)
        simp [hr] at hsome
      unfold Db.sideTeam
      rw [Option.isSome_eq_false_iff, Option.isNone_iff_eq_none] at hnone
      rw [hnone]
      rfl

/-- When every orphan ranks later, the pass leaves visible the newest file of each game. -/
theorem visibleNewest_of_orphansRankLater {db db' : Db} {stats : ResolveStats} (hinv : Inv db)
    (hpass : Resolve.resolveGames db = some (db', stats)) (horphans : OrphansRankLater db) :
    VisibleNewest db' := by
  obtain ⟨hsame, -, hmatched, -⟩ := resolveGames_spec hinv.consistent hpass
  have hvisible : ∀ f g, db'.matchedGame f = some g ↔ IsNewest db f g := fun f g =>
    (hmatched f g).trans (claimsFirst_iff_isNewest horphans f g)
  refine ⟨fun f g => ?_, fun f g hlinked => ?_, fun f hhidden s => ?_⟩
  · rw [hvisible, isNewest_of_sameContent hsame]
  · obtain ⟨⟨r, hr, hg⟩, -⟩ := (hvisible f g).mp hlinked
    obtain ⟨game, hgame, home, away, hhome, haway, hteams, -⟩ := resolutionOf_game hr hg
    refine ⟨game, by rw [hsame.wftdaGames, hgame], ?_⟩
    rw [sideTeam_resolveGames hinv hpass hr hlinked, sideTeam_resolveGames hinv hpass hr hlinked,
      Resolution.team, Resolution.team, hhome, haway]
    simp only [Option.some.injEq]
    exact hteams
  · exact sideTeam_of_hidden hinv hpass hhidden s

/-- A finished pass leaves visible the newest file of each game exactly when every link
without content ranked after some content of its game. -/
theorem visibleNewest_iff {db db' : Db} {stats : ResolveStats} (hinv : Inv db)
    (hpass : Resolve.resolveGames db = some (db', stats)) :
    VisibleNewest db' ↔ OrphansRankLater db :=
  ⟨fun h => orphansRankLater_of_visible hinv hpass h.visible,
    visibleNewest_of_orphansRankLater hinv hpass⟩

/-- After any run of the ingest from the empty database that ends with a finished pass,
the newest file of each game is visible exactly when every link without content ranked
after some content of its game before that pass.  This is so in every run that stores
placeholders only for files without a link. -/
theorem visibleNewest_after_resolve {steps : List Step} {db db' : Db} {stats : ResolveStats}
    (hrun : run step Db.empty steps = some db)
    (hpass : Resolve.resolveGames db = some (db', stats)) :
    (VisibleNewest db' ↔ OrphansRankLater db) ∧
      (EveryStep step SkipsUnlinked Db.empty steps → VisibleNewest db') := by
  have hinv : Inv db := run_invariant inv_step inv_empty hrun
  refine ⟨visibleNewest_iff hinv hpass, fun hskips => ?_⟩
  rw [visibleNewest_iff hinv hpass]
  have hlinked : Inv db ∧ LinkedHaveContent db :=
    run_invariant_of_everyStep (P := fun db => Inv db ∧ LinkedHaveContent db)
      (fun db a db' h hskip hstep =>
        ⟨inv_step db a db' h.1 hstep, linkedHaveContent_step h.1 h.2 hskip hstep⟩)
      ⟨inv_empty, fun f g h => by cases h⟩ hskips hrun
  intro o g horphan hlink
  exact absurd ((hasContent_iff hinv o).mpr (hlinked.2 o g hlink)) horphan

end Ingest

/-! ## A placeholder that hides the content of another file -/

section Example

attribute [local instance] Text.asciiTables Numbers.f64

/-- Two uploads of one game, the first of them newer. -/
def uploadsRun : List Step :=
  [.stage (.syncTeams alphaBetaApiTeams []),
    .stage (.syncGames alphaBetaApiResults),
    .stage (.upsertStatsbook 1 "f" "f.xlsx" none none 20),
    .stage (.storeParsedGame "f" (bareGame 100 95) (some 19400)),
    .stage (.upsertStatsbook 1 "g" "g.xlsx" none none 10),
    .stage (.storeParsedGame "g" (bareGame 100 95) (some 19400))]

/-- After a pass the newer upload is replaced by a placeholder. -/
def placeholderRun : List Step :=
  uploadsRun ++
    [.resolveGames,
      .stage (.upsertStatsbook 2 "f" "f.xlsx" none none 30),
      .stage (.storeParsedGame "f" (bareGame 0 0) none)]

/-- The state after some steps. -/
def stateAfter (steps : List Step) : Db :=
  (run step Db.empty steps).getD Db.empty

/-- The result of the next pass. -/
def passAfter (steps : List Step) : Db × ResolveStats :=
  (Resolve.resolveGames (stateAfter steps)).getD (Db.empty, ⟨0, 0, 0, 0, 0⟩)

theorem run_stateAfter {steps : List Step} (h : (run step Db.empty steps).isSome = true) :
    run step Db.empty steps = some (stateAfter steps) :=
  run_eq_some_getD h _

theorem resolveGames_stateAfter {steps : List Step}
    (h : (Resolve.resolveGames (stateAfter steps)).isSome = true) :
    Resolve.resolveGames (stateAfter steps) = some (passAfter steps) :=
  (Option.getD_of_ne_none (Option.isSome_iff_ne_none.mp h) _).symm

/-- The placeholder stays visible and hides the older upload, which has the content. -/
theorem not_visibleNewest_after_resolve :
    ¬ ∀ steps db result, run step Db.empty steps = some db →
      Resolve.resolveGames db = some result → VisibleNewest result.1 := by
  intro h
  have hvisible := h placeholderRun _ _ (run_stateAfter (by decide +kernel))
    (resolveGames_stateAfter (by decide +kernel))
  have hlinked : (passAfter placeholderRun).1.matchedGame "f" = some 10 := by decide +kernel
  have hnone : resolutionOf (passAfter placeholderRun).1 "f" = none := by decide +kernel
  obtain ⟨⟨r, hr, -⟩, -⟩ := (hvisible.visible "f" 10).mp hlinked
  rw [hnone] at hr
  cases hr

/-- Without the placeholder the newer upload is visible and the older one hidden. -/
theorem visibleNewest_after_uploadsRun :
    VisibleNewest (passAfter uploadsRun).1 ∧
      (passAfter uploadsRun).1.matchedGame "f" = some 10 ∧
      (passAfter uploadsRun).1.matchedGame "g" = none := by
  have hrun := @run_stateAfter uploadsRun (by decide +kernel)
  have hvisible := visibleNewest_after_resolve hrun (resolveGames_stateAfter (by decide +kernel))
  exact ⟨hvisible.2 (by decide +kernel), by decide +kernel, by decide +kernel⟩

end Example

end Visibility
end Statskboo
