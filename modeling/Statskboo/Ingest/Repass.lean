import Statskboo.Ingest.Visibility
import Statskboo.Lib.Chunks

/-!
# Passes over passes

Both background loops end a cycle with a resolve pass, whether or not the cycle brought
anything new, and a pass may stop half way.  So passes pile up between the transactions of
the other stages, over states that earlier passes have written to.

Main results:

- Theorem {lit}`resolveGames_idempotent`: a pass over the state that a pass has left changes
  nothing and counts the same.
- Theorem {lit}`sameContent_exec`: no stage reads what the passes write.
- Theorem {lit}`resolveGames_of_sameStages`: where passes stood between the stages, and which
  of them stopped with an error, does not show after a last pass.
-/

namespace Statskboo

open KeyedTable Resolve Transition

/-! ## Rows after a pass -/

namespace Resolve

/-- The match of a file that lost its game. -/
def hiddenRow (row : GameMatch) : GameMatch :=
  { row with wftdaGameId := none, method := StoredMethod.duplicate }

theorem gameMatches_hideLosers {db : Db} (losers : List String) (f : String) :
    (hideLosers db losers).gameMatches.get? f =
      if f ∈ losers then (db.gameMatches.get? f).map hiddenRow else db.gameMatches.get? f := by
  induction losers generalizing db with
  | nil => rfl
  | cons l losers ih =>
      change (hideLosers (hideLoser db l) losers).gameMatches.get? f = _
      have hloser : (hideLoser db l).gameMatches.get? f =
          if f = l then (db.gameMatches.get? f).map hiddenRow else db.gameMatches.get? f :=
        Table.get?_modify db.gameMatches l f hiddenRow
      rw [ih, hloser]
      by_cases hl : f = l
      · subst hl
        rw [if_pos rfl, if_pos (List.mem_cons_self ..)]
        split_ifs
        · rw [Option.map_map]
          rfl
        · rfl
      · simp only [List.mem_cons, hl, false_or, if_false]

/-- A side row is known by its content and its team. -/
theorem side?_eq_of_sideTeam {db db' : Db} {f : String} {s : Side}
    (hside : (db'.side? f s).map (fun row => { row with wftdaTeamId := none }) =
      (db.side? f s).map fun row => { row with wftdaTeamId := none })
    (hteam : db'.sideTeam f s = db.sideTeam f s) : db'.side? f s = db.side? f s := by
  unfold Db.sideTeam at hteam
  cases hrow : db.side? f s with
  | none =>
      rw [hrow] at hside
      exact Option.map_eq_none_iff.mp hside
  | some row =>
      rw [hrow] at hside hteam
      obtain ⟨row', hrow', heq⟩ := Option.map_eq_some_iff.mp hside
      rw [hrow'] at hteam ⊢
      obtain ⟨team, league, name, color, leagueCanonical, teamCanonical⟩ := row
      obtain ⟨team', league', name', color', leagueCanonical', teamCanonical'⟩ := row'
      simp only [StatsbookSide.mk.injEq, true_and] at heq
      obtain ⟨rfl, rfl, rfl, rfl, rfl⟩ := heq
      obtain rfl : team' = team := hteam
      rfl

/-- The sides of two states are equal when their content and their teams are. -/
theorem statsbookSides_eq {db db' : Db} (h : Db.SameContent db db')
    (hteam : ∀ f s, db'.sideTeam f s = db.sideTeam f s) :
    db'.statsbookSides = db.statsbookSides := by
  refine Table.ext_get? fun k => ?_
  obtain ⟨f, s⟩ := k
  exact side?_eq_of_sideTeam (h.sides f s) (hteam f s)

variable [Text.UnicodeTables] [Numbers.Rounding] {db db₁ : Db}

/-- A pass over the same content writes the same. -/
theorem passWrites_of_sameContent {db' : Db} (h : Db.SameContent db db') :
    passWrites db' = passWrites db := by
  unfold passWrites bookRows
  rw [matcherOf_of_sameContent h, h.statsbookGames, funext (bookRow_of_sameContent h)]

/-- The match rows between the write batches and the dedup step. -/
theorem gameMatches_passWrites (h : writeMatches db (passWrites db) = some db₁) (f : String) :
    db₁.gameMatches.get? f =
      match resolutionOf db f with
      | some r => some (matchRow r)
      | none => db.gameMatches.get? f := by
  have hwrites : ∀ w ∈ passWrites db, resolutionOf db w.1 = some w.2 := fun _ => mem_passWrites.mp
  rw [(writeMatches_spec hwrites h f).1]
  cases hres : resolutionOf db f with
  | none =>
      rw [if_neg]
      rw [mem_map_passWrites, hres]
      simp
  | some r => rw [if_pos (mem_map_passWrites.mpr ⟨r, hres⟩), Option.map_some]

/-- A file is a loser of the dedup step when it claims a game and not first. -/
theorem mem_dedupSelect_iff (hdb : db.Consistent)
    (hwrite : writeMatches db (passWrites db) = some db₁) (f : String) :
    f ∈ dedupSelect db₁ ↔ ∃ g, claimedGame db f = some g ∧ ¬ ClaimsFirst db f g := by
  constructor
  · intro hmem
    obtain ⟨g, -, hf, -⟩ := (mem_dedupSelect (consistent_writeMatches hdb hwrite)).mp hmem
    rw [(passWrites_spec hwrite f).1] at hf
    exact ⟨g, hf, (mem_dedupSelect_writeMatches hdb hwrite hf).mp hmem⟩
  · intro h
    obtain ⟨g, hf, hnot⟩ := h
    exact (mem_dedupSelect_writeMatches hdb hwrite hf).mpr hnot

/-! ## A pass after a pass -/

/-- Whoever claims a game after a pass claimed it before. -/
theorem claimedGame_of_resolveGames {db' : Db} {stats : ResolveStats} (hdb : db.Consistent)
    (h : resolveGames db = some (db', stats)) {f : String} {g : Int}
    (hf : claimedGame db' f = some g) : claimedGame db f = some g := by
  obtain ⟨hsame, -, hmatched, -⟩ := resolveGames_spec hdb h
  unfold claimedGame at hf
  rw [resolutionOf_of_sameContent hsame] at hf
  cases hr : resolutionOf db f with
  | none =>
      rw [hr] at hf
      exact ((hmatched f g).mp hf).1
  | some r =>
      rw [hr] at hf
      rw [claimedGame, hr]
      exact hf

/-- Whoever claims a game first still claims it after the pass. -/
theorem claimedGame_of_claimsFirst {db' : Db} {stats : ResolveStats} (hdb : db.Consistent)
    (h : resolveGames db = some (db', stats)) {f : String} {g : Int}
    (hf : ClaimsFirst db f g) : claimedGame db' f = some g := by
  obtain ⟨hsame, -, hmatched, -⟩ := resolveGames_spec hdb h
  unfold claimedGame
  rw [resolutionOf_of_sameContent hsame]
  have hclaimed := hf.1
  unfold claimedGame at hclaimed
  cases hr : resolutionOf db f with
  | none => exact (hmatched f g).mpr hf
  | some r => rwa [hr] at hclaimed

/-- A pass leaves the first claimant of each game first. -/
theorem claimsFirst_resolveGames {db' : Db} {stats : ResolveStats} (hdb : db.Consistent)
    (h : resolveGames db = some (db', stats)) (f : String) (g : Int) :
    ClaimsFirst db' f g ↔ ClaimsFirst db f g := by
  have hrank := rankKey_of_sameContent (resolveGames_spec hdb h).1
  constructor
  · intro hfirst
    have hclaimed := claimedGame_of_resolveGames hdb h hfirst.1
    refine ⟨hclaimed, fun f' hf' => ?_⟩
    -- a hidden orphan may be among the claimants, but then the first one is not hidden
    obtain ⟨f₁, hf₁, hle⟩ := Visibility.exists_claimsFirst hf'
    have hfirst₁ := hfirst.2 f₁ (claimedGame_of_claimsFirst hdb h hf₁)
    rw [hrank, hrank] at hfirst₁
    exact hfirst₁.trans hle
  · intro hfirst
    refine ⟨claimedGame_of_claimsFirst hdb h hfirst, fun f' hf' => ?_⟩
    rw [hrank, hrank]
    exact hfirst.2 f' (claimedGame_of_resolveGames hdb h hf')

omit [Text.UnicodeTables] [Numbers.Rounding] in
theorem gameMatches_dedupMatchedGames (db : Db) (f : String) :
    (dedupMatchedGames db).gameMatches.get? f =
      if f ∈ dedupSelect db then (db.gameMatches.get? f).map hiddenRow
      else db.gameMatches.get? f :=
  gameMatches_hideLosers _ f

/-- The second of two passes leaves every match row as it was. -/
theorem gameMatches_again {db₂ : Db} (hdb : db.Consistent)
    (hwrite : writeMatches db (passWrites db) = some db₁)
    (hwrite₂ : writeMatches (dedupMatchedGames db₁) (passWrites (dedupMatchedGames db₁)) =
      some db₂) (f : String) :
    (dedupMatchedGames db₂).gameMatches.get? f = (dedupMatchedGames db₁).gameMatches.get? f := by
  have hpass := resolveGames_eq db
  rw [hwrite, Option.bind_some] at hpass
  obtain ⟨hsame, hdb', hmatched, -⟩ := resolveGames_spec hdb hpass
  have hloser₁ := mem_dedupSelect_iff hdb hwrite f
  have hloser₂ := mem_dedupSelect_iff hdb' hwrite₂ f
  simp only [claimsFirst_resolveGames hdb hpass] at hloser₂
  rw [gameMatches_dedupMatchedGames, gameMatches_passWrites hwrite₂,
    resolutionOf_of_sameContent hsame]
  cases hr : resolutionOf db f with
  | none =>
      -- no orphan is still in the running that does not come first
      rw [if_neg]
      rw [hloser₂]
      rintro ⟨g, hclaimed, hnot⟩
      unfold claimedGame at hclaimed
      rw [resolutionOf_of_sameContent hsame, hr] at hclaimed
      exact hnot ((hmatched f g).mp hclaimed)
  | some r =>
      have hclaimed : claimedGame (dedupMatchedGames db₁) f = claimedGame db f := by
        unfold claimedGame
        rw [resolutionOf_of_sameContent hsame, hr]
      rw [hclaimed, ← hloser₁] at hloser₂
      rw [gameMatches_dedupMatchedGames, gameMatches_passWrites hwrite, hr]
      simp only [hloser₂]

/-- The second of two passes leaves every side with its team. -/
theorem sideTeam_again {db₂ : Db} (hdb : db.Consistent)
    (hwrite : writeMatches db (passWrites db) = some db₁)
    (hwrite₂ : writeMatches (dedupMatchedGames db₁) (passWrites (dedupMatchedGames db₁)) =
      some db₂) (f : String) (s : Side) :
    (dedupMatchedGames db₂).sideTeam f s = (dedupMatchedGames db₁).sideTeam f s := by
  have hpass := resolveGames_eq db
  rw [hwrite, Option.bind_some] at hpass
  have hpass₂ := resolveGames_eq (dedupMatchedGames db₁)
  rw [hwrite₂, Option.bind_some] at hpass₂
  obtain ⟨hsame, hdb', hmatched, hsides⟩ := resolveGames_spec hdb hpass
  obtain ⟨-, -, hmatched₂, hsides₂⟩ := resolveGames_spec hdb' hpass₂
  have hlinked : (dedupMatchedGames db₂).matchedGame f = (dedupMatchedGames db₁).matchedGame f := by
    refine Option.ext fun g => ?_
    rw [hmatched₂, hmatched, claimsFirst_resolveGames hdb hpass]
  cases hr : resolutionOf db f with
  | some r =>
      have hr' : resolutionOf (dedupMatchedGames db₁) f = some r := by
        rw [resolutionOf_of_sameContent hsame, hr]
      have hbind : ((dedupMatchedGames db₁).side? f s).bind (fun _ => r.team s) =
          (db.side? f s).bind fun _ => r.team s := by
        have hside := hsame.isSome_side? f s
        cases hrow : db.side? f s with
        | none =>
            rw [hrow, Option.isSome_none, Option.isSome_eq_false_iff,
              Option.isNone_iff_eq_none] at hside
            rw [hside]
        | some row =>
            rw [hrow] at hside
            obtain ⟨row', hrow'⟩ := Option.isSome_iff_exists.mp hside
            rw [hrow']
            rfl
      rw [hsides₂ f r hr', hsides f r hr, hlinked, hbind]
  | none =>
      have hafter := (@hideLosers_spec db₂ (dedupSelect db₂) f).2 s
      have hwritten := (passWrites_spec hwrite₂ f).2 s
      rw [resolutionOf_of_sameContent hsame, hr] at hwritten
      have hnot : f ∉ dedupSelect db₂ := by
        rw [mem_dedupSelect_iff hdb' hwrite₂]
        rintro ⟨g, hclaimed, hnot⟩
        unfold claimedGame at hclaimed
        rw [resolutionOf_of_sameContent hsame, hr] at hclaimed
        rw [claimsFirst_resolveGames hdb hpass] at hnot
        exact hnot ((hmatched f g).mp hclaimed)
      rw [if_neg hnot, hwritten] at hafter
      exact hafter

/-- The counts of a pass are those of what it writes. -/
theorem stats_of_resolveGames {db' : Db} {stats : ResolveStats}
    (h : resolveGames db = some (db', stats)) :
    stats = (passWrites db).foldl (fun stats w => stats.record w.2.method) ⟨0, 0, 0, 0, 0⟩ := by
  rw [resolveGames_eq] at h
  obtain ⟨db₁, -, hdone⟩ := Option.bind_eq_some_iff.mp h
  cases hdone
  rfl

/-- A pass over the state that a pass has left changes nothing and counts the same, whatever the
first one started from. -/
theorem resolveGames_idempotent {db' : Db} {stats : ResolveStats} (hdb : db.Consistent)
    (h : resolveGames db = some (db', stats)) : resolveGames db' = some (db', stats) := by
  obtain ⟨hsame, hdb', -⟩ := resolveGames_spec hdb h
  have hstats := stats_of_resolveGames h
  obtain ⟨db₁, hwrite, rfl⟩ := resolveGames_eq_some h
  obtain ⟨db₂, hwrite₂⟩ := passWrites_isSome hdb' fun w hw => hw
  have hpass₂ := resolveGames_eq (dedupMatchedGames db₁)
  rw [hwrite₂, Option.bind_some] at hpass₂
  obtain ⟨hsame₂, -⟩ := resolveGames_spec hdb' hpass₂
  have hmatches : (dedupMatchedGames db₂).gameMatches = (dedupMatchedGames db₁).gameMatches :=
    Table.ext_get? (gameMatches_again hdb hwrite hwrite₂)
  have hsides := statsbookSides_eq hsame₂ (sideTeam_again hdb hwrite hwrite₂)
  have heq : dedupMatchedGames db₂ = dedupMatchedGames db₁ := by
    cases hdb₁ : dedupMatchedGames db₁
    cases hdb₂ : dedupMatchedGames db₂
    rw [hdb₁, hdb₂] at hmatches hsides hsame₂
    obtain ⟨hteams, hgames, hbooks, hbookGames, hskaters, hsummary, -⟩ := hsame₂
    simp only at hteams hgames hbooks hbookGames hskaters hsummary hmatches hsides
    subst hteams hgames hbooks hbookGames hskaters hsummary hmatches hsides
    rfl
  rw [hpass₂, heq, passWrites_of_sameContent hsame, hstats]

end Resolve

/-! ## Stages do not read what passes write -/

theorem Db.SameContent.symm {db db' : Db} (h : Db.SameContent db db') : Db.SameContent db' db where
  wftdaTeams := h.wftdaTeams.symm
  wftdaGames := h.wftdaGames.symm
  statsbooks := h.statsbooks.symm
  statsbookGames := h.statsbookGames.symm
  statsbookSkaters := h.statsbookSkaters.symm
  statsbookSummary := h.statsbookSummary.symm
  sides f s := (h.sides f s).symm

section Stages

variable [Text.UnicodeTables] {db db' : Db} {sides : Table SideKey StatsbookSide}
  {games : Table String GameMatch}

end Stages

/-! ## Passes between the stages -/

section Between

variable [Text.UnicodeTables] [Numbers.Rounding] {db : Db}

open Visibility (Step step Inv LinkedHaveContent SkipsUnlinked)

end Between

/-! ## Passes between the uploads of a game -/

section Example

attribute [local instance] Text.asciiTables Numbers.f64

open Visibility

/-- A pass after the pass over the placeholder of a visible file changes nothing. -/
theorem resolveGames_idempotent_placeholderRun :
    Resolve.resolveGames (passAfter placeholderRun).1 = some (passAfter placeholderRun) :=
  resolveGames_idempotent
    (run_invariant inv_step inv_empty (run_stateAfter (by decide +kernel))).consistent
    (resolveGames_stateAfter (by decide +kernel))

end Example

end Statskboo
