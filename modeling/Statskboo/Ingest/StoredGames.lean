import Statskboo.Ingest.Library
import Statskboo.Ingest.ResultsScan
import Statskboo.Ingest.TeamSlugs

/-!
# The references to teams and games

The schema keeps a game to its two teams, a link of a statsbook to its game and an assigned side
to its team by foreign keys, and no stage deletes a team or a game.  So every join of the pages
over these references finds its row.

Main results:

- Theorem {lit}`References.step`: every step of the ingest keeps the references.
- Theorem {lit}`references_run`: they hold in every state that is reached.
-/

namespace Statskboo

open KeyedTable Resolve Transition

/-- Teams and games that are referred to are stored, and stored games are usable results of the
statsbook era. -/
structure References (db : Db) : Prop where
  teams : ∀ g row, db.wftdaGames.get? g = some row →
    db.wftdaTeams.has row.team1Id = true ∧ db.wftdaTeams.has row.team2Id = true
  usable : ∀ g row, db.wftdaGames.get? g = some row → Wftda.statsbookEraStart ≤ row.date ∧
    Wftda.fitsI16 row.team1Score = true ∧ Wftda.fitsI16 row.team2Score = true
  linked : ∀ f g, db.matchedGame f = some g → db.wftdaGames.has g = true
  assigned : ∀ f s t, db.sideTeam f s = some t → db.wftdaTeams.has t = true

namespace References

variable {db db' : Db}

theorem empty : References Db.empty where
  teams _ _ h := by cases h
  usable _ _ h := by cases h
  linked _ _ h := by cases h
  assigned _ _ _ h := by cases h

/-! ## The stages -/

/-- A step that keeps teams and games, and brings no new link and no new assigned side. -/
theorem of_le (h : References db) (hteams : db'.wftdaTeams = db.wftdaTeams)
    (hgames : db'.wftdaGames = db.wftdaGames)
    (hlinked : ∀ f g, db'.matchedGame f = some g → db.matchedGame f = some g)
    (hassigned : ∀ f s t, db'.sideTeam f s = some t → db.sideTeam f s = some t) :
    References db' where
  teams g row hrow := by
    rw [hgames] at hrow
    rw [hteams]
    exact h.teams g row hrow
  usable g row hrow := by
    rw [hgames] at hrow
    exact h.usable g row hrow
  linked f g hlink := by
    rw [hgames]
    exact h.linked f g (hlinked f g hlink)
  assigned f s t hside := by
    rw [hteams]
    exact h.assigned f s t (hassigned f s t hside)

/-- A step of the sync that keeps the teams that there are. -/
theorem of_sameFiles (h : References db) (hsame : Wftda.SameFiles db db')
    (hteams : ∀ t, db.wftdaTeams.has t = true → db'.wftdaTeams.has t = true)
    (hgames : ∀ g row, db'.wftdaGames.get? g = some row →
      db.wftdaGames.get? g = some row ∨
        (db'.wftdaTeams.has row.team1Id = true ∧ db'.wftdaTeams.has row.team2Id = true) ∧
        Wftda.statsbookEraStart ≤ row.date ∧ Wftda.fitsI16 row.team1Score = true ∧
        Wftda.fitsI16 row.team2Score = true)
    (hkept : ∀ g, db.wftdaGames.has g = true → db'.wftdaGames.has g = true) :
    References db' where
  teams g row hrow := by
    rcases hgames g row hrow with hold | ⟨hnew, -⟩
    · exact ⟨hteams _ (h.teams g row hold).1, hteams _ (h.teams g row hold).2⟩
    · exact hnew
  usable g row hrow := by
    rcases hgames g row hrow with hold | ⟨-, hnew⟩
    · exact h.usable g row hold
    · exact hnew
  linked f g hlink := by
    unfold Db.matchedGame at hlink
    rw [hsame.gameMatches] at hlink
    exact hkept g (h.linked f g hlink)
  assigned f s t hside := by
    unfold Db.sideTeam Db.side? at hside
    rw [hsame.statsbookSides] at hside
    exact hteams t (h.assigned f s t hside)

theorem syncTeams (h : References db) {teams : List Wftda.ApiTeam}
    {listing : List (String × String)} (hsync : Wftda.syncTeams db teams listing = some db') :
    References db' := by
  have hsteps : ∀ {slugs : Table String String} {teams : List Wftda.ApiTeam} {db : Db},
      teams.foldlM (fun db team => Wftda.upsertTeam db team (slugs.get? team.title)) db =
        some db' →
      db'.wftdaGames = db.wftdaGames ∧
        ∀ t, db.wftdaTeams.has t = true → db'.wftdaTeams.has t = true := by
    intro slugs teams
    induction teams with
    | nil =>
        intro db hsteps
        cases hsteps
        exact ⟨rfl, fun _ => id⟩
    | cons team teams ih =>
        intro db hsteps
        obtain ⟨db₁, hteam, hrest⟩ := Option.bind_eq_some_iff.mp hsteps
        obtain ⟨-, rfl⟩ := Wftda.upsertTeam_eq_some_iff.mp hteam
        obtain ⟨hgames, hteams⟩ := ih hrest
        refine ⟨hgames, fun t ht => hteams t ?_⟩
        rw [Table.has_upsert, ht, Bool.or_true]
  obtain ⟨hgames, hteams⟩ := hsteps hsync
  refine h.of_sameFiles (Wftda.sameFiles_syncTeams hsync) hteams ?_ ?_
  · intro g row hrow
    rw [hgames] at hrow
    exact Or.inl hrow
  · intro g hg
    rwa [hgames]

/-- Games are taken for stored teams only. -/
theorem upsertGames {games : List (Int × WftdaGame)} (h : References db)
    (husable : ∀ game ∈ games, Wftda.statsbookEraStart ≤ game.2.date ∧
      Wftda.fitsI16 game.2.team1Score = true ∧ Wftda.fitsI16 game.2.team2Score = true)
    (hgames : games.foldlM Wftda.upsertGame db = some db') : References db' := by
  induction games generalizing db with
  | nil =>
      cases hgames
      exact h
  | cons game games ih =>
      obtain ⟨db₁, hgame, hrest⟩ := Option.bind_eq_some_iff.mp hgames
      refine ih ?_ (fun g hg => husable g (List.mem_cons_of_mem game hg)) hrest
      have hsame := Wftda.sameFiles_upsertGame hgame
      unfold Wftda.upsertGame at hgame
      split_ifs at hgame with hteams
      cases hgame
      rw [Bool.and_eq_true] at hteams
      refine h.of_sameFiles hsame (fun _ => id) (fun g row hrow => ?_) fun g hg => ?_
      · rw [Table.get?_upsert] at hrow
        split_ifs at hrow with hg
        · cases hrow
          exact Or.inr ⟨hteams, husable game List.mem_cons_self⟩
        · exact Or.inl hrow
      · rw [Table.has_upsert, hg, Bool.or_true]

theorem insertStub (h : References db) (stub : Int × String) :
    References (Wftda.insertStub db stub) := by
  have hsame : Wftda.SameFiles db (Wftda.insertStub db stub) := Wftda.sameFiles_insertStub stub
  unfold Wftda.insertStub at hsame ⊢
  split_ifs at hsame ⊢ with hhas
  · exact h
  · refine h.of_sameFiles hsame (fun t ht => ?_) (fun _ _ => Or.inl) fun _ => id
    rw [Table.has_upsert, ht, Bool.or_true]

theorem syncGames (h : References db) {results : List Wftda.ApiResult}
    (hsync : Wftda.syncGames db results = some db') : References db' := by
  have hstubs : ∀ (stubs : List (Int × String)) (db : Db), References db →
      References (stubs.foldl Wftda.insertStub db) := by
    intro stubs
    induction stubs with
    | nil => exact fun _ => id
    | cons stub stubs ih => exact fun db h => ih _ (h.insertStub stub)
  refine (hstubs _ db h).upsertGames (fun game hgame => ?_) hsync
  obtain ⟨r, -, hrow⟩ := List.mem_filterMap.mp hgame
  obtain ⟨score1, score2, hqualifies, rfl⟩ := Wftda.gameRow_eq_some_iff.mp hrow
  exact ⟨hqualifies.era, decide_eq_true hqualifies.range1, decide_eq_true hqualifies.range2⟩

/-- No stage links a statsbook or assigns a side. -/
theorem stage [Text.UnicodeTables] (h : References db) (a : Stage) : References (a.exec db) := by
  have hmatched := fun f g => @Stage.matchedGame_exec _ db a f g
  cases a with
  | upsertStatsbook now f name quarter mimeType modifiedTime =>
      exact h.of_le rfl rfl hmatched fun _ _ _ => id
  | storeParsedGame f game date =>
      rcases Stage.storeParsedGame_cases db f game date with
        hsame | ⟨-, hskipped⟩ | ⟨-, hstored⟩
      · rw [hsame]
        exact h
      · refine h.of_le (by rw [hskipped]; rfl) (by rw [hskipped]; rfl) hmatched ?_
        intro f' s t hside
        rw [hskipped] at hside
        change ((Parse.deleteParsedRows db f).side? f' s).bind _ = some t at hside
        rw [Parse.side?_deleteParsedRows] at hside
        split_ifs at hside
        · cases hside
        · exact hside
      · refine h.of_le hstored.wftdaTeams hstored.wftdaGames hmatched ?_
        intro f' s t hside
        unfold Db.sideTeam at hside ⊢
        rw [hstored.side?] at hside
        split_ifs at hside
        · cases hside
        · exact hside
  | setFailed f error => exact h.of_le rfl rfl hmatched fun _ _ _ => id
  | markRemoved seenBefore =>
      refine h.of_le rfl rfl hmatched ?_
      intro f s t hside
      simp only [Stage.exec, Index.markRemoved, Db.deleteStatsbooks, Db.sideTeam, Db.side?,
        Table.get?_filter, Option.bind_eq_some_iff, Option.filter_eq_some_iff] at hside
      obtain ⟨row, ⟨hrow, -⟩, ht⟩ := hside
      exact Option.bind_eq_some_iff.mpr ⟨row, hrow, ht⟩
  | syncTeams teams listing =>
      rw [Stage.exec]
      cases hsync : Wftda.syncTeams db teams listing with
      | none => exact h
      | some db' => exact h.syncTeams hsync
  | syncGames results =>
      rw [Stage.exec]
      cases hsync : Wftda.syncGames db results with
      | none => exact h
      | some db' => exact h.syncGames hsync

/-! ## The passes -/

theorem writeMatch (h : References db) {w : String × Resolution}
    (hwrite : Resolve.writeMatch db w = some db') : References db' := by
  have hsame := sameContent_writeMatch hwrite
  obtain ⟨⟨-, hgame⟩, hteam, rfl⟩ := writeMatch_eq_some.mp hwrite
  refine ⟨h.teams, h.usable, fun f g hlink => ?_, fun f s t hside => ?_⟩
  · change ((db.gameMatches.upsert w.1 (matchRow w.2)).get? f).bind _ = some g at hlink
    rw [Table.get?_upsert] at hlink
    split_ifs at hlink with hf
    · exact hgame g hlink
    · exact h.linked f g hlink
  · rw [Db.sideTeam_setSideTeams] at hside
    split_ifs at hside with hf
    · obtain ⟨row, hrow, ht⟩ := Option.bind_eq_some_iff.mp hside
      rw [hf] at hrow
      exact hteam s (Option.isSome_of_eq_some hrow) t ht
    · exact h.assigned f s t hside

theorem writeMatches (h : References db) {ws : List (String × Resolution)}
    (hwrite : Resolve.writeMatches db ws = some db') : References db' := by
  induction ws generalizing db with
  | nil =>
      cases hwrite
      exact h
  | cons w ws ih =>
      obtain ⟨db₁, hw, hrest⟩ := Option.bind_eq_some_iff.mp hwrite
      exact ih (h.writeMatch hw) hrest

theorem hideLosers (h : References db) (losers : List String) :
    References (Resolve.hideLosers db losers) := by
  have hsame := @sameContent_hideLosers db losers
  refine h.of_le hsame.wftdaTeams hsame.wftdaGames (fun f g hlink => ?_) fun f s t hside => ?_
  · rw [(hideLosers_spec losers f).1] at hlink
    split_ifs at hlink
    exact hlink
  · rw [(hideLosers_spec losers f).2] at hside
    split_ifs at hside
    exact hside

section Passes

variable [Text.UnicodeTables] [Numbers.Rounding]

theorem resolveGames (h : References db) {stats : ResolveStats}
    (hpass : Resolve.resolveGames db = some (db', stats)) : References db' := by
  obtain ⟨db₁, hwrite, rfl⟩ := resolveGames_eq_some hpass
  exact (h.writeMatches hwrite).hideLosers _

/-- Every step of the ingest keeps the references. -/
theorem step (hdb : db.Consistent) (h : References db) {a : Visibility.Step}
    (hstep : Visibility.step db a = some db') : References db' := by
  cases a with
  | stage a =>
      cases hstep
      exact h.stage a
  | resolveGames =>
      obtain ⟨⟨db₁, stats⟩, hpass, rfl⟩ := Option.map_eq_some_iff.mp hstep
      exact h.resolveGames hpass
  | resolveFailing calls =>
      cases hstep
      by_cases hcalls : calls < (passCalls db).length
      · exact h.writeMatches (stateAfterError_eq hdb hcalls)
      · obtain ⟨stats, hpass⟩ := stateAfterError_of_length_le hdb (not_lt.mp hcalls)
        exact h.resolveGames hpass

end Passes

end References

/-- The references hold in every state that the ingest reaches. -/
theorem references_run [Text.UnicodeTables] [Numbers.Rounding] {db db' : Db}
    {steps : List Visibility.Step} (hdb : db.Consistent) (h : References db)
    (hrun : run Visibility.step db steps = some db') : References db' := by
  refine (run_invariant (P := fun db => db.Consistent ∧ References db) ?_ ⟨hdb, h⟩ hrun).2
  rintro db a db' ⟨hdb, href⟩ hstep
  exact ⟨consistent_step hdb hstep, href.step hdb hstep⟩

end Statskboo
