import Statskboo.Ingest.TeamListing
import Statskboo.Ingest.Wftda
import Statskboo.Lib.UniqueColumn

/-!
# The slugs of the teams

The team sync joins the slugs of the listing to the teams of the API by exact title, and a
team without a listed title keeps the slug that it has.  The schema wants slugs to be
unique, so one collision rolls the whole sync back.

Main results:

- Theorem {lit}`foldlM_upsertTeam`: the upserts are those of a column without repeated
  values.
- Theorem {lit}`syncTeamsFrom_succeeds_iff`: the sync stores its teams exactly when the slugs
  of the listing are free.
-/

namespace Statskboo
namespace Wftda

open KeyedTable

/-- {lit}`TEAM_LISTING_PAGES`. -/
def teamListingPages : Nat := 12

/-- The answer of {lit}`/api/teams`. -/
structure TeamsEnvelope where
  success : Bool
  data : List ApiTeam

/-- What stops the team sync: a request, {lit}`success=false`, or the database. -/
inductive TeamSyncError where
  | teams
  | unsuccessful
  | listing (page : Nat)
  | database
deriving DecidableEq, Repr

/-- The slugs of the listing under their titles, from a page on; a later one replaces an
earlier one.  A page without teams is the last one. -/
def listingSlugs (fetch : Nat → Option String) :
    Nat → Nat → Table String String → Except TeamSyncError (Table String String)
  | 0, _, slugs => .ok slugs
  | pages + 1, page, slugs =>
      match (fetch page).bind parseTeamListing with
      | none => .error (.listing page)
      | some pairs =>
          if pairs.isEmpty then .ok slugs
          else
            listingSlugs fetch pages (page + 1) (pairs.foldl (fun t p => t.upsert p.2 p.1) slugs)

/-- The upserts of the teams with the slugs of their titles. -/
def upsertTeams (slugs : Table String String) (teams : List ApiTeam) (db : Db) : Option Db :=
  teams.foldlM (fun db team => upsertTeam db team (slugs.get? team.title)) db

/-- Stage 1 with its requests: the tables and the number of teams, or the error. -/
def syncTeamsFrom (api : Option TeamsEnvelope) (fetch : Nat → Option String) (db : Db) :
    Except TeamSyncError (Db × Nat) :=
  match api with
  | none => .error .teams
  | some envelope =>
      if !envelope.success then .error .unsuccessful
      else
        match listingSlugs fetch teamListingPages 1 Table.empty with
        | .error e => .error e
        | .ok slugs =>
            match upsertTeams slugs envelope.data db with
            | none => .error .database
            | some db' => .ok (db', envelope.data.length)

/-! ## The column of slugs -/

variable {db db' : Db} {teams : List ApiTeam} {slugs : Table String String}

/-- The slug of a team. -/
def slugColumn (db : Db) (id : Int) : Option String :=
  (db.wftdaTeams.get? id).bind WftdaTeam.slug

/-- The row that an upsert leaves. -/
def teamRow (db : Db) (team : ApiTeam) (slug : Option String) : WftdaTeam where
  title := team.title
  shortName := team.shortName
  slug := slug.or (slugColumn db team.id)
  region := team.region
  regionId := team.regionId
  location := team.location
  inTeamsApi := true

/-- The upsert of a team is that of a column without repeated values. -/
theorem upsertTeam_eq_some_iff {team : ApiTeam} {slug : Option String} :
    upsertTeam db team slug = some db' ↔
      UniqueColumn.Accepts (slugColumn db) team.id slug ∧
        db' = { db with wftdaTeams := db.wftdaTeams.upsert team.id (teamRow db team slug) } := by
  have haccepts : (∀ r ∈ db.wftdaTeams.rows, r.1 ≠ team.id →
      (slug.or (slugColumn db team.id)).isSome = true →
        r.2.slug ≠ slug.or (slugColumn db team.id)) ↔
      UniqueColumn.Accepts (slugColumn db) team.id slug := by
    constructor
    · intro h id s hid hs hheld
      obtain ⟨row, hrow, hslug⟩ := Option.bind_eq_some_iff.mp hheld
      exact h (id, row) (Table.mem_rows_iff.mpr hrow) hid (by rw [hs]; rfl) (hslug.trans hs.symm)
    · rintro h ⟨id, row⟩ hrow hid hsome hslug
      obtain ⟨s, hs⟩ := Option.isSome_iff_exists.mp hsome
      refine h id s hid hs (Option.bind_eq_some_iff.mpr ⟨row, Table.mem_rows_iff.mp hrow, ?_⟩)
      exact hslug.trans hs
  rw [← haccepts]
  unfold upsertTeam
  constructor
  · intro h
    dsimp only at h
    split_ifs at h with hfree
    exact ⟨hfree, (Option.some.inj h).symm⟩
  · rintro ⟨hfree, rfl⟩
    exact if_pos hfree

theorem slugColumn_upsert (db : Db) (team : ApiTeam) (slug : Option String) :
    slugColumn { db with wftdaTeams := db.wftdaTeams.upsert team.id (teamRow db team slug) } =
      UniqueColumn.coalesce (slugColumn db) team.id slug := by
  funext id
  change ((db.wftdaTeams.upsert team.id (teamRow db team slug)).get? id).bind WftdaTeam.slug = _
  rw [Table.get?_upsert]
  split_ifs with hid
  · rw [hid]
    exact UniqueColumn.coalesce_self.symm
  · change slugColumn db id = _
    exact (UniqueColumn.coalesce_of_ne hid).symm

theorem teamRow_congr {team : ApiTeam} (h : slugColumn db' team.id = slugColumn db team.id)
    (slug : Option String) : teamRow db' team slug = teamRow db team slug := by
  unfold teamRow
  rw [h]

/-- The slugs that the listing gives to the teams. -/
def givenSlugs (slugs : Table String String) (teams : List ApiTeam) : List (Int × Option String) :=
  teams.map fun team => (team.id, slugs.get? team.title)

theorem isSome_upsertTeams :
    (upsertTeams slugs teams db).isSome = true ↔
      UniqueColumn.AllAccepted (slugColumn db) (givenSlugs slugs teams) := by
  unfold upsertTeams
  induction teams generalizing db with
  | nil => exact iff_of_true rfl trivial
  | cons team teams ih =>
      rw [List.foldlM_cons, givenSlugs, List.map_cons]
      cases hstep : upsertTeam db team (slugs.get? team.title) with
      | none =>
          refine iff_of_false (by simp) fun h => ?_
          rw [upsertTeam_eq_some_iff.mpr ⟨h.1, rfl⟩] at hstep
          cases hstep
      | some db₁ =>
          obtain ⟨haccepts, rfl⟩ := upsertTeam_eq_some_iff.mp hstep
          have hcolumn := slugColumn_upsert db team (slugs.get? team.title)
          rw [Option.bind_eq_bind, Option.bind_some, ih, hcolumn]
          exact (and_iff_right haccepts).symm

/-- What the upserts of teams with different ids leave: unique slugs, the row of each team,
and the other rows as they were. -/
theorem upsertTeams_spec (hunique : UniqueColumn.Unique (slugColumn db))
    (hnodup : (teams.map ApiTeam.id).Nodup) (h : upsertTeams slugs teams db = some db') :
    UniqueColumn.Unique (slugColumn db') ∧
      (∀ team ∈ teams, db'.wftdaTeams.get? team.id =
        some (teamRow db team (slugs.get? team.title))) ∧
      ∀ id ∉ teams.map ApiTeam.id, db'.wftdaTeams.get? id = db.wftdaTeams.get? id := by
  unfold upsertTeams at h
  induction teams generalizing db with
  | nil =>
      cases h
      exact ⟨hunique, fun team hteam => (nomatch hteam), fun id _ => rfl⟩
  | cons team teams ih =>
      obtain ⟨db₁, hstep, hrest⟩ := Option.bind_eq_some_iff.mp h
      obtain ⟨haccepts, rfl⟩ := upsertTeam_eq_some_iff.mp hstep
      rw [List.map_cons, List.nodup_cons] at hnodup
      have hcolumn := slugColumn_upsert db team (slugs.get? team.title)
      have hunique₁ := UniqueColumn.unique_coalesce hunique haccepts
      rw [← hcolumn] at hunique₁
      obtain ⟨hunique', hstored, hothers⟩ := ih hunique₁ hnodup.2 hrest
      refine ⟨hunique', fun other hother => ?_, fun id hid => ?_⟩
      · rcases List.mem_cons.mp hother with rfl | hmem
        · rw [hothers _ hnodup.1, Table.get?_upsert_self]
        · have hne : other.id ≠ team.id := fun heq =>
            hnodup.1 (heq ▸ List.mem_map_of_mem hmem)
          rw [hstored other hmem]
          refine congrArg some (teamRow_congr ?_ _)
          rw [hcolumn, UniqueColumn.coalesce_of_ne hne]
      · rw [List.map_cons, List.mem_cons, not_or] at hid
        rw [hothers id hid.2, Table.get?_upsert_of_ne _ _ hid.1]

/-! ## The whole sync -/

/-- The slugs of the listing under their titles. -/
def listedSlugs (pages : Nat → String) : Table String String :=
  match listingSlugs (fun page => some (pages page)) teamListingPages 1 Table.empty with
  | .ok slugs => slugs
  | .error _ => Table.empty

/-- From pages that are all served the listing is read. -/
theorem listingSlugs_served (pages : Nat → String) (n page : Nat) (slugs : Table String String) :
    ∃ slugs', listingSlugs (fun page => some (pages page)) n page slugs = .ok slugs' := by
  induction n generalizing page slugs with
  | zero => exact ⟨slugs, rfl⟩
  | succ n ih =>
      obtain ⟨pairs, hpairs⟩ := Option.isSome_iff_exists.mp (isSome_parseTeamListing (pages page))
      rw [listingSlugs, Option.bind_some, hpairs]
      dsimp only
      split_ifs
      · exact ⟨slugs, rfl⟩
      · exact ih _ _

theorem syncTeamsFrom_served (teams : List ApiTeam) (pages : Nat → String) (db : Db) :
    syncTeamsFrom (some { success := true, data := teams }) (fun page => some (pages page)) db =
      match upsertTeams (listedSlugs pages) teams db with
      | none => .error .database
      | some db' => .ok (db', teams.length) := by
  obtain ⟨slugs, hslugs⟩ := listingSlugs_served pages teamListingPages 1 Table.empty
  unfold syncTeamsFrom listedSlugs
  rw [hslugs]
  rfl

/-- What the listing amounts to is one list of slugs and titles. -/
theorem listingSlugs_eq_foldl {fetch : Nat → Option String} {n page : Nat}
    {slugs slugs' : Table String String} (h : listingSlugs fetch n page slugs = .ok slugs') :
    ∃ listing : List (String × String),
      slugs' = listing.foldl (fun t p => t.upsert p.2 p.1) slugs := by
  induction n generalizing page slugs with
  | zero =>
      cases h
      exact ⟨[], rfl⟩
  | succ n ih =>
      rw [listingSlugs] at h
      cases hpairs : (fetch page).bind parseTeamListing with
      | none =>
          rw [hpairs] at h
          cases h
      | some pairs =>
          rw [hpairs] at h
          dsimp only at h
          split_ifs at h
          · cases h
            exact ⟨[], rfl⟩
          · obtain ⟨listing, rfl⟩ := ih h
            exact ⟨pairs ++ listing, (List.foldl_append ..).symm⟩

/-- A sync that goes through is the sync of its teams with some listing. -/
theorem exists_syncTeams {api : Option TeamsEnvelope} {fetch : Nat → Option String} {n : Nat}
    (h : syncTeamsFrom api fetch db = .ok (db', n)) :
    ∃ teams listing, syncTeams db teams listing = some db' := by
  unfold syncTeamsFrom at h
  cases api with
  | none => cases h
  | some envelope =>
      dsimp only at h
      split_ifs at h
      cases hslugs : listingSlugs fetch teamListingPages 1 Table.empty with
      | error e =>
          rw [hslugs] at h
          cases h
      | ok slugs =>
          rw [hslugs] at h
          dsimp only at h
          obtain ⟨listing, rfl⟩ := listingSlugs_eq_foldl hslugs
          cases hupserts : upsertTeams
              (listing.foldl (fun t p => t.upsert p.2 p.1) Table.empty) envelope.data db with
          | none =>
              rw [hupserts] at h
              cases h
          | some db₁ =>
              rw [hupserts] at h
              cases h
              exact ⟨envelope.data, listing, hupserts⟩

/-- The sync goes through: every team of the list is stored with its own data, and no two
teams have the same slug. -/
def SyncSucceeds (db : Db) (teams : List ApiTeam) (pages : Nat → String) : Prop :=
  ∃ db', syncTeamsFrom (some { success := true, data := teams }) (fun page => some (pages page)) db =
      .ok (db', teams.length) ∧
    UniqueColumn.Unique (slugColumn db') ∧
    ∀ team ∈ teams, db'.wftdaTeams.get? team.id =
      some (teamRow db team ((listedSlugs pages).get? team.title))

/-- The sync stores its teams exactly when each slug of the listing is given to one team
only, and held by no other team but an earlier one that is given another slug. -/
theorem syncTeamsFrom_succeeds_iff (hunique : UniqueColumn.Unique (slugColumn db))
    (hnodup : (teams.map ApiTeam.id).Nodup) (pages : Nat → String) :
    SyncSucceeds db teams pages ↔
      UniqueColumn.Free (slugColumn db) (givenSlugs (listedSlugs pages) teams) := by
  have hkeys : ((givenSlugs (listedSlugs pages) teams).map Prod.fst).Nodup := by
    unfold givenSlugs
    rwa [List.map_map]
  rw [← UniqueColumn.allAccepted_iff hunique hkeys, ← isSome_upsertTeams]
  unfold SyncSucceeds
  rw [syncTeamsFrom_served]
  cases hupserts : upsertTeams (listedSlugs pages) teams db with
  | none => simp
  | some db' =>
      obtain ⟨hunique', hstored, -⟩ := upsertTeams_spec hunique hnodup hupserts
      exact iff_of_true ⟨db', rfl, hunique', hstored⟩ rfl

/-! ## A title that two teams share -/

section Example

/-- A team with a title. -/
def titledTeam (id : Int) (title : String) : ApiTeam where
  id := id
  title := title
  shortName := none
  region := none
  regionId := none
  location := none

/-- A listing of one team. -/
def onePage : Nat → String
  | 1 => "<a href=\"https://stats.wftda.com/team/rose-city\">" ++
      "<h3 class=\"teamsTeam--title\">Rose City</h3></a>"
  | _ => ""

/-- A listing of two teams. -/
def twoTeamsPage : Nat → String
  | 1 => onePage 1 ++ "<a href=\"https://stats.wftda.com/team/gotham\">" ++
      "<h3 class=\"teamsTeam--title\">Gotham</h3></a>"
  | _ => ""

/-- A table in which the first team still holds the slug that the second one is to have. -/
def movedSlugDb : Db :=
  { Db.empty with
    wftdaTeams := Table.empty.upsert 1
      (teamRow Db.empty (titledTeam 1 "Rose City") (some "gotham")) }

theorem slugColumn_movedSlugDb {id : Int} {slug : String}
    (h : slugColumn movedSlugDb id = some slug) : id = 1 ∧ slug = "gotham" := by
  rw [slugColumn, movedSlugDb, Table.get?_upsert] at h
  split_ifs at h with hid
  · cases h
    exact ⟨hid, rfl⟩
  · rw [Table.get?_empty] at h
    cases h

theorem unique_movedSlugDb : UniqueColumn.Unique (slugColumn movedSlugDb) := by
  intro id id' slug h h'
  rw [(slugColumn_movedSlugDb h).1, (slugColumn_movedSlugDb h').1]

/-- The slug of the second team is free, since the first one is given another before. -/
theorem syncSucceeds_movedSlug :
    SyncSucceeds movedSlugDb [titledTeam 1 "Rose City", titledTeam 2 "Gotham"] twoTeamsPage := by
  refine (syncTeamsFrom_succeeds_iff unique_movedSlugDb (by decide) twoTeamsPage).mpr ?_
  have hgiven : givenSlugs (listedSlugs twoTeamsPage)
      [titledTeam 1 "Rose City", titledTeam 2 "Gotham"] =
        [(1, some "rose-city"), (2, some "gotham")] := by decide +kernel
  rw [hgiven]
  intro before id slug after hsplit
  match before with
  | [] =>
      cases hsplit
      refine ⟨fun r hr => (nomatch hr), fun id' _ hheld => ?_⟩
      exact absurd (slugColumn_movedSlugDb hheld).2 (by decide)
  | [r] =>
      cases hsplit
      refine ⟨by decide, fun id' _ hheld => ?_⟩
      obtain ⟨rfl, -⟩ := slugColumn_movedSlugDb hheld
      exact ⟨_, List.mem_singleton_self _, rfl, by decide⟩
  | _ :: _ :: before => cases before <;> cases hsplit

theorem unique_slugColumn_empty : UniqueColumn.Unique (slugColumn Db.empty) :=
  fun _ _ _ h => nomatch h

/-- Two teams with one title are given one slug, and none of the list is stored. -/
theorem not_syncSucceeds :
    ¬ ∀ (db : Db) (teams : List ApiTeam) (pages : Nat → String),
      UniqueColumn.Unique (slugColumn db) → (teams.map ApiTeam.id).Nodup →
      SyncSucceeds db teams pages := by
  intro h
  obtain ⟨db', hsync, -⟩ := h Db.empty [titledTeam 1 "Rose City", titledTeam 2 "Rose City"] onePage
    unique_slugColumn_empty (by decide)
  have hnone : (upsertTeams (listedSlugs onePage)
      [titledTeam 1 "Rose City", titledTeam 2 "Rose City"] Db.empty).isNone = true := by
    decide +kernel
  rw [syncTeamsFrom_served, Option.isNone_iff_eq_none.mp hnone] at hsync
  cases hsync

end Example

end Wftda
end Statskboo
