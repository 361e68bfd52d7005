import Statskboo.Lib.Selection
import Statskboo.Lib.TopRows
import Statskboo.Web.TeamPage

/-!
# The players of the search page

The roster rows whose names match come in no order.  Those of one team, canonical name and
number are one player, who is shown under the best of the names.  Names are compared by
their length, their capitals and their lowercase text, and two names can agree in all of
these; the first one of them is shown then.

Main results:

- Theorem {lit}`shownName_eq`: a player is shown under the best of the names in the rows.
- Theorem {lit}`nodup_of_lists`: a team, number and canonical name have one line at most.
- Theorem {lit}`orderFree_iff`: the name does not depend on the order of the rows exactly
  when no two names of a player are both best.
-/

namespace Statskboo
namespace Search

open Canon KeyedTable Selection Text

/-! ## Grouping the rows -/

/-- A roster row whose name matches. -/
structure SkaterHit where
  driveFileId : String
  side : Side
  name : String
  nameCanonical : String
  number : String
deriving DecidableEq, Repr

/-- The team that a side is assigned to. -/
structure SideTeam where
  teamId : Int
  teamTitle : String
  teamSlug : String
deriving DecidableEq, Repr

/-- A player on the page. -/
structure PlayerResult where
  teamId : Int
  teamTitle : String
  teamSlug : String
  name : String
  number : String
deriving DecidableEq, Repr

/-- What makes a player: team, canonical name and number. -/
abbrev PlayerKey := Int ×ₗ String ×ₗ String

/-- The rows of a player. -/
structure PlayerGroup where
  teamTitle : String
  teamSlug : String
  names : List String
deriving DecidableEq, Repr

/-- The team of a side, for the files that are linked to a WFTDA game. -/
def sideTeams (db : Db) (f : String) (side : Side) : Option SideTeam := do
  let teamId ← db.sideTeam f side
  let team ← db.wftdaTeams.get? teamId
  let _ ← db.matchedGame f
  some
    { teamId
      teamTitle := team.title
      teamSlug := TeamPage.path teamId team }

/-- The player of a row. -/
def playerKey (team : SideTeam) (r : SkaterHit) : PlayerKey :=
  toLex (team.teamId, toLex (r.nameCanonical, r.number))

/-- Put a row to its player; a row without a team contributes nothing. -/
def addHit (db : Db) (playerGroups : Table PlayerKey PlayerGroup) (r : SkaterHit) :
    Table PlayerKey PlayerGroup :=
  match sideTeams db r.driveFileId r.side with
  | none => playerGroups
  | some team =>
      let entry := (playerGroups.get? (playerKey team r)).getD
        ⟨team.teamTitle, team.teamSlug, []⟩
      playerGroups.upsert (playerKey team r) { entry with names := entry.names ++ [r.name] }

/-- The rows by player. -/
def playerGroups (db : Db) (skaterHits : List SkaterHit) : Table PlayerKey PlayerGroup :=
  skaterHits.foldl (addHit db) Table.empty

section Players

variable [CaseTables]

/-- What the page shows of a player. -/
def playerResult (key : PlayerKey) (group : PlayerGroup) : PlayerResult where
  teamId := (ofLex key).1
  teamTitle := group.teamTitle
  teamSlug := group.teamSlug
  name := (bestName group.names).getD ""
  number := (ofLex (ofLex key).2).2

/-- The sort key of the players: name, number and title of the team. -/
def PlayerResult.rank (r : PlayerResult) : String ×ₗ String ×ₗ String :=
  toLex (r.name, toLex (r.number, r.teamTitle))

/-- {lit}`PLAYER_RESULT_LIMIT`. -/
def playerResultLimit : Nat := 200

/-- What the page may list: the players sorted, those of equal rank in any order, up to the
limit. -/
def Lists (db : Db) (skaterHits : List SkaterHit) (players : List PlayerResult) : Prop :=
  ∃ sorted : List PlayerResult,
    sorted.Perm ((playerGroups db skaterHits).rows.map fun g => playerResult g.1 g.2) ∧
    (sorted.Pairwise fun a b => a.rank ≤ b.rank) ∧ players = sorted.take playerResultLimit

/-- The name that a player is shown under. -/
def shownName (db : Db) (skaterHits : List SkaterHit) (key : PlayerKey) : Option String :=
  ((playerGroups db skaterHits).get? key).map fun group => (playerResult key group).name

end Players

/-! ## The names of a player -/

/-- The name in a row, for the player of the row. -/
def nameFor (db : Db) (key : PlayerKey) (r : SkaterHit) : Option String :=
  (sideTeams db r.driveFileId r.side).bind fun team =>
    if playerKey team r = key then some r.name else none

/-- The names of a player, in the order of the rows. -/
def playerNames (db : Db) (skaterHits : List SkaterHit) (key : PlayerKey) : List String :=
  skaterHits.filterMap (nameFor db key)

variable {db : Db} {skaterHits : List SkaterHit}

/-- A row puts its name to the names of its player. -/
theorem names_addHit (groups : Table PlayerKey PlayerGroup) (r : SkaterHit) (key : PlayerKey) :
    ((addHit db groups r).get? key).map PlayerGroup.names =
      match nameFor db key r with
      | none => (groups.get? key).map PlayerGroup.names
      | some name => some (((groups.get? key).map PlayerGroup.names).getD [] ++ [name]) := by
  unfold addHit nameFor
  cases hteam : sideTeams db r.driveFileId r.side with
  | none => rfl
  | some team =>
      rw [Option.bind_some]
      by_cases hkey : playerKey team r = key
      · subst hkey
        rw [if_pos rfl, Table.get?_upsert_self]
        cases groups.get? (playerKey team r) <;> rfl
      · rw [if_neg hkey, Table.get?_upsert_of_ne _ _ (Ne.symm hkey)]

theorem playerNames_append_singleton (hits : List SkaterHit) (r : SkaterHit) (key : PlayerKey) :
    playerNames db (hits ++ [r]) key = playerNames db hits key ++ (nameFor db key r).toList := by
  rw [playerNames, List.filterMap_append, List.filterMap_cons, List.filterMap_nil]
  cases nameFor db key r <;> rfl

/-- The group of a player holds the names of the player; there is none without a name. -/
theorem names_playerGroups (db : Db) (skaterHits : List SkaterHit) (key : PlayerKey) :
    ((playerGroups db skaterHits).get? key).map PlayerGroup.names =
      if playerNames db skaterHits key = [] then none
      else some (playerNames db skaterHits key) := by
  induction skaterHits using List.reverseRecOn with
  | nil => rfl
  | append_singleton hits r ih =>
      have hgroups : playerGroups db (hits ++ [r]) = addHit db (playerGroups db hits) r :=
        List.foldl_concat ..
      rw [hgroups, names_addHit, ih, playerNames_append_singleton]
      cases nameFor db key r with
      | none => rw [Option.toList_none, List.append_nil]
      | some name =>
          rw [Option.toList_some, if_neg (List.concat_ne_nil name _)]
          by_cases hnil : playerNames db hits key = []
          · rw [if_pos hnil, hnil, Option.getD_none]
          · rw [if_neg hnil, Option.getD_some]

/-- A side that is taken into account is assigned to a stored team, and its file is linked. -/
theorem sideTeams_eq_some {f : String} {s : Side} {side : SideTeam}
    (h : sideTeams db f s = some side) :
    db.sideTeam f s = some side.teamId ∧ (db.matchedGame f).isSome = true ∧
      ∃ team, db.wftdaTeams.get? side.teamId = some team ∧ side.teamTitle = team.title ∧
        side.teamSlug = TeamPage.path side.teamId team := by
  obtain ⟨teamId, hassigned, hrest⟩ := Option.bind_eq_some_iff.mp h
  obtain ⟨team, hteam, hrest⟩ := Option.bind_eq_some_iff.mp hrest
  obtain ⟨matched, hmatched, hrest⟩ := Option.bind_eq_some_iff.mp hrest
  cases hrest
  exact ⟨hassigned, Option.isSome_of_eq_some hmatched, team, hteam, rfl, rfl⟩

section Shown

variable [CaseTables]

/-- A player is shown under the best of the names in the rows. -/
theorem shownName_eq (db : Db) (skaterHits : List SkaterHit) (key : PlayerKey) :
    shownName db skaterHits key = bestName (playerNames db skaterHits key) := by
  have hnames := names_playerGroups db skaterHits key
  rw [shownName]
  cases hgroup : (playerGroups db skaterHits).get? key with
  | none =>
      rw [hgroup] at hnames
      split_ifs at hnames with hnil
      · rw [hnil]
        rfl
      · cases hnames
  | some group =>
      rw [hgroup] at hnames
      split_ifs at hnames with hnil
      · cases hnames
      · obtain ⟨name, hname⟩ := Option.ne_none_iff_exists'.mp
          (mt List.argmin_eq_none.mp hnil : bestName (playerNames db skaterHits key) ≠ none)
        rw [Option.map_some, playerResult, Option.some.inj hnames, hname]
        rfl

/-- A line of the page is a player, under the name of the player. -/
theorem exists_shownName_of_lists {players : List PlayerResult} {r : PlayerResult}
    (h : Lists db skaterHits players) (hr : r ∈ players) :
    ∃ key, (ofLex key).1 = r.teamId ∧ (ofLex (ofLex key).2).2 = r.number ∧
      shownName db skaterHits key = some r.name := by
  obtain ⟨sorted, hperm, -, rfl⟩ := h
  obtain ⟨g, hg, rfl⟩ := List.mem_map.mp (hperm.mem_iff.mp (List.mem_of_mem_take hr))
  refine ⟨g.1, rfl, rfl, ?_⟩
  rw [shownName, Table.mem_rows_iff.mp hg]
  rfl

/-- A name that is shown for a player stands in one of the rows of the player. -/
theorem exists_hit_of_shownName {key : PlayerKey} {name : String}
    (h : shownName db skaterHits key = some name) :
    ∃ hit ∈ skaterHits, ∃ side, sideTeams db hit.driveFileId hit.side = some side ∧
      playerKey side hit = key ∧ hit.name = name := by
  rw [shownName_eq] at h
  obtain ⟨hit, hhit, hnameFor⟩ := List.mem_filterMap.mp (List.argmin_mem h)
  obtain ⟨side, hside, hkey⟩ := Option.bind_eq_some_iff.mp hnameFor
  split_ifs at hkey with hkey'
  exact ⟨hit, hhit, side, hside, hkey', Option.some.inj hkey⟩

/-- The best name is the same in every order of the names. -/
def NameOrderFree (names : List String) : Prop :=
  ∀ names' : List String, names'.Perm names → bestName names' = bestName names

/-- Every player is shown under the same name in every order of the rows. -/
def ShownOrderFree (db : Db) (skaterHits : List SkaterHit) : Prop :=
  ∀ skaterHits' : List SkaterHit, skaterHits'.Perm skaterHits →
    ∀ key, shownName db skaterHits' key = shownName db skaterHits key

/-- The name that is shown does not depend on the order of the names, and on the page not on
the order of the rows, exactly when just one of the names of a player has the least rank. -/
theorem orderFree_iff :
    (∀ names, NameOrderFree names ↔ OneLeast nameRank names) ∧
    ∀ db skaterHits, ShownOrderFree db skaterHits ↔
      ∀ key, OneLeast nameRank (playerNames db skaterHits key) := by
  constructor
  · intro names
    have hiff : (∀ names' : List String, names'.Perm names →
        (names'.filterMap some).argmin nameRank = (names.filterMap some).argmin nameRank) ↔
          OneLeast nameRank (names.filterMap some) := argmin_filterMap_perm_iff
    simp only [List.filterMap_some] at hiff
    exact hiff
  · intro db skaterHits
    have hiff : ∀ key, (∀ skaterHits' : List SkaterHit, skaterHits'.Perm skaterHits →
        shownName db skaterHits' key = shownName db skaterHits key) ↔
          OneLeast nameRank (playerNames db skaterHits key) := by
      intro key
      simp only [shownName_eq]
      exact argmin_filterMap_perm_iff
    rw [← forall_congr' hiff]
    exact ⟨fun h key hits' hperm => h hits' hperm key, fun h hits' hperm key => h key hits' hperm⟩

end Shown

/-! ## Two best names -/

section Example

attribute [local instance] asciiCaseTables

/-- Two games in which one player is written in two ways. -/
def twoGames : Db :=
  { Db.empty with
    wftdaTeams := Table.empty.upsert 1 ⟨"Ants", none, some "ants", none, none, none, true⟩
    statsbookSides := Table.empty.upsertAll
      [(toLex ("f", .home), ⟨some 1, none, none, none, "", ""⟩),
       (toLex ("g", .home), ⟨some 1, none, none, none, "", ""⟩)]
    gameMatches := Table.empty.upsertAll
      [("f", ⟨some 1, .resolved .score, 1, 0, 0⟩), ("g", ⟨some 2, .resolved .score, 1, 0, 0⟩)] }

/-- The rows of that player. -/
def twoHits : List SkaterHit :=
  [⟨"f", .home, "McNasty", "mcnasty", "7"⟩, ⟨"g", .home, "MCnasty", "mcnasty", "7"⟩]

/-- Names that differ in where their capitals stand tie, and the first one is shown. -/
theorem not_orderFree :
    ¬ NameOrderFree ["McNasty", "MCnasty"] ∧ ¬ ShownOrderFree twoGames twoHits := by
  constructor
  · intro h
    have hname := h ["MCnasty", "McNasty"] (by decide)
    revert hname
    decide +kernel
  · intro h
    have hname := h twoHits.reverse (by decide) (toLex (1, toLex ("mcnasty", "7")))
    revert hname
    decide +kernel

end Example

end Search
end Statskboo
