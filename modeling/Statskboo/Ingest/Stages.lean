import Statskboo.Ingest.Resolve
import Statskboo.Ingest.StatsbookIndex
import Statskboo.Ingest.StatsbookParse
import Statskboo.Ingest.Wftda

/-!
# The stages that feed the resolver

The index, parse and sync stages as one type of transactions, each of which either
takes effect as a whole or leaves the state as it was.

Main results:

- Theorem {lit}`Stage.consistent_exec`: every stage keeps the foreign keys.
- Theorem {lit}`Stage.paired_exec`: every stage stores a game together with its two
  sides.
- Theorem {lit}`Stage.matchedGame_exec`: no stage links a file to a game.
- Theorem {lit}`Stage.gameMatches_exec`: no stage changes the match of a file that has
  content afterwards.
-/

namespace Statskboo

open KeyedTable

/-- One transaction of the index, parse and sync stages. -/
inductive Stage where
  | upsertStatsbook (now : Int) (f name : String) (quarter mimeType : Option String)
      (modifiedTime : Int)
  | storeParsedGame (f : String) (game : GameData) (date : Option Int)
  | setFailed (f error : String)
  | markRemoved (seenBefore : Int)
  | syncTeams (teams : List Wftda.ApiTeam) (listing : List (String × String))
  | syncGames (results : List Wftda.ApiResult)

/-- The background loops that run the stages. -/
inductive Loop where
  | wftdaSync
  | driveIndex
deriving DecidableEq, Repr

/-- The other loop. -/
def Loop.other : Loop → Loop
  | wftdaSync => driveIndex
  | driveIndex => wftdaSync

namespace Stage

variable [Text.UnicodeTables]

/-- The effect of a transaction; a rejected one leaves the state as it was. -/
def exec (db : Db) : Stage → Db
  | upsertStatsbook now f name quarter mimeType modifiedTime =>
      Index.upsertStatsbook db now f name quarter mimeType modifiedTime
  | storeParsedGame f game date =>
      ((Parse.storeParsedGame db f game date).map Prod.fst).getD db
  | setFailed f error => Parse.setFailed db f error
  | markRemoved seenBefore => (Index.markRemoved db seenBefore).1
  | syncTeams teams listing => (Wftda.syncTeams db teams listing).getD db
  | syncGames results => (Wftda.syncGames db results).getD db

/-- Whether a transaction is accepted. -/
def succeeds (db : Db) : Stage → Bool
  | storeParsedGame f game date => (Parse.storeParsedGame db f game date).isSome
  | syncTeams teams listing => (Wftda.syncTeams db teams listing).isSome
  | syncGames results => (Wftda.syncGames db results).isSome
  | _ => true

/-- Storing a parsed statsbook stores it as a placeholder, as a game, or not at all. -/
theorem storeParsedGame_cases (db : Db) (f : String) (game : GameData) (date : Option Int) :
    exec db (storeParsedGame f game date) = db ∨
      (Parse.hasNoGameData game = true ∧
        exec db (storeParsedGame f game date) = Parse.markSkipped db f none) ∨
      (Parse.hasNoGameData game = false ∧
        Parse.Stored db f game date (exec db (storeParsedGame f game date))) := by
  rw [exec]
  cases hstore : Parse.storeParsedGame db f game date with
  | none => exact Or.inl rfl
  | some result =>
      right
      cases hempty : Parse.hasNoGameData game with
      | true => exact Or.inl ⟨rfl, Parse.storeParsedGame_skipped hempty hstore⟩
      | false => exact Or.inr ⟨rfl, Parse.storeParsedGame_stored hempty hstore⟩

omit [Text.UnicodeTables] in
theorem sync_cases (db : Db) (o : Option Db) (h : ∀ db', o = some db' → Wftda.SameFiles db db') :
    Wftda.SameFiles db (o.getD db) := by
  cases o with
  | none => exact Wftda.SameFiles.refl db
  | some db' => exact h db' rfl

variable {db : Db}

theorem sameFiles_syncTeams (teams : List Wftda.ApiTeam) (listing : List (String × String)) :
    Wftda.SameFiles db (exec db (syncTeams teams listing)) :=
  sync_cases db _ fun _ => Wftda.sameFiles_syncTeams

theorem sameFiles_syncGames (results : List Wftda.ApiResult) :
    Wftda.SameFiles db (exec db (syncGames results)) :=
  sync_cases db _ fun _ => Wftda.sameFiles_syncGames

/-- Every stage keeps the foreign keys. -/
theorem consistent_exec (hdb : db.Consistent) (a : Stage) : (exec db a).Consistent := by
  cases a with
  | upsertStatsbook now f name quarter mimeType modifiedTime =>
      exact Index.consistent_upsertStatsbook hdb now f name quarter mimeType modifiedTime
  | storeParsedGame f game date =>
      rw [exec]
      cases hstore : Parse.storeParsedGame db f game date with
      | none => exact hdb
      | some result => exact Parse.consistent_storeParsedGame hdb hstore
  | setFailed f error => exact Parse.consistent_updateStatus hdb _
  | markRemoved seenBefore => exact Index.consistent_markRemoved hdb seenBefore
  | syncTeams teams listing => exact (sameFiles_syncTeams teams listing).consistent hdb
  | syncGames results => exact (sameFiles_syncGames results).consistent hdb

/-- A file has a game row exactly when it has each of its sides. -/
def Paired (db : Db) : Prop :=
  ∀ f s, (db.side? f s).isSome = (db.statsbookGames.get? f).isSome

omit [Text.UnicodeTables] in
theorem Paired.of_sameFiles {db' : Db} (h : Paired db) (hsame : Wftda.SameFiles db db') :
    Paired db' := by
  intro f s
  unfold Db.side?
  rw [hsame.statsbookSides, hsame.statsbookGames]
  exact h f s

/-- Every stage stores and deletes a game together with its two sides. -/
theorem paired_exec (h : Paired db) (a : Stage) : Paired (exec db a) := by
  cases a with
  | upsertStatsbook now f name quarter mimeType modifiedTime => exact h
  | storeParsedGame f game date =>
      rcases storeParsedGame_cases db f game date with hsame | ⟨-, hskipped⟩ | ⟨-, hstored⟩
      · rw [hsame]
        exact h
      · rw [hskipped]
        intro f' s
        change ((Parse.deleteParsedRows db f).side? f' s).isSome =
          ((Parse.deleteParsedRows db f).statsbookGames.get? f').isSome
        rw [Parse.side?_deleteParsedRows, Parse.statsbookGames_deleteParsedRows]
        split_ifs
        · rfl
        · exact h f' s
      · obtain ⟨d, -, hgames⟩ := hstored.statsbookGames
        intro f' s
        rw [hgames, hstored.side?]
        split_ifs
        · rfl
        · exact h f' s
  | setFailed f error => exact h
  | markRemoved seenBefore =>
      intro f s
      have hfilter : ∀ {α : Type} (o : Option α) (b : Bool),
          (o.filter fun _ => b).isSome = (o.isSome && b) := by
        intro α o b
        cases o <;> cases b <;> rfl
      have hpaired := h f s
      unfold Db.side? at hpaired
      simp only [exec, Index.markRemoved, Db.deleteStatsbooks, Db.side?, Table.get?_filter, hfilter]
      rw [hpaired]
      rfl
  | syncTeams teams listing => exact h.of_sameFiles (sameFiles_syncTeams teams listing)
  | syncGames results => exact h.of_sameFiles (sameFiles_syncGames results)

/-- No stage links a file to a game. -/
theorem matchedGame_exec (a : Stage) {f : String} {g : Int}
    (h : (exec db a).matchedGame f = some g) : db.matchedGame f = some g := by
  cases a with
  | upsertStatsbook now f' name quarter mimeType modifiedTime => exact h
  | storeParsedGame f' game date =>
      rcases storeParsedGame_cases db f' game date with hsame | ⟨-, hskipped⟩ | ⟨-, hstored⟩
      · rwa [hsame] at h
      · rwa [hskipped] at h
      · unfold Db.matchedGame at h
        rwa [hstored.gameMatches] at h
  | setFailed f' error => exact h
  | markRemoved seenBefore =>
      simp only [exec, Index.markRemoved, Db.deleteStatsbooks, Db.matchedGame, Table.get?_filter,
        Option.bind_eq_some_iff, Option.filter_eq_some_iff] at h
      obtain ⟨row, ⟨hrow, -⟩, hg⟩ := h
      exact Option.bind_eq_some_iff.mpr ⟨row, hrow, hg⟩
  | syncTeams teams listing =>
      unfold Db.matchedGame at h
      rwa [(sameFiles_syncTeams teams listing).gameMatches] at h
  | syncGames results =>
      unfold Db.matchedGame at h
      rwa [(sameFiles_syncGames results).gameMatches] at h

/-- No stage changes the match of a file that has content afterwards. -/
theorem gameMatches_exec (a : Stage) {f : String} {row : Resolve.BookRow}
    (h : Resolve.bookRow (exec db a) f = some row) :
    (exec db a).gameMatches.get? f = db.gameMatches.get? f := by
  cases a with
  | upsertStatsbook now f' name quarter mimeType modifiedTime => rfl
  | storeParsedGame f' game date =>
      rcases storeParsedGame_cases db f' game date with hsame | ⟨-, hskipped⟩ | ⟨-, hstored⟩
      · rw [hsame]
      · rw [hskipped]
        rfl
      · rw [hstored.gameMatches]
  | setFailed f' error => rfl
  | markRemoved seenBefore =>
      obtain ⟨game, hgame, -⟩ := Option.bind_eq_some_iff.mp h
      simp only [exec, Index.markRemoved, Db.deleteStatsbooks, Table.get?_filter,
        Option.filter_eq_some_iff] at hgame ⊢
      cases hrow : db.gameMatches.get? f with
      | none => rfl
      | some row => rw [Option.filter_some, if_pos hgame.2]
  | syncTeams teams listing => rw [(sameFiles_syncTeams teams listing).gameMatches]
  | syncGames results => rw [(sameFiles_syncGames results).gameMatches]

end Stage
end Statskboo
