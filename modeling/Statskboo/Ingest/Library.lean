import Mathlib.Logic.Function.Basic
import Statskboo.Ingest.Drain
import Statskboo.Ingest.StoreCalls
import Statskboo.Ingest.Visibility

/-!
# The library of parsed statsbooks

What the ingest keeps of the statsbooks is a library: for each file the time when it was last
listed, and the game that was last parsed of it.  The tables spread a game over its own row, two
sides, the rosters with canonical names and the summaries, next to a copy of the whole.  All
stages and passes keep the tables to the library.

Main results:

- Theorem {lit}`represents_step`: every step of the ingest does to the tables what it does to the
  library.
- Theorem {lit}`represents_after`: in every state that is reached the tables hold the library.
-/

namespace Statskboo

open Canon KeyedTable Parse Resolve Transition

/-- What is known of the files: when each was last listed, and the game and date that were last
parsed of it. -/
structure Library where
  listed : String → Option Int
  content : String → Option (GameData × Int)

/-- The skaters of a roster who have a name. -/
def named (skaters : List Skater) : List Skater :=
  skaters.filter fun s => !s.name.isEmpty

/-- No roster of the game lists a number twice. -/
def NumbersOnce (game : GameData) : Prop :=
  ((named game.home.skaters).map Skater.number).Nodup ∧
    ((named game.away.skaters).map Skater.number).Nodup

instance (game : GameData) : Decidable (NumbersOnce game) :=
  inferInstanceAs (Decidable (_ ∧ _))

namespace Library

/-- The library without files. -/
def empty : Library where
  listed _ := none
  content _ := none

/-- Put what was parsed of a file on its place, when the file is listed, dated and free of double
numbers; a placeholder clears the place. -/
def store (lib : Library) (f : String) (game : GameData) (date : Option Int) : Library :=
  if hasNoGameData game then { lib with content := Function.update lib.content f none }
  else
    match date with
    | none => lib
    | some d =>
        if (lib.listed f).isSome = true ∧ NumbersOnce game then
          { lib with content := Function.update lib.content f (some (game, d)) }
        else lib

/-- Drop the files last listed before a marker. -/
def removeBefore (lib : Library) (seenBefore : Int) : Library where
  listed f := (lib.listed f).filter fun seen => !decide (seen < seenBefore)
  content f :=
    if ((lib.listed f).any fun seen => decide (seen < seenBefore)) = true then none
    else lib.content f

/-- What a step of the ingest does to the library. -/
def step (lib : Library) : Visibility.Step → Library
  | .stage (.upsertStatsbook now f ..) =>
      { lib with listed := Function.update lib.listed f (some now) }
  | .stage (.storeParsedGame f game date) => lib.store f game date
  | .stage (.markRemoved seenBefore) => lib.removeBefore seenBefore
  | _ => lib

/-- The library after some steps. -/
def after (steps : List Visibility.Step) : Library :=
  steps.foldl step empty

end Library

/-! ## What the tables hold -/

section Tables

variable [Text.UnicodeTables]

/-- The roster row of a number: the name of the skater who has it. -/
def rosterRow (game : GameData) (s : Side) (number : String) : Option StatsbookSkater :=
  ((named (teamData game s).skaters).find? fun skater => decide (skater.number = number)).map
    fun skater => { name := skater.name, nameCanonical := canonicalizeName skater.name }

/-- The summary row of a side. -/
def summaryRow (game : GameData) (s : Side) : Option SideStats :=
  ((summaryRows game).find? fun r => decide (r.1 = s)).map Prod.snd

/-- The tables hold a game and its date under a file; the teams of its sides are left open. -/
structure Holds (db : Db) (f : String) (game : GameData) (date : Int) : Prop where
  played : hasNoGameData game = false
  once : NumbersOnce game
  row : db.statsbookGames.get? f = some
    { date, version := game.version, homeScore := game.homeScore, awayScore := game.awayScore,
      gameData := some game }
  side : ∀ s, (db.side? f s).map (fun row => { row with wftdaTeamId := none }) =
    some (sideRow (teamData game s))
  skater : ∀ s number, db.statsbookSkaters.get? (toLex (f, toLex (s, number))) =
    rosterRow game s number
  summary : ∀ s, db.statsbookSummary.get? (toLex (f, s)) = summaryRow game s

/-- The tables hold the library, and nothing of other files. -/
structure Represents (db : Db) (lib : Library) : Prop where
  listed : ∀ f, (db.statsbooks.get? f).map DriveFile.lastSeen = lib.listed f
  filled : ∀ f game date, lib.content f = some (game, date) → Holds db f game date
  blank : ∀ f, lib.content f = none → Cleared db f

/-- The parsed rows of a file are the same, but for the teams of its sides. -/
structure SameRows (db db' : Db) (f : String) : Prop where
  games : db'.statsbookGames.get? f = db.statsbookGames.get? f
  sides : ∀ s, (db'.side? f s).map (fun row => { row with wftdaTeamId := none }) =
    (db.side? f s).map fun row => { row with wftdaTeamId := none }
  skaters : ∀ s number, db'.statsbookSkaters.get? (toLex (f, toLex (s, number))) =
    db.statsbookSkaters.get? (toLex (f, toLex (s, number)))
  summary : ∀ s, db'.statsbookSummary.get? (toLex (f, s)) = db.statsbookSummary.get? (toLex (f, s))

variable {db db' : Db} {lib : Library} {f : String} {game : GameData} {date : Int}

theorem Holds.of_sameRows (h : Holds db f game date) (hsame : SameRows db db' f) :
    Holds db' f game date where
  played := h.played
  once := h.once
  row := hsame.games.trans h.row
  side s := (hsame.sides s).trans (h.side s)
  skater s number := (hsame.skaters s number).trans (h.skater s number)
  summary s := (hsame.summary s).trans (h.summary s)

omit [Text.UnicodeTables] in
theorem cleared_of_sameRows (h : Cleared db f) (hsame : SameRows db db' f) : Cleared db' f where
  game := (congrArg Option.isSome hsame.games).trans h.game
  sides s := by
    have hside := congrArg Option.isSome (hsame.sides s)
    rw [Option.isSome_map, Option.isSome_map] at hside
    exact hside.trans (h.sides s)
  skaters s number := (congrArg Option.isSome (hsame.skaters s number)).trans (h.skaters s number)
  summary s := (congrArg Option.isSome (hsame.summary s)).trans (h.summary s)

/-- The tables hold a library that knows the same of every file. -/
theorem Represents.of_sameRows {lib' : Library} (h : Represents db lib)
    (hlisted : ∀ f, (db'.statsbooks.get? f).map DriveFile.lastSeen = lib'.listed f)
    (hrows : ∀ f, SameRows db db' f ∧ lib'.content f = lib.content f ∨
      (∃ game date, lib'.content f = some (game, date) ∧ Holds db' f game date) ∨
      lib'.content f = none ∧ Cleared db' f) : Represents db' lib' where
  listed := hlisted
  filled f game date hcontent := by
    rcases hrows f with ⟨hsame, hkept⟩ | ⟨game', date', hnew, hholds⟩ | ⟨hnone, -⟩
    · exact (h.filled f game date (hkept ▸ hcontent)).of_sameRows hsame
    · rw [hnew] at hcontent
      cases hcontent
      exact hholds
    · rw [hnone] at hcontent
      cases hcontent
  blank f hcontent := by
    rcases hrows f with ⟨hsame, hkept⟩ | ⟨game', date', hnew, -⟩ | ⟨-, hcleared⟩
    · exact cleared_of_sameRows (h.blank f (hkept ▸ hcontent)) hsame
    · rw [hnew] at hcontent
      cases hcontent
    · exact hcleared

/-! ## Steps that leave the rows alone -/

omit [Text.UnicodeTables] in
theorem SameRows.of_sameContent (h : Db.SameContent db db') (f : String) : SameRows db db' f where
  games := by rw [h.statsbookGames]
  sides := h.sides f
  skaters s number := by rw [h.statsbookSkaters]
  summary s := by rw [h.statsbookSummary]

omit [Text.UnicodeTables] in
theorem SameRows.of_sameFiles (h : Wftda.SameFiles db db') (f : String) : SameRows db db' f where
  games := by rw [h.statsbookGames]
  sides s := by unfold Db.side?; rw [h.statsbookSides]
  skaters s number := by rw [h.statsbookSkaters]
  summary s := by rw [h.statsbookSummary]

/-- A step that leaves the rows and the listing alone. -/
theorem Represents.of_same (h : Represents db lib)
    (hlisted : ∀ f, (db'.statsbooks.get? f).map DriveFile.lastSeen =
      (db.statsbooks.get? f).map DriveFile.lastSeen)
    (hrows : ∀ f, SameRows db db' f) : Represents db' lib :=
  h.of_sameRows (fun f => (hlisted f).trans (h.listed f)) fun f => Or.inl ⟨hrows f, rfl⟩

theorem Represents.of_sameContent (h : Represents db lib) (hsame : Db.SameContent db db') :
    Represents db' lib :=
  h.of_same (fun f => by rw [hsame.statsbooks]) (SameRows.of_sameContent hsame)

theorem Represents.of_sameFiles (h : Represents db lib) (hsame : Wftda.SameFiles db db') :
    Represents db' lib :=
  h.of_same (fun f => by rw [hsame.statsbooks]) (SameRows.of_sameFiles hsame)

/-! ## Storing a game -/

omit [Text.UnicodeTables] in
/-- Roster rows that are taken are upserted. -/
theorem upsertAll_of_insertSkaters {t t' : Table SkaterKey StatsbookSkater}
    {rows : List (SkaterKey × StatsbookSkater)} (h : insertSkaters t rows = some t') :
    t' = t.upsertAll rows := by
  induction rows generalizing t with
  | nil =>
      cases h
      rfl
  | cons r rows ih =>
      unfold insertSkaters at h
      split_ifs at h
      exact ih h

theorem mem_rosterRows_iff {r : SkaterKey × StatsbookSkater} :
    r ∈ rosterRows f game ↔ ∃ s, ∃ skater ∈ named (teamData game s).skaters,
      r = (toLex (f, toLex (s, skater.number)),
        { name := skater.name, nameCanonical := canonicalizeName skater.name }) := by
  unfold rosterRows skaterRows
  rw [List.mem_append, List.mem_map, List.mem_map]
  constructor
  · rintro (⟨skater, hskater, rfl⟩ | ⟨skater, hskater, rfl⟩)
    · exact ⟨.home, skater, hskater, rfl⟩
    · exact ⟨.away, skater, hskater, rfl⟩
  · rintro ⟨s, skater, hskater, rfl⟩
    cases s with
    | home => exact Or.inl ⟨skater, hskater, rfl⟩
    | away => exact Or.inr ⟨skater, hskater, rfl⟩

/-- The keys of the roster rows are unique when no roster lists a number twice. -/
theorem nodup_rosterRows_iff :
    ((rosterRows f game).map Prod.fst).Nodup ↔ NumbersOnce game := by
  have hkeys : ∀ s (skaters : List Skater), (skaterRows f s skaters).map Prod.fst =
      ((named skaters).map Skater.number).map fun number => toLex (f, toLex (s, number)) := by
    intro s skaters
    rw [skaterRows, List.map_map, List.map_map]
    rfl
  have hinjective : ∀ s : Side,
      Function.Injective fun number : String => toLex (f, toLex (s, number)) :=
    fun s number number' heq => congrArg (fun k : SkaterKey => (ofLex (ofLex k).2).2) heq
  unfold rosterRows NumbersOnce
  rw [List.map_append, List.nodup_append, hkeys, hkeys, List.nodup_map_iff (hinjective _),
    List.nodup_map_iff (hinjective _)]
  refine and_congr_right fun _ => and_iff_left ?_
  intro k hk k' hk' heq
  obtain ⟨number, -, rfl⟩ := List.mem_map.mp hk
  obtain ⟨number', -, rfl⟩ := List.mem_map.mp hk'
  have hside : Side.home = Side.away :=
    congrArg (fun k : SkaterKey => (ofLex (ofLex k).2).1) heq
  cases hside

/-- After the upsert of the roster rows the rows of the file are those of the rosters. -/
theorem get?_upsertAll_rosterRows {t : Table SkaterKey StatsbookSkater}
    (honce : NumbersOnce game) (s : Side) (number : String)
    (hfresh : t.get? (toLex (f, toLex (s, number))) = none) :
    (t.upsertAll (rosterRows f game)).get? (toLex (f, toLex (s, number))) =
      rosterRow game s number := by
  unfold rosterRow
  cases hfind : (named (teamData game s).skaters).find?
      fun skater => decide (skater.number = number) with
  | none =>
      rw [Table.get?_upsertAll_of_ne, hfresh, Option.map_none]
      intro r hr heq
      obtain ⟨s', skater, hskater, rfl⟩ := mem_rosterRows_iff.mp hr
      have hside : s' = s := congrArg (fun k : SkaterKey => (ofLex (ofLex k).2).1) heq
      have hnumber : skater.number = number :=
        congrArg (fun k : SkaterKey => (ofLex (ofLex k).2).2) heq
      subst hside
      exact List.find?_eq_none.mp hfind skater hskater (decide_eq_true hnumber)
  | some skater =>
      have hskater := List.mem_of_find?_eq_some hfind
      have hnumber : skater.number = number := by simpa using List.find?_some hfind
      have hrow : (toLex (f, toLex (s, skater.number)),
          { name := skater.name, nameCanonical := canonicalizeName skater.name }) ∈
          rosterRows f game := mem_rosterRows_iff.mpr ⟨s, skater, hskater, rfl⟩
      subst hnumber
      refine Table.get?_upsertAll_of_forall (fun r hr heq => ?_) (Or.inr ⟨_, hrow, rfl⟩)
      exact congrArg Prod.snd
        (List.inj_on_of_nodup_map (nodup_rosterRows_iff.mpr honce) hr hrow heq)

omit [Text.UnicodeTables] in
theorem get?_foldl_summaryRows {t : Table SideKey SideStats} (s : Side)
    (hfresh : t.get? (toLex (f, s)) = none) :
    ((summaryRows game).foldl (fun t r => t.upsert (toLex (f, r.1)) r.2) t).get? (toLex (f, s)) =
      summaryRow game s := by
  unfold summaryRow summaryRows
  cases game.gameSummary with
  | none => exact hfresh
  | some g =>
      rw [List.foldl_cons, List.foldl_cons, List.foldl_nil, Table.get?_upsert, Table.get?_upsert]
      cases s <;> simp

/-- A statsbook with game data that is stored is held by the tables. -/
theorem holds_storeParsedGame {outcome : ParseOutcome} {d : Option Int}
    (hdata : hasNoGameData game = false) (hdate : d = some date)
    (h : storeParsedGame db f game d = some (db', outcome)) : Holds db' f game date := by
  have hstored := storeParsedGame_stored hdata h
  obtain ⟨date', hdate', hgames⟩ := hstored.statsbookGames
  obtain ⟨hskaters, hsummary⟩ := storeParsedGame_rows hdata h
  have honce : NumbersOnce game := by
    rw [← @nodup_rosterRows_iff _ f, ← isSome_insertSkaters_rosterRows]
    exact Option.isSome_of_eq_some hskaters
  have hclear := cleared_deleteParsedRows db f
  rw [hdate] at hdate'
  cases hdate'
  constructor
  · exact hdata
  · exact honce
  · rw [hgames, if_pos rfl]
  · intro s
    rw [hstored.side?, if_pos rfl, Option.map_some]
    simp only [sideRow]
  · intro s number
    rw [upsertAll_of_insertSkaters hskaters]
    exact get?_upsertAll_rosterRows honce s number
      (Option.not_isSome_iff_eq_none.mp (Bool.eq_false_iff.mp (hclear.skaters s number)))
  · intro s
    rw [hsummary]
    exact get?_foldl_summaryRows s
      (Option.not_isSome_iff_eq_none.mp (Bool.eq_false_iff.mp (hclear.summary s)))

omit [Text.UnicodeTables] in
theorem sameRows_deleteParsedRows {f' : String} (hf : f' ≠ f) :
    SameRows db (deleteParsedRows db f) f' where
  games := by rw [statsbookGames_deleteParsedRows, if_neg hf]
  sides s := by rw [side?_deleteParsedRows, if_neg hf]
  skaters s number := by
    unfold deleteParsedRows
    rw [Table.get?_filter]
    cases db.statsbookSkaters.get? (toLex (f', toLex (s, number))) <;> simp [hf]
  summary s := by
    unfold deleteParsedRows
    rw [Table.get?_filter]
    cases db.statsbookSummary.get? (toLex (f', s)) <;> simp [hf]

omit [Text.UnicodeTables] in
theorem get?_foldl_summaryRows_of_ne {t : Table SideKey SideStats} {f' : String} (s : Side)
    (hf : f' ≠ f) :
    ((summaryRows game).foldl (fun t r => t.upsert (toLex (f, r.1)) r.2) t).get?
      (toLex (f', s)) = t.get? (toLex (f', s)) := by
  have hne : ∀ s' : Side, (toLex (f', s) : SideKey) ≠ toLex (f, s') := fun s' heq =>
    hf (congrArg (fun k : SideKey => (ofLex k).1) heq)
  unfold summaryRows
  cases game.gameSummary with
  | none => rfl
  | some g =>
      rw [List.foldl_cons, List.foldl_cons, List.foldl_nil, Table.get?_upsert_of_ne _ _ (hne _),
        Table.get?_upsert_of_ne _ _ (hne _)]

/-- Storing a statsbook leaves the rows of the other files alone. -/
theorem sameRows_storeParsedGame {outcome : ParseOutcome} {d : Option Int} {f' : String}
    (hf : f' ≠ f) (hdata : hasNoGameData game = false)
    (h : storeParsedGame db f game d = some (db', outcome)) : SameRows db db' f' := by
  have hstored := storeParsedGame_stored hdata h
  obtain ⟨date', -, hgames⟩ := hstored.statsbookGames
  obtain ⟨hskaters, hsummary⟩ := storeParsedGame_rows hdata h
  have hdelete : SameRows db (deleteParsedRows db f) f' := sameRows_deleteParsedRows hf
  constructor
  · rw [hgames, if_neg hf]
  · intro s
    rw [hstored.side?, if_neg hf]
  · intro s number
    rw [upsertAll_of_insertSkaters hskaters, Table.get?_upsertAll_of_ne, hdelete.skaters]
    intro r hr heq
    have hfile := fst_of_mem_rosterRows hr
    rw [heq] at hfile
    exact hf hfile
  · intro s
    rw [hsummary, get?_foldl_summaryRows_of_ne s hf, hdelete.summary]

/-- When a statsbook is stored, in terms of the library. -/
theorem exists_storeParsedGame_iff (h : Represents db lib) (hdata : hasNoGameData game = false)
    (d : Option Int) :
    (∃ result, storeParsedGame db f game d = some result) ↔
      (∃ date, d = some date) ∧ (lib.listed f).isSome = true ∧ NumbersOnce game := by
  have hlisted : db.statsbooks.has f = (lib.listed f).isSome := by
    rw [← h.listed, Option.isSome_map]
    rfl
  rw [← Option.isSome_iff_exists, ← Option.isSome_iff_exists, ← hlisted]
  by_cases hhas : db.statsbooks.has f = true
  · rw [isSome_storeParsedGame hhas, storable, hdata, Bool.false_or, Bool.and_eq_true,
      decide_eq_true_iff, nodup_rosterRows_iff]
    exact and_congr_right fun _ => (and_iff_right hhas).symm
  · refine iff_of_false (fun hsome => ?_) fun hall => hhas hall.2.1
    obtain ⟨result, hresult⟩ := Option.isSome_iff_exists.mp hsome
    exact hhas (storeParsedGame_stored hdata hresult).has

/-! ## Every step -/

/-- The tables after a statsbook is stored hold the library with it. -/
theorem represents_storeParsedGame (h : Represents db lib) (f : String) (game : GameData)
    (d : Option Int) :
    Represents ((Stage.storeParsedGame f game d).exec db) (lib.store f game d) := by
  have hseen : ∀ (db' : Db) (status : ParseStatus),
      db'.statsbooks = db.statsbooks.modify f (finished status) → ∀ f',
        (db'.statsbooks.get? f').map DriveFile.lastSeen = lib.listed f' := by
    intro db' status hmodify f'
    rw [hmodify, Table.get?_modify, ← h.listed]
    split_ifs
    · cases db.statsbooks.get? f' <;> rfl
    · rfl
  unfold Library.store
  rw [Stage.exec]
  cases hdata : hasNoGameData game with
  | true =>
      rw [if_pos rfl]
      have hskip : storeParsedGame db f game d = some (markSkipped db f none, .skippedEmpty) := by
        unfold storeParsedGame
        rw [hdata, if_pos rfl]
      rw [hskip]
      refine h.of_sameRows (hseen _ _ (storeParsedGame_statsbooks hskip)) fun f' => ?_
      by_cases hf : f' = f
      · subst hf
        exact Or.inr (Or.inr ⟨Function.update_self .., cleared_markSkipped db f' none⟩)
      · have hrows : SameRows db (deleteParsedRows db f) f' := sameRows_deleteParsedRows hf
        exact Or.inl ⟨⟨hrows.games, hrows.sides, hrows.skaters, hrows.summary⟩,
          Function.update_of_ne hf ..⟩
  | false =>
      rw [if_neg Bool.false_ne_true]
      have hiff := exists_storeParsedGame_iff (f := f) h hdata d
      cases hstore : storeParsedGame db f game d with
      | none =>
          have hnot := mt hiff.mpr (by simp [hstore])
          rw [Option.map_none, Option.getD_none]
          cases d with
          | none => exact h
          | some d =>
              dsimp only
              rw [if_neg fun hall => hnot ⟨⟨d, rfl⟩, hall⟩]
              exact h
      | some result =>
          obtain ⟨⟨date, rfl⟩, hall⟩ := hiff.mp ⟨result, hstore⟩
          dsimp only
          rw [if_pos hall]
          refine h.of_sameRows (hseen _ _ (storeParsedGame_statsbooks hstore)) fun f' => ?_
          by_cases hf : f' = f
          · subst hf
            exact Or.inr (Or.inl ⟨game, date, Function.update_self ..,
              holds_storeParsedGame hdata rfl hstore⟩)
          · exact Or.inl ⟨sameRows_storeParsedGame hf hdata hstore, Function.update_of_ne hf ..⟩

/-- Files that are dropped leave no rows. -/
theorem represents_markRemoved (h : Represents db lib) (seenBefore : Int) :
    Represents (Index.markRemoved db seenBefore).1 (lib.removeBefore seenBefore) := by
  have hdoomed : ∀ f, ((db.statsbooks.get? f).any fun row => decide (row.lastSeen < seenBefore)) =
      (lib.listed f).any fun seen => decide (seen < seenBefore) := by
    intro f
    rw [← h.listed]
    cases db.statsbooks.get? f <;> rfl
  refine h.of_sameRows (fun f => ?_) fun f => ?_
  · simp only [Index.markRemoved, Db.deleteStatsbooks, Library.removeBefore, Table.get?_filter,
      ← h.listed]
    cases db.statsbooks.get? f with
    | none => rfl
    | some row =>
        by_cases hold : row.lastSeen < seenBefore <;> simp [Option.filter_some, hold]
  · unfold Library.removeBefore
    dsimp only
    rw [← hdoomed]
    by_cases hgone :
        ((db.statsbooks.get? f).any fun row => decide (row.lastSeen < seenBefore)) = true
    · rw [if_pos hgone]
      refine Or.inr (Or.inr ⟨rfl, ?_⟩)
      constructor <;> intros <;>
        simp [Index.markRemoved, Db.deleteStatsbooks, Table.has, hgone]
    · rw [if_neg hgone]
      rw [Bool.not_eq_true] at hgone
      have hkept : ∀ {α : Type} (o : Option α), (o.filter fun _ => true) = o := fun o => by
        cases o <;> rfl
      refine Or.inl ⟨?_, rfl⟩
      constructor <;> intros <;>
        simp [Index.markRemoved, Db.deleteStatsbooks, Db.side?, hgone, hkept]

variable [Numbers.Rounding]

theorem consistent_step (hdb : db.Consistent) {a : Visibility.Step}
    (hstep : Visibility.step db a = some db') : db'.Consistent := by
  cases a with
  | stage a =>
      cases hstep
      exact Stage.consistent_exec hdb a
  | resolveGames =>
      obtain ⟨⟨db₁, stats⟩, hpass, rfl⟩ := Option.map_eq_some_iff.mp hstep
      exact (resolveGames_spec hdb hpass).2.1
  | resolveFailing calls =>
      cases hstep
      exact (Visibility.stateAfterError_keeps hdb calls).2

/-- Every step of the ingest does to the tables what it does to the library. -/
theorem represents_step (hdb : db.Consistent) (h : Represents db lib) {a : Visibility.Step}
    (hstep : Visibility.step db a = some db') : Represents db' (lib.step a) := by
  cases a with
  | stage a =>
      cases hstep
      cases a with
      | upsertStatsbook now f name quarter mimeType modifiedTime =>
          refine h.of_sameRows (fun f' => ?_) fun f' => Or.inl ⟨⟨rfl, fun _ => rfl, fun _ _ => rfl,
            fun _ => rfl⟩, rfl⟩
          change ((Index.upsertStatsbook db now f name quarter mimeType
            modifiedTime).statsbooks.get? f').map DriveFile.lastSeen =
              Function.update lib.listed f (some now) f'
          rw [Index.upsertStatsbook, Table.get?_upsert]
          by_cases hf : f' = f
          · subst hf
            rw [if_pos rfl, Function.update_self]
            cases db.statsbooks.get? f' <;> rfl
          · rw [if_neg hf, Function.update_of_ne hf, h.listed]
      | storeParsedGame f game date => exact represents_storeParsedGame h f game date
      | setFailed f error =>
          refine h.of_same (fun f' => ?_) fun f' => ⟨rfl, fun _ => rfl, fun _ _ => rfl,
            fun _ => rfl⟩
          rw [Stage.exec, setFailed, updateStatus, Table.get?_modify]
          split_ifs
          · cases db.statsbooks.get? f' <;> rfl
          · rfl
      | markRemoved seenBefore => exact represents_markRemoved h seenBefore
      | syncTeams teams listing =>
          exact h.of_sameFiles (Stage.sameFiles_syncTeams teams listing)
      | syncGames results => exact h.of_sameFiles (Stage.sameFiles_syncGames results)
  | resolveGames =>
      obtain ⟨⟨db₁, stats⟩, hpass, rfl⟩ := Option.map_eq_some_iff.mp hstep
      exact h.of_sameContent (resolveGames_spec hdb hpass).1
  | resolveFailing calls =>
      cases hstep
      exact h.of_sameContent (Visibility.stateAfterError_keeps hdb calls).1

omit [Numbers.Rounding] in
theorem represents_empty : Represents Db.empty Library.empty where
  listed _ := rfl
  filled _ _ _ h := nomatch h
  blank f _ := by constructor <;> intros <;> rfl

/-- A run of the ingest does to the tables what it does to the library. -/
theorem represents_run {steps : List Visibility.Step} (hdb : db.Consistent)
    (h : Represents db lib) (hrun : run Visibility.step db steps = some db') :
    db'.Consistent ∧ Represents db' (steps.foldl Library.step lib) := by
  refine run_simulates (R := fun db lib => db.Consistent ∧ Represents db lib) ?_ ⟨hdb, h⟩ hrun
  rintro db lib a db' ⟨hdb, hholds⟩ hstep
  exact ⟨consistent_step hdb hstep, represents_step hdb hholds hstep⟩

/-- In every state that the ingest reaches the tables hold the library: for each file the game
that was last parsed of it, and nothing when it was never parsed, was replaced by a placeholder or
was dropped. -/
theorem represents_after {steps : List Visibility.Step}
    (hrun : run Visibility.step Db.empty steps = some db) : Represents db (Library.after steps) :=
  (represents_run Db.consistent_empty represents_empty hrun).2

end Tables

/-! ## A statsbook that is replaced -/

section Example

attribute [local instance] Text.asciiTables Numbers.f64

/-- A statsbook is parsed and replaced by a placeholder, and another one is parsed. -/
def replacedRun : List Visibility.Step :=
  [.stage (.upsertStatsbook 1 "f" "f.xlsx" none none 10),
    .stage (.storeParsedGame "f" (bareGame 100 95) (some 19400)),
    .stage (.upsertStatsbook 1 "g" "g.xlsx" none none 20),
    .stage (.storeParsedGame "g" (bareGame 90 80) (some 19401)),
    .stage (.storeParsedGame "f" (bareGame 0 0) none)]

/-- The tables hold the other one alone. -/
theorem represents_after_replacedRun :
    Cleared (Visibility.stateAfter replacedRun) "f" ∧
      Holds (Visibility.stateAfter replacedRun) "g" (bareGame 90 80) 19401 := by
  have hholds := @represents_after _ _ _ replacedRun (Visibility.run_stateAfter (by decide +kernel))
  exact ⟨hholds.blank "f" (by decide +kernel), hholds.filled "g" _ _ (by decide +kernel)⟩

end Example

end Statskboo
