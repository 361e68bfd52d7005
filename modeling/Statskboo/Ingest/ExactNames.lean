import Mathlib.Data.Set.Finite.Lemmas
import Statskboo.Ingest.Resolve
import Statskboo.Trigrams

/-!
# Exact team names

A side whose canonical name is that of a team has the trigrams of that team.  Trigrams are built
from the letters {lit}`a` to {lit}`z` and the digits alone, in whatever script the name is
written: with one of them in the name the team is found with similarity one, and without any of
them there is nothing to compare.

Main results:

- Theorem {lit}`Matcher.resolveSide_of_exactName`: a name with a trigram character resolves to
  the first team that has its trigrams, a name without one to none.
-/

namespace Statskboo
namespace Resolve

open Canon Numbers

/-- The name has a character, in lower case, that trigrams are built from. -/
def HasTrigramChar [Text.UnicodeTables] (name : String) : Prop :=
  ∃ c ∈ Text.UnicodeTables.strToLowercase name.toList, isTrigramChar c = true

/-- The ids of the teams whose canonical titles have the trigrams of a name. -/
def idsOfName [Text.UnicodeTables] (teams : List (Int × String)) (name : String) : Set Int :=
  {id | ∃ title, (id, title) ∈ teams ∧
    TrigramSet.new (canonicalizeLeague title) = TrigramSet.new name}

section ExactName

variable [Text.UnicodeTables]

theorem hasTrigramChar_iff (name : String) :
    HasTrigramChar name ↔ (TrigramSet.new name).grams ≠ [] := by
  change _ ↔ trigrams name ≠ []
  rw [Ne, trigrams_eq_nil_iff, HasTrigramChar]
  simp

theorem pairwise_loadTeams {teams : List (Int × String)}
    (hteams : teams.Pairwise fun t u => t.1 < u.1) :
    (loadTeams teams).Pairwise fun t u => t.id < u.id := by
  rw [loadTeams, List.pairwise_map]
  exact hteams

theorem mem_idsOfName {teams : List (Int × String)} {name : String} {id : Int} :
    id ∈ idsOfName teams name ↔
      ∃ t ∈ loadTeams teams, t.id = id ∧ t.trigrams = TrigramSet.new name := by
  constructor
  · rintro ⟨title, hmem, htrigrams⟩
    exact ⟨_, List.mem_map_of_mem hmem, rfl, htrigrams⟩
  · rintro ⟨t, hmem, rfl, htrigrams⟩
    obtain ⟨row, hrow, rfl⟩ := List.mem_map.mp hmem
    exact ⟨row.2, hrow, htrigrams⟩

/-- Among the teams that have the trigrams of a name, one has the lowest id. -/
theorem exists_isLeast {teams : List (Int × String)} {name title : String} {id : Int}
    (hmem : (id, title) ∈ teams) (hexact : name = canonicalizeLeague title) :
    ∃ lowest, IsLeast (idsOfName teams name) lowest := by
  have hfinite : (idsOfName teams name).Finite := by
    apply (List.finite_toSet (teams.map Prod.fst)).subset
    rintro id' ⟨title', hmem', -⟩
    exact List.mem_map.mpr ⟨(id', title'), hmem', rfl⟩
  have hnonempty : (idsOfName teams name).Nonempty := ⟨id, title, hmem, by rw [hexact]⟩
  obtain ⟨lowest, hlowest, hle⟩ := Set.exists_min_image _ (fun i => i) hfinite hnonempty
  exact ⟨lowest, hlowest, hle⟩

/-! ## Rounded similarities -/

variable [Rounding]

omit [Text.UnicodeTables] in
theorem round_zero : Rounding.round 0 = 0 := by
  simpa using Rounding.round_div 0 0 (by decide) (by decide)

omit [Text.UnicodeTables] in
theorem round_one : Rounding.round 1 = 1 := by
  simpa using Rounding.round_div 1 0 (by decide) (by decide)

omit [Text.UnicodeTables] in
theorem nameSimilarity_le_one (a b : TrigramSet) : nameSimilarity a b ≤ 1 :=
  (Rounding.monotone (similarity_le_one a b)).trans round_one.le

/-- No similarity of two names is rounded to one but one. -/
theorem nameSimilarity_eq_one_iff (s t : String) :
    nameSimilarity (TrigramSet.new s) (TrigramSet.new t) = 1 ↔
      (TrigramSet.new s).grams ≠ [] ∧ TrigramSet.new s = TrigramSet.new t := by
  rw [← TrigramSet.similarity_eq_one_iff]
  refine ⟨fun h => ?_, fun h => by rw [nameSimilarity, h, round_one]⟩
  by_contra hne
  -- the names have fewer trigrams than the fractions have bits
  have hle : (TrigramSet.new s).similarity (TrigramSet.new t) ≤ (2 ^ 21 - 1 : Nat) / 2 ^ 21 := by
    rw [similarity_eq_index] at hne ⊢
    have hindex := Jaccard.index_le_of_ne_one (n := 2 ^ 21 - 1) (card_union_le s t) hne
    norm_num at hindex ⊢
    exact hindex
  have hround := Rounding.monotone hle
  rw [Rounding.round_div _ _ (by decide) (by decide)] at hround
  rw [nameSimilarity] at h
  rw [h] at hround
  norm_num at hround

/-- A team with the trigrams of the name is the best of the teams. -/
theorem bestTeam_of_isLeast {teams : List (Int × String)}
    (hteams : teams.Pairwise fun t u => t.1 < u.1) (games : List (Int × WftdaGame)) {name : String}
    (hname : HasTrigramChar name) {lowest : Int} (hlowest : IsLeast (idsOfName teams name) lowest) :
    (loadMatcher teams games).bestTeam (TrigramSet.new name) = some (lowest, 1) := by
  have hne := (hasTrigramChar_iff name).mp hname
  obtain ⟨t, hmem, hid, htrigrams⟩ := mem_idsOfName.mp hlowest.1
  have hone : nameSimilarity (TrigramSet.new name) t.trigrams = 1 := by
    rw [htrigrams]
    exact (nameSimilarity_eq_one_iff name name).mpr ⟨hne, rfl⟩
  have hbest : (loadMatcher teams games).IsBestTeam (TrigramSet.new name) t := by
    refine ⟨hmem, ?_, fun u hu _ => ?_⟩
    · rw [hone]
      norm_num [sideMatchThreshold]
    · rw [hone]
      rcases lt_or_eq_of_le (nameSimilarity_le_one (TrigramSet.new name) u.trigrams) with hlt | heq
      · exact Or.inl hlt
      · refine Or.inr ⟨heq, ?_⟩
        obtain ⟨row, hrow, rfl⟩ := List.mem_map.mp hu
        have hsame := ((nameSimilarity_eq_one_iff name (canonicalizeLeague row.2)).mp heq).2
        rw [hid]
        exact hlowest.2 ⟨row.2, hrow, hsame.symm⟩
  rw [Matcher.bestTeam_eq_some_iff _ (pairwise_loadTeams hteams)]
  exact ⟨t, hbest, by rw [hone, hid]⟩

/-- A name without trigrams is like no team. -/
theorem bestTeam_of_not_hasTrigramChar (m : Matcher) {name : String}
    (hname : ¬ HasTrigramChar name) : m.bestTeam (TrigramSet.new name) = none := by
  have hempty : (TrigramSet.new name).grams = [] :=
    not_not.mp fun hne => hname ((hasTrigramChar_iff name).mpr hne)
  have hstep : ∀ (best : Option (Int × ℚ)) (t : Team),
      Matcher.bestTeamStep (TrigramSet.new name) best t = best := by
    intro best t
    have hzero : nameSimilarity (TrigramSet.new name) t.trigrams = 0 := by
      rw [nameSimilarity, similarity_of_empty hempty, round_zero]
    rw [Matcher.bestTeamStep, hzero]
    exact if_neg fun h => absurd h.1 (by norm_num [sideMatchThreshold])
  unfold Matcher.bestTeam
  induction m.teams with
  | nil => rfl
  | cons t teams ih =>
      rw [List.foldl_cons, hstep]
      exact ih

/-- A side with the canonical name of a team, in whatever script: with a trigram character in the
name it resolves with similarity one to the team of lowest id that has its trigrams; without any
it resolves to no team. -/
theorem Matcher.resolveSide_of_exactName (teams : List (Int × String))
    (hteams : teams.Pairwise fun t u => t.1 < u.1) (games : List (Int × WftdaGame))
    (cache : SideCache (loadMatcher teams games)) (side : SideNames)
    (hexact : ∃ t ∈ teams, sideName side = canonicalizeLeague t.2) :
    (HasTrigramChar (sideName side) →
      ∃ id, IsLeast (idsOfName teams (sideName side)) id ∧
        ((loadMatcher teams games).resolveSide (sideName side) (TrigramSet.new (sideName side))
          cache).1 = some (id, 1)) ∧
    (¬ HasTrigramChar (sideName side) →
      ((loadMatcher teams games).resolveSide (sideName side) (TrigramSet.new (sideName side))
        cache).1 = none) := by
  rw [resolveSide_fst _ cache rfl]
  refine ⟨fun hname => ?_, bestTeam_of_not_hasTrigramChar _⟩
  obtain ⟨t, hmem, hexact⟩ := hexact
  obtain ⟨lowest, hlowest⟩ := exists_isLeast hmem hexact
  exact ⟨lowest, hlowest, bestTeam_of_isLeast hteams games hname hlowest⟩

end ExactName

section Examples

/-- The tables for ASCII text and for letters without case. -/
@[reducible]
def letterTables : Text.UnicodeTables where
  isAlphanumeric c := c.isAlphanum || decide (0x4E00 ≤ c.toNat)
  charToLowercase c := [c.toLower]
  strToLowercase s := s.map Char.toLower

attribute [local instance] letterTables f64

/-- A side that has only the name of a league. -/
def leagueSide (league : String) : SideNames where
  league := some league
  team := none
  leagueCanonical := ""
  teamCanonical := ""

/-- A team with a name in another script is not found under its own name. -/
theorem not_resolveSide_of_exactName :
    ¬ ∀ (teams : List (Int × String)) (games : List (Int × WftdaGame))
      (cache : Matcher.SideCache (loadMatcher teams games)) (side : SideNames),
      teams.Pairwise (fun t u => t.1 < u.1) → sideName side ≠ "" →
      (∃ t ∈ teams, sideName side = canonicalizeLeague t.2) →
      ∃ id, IsLeast (idsOfName teams (sideName side)) id ∧
        ((loadMatcher teams games).resolveSide (sideName side) (TrigramSet.new (sideName side))
          cache).1 = some (id, 1) := by
  intro h
  obtain ⟨id, -, hsome⟩ := h [(1, "東京")] [] (Matcher.SideCache.empty _) (leagueSide "東京")
    (by decide) (by decide +kernel) ⟨(1, "東京"), by decide, by decide +kernel⟩
  have hnone : ((loadMatcher [(1, "東京")] []).resolveSide (sideName (leagueSide "東京"))
      (TrigramSet.new (sideName (leagueSide "東京"))) (Matcher.SideCache.empty _)).1 = none := by
    decide +kernel
  rw [hnone] at hsome
  cases hsome

/-- Two teams of one name, which has a number in it. -/
def numberedTeams : List (Int × String) :=
  [(1, "東京 2020"), (2, "東京 2020")]

theorem resolveSide_of_exactName_numbered :
    ∃ id, IsLeast (idsOfName numberedTeams (sideName (leagueSide "東京 2020"))) id ∧
      ((loadMatcher numberedTeams []).resolveSide (sideName (leagueSide "東京 2020"))
        (TrigramSet.new (sideName (leagueSide "東京 2020"))) (Matcher.SideCache.empty _)).1 =
          some (id, 1) :=
  (Matcher.resolveSide_of_exactName numberedTeams (by decide) [] (Matcher.SideCache.empty _)
    (leagueSide "東京 2020") ⟨(1, "東京 2020"), by decide, by decide +kernel⟩).1
      ⟨'2', by decide +kernel, by decide⟩

end Examples

end Resolve
end Statskboo
