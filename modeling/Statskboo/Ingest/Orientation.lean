import Mathlib.Data.Fintype.Defs
import Mathlib.Data.Finset.Insert
import Statskboo.Ingest.MatcherSpec

/-!
# Evidence and orientation

A game can be laid on a statsbook in two orientations: its first team is the home
side, or its second.  The evidence recorded with a match and the side assignment
are chosen separately, names first for the one and score first for the other.

Main results:

- Theorem {lit}`Matcher.assignSides_eq`: the side assignment lays the teams of the
  game on the sides in the assigned orientation.
- Theorem {lit}`Matcher.evaluate_eq_evidence`: when the recorded evidence is that of
  the assigned orientation and when it is that of the opposite one.
- Theorem {lit}`Matcher.resolve_evidence`: what this means for a resolution.
-/

namespace Statskboo
namespace Resolve

/-- How the teams of a game are laid on the sides of a statsbook. -/
inductive Orientation where
  /-- The home side is the first team of the game. -/
  | straight
  /-- The home side is the second team of the game. -/
  | swapped
deriving DecidableEq, Repr

instance : Fintype Orientation where
  elems := {.straight, .swapped}
  complete o := by cases o <;> simp

/-- The opposite orientation. -/
def Orientation.flip : Orientation → Orientation
  | straight => swapped
  | swapped => straight

namespace Matcher

open Canon

variable (m : Matcher)

/-- The team laid on the home side. -/
def homeTeam (i : m.GameIx) : Orientation → Team
  | .straight => m.team1 i
  | .swapped => m.team2 i

/-- The team laid on the away side. -/
def awayTeam (i : m.GameIx) : Orientation → Team
  | .straight => m.team2 i
  | .swapped => m.team1 i

/-- The game's score of the team laid on the home side. -/
def homeTeamScore (i : m.GameIx) : Orientation → Int
  | .straight => (m.game i).score1
  | .swapped => (m.game i).score2

/-- The game's score of the team laid on the away side. -/
def awayTeamScore (i : m.GameIx) : Orientation → Int
  | .straight => (m.game i).score2
  | .swapped => (m.game i).score1

variable [Text.UnicodeTables] [Numbers.Rounding] (sb : Statsbook)

/-- Mean similarity and total score difference of one orientation. -/
def evidence (i : m.GameIx) (o : Orientation) : ℚ × Int :=
  (meanSimilarity sb (m.homeTeam i o) (m.awayTeam i o),
    scoreDelta sb (m.homeTeamScore i o) (m.awayTeamScore i o))

/-- The orientation the side assignment chooses: the smaller score difference, then the
higher similarity, then the straight one. -/
def assigned (i : m.GameIx) : Orientation :=
  if (m.evidence sb i .swapped).2 < (m.evidence sb i .straight).2 then .swapped
  else if (m.evidence sb i .straight).2 < (m.evidence sb i .swapped).2 then .straight
  else if (m.evidence sb i .straight).1 < (m.evidence sb i .swapped).1 then .swapped
  else .straight

/-- The side assignment lays the teams on the sides in the assigned orientation. -/
theorem assignSides_eq (i : m.GameIx) :
    m.assignSides sb i =
      ((m.homeTeam i (m.assigned sb i)).id, (m.awayTeam i (m.assigned sb i)).id) := by
  unfold assignSides assigned
  change (if (m.evidence sb i .straight).2 ≠ (m.evidence sb i .swapped).2 then _ else
    if (m.evidence sb i .straight).1 < (m.evidence sb i .swapped).1 then _ else _) = _
  rcases lt_trichotomy (m.evidence sb i .straight).2 (m.evidence sb i .swapped).2 with h | h | h
  · rw [if_pos h.ne, if_neg (lt_asymm h), if_pos h]
    exact if_pos h
  · rw [if_neg (not_not.mpr h), if_neg h.not_gt, if_neg h.not_lt]
    split_ifs <;> rfl
  · rw [if_pos h.ne', if_pos h]
    exact if_neg (lt_asymm h)

/-- The evidence recorded with a match is the larger of the two, names first. -/
theorem evidence_le_evaluate (i : m.GameIx) (o : Orientation) :
    toLex (m.evidence sb i o) ≤ toLex (m.evaluate sb i) := by
  change _ ≤ toLex (if toLex (m.evidence sb i .swapped) ≤ toLex (m.evidence sb i .straight)
    then m.evidence sb i .straight else m.evidence sb i .swapped)
  split_ifs with h <;> cases o
  · exact le_rfl
  · exact h
  · exact (not_le.mp h).le
  · exact le_rfl

theorem evaluate_eq_of_le {i : m.GameIx} {o : Orientation}
    (h : toLex (m.evidence sb i o.flip) ≤ toLex (m.evidence sb i o)) :
    m.evaluate sb i = m.evidence sb i o := by
  change (if toLex (m.evidence sb i .swapped) ≤ toLex (m.evidence sb i .straight)
    then m.evidence sb i .straight else m.evidence sb i .swapped) = _
  cases o with
  | straight => exact if_pos h
  | swapped =>
      split_ifs with hle
      · exact toLex.injective (le_antisymm h hle)
      · rfl

/-- The assigned orientation has the smaller score difference, or the same difference
and at least the similarity. -/
theorem assigned_spec (i : m.GameIx) :
    (m.evidence sb i (m.assigned sb i)).2 < (m.evidence sb i (m.assigned sb i).flip).2 ∨
      ((m.evidence sb i (m.assigned sb i)).2 = (m.evidence sb i (m.assigned sb i).flip).2 ∧
        (m.evidence sb i (m.assigned sb i).flip).1 ≤ (m.evidence sb i (m.assigned sb i)).1) := by
  unfold assigned
  split_ifs with h₁ h₂ h₃
  · exact Or.inl h₁
  · exact Or.inl h₂
  · exact Or.inr ⟨le_antisymm (not_lt.mp h₂) (not_lt.mp h₁), h₃.le⟩
  · exact Or.inr ⟨le_antisymm (not_lt.mp h₁) (not_lt.mp h₂), not_lt.mp h₃⟩

/-- An orientation is assigned when it has the smaller score difference, or the same
difference and the higher similarity, or the same of both and is the straight one. -/
theorem assigned_eq_iff (i : m.GameIx) (o : Orientation) :
    m.assigned sb i = o ↔
      (m.evidence sb i o).2 < (m.evidence sb i o.flip).2 ∨
        ((m.evidence sb i o).2 = (m.evidence sb i o.flip).2 ∧
          ((m.evidence sb i o.flip).1 < (m.evidence sb i o).1 ∨
            ((m.evidence sb i o.flip).1 = (m.evidence sb i o).1 ∧ o = .straight))) := by
  unfold assigned
  cases o with
  | straight =>
      rw [Orientation.flip]
      split_ifs with h₁ h₂ h₃
      · exact iff_of_false (by decide) (by grind)
      · exact iff_of_true rfl (Or.inl h₂)
      · exact iff_of_false (by decide) (by grind)
      · exact iff_of_true rfl (by grind)
  | swapped =>
      rw [Orientation.flip]
      split_ifs with h₁ h₂ h₃
      · exact iff_of_true rfl (Or.inl h₁)
      · exact iff_of_false (by decide) (by grind)
      · exact iff_of_true rfl (by grind)
      · exact iff_of_false (by decide) (by grind)

/-- The recorded evidence is that of the assigned orientation, unless the assignment
follows the score against names that speak for the opposite orientation. -/
theorem evaluate_eq_evidence (i : m.GameIx) :
    m.evaluate sb i =
      if (m.evidence sb i (m.assigned sb i)).2 < (m.evidence sb i (m.assigned sb i).flip).2 ∧
          (m.evidence sb i (m.assigned sb i)).1 ≤ (m.evidence sb i (m.assigned sb i).flip).1
      then m.evidence sb i (m.assigned sb i).flip
      else m.evidence sb i (m.assigned sb i) := by
  have hflip : ∀ o : Orientation, o.flip.flip = o := by
    intro o
    cases o <;> rfl
  split_ifs with h
  · refine m.evaluate_eq_of_le sb ?_
    rw [hflip, Prod.Lex.toLex_le_toLex]
    rcases lt_or_eq_of_le h.2 with hlt | heq
    · exact Or.inl hlt
    · exact Or.inr ⟨heq, h.1.le⟩
  · refine m.evaluate_eq_of_le sb ?_
    rw [Prod.Lex.toLex_le_toLex]
    rcases m.assigned_spec sb i with hdelta | ⟨hdelta, hsim⟩
    · exact Or.inl (not_le.mp fun hle => h ⟨hdelta, hle⟩)
    · rcases lt_or_eq_of_le hsim with hlt | heq
      · exact Or.inl hlt
      · exact Or.inr ⟨heq, hdelta.ge⟩

/-- Every answer other than none links a game and records its evaluation. -/
theorem resolution_cases :
    m.resolution sb = noMatch ∨ ∃ i method dateOffset,
      m.resolution sb =
        m.matched sb i method (m.evaluate sb i).1 (m.evaluate sb i).2 dateOffset := by
  unfold resolution
  cases hsignature : m.signature sb with
  | some r =>
      obtain ⟨home, -, hsignature⟩ := Option.bind_eq_some_iff.mp hsignature
      obtain ⟨away, -, hgame⟩ := Option.bind_eq_some_iff.mp hsignature
      unfold signatureGame at hgame
      split at hgame
      · cases hgame
      · split at hgame
        · next i _ => exact Or.inr ⟨i, _, _, (Option.some.inj hgame).symm⟩
        · cases hgame
  | none =>
      rw [Option.getD_none]
      unfold windowMatch
      cases hsorted : m.sortedCandidates sb with
      | nil => exact Or.inl rfl
      | cons top rest =>
          obtain ⟨⟨i, -, rfl, -⟩, -⟩ := m.sortedCandidates_cons sb hsorted
          dsimp only
          split_ifs
          · exact Or.inl rfl
          · exact Or.inr ⟨i, _, _, rfl⟩

/-- Every match records the larger evidence of the two orientations; it is that of the
assigned orientation, unless that one has the strictly smaller score difference and no
more similar names. -/
theorem resolve_evidence (cache : SideCache m)
    (hmatched : (m.resolve sb cache).1.method ≠ Method.none) :
    ∃ i o, (m.resolve sb cache).1.wftdaGameId = some (m.game i).id ∧
      (m.resolve sb cache).1.homeTeamId = some (m.homeTeam i o).id ∧
      (m.resolve sb cache).1.awayTeamId = some (m.awayTeam i o).id ∧
      (∀ o', toLex (m.evidence sb i o') ≤
        toLex ((m.resolve sb cache).1.teamSimilarity, (m.resolve sb cache).1.scoreDelta)) ∧
      ((m.resolve sb cache).1.teamSimilarity, (m.resolve sb cache).1.scoreDelta) =
        if (m.evidence sb i o).2 < (m.evidence sb i o.flip).2 ∧
            (m.evidence sb i o).1 ≤ (m.evidence sb i o.flip).1
        then m.evidence sb i o.flip
        else m.evidence sb i o := by
  rw [resolve_fst] at hmatched ⊢
  rcases m.resolution_cases sb with hnone | ⟨i, method, dateOffset, hsome⟩
  · exact absurd (congrArg Resolution.method hnone) hmatched
  · rw [hsome]
    refine ⟨i, m.assigned sb i, rfl, ?_, ?_, m.evidence_le_evaluate sb i,
      m.evaluate_eq_evidence sb i⟩
    · exact congrArg (fun ids => some ids.1) (m.assignSides_eq sb i)
    · exact congrArg (fun ids => some ids.2) (m.assignSides_eq sb i)

end Matcher

/-! ## A match recorded against its assignment -/

section Example

open Canon

attribute [local instance] Text.asciiTables Numbers.exactFractions

/-- What the statsbook resolves to. -/
def alphaWonResolution : Resolution :=
  (alphaBeta.resolve alphaWon (Matcher.SideCache.empty alphaBeta)).1

/-- The statsbook is assigned to the game by its scores and recorded with the evidence
of its names: no orientation with the assigned teams has the recorded evidence. -/
theorem alphaWon_records_opposite_evidence :
    alphaWonResolution.method ≠ Method.none ∧
      ¬ ∃ i o, alphaWonResolution.wftdaGameId = some (alphaBeta.game i).id ∧
        alphaWonResolution.homeTeamId = some (alphaBeta.homeTeam i o).id ∧
        alphaWonResolution.awayTeamId = some (alphaBeta.awayTeam i o).id ∧
        (alphaWonResolution.teamSimilarity, alphaWonResolution.scoreDelta) =
          alphaBeta.evidence alphaWon i o := by
  decide +kernel

/-- The general theorem at this statsbook. -/
theorem alphaWon_resolve_evidence :
    ∃ i o, (alphaBeta.resolve alphaWon (Matcher.SideCache.empty alphaBeta)).1.wftdaGameId =
        some (alphaBeta.game i).id ∧
      ((alphaBeta.resolve alphaWon (Matcher.SideCache.empty alphaBeta)).1.teamSimilarity,
          (alphaBeta.resolve alphaWon (Matcher.SideCache.empty alphaBeta)).1.scoreDelta) =
        if (alphaBeta.evidence alphaWon i o).2 < (alphaBeta.evidence alphaWon i o.flip).2 ∧
            (alphaBeta.evidence alphaWon i o).1 ≤ (alphaBeta.evidence alphaWon i o.flip).1
        then alphaBeta.evidence alphaWon i o.flip
        else alphaBeta.evidence alphaWon i o := by
  obtain ⟨i, o, hgame, -, -, -, hevidence⟩ :=
    alphaBeta.resolve_evidence alphaWon (Matcher.SideCache.empty alphaBeta) (by decide +kernel)
  exact ⟨i, o, hgame, hevidence⟩

end Example

end Resolve
end Statskboo
