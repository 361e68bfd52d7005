import Statskboo.Ingest.Orientation

/-!
# Exchanging the sides

Nothing but the uploader says which side of a statsbook is home, and nothing but the other
site which team of a game is the first.  Two matchers that see the same games, under whatever
positions, and weigh them the same come to the same answer; exchanging the sides of a statsbook
or the teams of a game is a case of this.

Main results:

- Theorem {lit}`Matcher.Corresponds.resolution`: corresponding matchers answer with
  corresponding games and the same evidence.
- Theorem {lit}`Matcher.resolve_exchange`: a statsbook with its sides exchanged is matched with
  the same game and the same evidence, and with the teams exchanged.
-/

namespace Statskboo
namespace Resolve

open Canon KeyedTable

/-! ## What is exchanged -/

/-- The statsbook with the names and scores of its sides exchanged. -/
def Statsbook.exchange [Text.UnicodeTables] (sb : Statsbook) : Statsbook where
  driveFileId := sb.driveFileId
  date := sb.date
  homeScore := sb.awayScore
  awayScore := sb.homeScore
  homeName := sb.awayName
  awayName := sb.homeName
  home := sb.away
  away := sb.home
  home_eq := sb.away_eq
  away_eq := sb.home_eq

/-- The game with its teams and their scores exchanged. -/
def Game.exchange {n : Nat} (g : Game n) : Game n :=
  { g with team1 := g.team2, team2 := g.team1, score1 := g.score2, score2 := g.score1 }

/-- Two answers link the same game with the same evidence. -/
structure SameMatch (r r' : Resolution) : Prop where
  method : r'.method = r.method
  wftdaGameId : r'.wftdaGameId = r.wftdaGameId
  teamSimilarity : r'.teamSimilarity = r.teamSimilarity
  scoreDelta : r'.scoreDelta = r.scoreDelta
  dateOffset : r'.dateOffset = r.dateOffset

/-- The teams that an answer assigns to the home and the away side. -/
def Resolution.teams (r : Resolution) : Option Int × Option Int :=
  (r.homeTeamId, r.awayTeamId)

theorem pair_exchange {n : Nat} (g : Game n) : g.exchange.pair = g.pair :=
  Prod.ext (min_comm g.score2 g.score1) (max_comm g.score2 g.score1)

theorem pairKey_comm (a b : Int) : pairKey a b = pairKey b a :=
  congrArg toLex (Prod.ext (min_comm a b) (max_comm a b))

/-- A candidate whose game has another position. -/
def Candidate.mapGame {n n' : Nat} (e : Fin n → Fin n') (c : Candidate n) : Candidate n' where
  off := c.off
  signedOffset := c.signedOffset
  team := c.team
  delta := c.delta
  game := e c.game

/-- The state of a scan whose games have other positions. -/
def mapFound {n n' : Nat} (e : Fin n → Fin n') (acc : Option (Int × Fin n) × Bool) :
    Option (Int × Fin n') × Bool :=
  (acc.1.map fun p => (p.1, e p.2), acc.2)

namespace Matcher

/-- The matcher with the teams of some of its games exchanged. -/
def exchangeGames (m : Matcher) (exchanged : m.GameIx → Bool) : Matcher :=
  Matcher.new m.teams ((List.finRange m.games.length).map fun i =>
    if exchanged i then (m.game i).exchange else m.game i)

section Games

variable (m : Matcher) (exchanged : m.GameIx → Bool)

theorem length_exchangeGames : m.games.length = (m.exchangeGames exchanged).games.length := by
  simp [exchangeGames, new]

/-- The position of a game after the exchange. -/
def exchangedIx (i : m.GameIx) : (m.exchangeGames exchanged).GameIx :=
  i.cast (m.length_exchangeGames exchanged)

theorem game_exchangedIx (i : m.GameIx) :
    (m.exchangeGames exchanged).game (m.exchangedIx exchanged i) =
      if exchanged i then (m.game i).exchange else m.game i := by
  simp only [game, exchangedIx, exchangeGames, new, List.get_eq_getElem, List.getElem_map,
    List.getElem_finRange]
  rfl

theorem finRange_cast {n n' : Nat} (h : n = n') :
    List.finRange n' = (List.finRange n).map (Fin.cast h) := by
  subst h
  exact (List.map_id _).symm

/-- An index over the games, whose keys the exchange keeps, has the same games. -/
theorem getD_get?_index_exchanged {κ : Type} [LinearOrder κ] {key : m.GameIx → κ}
    {key' : (m.exchangeGames exchanged).GameIx → κ}
    (hkey : ∀ i, key' (m.exchangedIx exchanged i) = key i) (k : κ) :
    ((Table.index key' (List.finRange (m.exchangeGames exchanged).games.length)).get? k).getD [] =
      (((Table.index key (List.finRange m.games.length)).get? k).getD []).map
        (m.exchangedIx exchanged) := by
  rw [Table.getD_get?_index, Table.getD_get?_index,
    finRange_cast (m.length_exchangeGames exchanged), List.filter_map]
  exact congrArg (List.map _) (List.filter_congr fun i _ => by
    rw [← hkey i]
    rfl)

end Games

/-- The larger of two pieces of evidence does not depend on their order. -/
theorem larger_comm (o₁ o₂ : ℚ × Int) :
    (if toLex o₁ ≥ toLex o₂ then o₁ else o₂) = if toLex o₂ ≥ toLex o₁ then o₂ else o₁ := by
  rcases lt_trichotomy (toLex o₁) (toLex o₂) with h | h | h
  · rw [if_neg h.not_ge, if_pos h.le]
  · rw [toLex.injective h]
  · rw [if_pos h.le, if_neg h.not_ge]

section Paths

variable [Text.UnicodeTables] [Numbers.Rounding]

/-! ## The paths by positions -/

/-- The game that the scan over some positions settles on. -/
def signatureFound (m : Matcher) (sb : Statsbook) (indices : List m.GameIx) : Option m.GameIx :=
  match indices.foldl (m.signatureStep sb) (none, false) with
  | (some (_, i), false) => some i
  | _ => none

/-- The position of the signature match. -/
def signatureIx (m : Matcher) (sb : Statsbook) : Option m.GameIx :=
  (m.bestTeam sb.home).bind fun home =>
    (m.bestTeam sb.away).bind fun away =>
      m.signatureFound sb ((m.byPair.get? (pairKey home.1 away.1)).getD [])

/-- The answer of the signature path at a position. -/
def pairMatch (m : Matcher) (sb : Statsbook) (i : m.GameIx) : Resolution :=
  m.matched sb i Method.pair (m.evaluate sb i).1 (m.evaluate sb i).2
    (asI16 ((m.game i).date - sb.date))

theorem signatureGame_eq (m : Matcher) (sb : Statsbook) (homeId awayId : Int) :
    m.signatureGame sb homeId awayId =
      (m.signatureFound sb ((m.byPair.get? (pairKey homeId awayId)).getD [])).map
        (m.pairMatch sb) := by
  unfold signatureGame signatureFound
  cases m.byPair.get? (pairKey homeId awayId) with
  | none => rfl
  | some indices =>
      dsimp only [Option.getD_some]
      generalize indices.foldl (m.signatureStep sb) (none, false) = acc
      rcases acc with ⟨_ | _, _ | _⟩ <;> rfl

theorem signature_eq_map (m : Matcher) (sb : Statsbook) :
    m.signature sb = (m.signatureIx sb).map (m.pairMatch sb) := by
  unfold signature signatureIx
  simp only [signatureGame_eq]
  cases m.bestTeam sb.home with
  | none => rfl
  | some home => cases m.bestTeam sb.away <;> rfl

/-! ## Corresponding matchers -/

/-- Two matchers and two statsbooks that come to the same games in the same order and to the same
evidence; {lit}`e` takes the positions of the one to those of the other. -/
structure Corresponds (m m' : Matcher) (sb sb' : Statsbook) (e : m.GameIx → m'.GameIx) :
    Prop where
  date : sb'.date = sb.date
  scorePair : scorePair sb' = scorePair sb
  zeroTotal : zeroTotal sb' = zeroTotal sb
  sides : (m'.bestTeam sb'.home = m.bestTeam sb.home ∧ m'.bestTeam sb'.away = m.bestTeam sb.away) ∨
    (m'.bestTeam sb'.home = m.bestTeam sb.away ∧ m'.bestTeam sb'.away = m.bestTeam sb.home)
  gameId : ∀ i, (m'.game (e i)).id = (m.game i).id
  gameDate : ∀ i, (m'.game (e i)).date = (m.game i).date
  gamePair : ∀ i, (m'.game (e i)).pair = (m.game i).pair
  evaluate : ∀ i, m'.evaluate sb' (e i) = m.evaluate sb i
  byDate : ∀ d, (m'.byDate.get? d).getD [] = ((m.byDate.get? d).getD []).map e
  byPair : ∀ k, (m'.byPair.get? k).getD [] = ((m.byPair.get? k).getD []).map e

namespace Corresponds

variable {m m' : Matcher} {sb sb' : Statsbook} {e : m.GameIx → m'.GameIx}
  (h : Corresponds m m' sb sb' e)
include h

theorem dayDistance (i : m.GameIx) : m'.dayDistance sb' (e i) = m.dayDistance sb i := by
  unfold Matcher.dayDistance
  rw [h.gameDate, h.date]

/-- One round of the scan keeps the correspondence. -/
theorem signatureStep (acc : Option (Int × m.GameIx) × Bool) (i : m.GameIx) :
    m'.signatureStep sb' (mapFound e acc) (e i) = mapFound e (m.signatureStep sb acc i) := by
  obtain ⟨best, tied⟩ := acc
  unfold Matcher.signatureStep mapFound
  rw [h.gamePair, h.scorePair, h.dayDistance]
  cases best with
  | none =>
      dsimp only [Option.map_none]
      split_ifs <;> rfl
  | some best =>
      dsimp only [Option.map_some]
      split_ifs <;> rfl

theorem foldl_signatureStep (indices : List m.GameIx) (acc : Option (Int × m.GameIx) × Bool) :
    (indices.map e).foldl (m'.signatureStep sb') (mapFound e acc) =
      mapFound e (indices.foldl (m.signatureStep sb) acc) := by
  induction indices generalizing acc with
  | nil => rfl
  | cons i indices ih =>
      rw [List.map_cons, List.foldl_cons, List.foldl_cons, h.signatureStep]
      exact ih (m.signatureStep sb acc i)

theorem signatureFound (indices : List m.GameIx) :
    m'.signatureFound sb' (indices.map e) = (m.signatureFound sb indices).map e := by
  have hfold := h.foldl_signatureStep indices (none, false)
  unfold Matcher.signatureFound
  change (match (indices.map e).foldl (m'.signatureStep sb') (mapFound e (none, false)) with
    | (some (_, i), false) => some i
    | _ => none) = _
  rw [hfold]
  generalize indices.foldl (m.signatureStep sb) (none, false) = acc
  rcases acc with ⟨_ | _, _ | _⟩ <;> rfl

/-- The signature match is at the corresponding position. -/
theorem signatureIx : m'.signatureIx sb' = (m.signatureIx sb).map e := by
  unfold Matcher.signatureIx
  have hfound : ∀ home away : Int × ℚ,
      m'.signatureFound sb' ((m'.byPair.get? (pairKey home.1 away.1)).getD []) =
        (m.signatureFound sb ((m.byPair.get? (pairKey home.1 away.1)).getD [])).map e := by
    intro home away
    rw [h.byPair, h.signatureFound]
  rcases h.sides with ⟨hhome, haway⟩ | ⟨hhome, haway⟩
  · rw [hhome, haway]
    simp only [hfound]
    cases m.bestTeam sb.home with
    | none => rfl
    | some home => cases m.bestTeam sb.away <;> rfl
  · rw [hhome, haway]
    cases m.bestTeam sb.home with
    | none => cases m.bestTeam sb.away <;> rfl
    | some home =>
        cases m.bestTeam sb.away with
        | none => rfl
        | some away =>
            simp only [Option.bind_some, hfound]
            rw [pairKey_comm]

/-- The candidates of the date window are the corresponding ones, in the same order. -/
theorem candidates : m'.candidates sb' = (m.candidates sb).map (Candidate.mapGame e) := by
  have hcandidate : ∀ offset i, m'.candidate sb' offset (e i) =
      (m.candidate sb offset i).map (Candidate.mapGame e) := by
    intro offset i
    unfold Matcher.candidate
    rw [h.evaluate, h.zeroTotal]
    dsimp only
    split_ifs <;> rfl
  unfold Matcher.candidates
  rw [List.map_flatMap]
  congr 1
  funext offset
  rw [h.date, h.byDate, List.filterMap_map, List.map_filterMap]
  exact congrArg (List.filterMap · _) (funext (hcandidate offset))

theorem sortedCandidates :
    m'.sortedCandidates sb' = (m.sortedCandidates sb).map (Candidate.mapGame e) := by
  unfold Matcher.sortedCandidates
  rw [h.candidates]
  symm
  apply List.map_insertionSort
  intro a _ b _
  have hcmp : m'.candidateCmp (a.mapGame e) (b.mapGame e) = m.candidateCmp a b := by
    unfold Matcher.candidateCmp
    simp only [Candidate.mapGame, h.gameId]
  rw [hcmp]

/-- The answers link no game, or corresponding games with the same evidence. -/
theorem resolution :
    (m.resolution sb = noMatch ∧ m'.resolution sb' = noMatch) ∨
      ∃ i method similarity delta offset,
        m.resolution sb = m.matched sb i method similarity delta offset ∧
        m'.resolution sb' = m'.matched sb' (e i) method similarity delta offset := by
  unfold Matcher.resolution
  rw [signature_eq_map, signature_eq_map, h.signatureIx]
  cases m.signatureIx sb with
  | some i =>
      refine Or.inr ⟨i, Method.pair, _, _, _, rfl, ?_⟩
      change m'.pairMatch sb' (e i) = _
      unfold pairMatch
      rw [h.evaluate, h.gameDate, h.date]
  | none =>
      simp only [Option.map_none, Option.getD_none]
      unfold windowMatch
      rw [h.sortedCandidates]
      cases m.sortedCandidates sb with
      | nil => exact Or.inl ⟨rfl, rfl⟩
      | cons top rest =>
          have hclose : runnerUpTooClose (top.mapGame e) (rest.map (Candidate.mapGame e)) =
              runnerUpTooClose top rest := by
            cases rest <;> rfl
          have hmethod : windowMethod sb' (top.mapGame e) = windowMethod sb top := by
            unfold windowMethod
            rw [h.zeroTotal]
            rfl
          rw [List.map_cons]
          dsimp only
          rw [hclose, hmethod]
          split_ifs
          · exact Or.inl ⟨rfl, rfl⟩
          · exact Or.inr ⟨top.game, _, _, _, _, rfl, rfl⟩

end Corresponds

theorem sameMatch_of_corresponds {m m' : Matcher} {sb sb' : Statsbook} {e : m.GameIx → m'.GameIx}
    (h : Corresponds m m' sb sb' e) : SameMatch (m.resolution sb) (m'.resolution sb') := by
  rcases h.resolution with ⟨hnone, hnone'⟩ | ⟨i, _, _, _, _, hsome, hsome'⟩
  · rw [hnone, hnone']
    exact ⟨rfl, rfl, rfl, rfl, rfl⟩
  · rw [hsome, hsome']
    exact ⟨rfl, congrArg some (h.gameId i), rfl, rfl, rfl⟩

/-! ## The sides of a statsbook -/

section Sides

variable (m : Matcher) (sb : Statsbook) (i : m.GameIx)

/-- The sum of the similarities is rounded the same in either order. -/
theorem meanSimilarity_exchange (home away : Team) :
    meanSimilarity sb.exchange home away = meanSimilarity sb away home :=
  congrArg (fun sum => Numbers.Rounding.round (Numbers.Rounding.round sum / 2)) (add_comm _ _)

/-- The orientations of a game are exchanged with the sides. -/
theorem straight_exchange : m.straight sb.exchange i = m.swapped sb i :=
  Prod.ext (meanSimilarity_exchange sb _ _) (add_comm _ _)

theorem swapped_exchange : m.swapped sb.exchange i = m.straight sb i :=
  Prod.ext (meanSimilarity_exchange sb _ _) (add_comm _ _)

theorem evaluate_exchange : m.evaluate sb.exchange i = m.evaluate sb i := by
  unfold evaluate
  rw [straight_exchange, swapped_exchange]
  exact larger_comm _ _

/-- The teams are exchanged with the sides, unless nothing tells the orientations apart. -/
theorem assignSides_exchange :
    m.assignSides sb.exchange i =
      if (m.straight sb i).2 = (m.swapped sb i).2 ∧ (m.straight sb i).1 = (m.swapped sb i).1
      then m.assignSides sb i
      else (m.assignSides sb i).swap := by
  unfold assignSides
  rw [straight_exchange, swapped_exchange]
  rcases lt_trichotomy (m.straight sb i).2 (m.swapped sb i).2 with hdelta | hdelta | hdelta
  · rw [if_pos hdelta.ne', if_neg hdelta.not_gt, if_neg fun h => hdelta.ne h.1, if_pos hdelta.ne,
      if_pos hdelta]
    rfl
  · rw [if_neg (not_not.mpr hdelta.symm), if_neg (not_not.mpr hdelta)]
    rcases lt_trichotomy (m.straight sb i).1 (m.swapped sb i).1 with hsim | hsim | hsim
    · rw [if_neg hsim.not_gt, if_neg fun h => hsim.ne h.2, if_pos hsim]
      rfl
    · rw [if_neg hsim.not_gt, if_pos ⟨hdelta, hsim⟩, if_neg hsim.not_lt]
    · rw [if_pos hsim, if_neg fun h => hsim.ne' h.2, if_neg hsim.not_gt]
      rfl
  · rw [if_pos hdelta.ne, if_pos hdelta, if_neg fun h => hdelta.ne' h.1, if_pos hdelta.ne',
      if_neg hdelta.not_gt]
    rfl

/-- Exchanging the sides of a statsbook does not change what the matcher weighs. -/
theorem corresponds_exchange : Corresponds m m sb sb.exchange id where
  date := rfl
  scorePair := Prod.ext (min_comm sb.awayScore sb.homeScore) (max_comm sb.awayScore sb.homeScore)
  zeroTotal := by
    unfold zeroTotal
    exact congrArg (fun total : Int => decide (total = 0)) (add_comm sb.awayScore sb.homeScore)
  sides := Or.inr ⟨rfl, rfl⟩
  gameId _ := rfl
  gameDate _ := rfl
  gamePair _ := rfl
  evaluate := m.evaluate_exchange sb
  byDate d := (List.map_id _).symm
  byPair k := (List.map_id _).symm

end Sides

/-! ## The teams of the games -/

section Games

variable (m : Matcher) (exchanged : m.GameIx → Bool)

/-- The straight orientation of an exchanged game is the swapped one of the game. -/
theorem straight_exchangedIx (sb : Statsbook) (i : m.GameIx) :
    (m.exchangeGames exchanged).straight sb (m.exchangedIx exchanged i) =
      if exchanged i = true then m.swapped sb i else m.straight sb i := by
  unfold straight swapped team1 team2
  rw [game_exchangedIx]
  split_ifs <;> rfl

/-- The swapped orientation of an exchanged game is the straight one of the game. -/
theorem swapped_exchangedIx (sb : Statsbook) (i : m.GameIx) :
    (m.exchangeGames exchanged).swapped sb (m.exchangedIx exchanged i) =
      if exchanged i = true then m.straight sb i else m.swapped sb i := by
  unfold straight swapped team1 team2
  rw [game_exchangedIx]
  split_ifs <;> rfl

/-- Exchanging the teams of games does not change what the matcher weighs. -/
theorem corresponds_exchangeGames (sb : Statsbook) :
    Corresponds m (m.exchangeGames exchanged) sb sb (m.exchangedIx exchanged) where
  date := rfl
  scorePair := rfl
  zeroTotal := rfl
  sides := Or.inl ⟨rfl, rfl⟩
  gameId i := by
    rw [game_exchangedIx]
    split_ifs <;> rfl
  gameDate i := by
    rw [game_exchangedIx]
    split_ifs <;> rfl
  gamePair i := by
    rw [game_exchangedIx]
    split_ifs
    · exact pair_exchange (m.game i)
    · rfl
  evaluate i := by
    unfold evaluate
    rw [straight_exchangedIx, swapped_exchangedIx]
    split_ifs
    · exact larger_comm _ _
    · rfl
  byDate d := by
    rw [(m.exchangeGames exchanged).byDate_eq, m.byDate_eq]
    apply getD_get?_index_exchanged
    intro i
    change ((m.exchangeGames exchanged).game (m.exchangedIx exchanged i)).date = (m.game i).date
    rw [game_exchangedIx]
    split_ifs <;> rfl
  byPair k := by
    rw [(m.exchangeGames exchanged).byPair_eq, m.byPair_eq]
    apply getD_get?_index_exchanged
    intro i
    change pairKey ((m.exchangeGames exchanged).team1 (m.exchangedIx exchanged i)).id
      ((m.exchangeGames exchanged).team2 (m.exchangedIx exchanged i)).id =
      pairKey (m.team1 i).id (m.team2 i).id
    unfold team1 team2
    rw [game_exchangedIx]
    split_ifs
    · exact pairKey_comm _ _
    · rfl

end Games

/-! ## Both exchanges -/

/-- Who is called home does not matter: with the sides of a statsbook exchanged, the answer is
the same game with the same evidence and the teams exchanged, unless nothing tells the
orientations of the game apart; with the teams of any games exchanged, the answer is the same
game with the same evidence. -/
theorem resolve_exchange (m : Matcher) (sb : Statsbook) (cache cache' : SideCache m)
    (exchanged : m.GameIx → Bool) (cache'' : SideCache (m.exchangeGames exchanged)) :
    SameMatch (m.resolve sb cache).1 (m.resolve sb.exchange cache').1 ∧
    (((m.resolve sb cache).1 = noMatch ∧ (m.resolve sb.exchange cache').1 = noMatch) ∨
      ∃ i, (m.resolve sb cache).1.wftdaGameId = some (m.game i).id ∧
        (m.resolve sb cache).1.teams = (m.assignSides sb i).map some some ∧
        (m.resolve sb.exchange cache').1.teams =
          if (m.straight sb i).2 = (m.swapped sb i).2 ∧ (m.straight sb i).1 = (m.swapped sb i).1
          then (m.resolve sb cache).1.teams
          else (m.resolve sb cache).1.teams.swap) ∧
    SameMatch (m.resolve sb cache).1 ((m.exchangeGames exchanged).resolve sb cache'').1 := by
  simp only [resolve_fst]
  have hsides := m.corresponds_exchange sb
  refine ⟨sameMatch_of_corresponds hsides, ?_,
    sameMatch_of_corresponds (m.corresponds_exchangeGames exchanged sb)⟩
  rcases hsides.resolution with hnone | ⟨i, method, similarity, delta, offset, hsome, hsome'⟩
  · exact Or.inl hnone
  · refine Or.inr ⟨i, ?_, ?_, ?_⟩
    · rw [hsome]
      rfl
    · rw [hsome]
      rfl
    · rw [hsome, hsome']
      change ((m.assignSides sb.exchange i).map some some) = _
      rw [assignSides_exchange]
      split_ifs <;> rfl

end Paths

end Matcher
end Resolve
end Statskboo
