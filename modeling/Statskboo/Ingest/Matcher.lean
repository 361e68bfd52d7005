import Mathlib.Algebra.Order.Group.Abs
import Mathlib.Algebra.Order.Group.Int
import Mathlib.Algebra.Order.Ring.Abs
import Statskboo.Canon
import Statskboo.Lib.KeyedTable
import Statskboo.Numbers

/-!
# The in-memory matcher

The matcher compares one parsed statsbook with every WFTDA team and with the
games around its date.  It tries a signature match first (both sides resolved by
name, exact score pair) and a date window second.  Dates are day numbers.  Similarities
are rounded after each operation, as numbers of type {lit}`f64` are.

The indices of the matcher carry in their type that they index its games, and the
memoized team lookup carries that every entry is what the lookup would compute.

Main results:

- Theorem {lit}`Matcher.resolveSide_fst`: the memoized lookup answers what the
  lookup itself computes.
- Theorem {lit}`Matcher.resolve_fst`: a resolution does not depend on the cache.
-/

namespace Statskboo
namespace Resolve

open Canon KeyedTable Numbers

/-! ## Thresholds -/

/-- A side resolves to a WFTDA team on name alone at this similarity. -/
def sideMatchThreshold : ℚ := 3 / 4

/-- Signature-match search radius around the statsbook date, in days. -/
def signatureDateRadiusDays : Int := 400

/-- Same-day drift: at least this name similarity ... -/
def driftTeamMin [Rounding] : ℚ := Rounding.round (4 / 5)

/-- ... and at most this score delta. -/
def driftDeltaMax : Int := 12

/-- Same-day drift, stronger name evidence ... -/
def driftTeamStrong [Rounding] : ℚ := Rounding.round (9 / 10)

/-- ... tolerates a larger score delta. -/
def driftDeltaStrongMax : Int := 40

/-- Exact score one day off needs at least this name similarity. -/
def windowTeamMin [Rounding] : ℚ := Rounding.round (3 / 5)

/-- Scores are ignored entirely at this name similarity. -/
def zeroTotalTeamMin [Rounding] : ℚ := Rounding.round (17 / 20)

/-- Required margin over the runner-up at the same date offset. -/
def margin [Rounding] : ℚ := Rounding.round (1 / 20)

/-- The similarity of two names, a quotient of two counts. -/
def nameSimilarity [Rounding] (a b : TrigramSet) : ℚ :=
  Rounding.round (a.similarity b)

/-! ## Data -/

/-- How a statsbook was matched. -/
inductive Method where
  | score
  | drift
  | window
  | pair
  | none
deriving DecidableEq, Repr

/-- The text a method is stored under. -/
def Method.asStr : Method → String
  | score => "score"
  | drift => "drift"
  | window => "window"
  | pair => "pair"
  | none => "none"

/-- A WFTDA team as the matcher sees it. -/
structure Team where
  id : Int
  trigrams : TrigramSet

/-- A WFTDA game whose teams are positions in a list of {lit}`n` teams. -/
structure Game (n : Nat) where
  id : Int
  date : Int
  team1 : Fin n
  team2 : Fin n
  score1 : Int
  score2 : Int

/-- Unordered score pair, for the signature path. -/
def Game.pair {n : Nat} (g : Game n) : Int × Int :=
  (min g.score1 g.score2, max g.score1 g.score2)

/-- One parsed statsbook reduced to the fields the matcher needs.  The trigrams are
those of the canonical side names. -/
structure Statsbook [Text.UnicodeTables] where
  driveFileId : String
  date : Int
  homeScore : Int
  awayScore : Int
  homeName : String
  awayName : String
  home : TrigramSet
  away : TrigramSet
  home_eq : home = TrigramSet.new homeName
  away_eq : away = TrigramSet.new awayName

/-- One candidate for the date-window path among {lit}`n` games. -/
structure Candidate (n : Nat) where
  off : Int
  signedOffset : Int
  team : ℚ
  delta : Int
  game : Fin n

/-- Result of resolving one statsbook, including the side assignment. -/
structure Resolution where
  method : Method
  wftdaGameId : Option Int
  teamSimilarity : ℚ
  scoreDelta : Int
  dateOffset : Int
  homeTeamId : Option Int
  awayTeamId : Option Int
deriving DecidableEq, Repr

/-- The index key of a date. -/
def dateKey {n : Nat} (games : List (Game n)) (i : Fin games.length) : Int :=
  (games.get i).date

/-- The index key of an unordered pair of team ids. -/
def pairKey (a b : Int) : Int ×ₗ Int :=
  toLex (min a b, max a b)

/-- Teams, games, and the two lookup indices. -/
structure Matcher where
  teams : List Team
  games : List (Game teams.length)
  byDate : Table Int (List (Fin games.length))
  byPair : Table (Int ×ₗ Int) (List (Fin games.length))
  byDate_eq : byDate = Table.index (dateKey games) (List.finRange games.length)
  byPair_eq : byPair =
    Table.index
      (fun i =>
        let g := games.get i
        pairKey (teams.get g.team1).id (teams.get g.team2).id)
      (List.finRange games.length)

/-- The signature-independent acceptance rule for one window candidate. -/
def windowCandidateOk [Rounding] (team : ℚ) (delta off : Int) (zeroTotal : Bool) : Bool :=
  let ok :=
    if zeroTotal then decide (team ≥ zeroTotalTeamMin)
    else if off > 0 then decide (delta = 0)
    else
      decide (delta = 0)
        || (decide (team ≥ driftTeamMin) && decide (delta ≤ driftDeltaMax))
        || (decide (team ≥ driftTeamStrong) && decide (delta ≤ driftDeltaStrongMax))
  ok && (decide (off = 0) || decide (team ≥ windowTeamMin))

namespace Matcher

/-- Build the matcher: one pass over the games fills both indices. -/
def new (teams : List Team) (games : List (Game teams.length)) : Matcher where
  teams := teams
  games := games
  byDate := Table.index (dateKey games) (List.finRange games.length)
  byPair :=
    Table.index
      (fun i =>
        let g := games.get i
        pairKey (teams.get g.team1).id (teams.get g.team2).id)
      (List.finRange games.length)
  byDate_eq := rfl
  byPair_eq := rfl

variable (m : Matcher)

/-- A position of the game list. -/
abbrev GameIx := Fin m.games.length

/-- The game at a position. -/
def game (i : m.GameIx) : Game m.teams.length :=
  m.games.get i

/-- The first team of the game at a position. -/
def team1 (i : m.GameIx) : Team :=
  m.teams.get (m.game i).team1

/-- The second team of the game at a position. -/
def team2 (i : m.GameIx) : Team :=
  m.teams.get (m.game i).team2

/-! ## Best team for a side name -/

section Scan

variable [Rounding]

/-- One round of the scan over the teams: strictly better ones replace the best. -/
def bestTeamStep (trigrams : TrigramSet) (best : Option (Int × ℚ)) (team : Team) :
    Option (Int × ℚ) :=
  let sim := nameSimilarity trigrams team.trigrams
  if sim ≥ sideMatchThreshold ∧ ∀ b ∈ best, sim > b.2 then some (team.id, sim) else best

/-- Best WFTDA team for a side name, if any reaches the threshold. -/
def bestTeam (trigrams : TrigramSet) : Option (Int × ℚ) :=
  m.teams.foldl (bestTeamStep trigrams) none

end Scan

section Memo

variable [Text.UnicodeTables] [Rounding]

/-- Memoized best-team lookup per canonical side name. -/
structure SideCache where
  entries : Table String (Option (Int × ℚ))
  coherent : ∀ name best, entries.get? name = some best →
    best = m.bestTeam (TrigramSet.new name)

/-- The cache a resolve pass starts with. -/
def SideCache.empty : SideCache m where
  entries := Table.empty
  coherent := by simp

/-- Remember the lookup of one name. -/
def SideCache.insert {m : Matcher} (cache : SideCache m) (name : String) : SideCache m where
  entries := cache.entries.upsert name (m.bestTeam (TrigramSet.new name))
  coherent := by
    intro name' best h
    rw [Table.get?_upsert] at h
    split_ifs at h with hname
    · rw [hname]
      exact (Option.some.inj h).symm
    · exact cache.coherent name' best h

/-- Best team for a side name, looked up in the cache first. -/
def resolveSide (name : String) (trigrams : TrigramSet) (cache : SideCache m) :
    Option (Int × ℚ) × SideCache m :=
  match cache.entries.get? name with
  | some cached => (cached, cache)
  | none => (m.bestTeam trigrams, cache.insert name)

/-- The memoized lookup answers what the lookup itself computes. -/
theorem resolveSide_fst {name : String} {trigrams : TrigramSet} (cache : SideCache m)
    (h : trigrams = TrigramSet.new name) :
    (m.resolveSide name trigrams cache).1 = m.bestTeam trigrams := by
  unfold resolveSide
  split
  · next cached hcached => rw [h, ← cache.coherent name cached hcached]
  · rfl

end Memo

/-! ## Evidence and side assignment -/

section Evidence

variable [Text.UnicodeTables] [Rounding]

/-- Mean name similarity when the home side is the first of two teams. -/
def meanSimilarity (sb : Statsbook) (home away : Team) : ℚ :=
  Rounding.round (Rounding.round
    (nameSimilarity sb.home home.trigrams + nameSimilarity sb.away away.trigrams) / 2)

/-- Total absolute score difference when the home side scored {lit}`x`. -/
def scoreDelta (sb : Statsbook) (x y : Int) : Int :=
  |sb.homeScore - x| + |sb.awayScore - y|

/-- Evidence that the home side is the game's first team. -/
def straight (sb : Statsbook) (i : m.GameIx) : ℚ × Int :=
  (meanSimilarity sb (m.team1 i) (m.team2 i),
    scoreDelta sb (m.game i).score1 (m.game i).score2)

/-- Evidence that the home side is the game's second team. -/
def swapped (sb : Statsbook) (i : m.GameIx) : ℚ × Int :=
  (meanSimilarity sb (m.team2 i) (m.team1 i),
    scoreDelta sb (m.game i).score2 (m.game i).score1)

/-- Mean per-side similarity and total score difference of the orientation that is
lexicographically larger. -/
def evaluate (sb : Statsbook) (i : m.GameIx) : ℚ × Int :=
  let o1 := m.straight sb i
  let o2 := m.swapped sb i
  if toLex o1 ≥ toLex o2 then o1 else o2

/-- Which statsbook side is which WFTDA team: the score decides, then the names, then
the home side is the first team. -/
def assignSides (sb : Statsbook) (i : m.GameIx) : Int × Int :=
  let t1 := m.team1 i
  let t2 := m.team2 i
  let deltaA := (m.straight sb i).2
  let deltaB := (m.swapped sb i).2
  if deltaA ≠ deltaB then
    if deltaA < deltaB then (t1.id, t2.id) else (t2.id, t1.id)
  else if (m.swapped sb i).1 > (m.straight sb i).1 then (t2.id, t1.id)
  else (t1.id, t2.id)

/-- The resolution that links a statsbook to a game. -/
def matched (sb : Statsbook) (i : m.GameIx) (method : Method) (teamSimilarity : ℚ)
    (scoreDelta dateOffset : Int) : Resolution where
  method := method
  wftdaGameId := some (m.game i).id
  teamSimilarity := teamSimilarity
  scoreDelta := scoreDelta
  dateOffset := dateOffset
  homeTeamId := some (m.assignSides sb i).1
  awayTeamId := some (m.assignSides sb i).2

end Evidence

/-- The resolution of a statsbook that stays hidden. -/
def noMatch : Resolution where
  method := Method.none
  wftdaGameId := none
  teamSimilarity := 0
  scoreDelta := 0
  dateOffset := 0
  homeTeamId := none
  awayTeamId := none

/-! ## Signature match -/

section Paths

variable [Text.UnicodeTables] [Rounding]

/-- The unordered score pair of a statsbook. -/
def scorePair (sb : Statsbook) : Int × Int :=
  (min sb.homeScore sb.awayScore, max sb.homeScore sb.awayScore)

/-- Day distance from the statsbook to the game at a position. -/
def dayDistance (sb : Statsbook) (i : m.GameIx) : Int :=
  |(m.game i).date - sb.date|

/-- One round of the scan for the nearest game with the score pair. -/
def signatureStep (sb : Statsbook) (acc : Option (Int × m.GameIx) × Bool) (i : m.GameIx) :
    Option (Int × m.GameIx) × Bool :=
  if (m.game i).pair ≠ scorePair sb then acc
  else if m.dayDistance sb i > signatureDateRadiusDays then acc
  else
    match acc.1 with
    | none => (some (m.dayDistance sb i, i), false)
    | some (bestDays, _) =>
        if m.dayDistance sb i < bestDays then (some (m.dayDistance sb i, i), false)
        else if m.dayDistance sb i = bestDays then (acc.1, true)
        else acc

/-- Truncation to a 16-bit integer. -/
def asI16 (n : Int) : Int :=
  n.bmod (2 ^ 16)

/-- The nearest game between two resolved teams; a tie for nearest is none. -/
def signatureGame (sb : Statsbook) (homeId awayId : Int) : Option Resolution :=
  match m.byPair.get? (pairKey homeId awayId) with
  | none => none
  | some indices =>
      match indices.foldl (m.signatureStep sb) (none, false) with
      | (some (_, i), false) =>
          let (team, delta) := m.evaluate sb i
          let offset := (m.game i).date - sb.date
          some (m.matched sb i Method.pair team delta (asI16 offset))
      | _ => none

/-- Path 1: independently resolved team pair plus an exact score. -/
def signatureMatch (sb : Statsbook) (cache : SideCache m) : Option Resolution × SideCache m :=
  match m.resolveSide sb.homeName sb.home cache with
  | (none, cache) => (none, cache)
  | (some (homeId, _), cache) =>
      match m.resolveSide sb.awayName sb.away cache with
      | (none, cache) => (none, cache)
      | (some (awayId, _), cache) => (m.signatureGame sb homeId awayId, cache)

/-! ## Date window -/

/-- Whether the statsbook's own total is still zero. -/
def zeroTotal (sb : Statsbook) : Bool :=
  decide (sb.homeScore + sb.awayScore = 0)

/-- The game at a position as a candidate at a day offset, if it is accepted. -/
def candidate (sb : Statsbook) (offset : Int) (i : m.GameIx) :
    Option (Candidate m.games.length) :=
  let (team, delta) := m.evaluate sb i
  let off := |offset|
  if windowCandidateOk team delta off (zeroTotal sb) then
    some { off, signedOffset := offset, team, delta, game := i }
  else
    none

/-- The accepted candidates of the three days, day by day. -/
def candidates (sb : Statsbook) : List (Candidate m.games.length) :=
  [-1, 0, 1].flatMap fun offset =>
    ((m.byDate.get? (sb.date + offset)).getD []).filterMap (m.candidate sb offset)

/-- Same day first, then the strongest name match, then the smallest score delta;
the game id keeps the order deterministic. -/
def candidateCmp (a b : Candidate m.games.length) : Ordering :=
  (compare a.off b.off).then <|
    (compare b.team a.team).then <|
      (compare a.delta b.delta).then <|
        compare (m.game a.game).id (m.game b.game).id

/-- The candidates in the order of the comparison. -/
def sortedCandidates (sb : Statsbook) : List (Candidate m.games.length) :=
  (m.candidates sb).insertionSort fun a b => (m.candidateCmp a b).isLE = true

/-- Whether the runner-up is at the same offset and too close to a top candidate that
is not an exact score. -/
def runnerUpTooClose {n : Nat} (top : Candidate n) : List (Candidate n) → Bool
  | [] => false
  | runnerUp :: _ =>
      decide (runnerUp.off = top.off) && decide (top.delta ≠ 0)
        && decide (Rounding.round (top.team - runnerUp.team) < margin)

/-- The method tag of a window match. -/
def windowMethod {n : Nat} (sb : Statsbook) (top : Candidate n) : Method :=
  if zeroTotal sb then Method.window
  else if top.off = 0 ∧ top.delta = 0 then Method.score
  else if top.off = 0 then Method.drift
  else Method.window

/-- Path 2: the best candidate on the day before, the same day or the day after. -/
def windowMatch (sb : Statsbook) : Resolution :=
  match m.sortedCandidates sb with
  | [] => noMatch
  | top :: rest =>
      if runnerUpTooClose top rest then noMatch
      else
        m.matched sb top.game (windowMethod sb top) top.team top.delta top.signedOffset

/-- Resolve one statsbook: the signature path first, then the date window. -/
def resolve (sb : Statsbook) (cache : SideCache m) : Resolution × SideCache m :=
  match m.signatureMatch sb cache with
  | (some resolution, cache) => (resolution, cache)
  | (none, cache) => (m.windowMatch sb, cache)

/-! ## Resolving does not depend on the cache -/

/-- The signature path without a cache. -/
def signature (sb : Statsbook) : Option Resolution :=
  (m.bestTeam sb.home).bind fun home =>
    (m.bestTeam sb.away).bind fun away => m.signatureGame sb home.1 away.1

/-- What a statsbook resolves to. -/
def resolution (sb : Statsbook) : Resolution :=
  (m.signature sb).getD (m.windowMatch sb)

theorem signatureMatch_fst (sb : Statsbook) (cache : SideCache m) :
    (m.signatureMatch sb cache).1 = m.signature sb := by
  have hhome := m.resolveSide_fst cache sb.home_eq
  unfold signatureMatch signature
  rcases hh : m.resolveSide sb.homeName sb.home cache with ⟨home, cache'⟩
  rw [hh] at hhome
  rw [← hhome]
  cases home with
  | none => rfl
  | some home =>
      have haway := m.resolveSide_fst cache' sb.away_eq
      rcases ha : m.resolveSide sb.awayName sb.away cache' with ⟨away, cache''⟩
      rw [ha] at haway
      rw [← haway]
      cases away with
      | none => simp [ha]
      | some away => simp [ha]

/-- The cache only saves work: a resolution does not depend on it. -/
theorem resolve_fst (sb : Statsbook) (cache : SideCache m) :
    (m.resolve sb cache).1 = m.resolution sb := by
  have h := m.signatureMatch_fst sb cache
  unfold resolve resolution
  rcases hs : m.signatureMatch sb cache with ⟨found, cache'⟩
  rw [hs] at h
  rw [← h]
  cases found with
  | none => rfl
  | some r => rfl

end Paths

end Matcher
end Resolve
end Statskboo
