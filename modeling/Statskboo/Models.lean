import Mathlib.Algebra.Order.Field.Rat
import Mathlib.Data.String.Basic
import Mathlib.Order.Lattice
import Mathlib.Tactic.Common

/-!
# Parsed game data

The data that a parsed statsbook consists of.  Bounded machine integers are
natural numbers or integers and the summary percentages are exact fractions; the
functions that compute them say where a value is cut to its width.

Main results:

- Theorem {lit}`Side.asStr_injective`: the two sides keep apart the rows stored
  under their texts.
-/

namespace Statskboo

/-- One of the two sides of a statsbook. -/
inductive Side where
  | home
  | away
deriving DecidableEq, Repr

namespace Side

/-- The text a side is stored and compared under. -/
def asStr : Side → String
  | home => "home"
  | away => "away"

/-- The two sides have different texts. -/
theorem asStr_injective : Function.Injective asStr := by
  intro s t h
  cases s <;> cases t <;> first | rfl | exact absurd h (by decide)

/-- Sides are ordered by their text, as a column of side texts is. -/
instance : LinearOrder Side :=
  LinearOrder.lift' asStr asStr_injective

/-- The opponent of a side. -/
def other : Side → Side
  | home => away
  | away => home

end Side

/-- One row of the Game Summary. -/
structure SummaryPlayer where
  number : String
  name : String
  jamsJammer : Option Nat
  jamsPivot : Option Nat
  jamsBlocker : Option Nat
  jamsTotal : Option Nat
  jamsPct : Option ℚ
  jammerPoints : Option Int
  ppj : Option ℚ
  lost : Option Nat
  lead : Option Nat
  called : Option Nat
  noInitialTrip : Option Nat
  starPasses : Option Nat
  leadPct : Option ℚ
  leadPlusMinus : Option Int
  avgLeadPlusMinus : Option ℚ
  ptsFor : Option Int
  ptsAgainst : Option Int
  plusMinus : Option Int
  jammerPlusMinus : Option Int
  avgJammerPlusMinus : Option ℚ
  pivotPlusMinus : Option Int
  avgPivotPlusMinus : Option ℚ
  blockPlusMinus : Option Int
  avgBlockPlusMinus : Option ℚ
  packPlusMinus : Option Int
  avgPackPlusMinus : Option ℚ
  avgPlusMinus : Option ℚ
  vtarPtsFor : Option ℚ
  vtarPtsAgainst : Option ℚ
  vtarTotalPlusMinus : Option ℚ
  vtarJammerAvgPlusMinus : Option ℚ
  vtarPivotAvgPlusMinus : Option ℚ
  vtarBlockerAvgPlusMinus : Option ℚ
  vtarPackAvgPlusMinus : Option ℚ
  totalVtarAvgPlusMinus : Option ℚ
  penaltyCount : Option Nat
deriving DecidableEq, Repr

/-- The totals row of one side of the Game Summary. -/
structure SummaryTotals where
  jamsJammer : Option Nat
  jamsPivot : Option Nat
  jamsBlocker : Option Nat
  jamsTotal : Option Nat
  jamsPct : Option ℚ
  jammerPoints : Option Int
  ppj : Option ℚ
  lost : Option Nat
  lead : Option Nat
  called : Option Nat
  noInitialTrip : Option Nat
  starPasses : Option Nat
  leadPct : Option ℚ
  leadPlusMinus : Option Int
  avgLeadPlusMinus : Option ℚ
  ptsFor : Option ℚ
  ptsAgainst : Option ℚ
  plusMinus : Option ℚ
  jammerPlusMinus : Option ℚ
  avgJammerPlusMinus : Option ℚ
  pivotPlusMinus : Option ℚ
  avgPivotPlusMinus : Option ℚ
  blockPlusMinus : Option ℚ
  avgBlockPlusMinus : Option ℚ
  packPlusMinus : Option ℚ
  avgPackPlusMinus : Option ℚ
  avgPlusMinus : Option ℚ
  vtarPtsFor : Option ℚ
  vtarPtsAgainst : Option ℚ
  vtarTotalPlusMinus : Option ℚ
  vtarJammerAvgPlusMinus : Option ℚ
  vtarPivotAvgPlusMinus : Option ℚ
  vtarBlockerAvgPlusMinus : Option ℚ
  vtarPackAvgPlusMinus : Option ℚ
  totalVtarAvgPlusMinus : Option ℚ
  penaltyCount : Option Nat
deriving DecidableEq, Repr

/-- The Game Summary of both sides. -/
structure GameSummary where
  homePlayers : List SummaryPlayer
  awayPlayers : List SummaryPlayer
  homeTotals : SummaryTotals
  awayTotals : SummaryTotals
deriving DecidableEq, Repr

/-- Where the game was played. -/
structure Venue where
  name : Option String
  city : Option String
  state : Option String
deriving DecidableEq, Repr

/-- A roster entry. -/
structure Skater where
  number : String
  name : String
deriving DecidableEq, Repr

/-- One side of the IGRF sheet. -/
structure TeamData where
  league : Option String
  team : Option String
  color : Option String
  skaters : List Skater
deriving DecidableEq, Repr

/-- One position of a lineup; the position is {lit}`"jammer"`, {lit}`"pivot"` or
{lit}`"blocker"`. -/
structure LineupEntry where
  number : String
  position : String
  boxTrips : Nat
deriving DecidableEq, Repr

/-- One side of a jam. -/
structure JamSide where
  jammer : Option String
  starPassJammer : Option String
  lead : Bool
  lost : Bool
  called : Bool
  injury : Bool
  noPivot : Bool
  score : Int
  lineup : List LineupEntry
deriving DecidableEq, Repr

/-- One jam. -/
structure Jam where
  number : Nat
  home : JamSide
  away : JamSide
deriving DecidableEq, Repr

/-- The jam of one side. -/
def Jam.side (jam : Jam) : Side → JamSide
  | .home => jam.home
  | .away => jam.away

/-- The jams of one period. -/
structure Period where
  number : Nat
  jams : List Jam
deriving DecidableEq, Repr

/-- One penalty. -/
structure Penalty where
  number : String
  side : String
  period : Nat
  jam : Option Nat
  code : String
  foulOut : Bool
  expulsion : Bool
deriving DecidableEq, Repr

/-- A parsed statsbook. -/
structure GameData where
  version : String
  venue : Venue
  tournament : Option String
  hostLeague : Option String
  home : TeamData
  away : TeamData
  periods : List Period
  penalties : List Penalty
  gameSummary : Option GameSummary
  homeScore : Int
  awayScore : Int
deriving DecidableEq, Repr

/-- What the summary table stores for one side. -/
structure SideStats where
  players : List SummaryPlayer
  totals : SummaryTotals
deriving DecidableEq, Repr

end Statskboo
