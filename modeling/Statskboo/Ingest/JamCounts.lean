import Statskboo.Ingest.ExactScores
import Statskboo.Ingest.ScoreLayout

/-!
# How many jams a player is counted for

The jams that a player took part in are counted over the entries of the lineups, in
counters of one byte.  A lineup has five slots, and nothing keeps a number out of two of
them.

Main results:

- Theorem {lit}`countsOf_counter`: a counter holds the number of its entries cut to a byte.
- Theorem {lit}`length_jams_le`: a statsbook has 76 jams at most.
- Theorem {lit}`oncePerJam_iff`: each player is counted once for each jam exactly when no
  lineup of the side has a number twice.
-/

namespace Statskboo
namespace Sheet

open KeyedTable Numbers

/-! ## Elements of lists of lists -/

section Lists

variable {α : Type*} [DecidableEq α] {ls : List (List α)} {a : α}

/-- An element occurs as often in some lists as it stands in one of them, or more often. -/
theorem countP_mem_le_count_flatten (ls : List (List α)) (a : α) :
    (ls.countP fun l => decide (a ∈ l)) ≤ ls.flatten.count a := by
  induction ls with
  | nil => exact le_rfl
  | cons l ls ih =>
      rw [List.countP_cons, List.flatten_cons, List.count_append]
      by_cases hmem : a ∈ l
      · have hpos := List.count_pos_iff.mpr hmem
        simp only [hmem, decide_true, if_true]
        omega
      · simp only [hmem, decide_false, Bool.false_eq_true, if_false]
        omega

/-- It occurs exactly so often when none of the lists has it twice. -/
theorem count_flatten_eq_countP_iff :
    (ls.flatten.count a = ls.countP fun l => decide (a ∈ l)) ↔ ∀ l ∈ ls, l.count a ≤ 1 := by
  induction ls with
  | nil => simp
  | cons l ls ih =>
      have hle := countP_mem_le_count_flatten ls a
      rw [List.countP_cons, List.flatten_cons, List.count_append, List.forall_mem_cons, ← ih]
      by_cases hmem : a ∈ l
      · have hpos := List.count_pos_iff.mpr hmem
        simp only [hmem, decide_true, if_true]
        omega
      · have hzero := List.count_eq_zero.mpr hmem
        simp only [hmem, decide_false, Bool.false_eq_true, if_false]
        omega

end Lists

/-! ## The counters -/

/-- The lineup entries of a side in the order of the jams. -/
def lineupEntries (periods : List Period) (side : Side) : List LineupEntry :=
  (periods.flatMap Period.jams).flatMap fun jam => (jam.side side).lineup

/-- The counts after some entries. -/
def countEntries (entries : List LineupEntry) : Table String JamCounts :=
  entries.foldl
    (fun counts entry =>
      counts.upsert entry.number
        (JamCounts.add ((counts.get? entry.number).getD ⟨0, 0, 0, 0⟩) entry.position))
    Table.empty

theorem computeJamCounts_eq (periods : List Period) (side : Side) :
    computeJamCounts periods side = countEntries (lineupEntries periods side) :=
  rfl

/-- The counts of a player after some entries. -/
def countsOf (entries : List LineupEntry) (number : String) : JamCounts :=
  ((countEntries entries).get? number).getD ⟨0, 0, 0, 0⟩

/-- An entry counts for its player alone. -/
theorem countsOf_append_singleton (entries : List LineupEntry) (e : LineupEntry)
    (number : String) :
    countsOf (entries ++ [e]) number =
      if number = e.number then JamCounts.add (countsOf entries number) e.position
      else countsOf entries number := by
  unfold countsOf countEntries
  rw [List.foldl_append, List.foldl_cons, List.foldl_nil, Table.get?_upsert]
  split_ifs with h
  · rw [h]
    rfl
  · rfl

theorem wrapU8_le (n : Nat) : wrapU8 n ≤ n := by
  unfold wrapU8
  omega

theorem wrapU8_wrapU8_add_one (n : Nat) : wrapU8 (wrapU8 n + 1) = wrapU8 ((n + 1 : Nat) : Int) := by
  unfold wrapU8
  omega

/-- A counter holds the number of its entries cut to a byte. -/
theorem countsOf_counter (counter : JamCounts → Nat) (counts : String → Bool)
    (hzero : counter ⟨0, 0, 0, 0⟩ = 0)
    (hadd : ∀ c p, counter (JamCounts.add c p) =
      if counts p then wrapU8 (counter c + 1) else counter c)
    (entries : List LineupEntry) (number : String) :
    counter (countsOf entries number) =
      wrapU8 (entries.countP fun e => decide (e.number = number) && counts e.position : Nat) := by
  induction entries using List.reverseRecOn with
  | nil => exact hzero
  | append_singleton entries e ih =>
      rw [countsOf_append_singleton, List.countP_append, List.countP_singleton]
      by_cases hnumber : number = e.number
      · rw [if_pos hnumber, hadd]
        cases hcounts : counts e.position with
        | true => simp [hnumber.symm, ih, wrapU8_wrapU8_add_one]
        | false => simp [ih]
      · simp [Ne.symm hnumber, hnumber, ih]

/-- How many entries a player has. -/
def entriesOf (entries : List LineupEntry) (number : String) : Nat :=
  (entries.map LineupEntry.number).count number

theorem entriesOf_eq_countP (entries : List LineupEntry) (number : String) :
    entriesOf entries number = entries.countP fun e => decide (e.number = number) := by
  rw [entriesOf, List.count, List.countP_map]
  rfl

theorem total_countsOf (entries : List LineupEntry) (number : String) :
    (countsOf entries number).total = wrapU8 (entriesOf entries number : Nat) := by
  have hcounter := countsOf_counter JamCounts.total (fun _ => true) rfl (fun _ _ => rfl) entries
    number
  simpa [entriesOf_eq_countP] using hcounter

/-- No counter holds more than the entries of its player. -/
theorem counter_le_entriesOf (counter : JamCounts → Nat) (counts : String → Bool)
    (hzero : counter ⟨0, 0, 0, 0⟩ = 0)
    (hadd : ∀ c p, counter (JamCounts.add c p) =
      if counts p then wrapU8 (counter c + 1) else counter c)
    (entries : List LineupEntry) (number : String) :
    counter (countsOf entries number) ≤ entriesOf entries number := by
  rw [countsOf_counter counter counts hzero hadd, entriesOf_eq_countP]
  refine (wrapU8_le _).trans (List.countP_mono_left fun e _ h => ?_)
  exact (Bool.and_eq_true_iff.mp h).1

/-! ## Overflow -/

/-- None of the counters that an entry increments is at its limit. -/
structure Fits (c : JamCounts) (position : String) : Prop where
  jammer : position = "jammer" → c.jammer < 255
  pivot : position = "pivot" → c.pivot < 255
  blocker : position = "blocker" → c.blocker < 255
  total : c.total < 255

/-- No counter is incremented at its limit. -/
def NoOverflow (entries : List LineupEntry) : Prop :=
  ∀ before e, before ++ [e] <+: entries → Fits (countsOf before e.number) e.position

theorem entriesOf_append_singleton (entries : List LineupEntry) (e : LineupEntry)
    (number : String) :
    entriesOf (entries ++ [e]) number =
      entriesOf entries number + if number = e.number then 1 else 0 := by
  rw [entriesOf, List.map_append, List.count_append, List.map_singleton]
  split_ifs with h
  · rw [h, List.count_singleton_self]
    rfl
  · rw [List.count_eq_zero.mpr fun hmem => h (List.mem_singleton.mp hmem)]
    rfl

/-- Without overflow the total is the number of entries. -/
theorem total_of_noOverflow {entries : List LineupEntry} (h : NoOverflow entries)
    (number : String) : (countsOf entries number).total = entriesOf entries number := by
  induction entries using List.reverseRecOn with
  | nil => rfl
  | append_singleton entries e ih =>
      have hbefore : NoOverflow entries :=
        fun before e' hpre => h before e' (hpre.trans (List.prefix_append _ _))
      rw [countsOf_append_singleton, entriesOf_append_singleton]
      split_ifs with hnumber
      · have hfits := (h entries e (List.prefix_refl _)).total
        rw [← hnumber] at hfits
        change wrapU8 ((countsOf entries number).total + 1) = _
        rw [ih hbefore] at hfits ⊢
        unfold wrapU8
        omega
      · rw [ih hbefore, add_zero]

/-- Fewer than 256 entries of each player do not overflow. -/
theorem noOverflow_of_lt {entries : List LineupEntry}
    (h : ∀ number, entriesOf entries number < 256) : NoOverflow entries := by
  rintro before e ⟨rest, rfl⟩
  have hlt : entriesOf before e.number < 255 := by
    have htotal := h e.number
    rw [entriesOf, List.map_append, List.count_append] at htotal
    have hone := entriesOf_append_singleton before e e.number
    rw [if_pos rfl] at hone
    change entriesOf (before ++ [e]) e.number + _ < 256 at htotal
    omega
  have hcounter : ∀ (counter : JamCounts → Nat) (counts : String → Bool),
      counter ⟨0, 0, 0, 0⟩ = 0 → (∀ c p, counter (JamCounts.add c p) =
        if counts p then wrapU8 (counter c + 1) else counter c) →
      counter (countsOf before e.number) < 255 := fun counter counts hzero hadd =>
    (counter_le_entriesOf counter counts hzero hadd before e.number).trans_lt hlt
  exact {
    jammer := fun _ => hcounter JamCounts.jammer (fun p => decide (p = "jammer")) rfl
      fun _ _ => by simp [JamCounts.add]
    pivot := fun _ => hcounter JamCounts.pivot (fun p => decide (p = "pivot")) rfl
      fun _ _ => by simp [JamCounts.add]
    blocker := fun _ => hcounter JamCounts.blocker (fun p => decide (p = "blocker")) rfl
      fun _ _ => by simp [JamCounts.add]
    total := hcounter JamCounts.total (fun _ => true) rfl fun _ _ => rfl }

/-! ## The jams of a statsbook -/

/-- The number of jams. -/
def totalJams (periods : List Period) : Nat :=
  (periods.map fun p => p.jams.length).sum

theorem length_flatMap_jams (periods : List Period) :
    (periods.flatMap Period.jams).length = totalJams periods := by
  rw [totalJams, List.length_flatMap]

section Parse

variable [CellConversions]

theorem length_jamsLoop_le (sheet : Range) (startRow homeCol awayCol fuel i : Nat) :
    (jamsLoop sheet startRow homeCol awayCol fuel i).length ≤ fuel := by
  rw [jamsLoop_eq_map, List.length_map]
  induction fuel generalizing i with
  | zero => exact le_rfl
  | succ fuel ih =>
      rw [walk]
      split_ifs
      · exact (ih _).trans (Nat.le_succ _)
      · exact Nat.succ_le_succ (ih _)
      · exact Nat.zero_le _
      · exact Nat.zero_le _

/-- The lineups leave the number of jams alone. -/
theorem totalJams_mergeLineups (wb : Workbook) (periods : List Period) :
    totalJams (mergeLineups wb periods) = totalJams periods := by
  have hscores : ∀ ps : List Period, totalJams ps =
      ((ps.map (periodScores .home)).map fun p => p.2.length).sum := by
    intro ps
    simp [totalJams, periodScores, Function.comp_def]
  rw [hscores, hscores, periodScores_mergeLineups]

/-- A statsbook has two periods of 38 jams at most. -/
theorem totalJams_le {wb : Workbook} {periods : List Period}
    (h : parsePeriods wb = .ok periods) : totalJams periods ≤ 76 := by
  obtain ⟨scores, hscores, hmerge⟩ := except_bind_eq_ok h
  cases hmerge
  rw [totalJams_mergeLineups]
  cases hsheet : wb.worksheetRange "Score" with
  | none =>
      unfold parseScores at hscores
      rw [hsheet] at hscores
      cases hscores
  | some sheet =>
      rw [parseScores_eq hsheet] at hscores
      cases hscores
      have hjams : ∀ number, (scoreJams sheet number).length ≤ 38 :=
        fun number => length_jamsLoop_le sheet (blockStart number) 0 19 periodRows 0
      have hfirst := hjams 1
      have hsecond := hjams 2
      rw [← length_flatMap_jams, flatMap_scorePeriods, List.length_append]
      omega

end Parse

/-! ## Once for each jam -/

/-- The numbers in the lineups of a side, jam by jam. -/
def lineupNumbers (periods : List Period) (side : Side) : List (List String) :=
  (periods.flatMap Period.jams).map fun jam => (jam.side side).lineup.map LineupEntry.number

/-- The number of jams in which a player appears in the lineup of a side. -/
def jamsWith (periods : List Period) (side : Side) (number : String) : Nat :=
  (lineupNumbers periods side).countP fun numbers => decide (number ∈ numbers)

/-- The total that is counted for a player of a side. -/
def countedTotal (periods : List Period) (side : Side) (number : String) : Nat :=
  (((computeJamCounts periods side).get? number).getD ⟨0, 0, 0, 0⟩).total

/-- Each player of a side is counted once for each jam. -/
structure OncePerJam (periods : List Period) (side : Side) : Prop where
  exact : ∀ number, countedTotal periods side number = jamsWith periods side number
  noOverflow : NoOverflow (lineupEntries periods side)
  le_totalJams : ∀ number, countedTotal periods side number ≤ totalJams periods
  derived_le_one : ∀ number (summary : SummaryPlayer),
    summary.jamsTotal = some (countedTotal periods side number) →
      (∀ pct ∈ summary.jamsPct, pct = 0) →
        ∀ pct ∈ (fillJamsPct (totalJams periods) summary).jamsPct, pct ≤ 1

/-- No lineup of the side has a number twice. -/
def DistinctLineups (periods : List Period) (side : Side) : Prop :=
  ∀ numbers ∈ lineupNumbers periods side, numbers.Nodup

variable {periods : List Period} {side : Side}

theorem countedTotal_eq (periods : List Period) (side : Side) (number : String) :
    countedTotal periods side number = (countsOf (lineupEntries periods side) number).total :=
  rfl

theorem entriesOf_lineupEntries (periods : List Period) (side : Side) (number : String) :
    entriesOf (lineupEntries periods side) number =
      (lineupNumbers periods side).flatten.count number := by
  rw [entriesOf, lineupEntries, lineupNumbers, List.map_flatMap, List.flatMap_def]

theorem jamsWith_le (periods : List Period) (side : Side) (number : String) :
    jamsWith periods side number ≤ totalJams periods := by
  rw [← length_flatMap_jams, ← List.length_map]
  exact List.countP_le_length

/-- The entries of the players are their jams exactly when no lineup has a number twice. -/
theorem entriesOf_eq_jamsWith_iff :
    (∀ number, entriesOf (lineupEntries periods side) number = jamsWith periods side number) ↔
      DistinctLineups periods side := by
  simp only [entriesOf_lineupEntries, jamsWith, count_flatten_eq_countP_iff]
  constructor
  · exact fun h numbers hmem => List.nodup_iff_count_le_one.mpr fun number => h number numbers hmem
  · exact fun h number numbers hmem => List.nodup_iff_count_le_one.mp (h numbers hmem) number

/-- A share that is derived from no more jams than there are is one at most. -/
theorem jamsPct_fillJamsPct_le_one {total n : Nat} (htotal : total < 2 ^ 24) (hn : n ≤ total)
    {summary : SummaryPlayer} (hjams : summary.jamsTotal = some n)
    (hpct : ∀ pct ∈ summary.jamsPct, pct = 0) :
    ∀ pct ∈ (fillJamsPct total summary).jamsPct, pct ≤ 1 := by
  have hold : ∀ pct ∈ summary.jamsPct, pct ≤ 1 := by
    intro pct hmem
    rw [hpct pct hmem]
    norm_num
  have hderived : toF32 ((n : ℚ) / toF32 total) ≤ 1 := by
    rw [toF32_natCast htotal]
    apply toF32_le_one
    exact div_le_one_of_le₀ (by exact_mod_cast hn) (Nat.cast_nonneg _)
  intro pct hmem
  unfold fillJamsPct at hmem
  simp only [hjams] at hmem
  split_ifs at hmem
  · exact hold pct hmem
  · exact hold pct hmem
  · cases hold' : summary.jamsPct with
    | none =>
        rw [hold'] at hmem
        obtain rfl := Option.some.inj hmem
        exact hderived
    | some old =>
        rw [hold'] at hmem
        dsimp only at hmem
        rw [if_pos (hpct old hold')] at hmem
        obtain rfl := Option.some.inj hmem
        exact hderived

/-- Each player of a side is counted once for each jam exactly when no lineup of the side has
a number twice. -/
theorem oncePerJam_iff [CellConversions] {wb : Workbook}
    (hparse : parsePeriods wb = .ok periods) (side : Side) :
    OncePerJam periods side ↔ DistinctLineups periods side := by
  rw [← entriesOf_eq_jamsWith_iff]
  constructor
  · intro h number
    rw [← h.exact number, countedTotal_eq, total_of_noOverflow h.noOverflow]
  · intro hentries
    have hjams := totalJams_le hparse
    have hfew : ∀ number, entriesOf (lineupEntries periods side) number ≤ totalJams periods :=
      fun number => (hentries number).trans_le (jamsWith_le periods side number)
    have hnoOverflow : NoOverflow (lineupEntries periods side) :=
      noOverflow_of_lt fun number => (hfew number).trans_lt (by omega)
    have htotal : ∀ number, countedTotal periods side number =
        entriesOf (lineupEntries periods side) number :=
      fun number => total_of_noOverflow hnoOverflow number
    have hle : ∀ number, countedTotal periods side number ≤ totalJams periods :=
      fun number => (htotal number).trans_le (hfew number)
    exact {
      exact := fun number => (htotal number).trans (hentries number)
      noOverflow := hnoOverflow
      le_totalJams := hle
      derived_le_one := fun number summary hsummary hpct =>
        jamsPct_fillJamsPct_le_one (hjams.trans_lt (by norm_num)) (hle number) hsummary hpct }

section Example

attribute [local instance] truncating

/-- A workbook of one jam whose lineup has these numbers as jammer and as pivot. -/
def lineupWorkbook (jammer pivot : String) : Workbook where
  worksheetRange name :=
    if name = "Score" then some ⟨3, 0, [[.int 1]]⟩
    else if name = "Lineups" then
      some ⟨3, 2, [[.string jammer, .empty, .empty, .empty, .string pivot]]⟩
    else none

/-- The periods of the workbook. -/
def lineupPeriods (jammer pivot : String) : List Period :=
  match parsePeriods (lineupWorkbook jammer pivot) with
  | .ok periods => periods
  | .error _ => []

theorem parsePeriods_lineupWorkbook (jammer pivot : String) :
    parsePeriods (lineupWorkbook jammer pivot) = .ok (lineupPeriods jammer pivot) :=
  rfl

/-- A number in two slots of one lineup is counted for two jams. -/
theorem not_oncePerJam :
    ¬∀ (wb : Workbook) (periods : List Period) (side : Side),
      parsePeriods wb = .ok periods → OncePerJam periods side := by
  intro hall
  have honce := hall _ _ .home (parsePeriods_lineupWorkbook "7" "7")
  have htotal : countedTotal (lineupPeriods "7" "7") .home "7" = 2 := by decide +kernel
  have hjams : jamsWith (lineupPeriods "7" "7") .home "7" = 1 := by decide +kernel
  have hexact := honce.exact "7"
  rw [htotal, hjams] at hexact
  cases hexact

/-- Two players in one lineup are counted for one jam each. -/
theorem oncePerJam_twoPlayers : OncePerJam (lineupPeriods "7" "12") .home :=
  (oncePerJam_iff (parsePeriods_lineupWorkbook "7" "12") .home).mpr (by
    unfold DistinctLineups
    decide +kernel)

end Example

end Sheet
end Statskboo
