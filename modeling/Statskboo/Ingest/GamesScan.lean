import Statskboo.Ingest.Wftda
import Statskboo.Lib.Panics

/-!
# How far a scan of the games goes

The sync of the games is a full scan from time to time and an incremental one otherwise, which
stops some days before the latest known game.  The two configured durations are converted
into those of the date library, which are shorter, and the calendar is shorter still.

Main results:

- Theorem {lit}`gamesScanScope_eq`: what the scope of a scan is.
- Theorem {lit}`scopeAsDocumented_iff`: the scope is as documented exactly when an interval that
  cannot be converted makes no difference and the stop date is in the calendar.
-/

namespace Statskboo
namespace Wftda

/-! ## Dates and durations -/

/-- A day in nanoseconds. -/
def nanosPerDay : Nat :=
  86400 * 10 ^ 9

/-- A {lit}`std::time::Duration`. -/
structure StdDuration where
  secs : Nat
  nanos : Nat
  secs_lt : secs < 2 ^ 64
  nanos_lt : nanos < 10 ^ 9

/-- A duration in nanoseconds. -/
def StdDuration.inNanos (d : StdDuration) : Nat :=
  d.secs * 10 ^ 9 + d.nanos

/-- The limits of the date library: the first and the last date in days and the first and the
last time in nanoseconds since the epoch, and the longest duration in nanoseconds.  A duration
may be longer than the calendar. -/
class Chrono where
  minDate : Int
  maxDate : Int
  minTime : Int
  maxTime : Int
  maxDelta : Nat
  minDate_le : minDate ≤ statsbookEraStart
  le_maxDate : statsbookEraStart ≤ maxDate
  dates : (maxDate - minDate + 1) * nanosPerDay ≤ maxDelta
  times : maxTime - minTime < maxDelta

section Scan

variable [Chrono]

/-- A {lit}`NaiveDate`, in days since the epoch. -/
structure NaiveDate where
  days : Int
  min_le : Chrono.minDate ≤ days
  le_max : days ≤ Chrono.maxDate

/-- A {lit}`DateTime<Utc>`, in nanoseconds since the epoch. -/
structure DateTime where
  nanos : Int
  min_le : Chrono.minTime ≤ nanos
  le_max : nanos ≤ Chrono.maxTime

/-- {lit}`chrono::Duration::from_std`, in nanoseconds. -/
def fromStd (d : StdDuration) : Option Nat :=
  if d.inNanos ≤ Chrono.maxDelta then some d.inNanos else none

/-- {lit}`chrono::Duration::days`, in nanoseconds. -/
def daysDelta (n : Nat) : Nat :=
  n * nanosPerDay

/-- {lit}`NaiveDate - Duration`, which drops what is less than a day and panics outside of the
calendar. -/
def NaiveDate.sub (d : NaiveDate) (delta : Nat) : Panics Empty NaiveDate :=
  if h : Chrono.minDate ≤ d.days - (delta / nanosPerDay : Nat) then
    .ok { days := d.days - (delta / nanosPerDay : Nat)
          min_le := h
          le_max := (Int.sub_le_self _ (Int.natCast_nonneg _)).trans d.le_max }
  else .panic

/-- The first day of the statsbook era as a date. -/
def era : NaiveDate where
  days := statsbookEraStart
  min_le := Chrono.minDate_le
  le_max := Chrono.le_maxDate

/-- The later one of two dates. -/
def NaiveDate.max (d d' : NaiveDate) : NaiveDate :=
  if d.days ≤ d'.days then d' else d

/-! ## The scope -/

/-- Whether a scan is full, and the date before which it stops. -/
def gamesScanScope (now : DateTime) (lastFull : Option DateTime) (maxDate : Option NaiveDate)
    (lookback fullInterval : StdDuration) : Panics Empty (Bool × NaiveDate) :=
  let lookback := (fromStd lookback).getD (daysDelta 14)
  let fullInterval := (fromStd fullInterval).getD (daysDelta 7)
  let full := match maxDate, lastFull with
    | none, _ => true
    | _, none => true
    | some _, some last => decide ((fullInterval : Int) ≤ now.nanos - last.nanos)
  if full then .ok (true, era)
  else
    match maxDate with
    | none => .panic
    | some d => (d.sub lookback).bind fun watermark => .ok (false, watermark.max era)

/-- The days of a lookback; one that cannot be converted counts as two weeks. -/
def lookbackDays (lookback : StdDuration) : Nat :=
  (fromStd lookback).getD (daysDelta 14) / nanosPerDay

/-- The interval between full scans; one that cannot be converted counts as a week. -/
def effectiveInterval (fullInterval : StdDuration) : Nat :=
  (fromStd fullInterval).getD (daysDelta 7)

variable {now last : DateTime} {d : NaiveDate} {lastFull : Option DateTime}
  {maxDate : Option NaiveDate} {lookback fullInterval : StdDuration}

/-- The scope is full when the marker or the known date is missing. -/
theorem gamesScanScope_of_missing (h : lastFull = none ∨ maxDate = none) :
    gamesScanScope now lastFull maxDate lookback fullInterval = .ok (true, era) := by
  rcases h with rfl | rfl
  · cases maxDate <;> rfl
  · rfl

/-- The scope with a marker and a known date. -/
theorem gamesScanScope_eq (now last : DateTime) (d : NaiveDate)
    (lookback fullInterval : StdDuration) :
    gamesScanScope now (some last) (some d) lookback fullInterval =
      if (effectiveInterval fullInterval : Int) ≤ now.nanos - last.nanos then .ok (true, era)
      else (d.sub ((fromStd lookback).getD (daysDelta 14))).bind fun watermark =>
        .ok (false, watermark.max era) := by
  unfold gamesScanScope
  dsimp only
  change (if decide ((effectiveInterval fullInterval : Int) ≤ now.nanos - last.nanos) = true
    then _ else _) = _
  by_cases hstale : (effectiveInterval fullInterval : Int) ≤ now.nanos - last.nanos
  · rw [if_pos (decide_eq_true hstale), if_pos hstale]
  · rw [if_neg fun h => hstale (of_decide_eq_true h), if_neg hstale]

/-- A date from which one can go back so far. -/
theorem sub_of_le {delta : Nat} (h : Chrono.minDate ≤ d.days - (delta / nanosPerDay : Nat)) :
    ∃ watermark, d.sub delta = .ok watermark ∧
      watermark.days = d.days - (delta / nanosPerDay : Nat) := by
  rw [NaiveDate.sub, dif_pos h]
  exact ⟨_, rfl, rfl⟩

theorem sub_of_lt {delta : Nat} (h : d.days - (delta / nanosPerDay : Nat) < Chrono.minDate) :
    d.sub delta = .panic := by
  rw [NaiveDate.sub, dif_neg (not_le.mpr h)]

/-! ## What the scope promises -/

/-- What is documented of a scope: when it is full, and where the scan stops. -/
structure ScopeSpec (now : DateTime) (lastFull : Option DateTime) (maxDate : Option NaiveDate)
    (lookback fullInterval : StdDuration) (full : Bool) (stop : NaiveDate) : Prop where
  full_iff : full = true ↔ lastFull = none ∨ maxDate = none ∨
    ∃ last ∈ lastFull, (fullInterval.inNanos : Int) ≤ now.nanos - last.nanos
  stop_full : full = true → stop = era
  stop_incremental : full = false → ∀ d ∈ maxDate, era.days ≤ stop.days ∧
    stop.days ≤ max d.days era.days ∧
    (Chrono.minDate ≤ d.days - (lookback.inNanos / nanosPerDay : Nat) →
      stop.days = max era.days (d.days - (lookback.inNanos / nanosPerDay : Nat)))

/-- There is a scope, and it is as documented. -/
def ScopeAsDocumented (now : DateTime) (lastFull : Option DateTime) (maxDate : Option NaiveDate)
    (lookback fullInterval : StdDuration) : Prop :=
  ∃ full stop, gamesScanScope now lastFull maxDate lookback fullInterval = .ok (full, stop) ∧
    ScopeSpec now lastFull maxDate lookback fullInterval full stop

/-- With a marker and a known date, the interval can be converted or the marker is younger
than a week, and the stop date of an incremental scan is in the calendar. -/
def DurationsFit (now : DateTime) (lastFull : Option DateTime) (maxDate : Option NaiveDate)
    (lookback fullInterval : StdDuration) : Prop :=
  ∀ last ∈ lastFull, ∀ d ∈ maxDate,
    (fullInterval.inNanos ≤ Chrono.maxDelta ∨ now.nanos - last.nanos < daysDelta 7) ∧
    (now.nanos - last.nanos < effectiveInterval fullInterval →
      Chrono.minDate ≤ d.days - (lookbackDays lookback : Nat))

theorem effectiveInterval_of_le (h : fullInterval.inNanos ≤ Chrono.maxDelta) :
    effectiveInterval fullInterval = fullInterval.inNanos := by
  rw [effectiveInterval, fromStd, if_pos h, Option.getD_some]

theorem effectiveInterval_of_lt (h : Chrono.maxDelta < fullInterval.inNanos) :
    effectiveInterval fullInterval = daysDelta 7 := by
  rw [effectiveInterval, fromStd, if_neg (not_le.mpr h), Option.getD_none]

/-- No two times are further apart than the longest duration. -/
theorem age_lt (now last : DateTime) : now.nanos - last.nanos < Chrono.maxDelta := by
  have hspan := Chrono.times
  have hnow := now.le_max
  have hlast := last.min_le
  omega

/-- A lookback that reaches into the calendar can be converted. -/
theorem lookbackDays_of_le
    (h : Chrono.minDate ≤ d.days - (lookback.inNanos / nanosPerDay : Nat)) :
    lookbackDays lookback = lookback.inNanos / nanosPerDay := by
  have hfits : lookback.inNanos ≤ Chrono.maxDelta := by
    by_contra hlong
    have hdates := Chrono.dates
    have hmax := d.le_max
    have hdays : Chrono.maxDate - Chrono.minDate + 1 ≤ (lookback.inNanos / nanosPerDay : Nat) := by
      rw [Int.natCast_ediv]
      refine Int.le_ediv_of_mul_le (by decide) (hdates.trans ?_)
      exact_mod_cast (not_le.mp hlong).le
    omega
  rw [lookbackDays, fromStd, if_pos hfits, Option.getD_some]

theorem days_max (d d' : NaiveDate) : (d.max d').days = max d.days d'.days := by
  unfold NaiveDate.max
  split_ifs with h
  · exact (max_eq_right h).symm
  · exact (max_eq_left (not_le.mp h).le).symm

/-- The full verdict is the documented one exactly when the interval can be converted or the
marker is younger than a week. -/
theorem full_verdict_iff (now last : DateTime) (fullInterval : StdDuration) :
    ((effectiveInterval fullInterval : Int) ≤ now.nanos - last.nanos ↔
        (fullInterval.inNanos : Int) ≤ now.nanos - last.nanos) ↔
      fullInterval.inNanos ≤ Chrono.maxDelta ∨ now.nanos - last.nanos < daysDelta 7 := by
  rcases le_or_gt fullInterval.inNanos Chrono.maxDelta with hfits | hlong
  · rw [effectiveInterval_of_le hfits]
    simp [hfits]
  · have hage := age_lt now last
    rw [effectiveInterval_of_lt hlong]
    constructor
    · intro h
      right
      by_contra hold
      have hnot := h.mp (not_lt.mp hold)
      omega
    · rintro (hle | hyoung)
      · omega
      · constructor <;> intro hle <;> omega

/-- With a marker and a known date the scope is as documented exactly when the durations
fit. -/
theorem scopeAsDocumented_some_iff (now last : DateTime) (d : NaiveDate)
    (lookback fullInterval : StdDuration) :
    ScopeAsDocumented now (some last) (some d) lookback fullInterval ↔
      DurationsFit now (some last) (some d) lookback fullInterval := by
  have hfull : ∀ full : Bool, (full = true ↔ (some last : Option DateTime) = none ∨
      (some d : Option NaiveDate) = none ∨ ∃ l ∈ (some last : Option DateTime),
        (fullInterval.inNanos : Int) ≤ now.nanos - l.nanos) ↔
      (full = true ↔ (fullInterval.inNanos : Int) ≤ now.nanos - last.nanos) := by
    intro full
    simp
  have hfit : DurationsFit now (some last) (some d) lookback fullInterval ↔
      (fullInterval.inNanos ≤ Chrono.maxDelta ∨ now.nanos - last.nanos < daysDelta 7) ∧
        (now.nanos - last.nanos < effectiveInterval fullInterval →
          Chrono.minDate ≤ d.days - (lookbackDays lookback : Nat)) := by
    simp [DurationsFit]
  rw [hfit, ← full_verdict_iff, ScopeAsDocumented, gamesScanScope_eq]
  constructor
  · rintro ⟨full, stop, hscope, hspec⟩
    have hverdict := (hfull full).mp hspec.full_iff
    split_ifs at hscope with hstale
    · cases hscope
      exact ⟨by rw [← hverdict]; simp [hstale], fun hyoung => absurd hstale (not_le.mpr hyoung)⟩
    · rcases le_or_gt Chrono.minDate (d.days - (lookbackDays lookback : Nat)) with hmin | hlow
      · obtain ⟨watermark, hsub, -⟩ := sub_of_le hmin
        rw [hsub] at hscope
        cases hscope
        exact ⟨by rw [← hverdict]; simp [hstale], fun _ => hmin⟩
      · rw [sub_of_lt hlow] at hscope
        cases hscope
  · rintro ⟨hverdict, hstop⟩
    by_cases hstale : (effectiveInterval fullInterval : Int) ≤ now.nanos - last.nanos
    · rw [if_pos hstale]
      refine ⟨true, era, rfl, (hfull true).mpr ?_, fun _ => rfl, fun h => Bool.noConfusion h⟩
      simp [hverdict.mp hstale]
    · obtain ⟨watermark, hsub, hdays⟩ := sub_of_le (hstop (not_le.mp hstale))
      rw [if_neg hstale, hsub]
      refine ⟨false, _, rfl, (hfull false).mpr ?_, fun h => Bool.noConfusion h, ?_⟩
      · simpa using hstale ∘ hverdict.mpr
      · intro _ d' hd'
        obtain rfl := Option.some.inj hd'
        rw [days_max, hdays]
        refine ⟨le_max_right _ _, max_le_max_right _ (Int.sub_le_self _ (Int.natCast_nonneg _)), ?_⟩
        intro hreach
        rw [max_comm]
        exact congrArg (fun n : Nat => max era.days (d.days - n)) (lookbackDays_of_le hreach)

/-- There is a scope, and it is as documented, exactly when the durations fit. -/
theorem scopeAsDocumented_iff (now : DateTime) (lastFull : Option DateTime)
    (maxDate : Option NaiveDate) (lookback fullInterval : StdDuration) :
    ScopeAsDocumented now lastFull maxDate lookback fullInterval ↔
      DurationsFit now lastFull maxDate lookback fullInterval := by
  by_cases hmissing : lastFull = none ∨ maxDate = none
  · have hfit : DurationsFit now lastFull maxDate lookback fullInterval := by
      rcases hmissing with rfl | rfl
      · exact fun last hlast => absurd hlast (Option.not_mem_none last)
      · exact fun _ _ d hd => absurd hd (Option.not_mem_none d)
    refine iff_of_true ⟨true, era, gamesScanScope_of_missing hmissing, ?_, fun _ => rfl,
      fun h => Bool.noConfusion h⟩ hfit
    simp only [true_iff]
    exact hmissing.imp_right Or.inl
  · rw [not_or] at hmissing
    obtain ⟨last, rfl⟩ := Option.ne_none_iff_exists'.mp hmissing.1
    obtain ⟨d, rfl⟩ := Option.ne_none_iff_exists'.mp hmissing.2
    exact scopeAsDocumented_some_iff now last d lookback fullInterval

end Scan

section Example

/-- The limits of the date library in use: its calendar reaches from the first day of the year
-262143 to the last day of the year 262142, and its durations have up to 63 bits of
milliseconds. -/
@[reducible]
def chronoLimits : Chrono where
  minDate := -96465292
  maxDate := 95026236
  minTime := -96465292 * nanosPerDay
  maxTime := (95026236 + 1) * nanosPerDay - 1
  maxDelta := (2 ^ 63 - 1) * 10 ^ 6
  minDate_le := by decide
  le_maxDate := by decide
  dates := by decide
  times := by decide

attribute [local instance] chronoLimits

/-- A duration of whole years of 365.25 days, as the configuration counts them. -/
def years (n : Nat) (h : n * 31557600 < 2 ^ 64) : StdDuration where
  secs := n * 31557600
  nanos := 0
  secs_lt := h
  nanos_lt := by decide

/-- A duration of whole days. -/
def wholeDays (n : Nat) (h : n * 86400 < 2 ^ 64) : StdDuration where
  secs := n * 86400
  nanos := 0
  secs_lt := h
  nanos_lt := by decide

/-- 2026-10-20. -/
def latestGame : NaiveDate := ⟨20746, by decide, by decide⟩

/-- The first instant of so many days since the epoch. -/
def midnight (days : Nat) (h : days ≤ 95026236) : DateTime where
  nanos := days * nanosPerDay
  min_le := by
    change (-96465292 * nanosPerDay : Int) ≤ days * nanosPerDay
    have hday : (nanosPerDay : Int) = 86400 * 10 ^ 9 := rfl
    rw [hday]
    omega
  le_max := by
    change (days * nanosPerDay : Int) ≤ (95026236 + 1) * nanosPerDay - 1
    have hday : (nanosPerDay : Int) = 86400 * 10 ^ 9 := rfl
    rw [hday]
    omega

/-- A lookback of 300000 years, with a marker of the day before, is a panic. -/
theorem not_scopeAsDocumented :
    ¬∀ (now : DateTime) (lastFull : Option DateTime) (maxDate : Option NaiveDate)
      (lookback fullInterval : StdDuration),
      ScopeAsDocumented now lastFull maxDate lookback fullInterval := by
  intro hall
  obtain ⟨full, stop, hscope, -⟩ := hall (midnight 20750 (by decide))
    (some (midnight 20749 (by decide))) (some latestGame) (years 300000 (by decide))
    (wholeDays 7 (by decide))
  have hpanic : gamesScanScope (midnight 20750 (by decide)) (some (midnight 20749 (by decide)))
      (some latestGame) (years 300000 (by decide)) (wholeDays 7 (by decide)) = .panic := by
    rw [gamesScanScope_eq, if_neg (by decide), sub_of_lt (by decide)]
    rfl
  rw [hpanic] at hscope
  cases hscope

/-- With the durations of the default configuration the scope is as documented. -/
theorem scopeAsDocumented_defaults :
    ScopeAsDocumented (midnight 20750 (by decide)) (some (midnight 20749 (by decide)))
      (some latestGame) (wholeDays 14 (by decide)) (wholeDays 7 (by decide)) := by
  refine (scopeAsDocumented_iff _ _ _ _ _).mpr fun last hlast d hd => ?_
  obtain rfl := Option.some.inj hlast
  obtain rfl := Option.some.inj hd
  exact ⟨Or.inl (by decide), fun _ => by decide⟩

end Example

end Wftda
end Statskboo
