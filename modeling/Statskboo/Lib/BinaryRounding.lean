import Mathlib.Algebra.Order.Floor.Ring
import Mathlib.Data.Int.Log
import Mathlib.Data.Rat.Floor
import Mathlib.Tactic.Linarith
import Mathlib.Tactic.Ring

/-!
# Rounding to a binary floating-point format

A format has a number of significant bits and a least exponent.  Rounding goes to the nearest
number of the format, and from the middle of two to the one with the even significand.  There is no
largest exponent: results that overflow stand outside of the model.

Main results:

- Theorem {lit}`Format.abs_sub_round_le`: no number of the format is nearer.
- Theorems {lit}`Format.round_eq_self` and {lit}`Format.monotone_round`: numbers of the format are
  left alone, and rounding keeps the order.
- Theorem {lit}`Format.Representable.sub`: the difference of two numbers within a factor of two of
  each other is a number of the format.
-/

namespace BinaryRounding

/-! ## Rounding to an integer -/

/-- The nearest integer, halves to the even one. -/
def roundTiesEven (q : ℚ) : Int :=
  let below := ⌊q⌋
  if q - below < 1 / 2 then below
  else if 1 / 2 < q - below then below + 1
  else below + below % 2

/-- No integer is nearer. -/
theorem abs_sub_roundTiesEven_le (q : ℚ) (n : Int) : |q - roundTiesEven q| ≤ |q - n| := by
  have hfloor := Int.floor_le q
  have hlt := Int.lt_floor_add_one q
  have hother : q - ⌊q⌋ ≤ |q - n| ∨ ⌊q⌋ + 1 - q ≤ |q - n| := by
    rcases le_or_gt n ⌊q⌋ with hn | hn
    · left
      have hn' : (n : ℚ) ≤ ⌊q⌋ := by exact_mod_cast hn
      exact le_trans (by linarith) (le_abs_self _)
    · right
      have hn' : ((⌊q⌋ : Int) : ℚ) + 1 ≤ n := by exact_mod_cast hn
      exact le_trans (by linarith) (neg_le_abs _)
  have hround : |q - roundTiesEven q| ≤ q - ⌊q⌋ ∧ |q - roundTiesEven q| ≤ ⌊q⌋ + 1 - q := by
    have hbelow : |q - (⌊q⌋ : Int)| = q - ⌊q⌋ := abs_of_nonneg (by linarith)
    have habove : |q - ((⌊q⌋ + 1 : Int) : ℚ)| = ⌊q⌋ + 1 - q := by
      rw [abs_sub_comm]
      push_cast
      exact abs_of_nonneg (by linarith)
    unfold roundTiesEven
    dsimp only
    split_ifs with hlow hhigh
    · rw [hbelow]
      exact ⟨le_rfl, by linarith⟩
    · rw [habove]
      exact ⟨by linarith, le_rfl⟩
    · rcases Int.emod_two_eq_zero_or_one ⌊q⌋ with heven | hodd
      · rw [heven, add_zero, hbelow]
        exact ⟨le_rfl, by linarith⟩
      · rw [hodd, habove]
        exact ⟨by linarith, le_rfl⟩
  exact hother.elim hround.1.trans hround.2.trans

/-- What is at most an integer is rounded to at most that integer. -/
theorem roundTiesEven_le {q : ℚ} {n : Int} (h : q ≤ n) : roundTiesEven q ≤ n := by
  have hnearest := abs_sub_roundTiesEven_le q n
  by_contra hgt
  have hlt : (n : ℚ) < roundTiesEven q := by exact_mod_cast not_le.mp hgt
  rw [abs_of_nonpos (by linarith), abs_of_nonpos (by linarith)] at hnearest
  linarith

theorem le_roundTiesEven {q : ℚ} {n : Int} (h : (n : ℚ) ≤ q) : n ≤ roundTiesEven q := by
  have hnearest := abs_sub_roundTiesEven_le q n
  by_contra hgt
  have hlt : (roundTiesEven q : ℚ) < n := by exact_mod_cast not_le.mp hgt
  rw [abs_of_nonneg (by linarith), abs_of_nonneg (by linarith)] at hnearest
  linarith

/-! ## Formats -/

/-- A number of significant bits, and the exponent of the steps near zero. -/
structure Format where
  precision : Nat
  minExponent : Int
  precision_pos : 0 < precision

namespace Format

/-- Single precision. -/
def binary32 : Format where
  precision := 24
  minExponent := -149
  precision_pos := by decide

/-- Double precision. -/
def binary64 : Format where
  precision := 53
  minExponent := -1074
  precision_pos := by decide

variable (F : Format) {q r a b : ℚ}

/-- The exponent of the steps around a number. -/
def exponent (q : ℚ) : Int :=
  max (Int.log 2 |q| - (F.precision - 1 : Nat)) F.minExponent

/-- The nearest number of the format. -/
def round (q : ℚ) : ℚ :=
  if q = 0 then 0
  else
    let step : ℚ := 2 ^ F.exponent q
    roundTiesEven (q / step) * step

/-- A number of the format. -/
def Representable (q : ℚ) : Prop :=
  ∃ m e : Int, |m| < 2 ^ F.precision ∧ F.minExponent ≤ e ∧ q = m * 2 ^ e

variable {F}

theorem round_zero : F.round 0 = 0 :=
  if_pos rfl

theorem round_of_ne (hq : q ≠ 0) :
    F.round q = roundTiesEven (q / 2 ^ F.exponent q) * 2 ^ F.exponent q :=
  if_neg hq

theorem step_pos (e : Int) : (0 : ℚ) < 2 ^ e :=
  zpow_pos two_pos e

/-- Among the multiples of the step around a number, its rounding is the nearest one. -/
theorem abs_sub_round_le_of_multiple (hq : q ≠ 0) (n : Int) :
    |q - F.round q| ≤ |q - n * 2 ^ F.exponent q| := by
  have hstep := step_pos (F.exponent q)
  have hscale (x : ℚ) : |q - x * 2 ^ F.exponent q| =
      |q / 2 ^ F.exponent q - x| * 2 ^ F.exponent q := by
    rw [← abs_of_pos hstep, ← abs_mul, sub_mul, abs_of_pos hstep, div_mul_cancel₀ q hstep.ne']
  rw [round_of_ne hq, hscale, hscale]
  exact mul_le_mul_of_nonneg_right (abs_sub_roundTiesEven_le _ n) hstep.le

/-- A number of the format is a multiple of every smaller step. -/
theorem eq_multiple {m e t : Int} (h : t ≤ e) :
    (m * 2 ^ e : ℚ) = ((m * 2 ^ (e - t).toNat : Int) : ℚ) * 2 ^ t := by
  have hsplit : (2 : ℚ) ^ e = 2 ^ (e - t).toNat * 2 ^ t := by
    rw [← zpow_natCast, ← zpow_add₀ two_ne_zero, Int.toNat_of_nonneg (by omega), sub_add_cancel]
  push_cast
  rw [hsplit, mul_assoc]

/-- Away from the least exponent the steps are those of the leading bit. -/
theorem exponent_eq {e : Int} (hmin : F.minExponent ≤ e) (h : e < F.exponent q) :
    F.exponent q = Int.log 2 |q| - (F.precision - 1 : Nat) := by
  rcases max_choice (Int.log 2 |q| - (F.precision - 1 : Nat)) F.minExponent with hmax | hmax
  · exact hmax
  · rw [exponent, hmax] at h
    exact absurd hmin (not_le.mpr h)

/-- No number of the format is nearer to a number than its rounding. -/
theorem abs_sub_round_le (hr : F.Representable r) (q : ℚ) : |q - F.round q| ≤ |q - r| := by
  rcases eq_or_ne q 0 with rfl | hq
  · rw [round_zero, sub_zero, abs_zero]
    exact abs_nonneg _
  obtain ⟨m, e, hm, hmin, rfl⟩ := hr
  rcases le_or_gt (F.exponent q) e with hle | hlt
  · rw [eq_multiple hle]
    exact abs_sub_round_le_of_multiple hq _
  -- the power of two below the number is a multiple of the step, and not farther away
  have hlog : F.exponent q + (F.precision - 1 : Nat) = Int.log 2 |q| := by
    rw [exponent_eq hmin hlt]
    omega
  have hpos : 0 < |q| := abs_pos.mpr hq
  have hbelow : (2 : ℚ) ^ Int.log 2 |q| ≤ |q| := by
    exact_mod_cast Int.zpow_log_le_self (R := ℚ) (b := 2) one_lt_two hpos
  have hpower : (2 : ℚ) ^ Int.log 2 |q| =
      ((2 ^ (F.precision - 1) : Int) : ℚ) * 2 ^ F.exponent q := by
    rw [← hlog, zpow_add₀ two_ne_zero, zpow_natCast, mul_comm]
    push_cast
    rfl
  have hsmall : |(m * 2 ^ e : ℚ)| ≤ 2 ^ Int.log 2 |q| := by
    have hm' : |(m : ℚ)| ≤ 2 ^ F.precision := by exact_mod_cast hm.le
    calc |(m * 2 ^ e : ℚ)| = |(m : ℚ)| * 2 ^ e := by rw [abs_mul, abs_of_pos (step_pos e)]
      _ ≤ 2 ^ F.precision * 2 ^ e := mul_le_mul_of_nonneg_right hm' (step_pos e).le
      _ = 2 ^ ((F.precision : Int) + e) := by rw [zpow_add₀ two_ne_zero, zpow_natCast]
      _ ≤ 2 ^ Int.log 2 |q| := by
          have hprecision := F.precision_pos
          exact zpow_le_zpow_right₀ one_le_two (by omega)
  have hfar : |q| - 2 ^ Int.log 2 |q| ≤ |q - m * 2 ^ e| := by
    have htriangle := abs_sub_abs_le_abs_sub q (m * 2 ^ e)
    linarith
  refine le_trans ?_ hfar
  clear hsmall hfar
  generalize (2 : ℚ) ^ Int.log 2 |q| = power at hbelow hpower ⊢
  rcases lt_or_gt_of_ne hq with hneg | hpos'
  · have hmultiple := abs_sub_round_le_of_multiple (F := F) hq (-2 ^ (F.precision - 1))
    have hdistance : |q + power| = -q - power := by
      rw [abs_of_neg hneg] at hbelow
      rw [abs_of_nonpos (by linarith), neg_add']
    push_cast at hmultiple hpower
    rw [neg_mul, ← hpower, sub_neg_eq_add, hdistance] at hmultiple
    rwa [abs_of_neg hneg]
  · have hmultiple := abs_sub_round_le_of_multiple (F := F) hq (2 ^ (F.precision - 1))
    rw [abs_of_pos hpos'] at hbelow ⊢
    rwa [← hpower, abs_of_nonneg (sub_nonneg.mpr hbelow)] at hmultiple

theorem abs_div_step_lt (q : ℚ) : |q / 2 ^ F.exponent q| < 2 ^ F.precision := by
  have hstep := step_pos (F.exponent q)
  rw [abs_div, abs_of_pos hstep, div_lt_iff₀ hstep, ← zpow_natCast, ← zpow_add₀ two_ne_zero]
  have hexponent : Int.log 2 |q| - (F.precision - 1 : Nat) ≤ F.exponent q := le_max_left _ _
  have hprecision := F.precision_pos
  have hlog : |q| < (2 : ℚ) ^ (Int.log 2 |q| + 1) := by
    exact_mod_cast Int.lt_zpow_succ_log_self (R := ℚ) (b := 2) one_lt_two |q|
  exact hlog.trans_le (zpow_le_zpow_right₀ one_le_two (by omega))

/-- A rounded number is a number of the format. -/
theorem representable_round (F : Format) (q : ℚ) : F.Representable (F.round q) := by
  have hmin : F.minExponent ≤ F.exponent q := le_max_right _ _
  rcases eq_or_ne q 0 with rfl | hq
  · exact ⟨0, F.minExponent, by simp, le_rfl, by simp [round_zero]⟩
  rw [round_of_ne hq]
  obtain ⟨hlow, hhigh⟩ := abs_lt.mp (abs_div_step_lt (F := F) q)
  have hle : roundTiesEven (q / 2 ^ F.exponent q) ≤ 2 ^ F.precision :=
    roundTiesEven_le (by exact_mod_cast hhigh.le)
  have hge : -2 ^ F.precision ≤ roundTiesEven (q / 2 ^ F.exponent q) :=
    le_roundTiesEven (by exact_mod_cast hlow.le)
  by_cases hlt : |roundTiesEven (q / 2 ^ F.exponent q)| < 2 ^ F.precision
  · exact ⟨_, _, hlt, hmin, rfl⟩
  · -- a significand of one bit more is a power of two
    have heq : |roundTiesEven (q / 2 ^ F.exponent q)| = 2 ^ F.precision :=
      le_antisymm (abs_le.mpr ⟨hge, hle⟩) (not_lt.mp hlt)
    have hhalf : (2 : ℚ) ^ F.precision * 2 ^ F.exponent q =
        2 ^ (F.precision - 1) * 2 ^ (F.exponent q + 1) := by
      rw [← Nat.sub_one_add_one F.precision_pos.ne', Nat.add_sub_cancel, pow_succ,
        zpow_add_one₀ two_ne_zero]
      ring
    have hsmall : (2 : Int) ^ (F.precision - 1) < 2 ^ F.precision :=
      pow_lt_pow_right₀ one_lt_two (Nat.sub_lt F.precision_pos one_pos)
    rcases eq_or_eq_neg_of_abs_eq heq with heq | heq
    · refine ⟨2 ^ (F.precision - 1), F.exponent q + 1, ?_, by omega, ?_⟩
      · rwa [abs_of_pos (pow_pos two_pos _)]
      · rw [heq]
        exact_mod_cast hhalf
    · refine ⟨-2 ^ (F.precision - 1), F.exponent q + 1, ?_, by omega, ?_⟩
      · rwa [abs_neg, abs_of_pos (pow_pos two_pos _)]
      · rw [heq]
        push_cast
        rw [neg_mul, neg_mul, hhalf]

/-- Rounding leaves the numbers of the format alone. -/
theorem round_eq_self (h : F.Representable q) : F.round q = q := by
  have hnearest := abs_sub_round_le h q
  rw [sub_self, abs_zero] at hnearest
  exact (sub_eq_zero.mp (abs_nonpos_iff.mp hnearest)).symm

theorem round_eq_self_iff : F.round q = q ↔ F.Representable q :=
  ⟨fun h => h ▸ F.representable_round q, round_eq_self⟩

theorem round_round (q : ℚ) : F.round (F.round q) = F.round q :=
  round_eq_self (F.representable_round q)

/-- Rounding keeps the order. -/
theorem monotone_round : Monotone F.round := by
  intro q r hle
  rcases eq_or_lt_of_le hle with rfl | hlt
  · exact le_rfl
  by_contra hgt
  have hq := sq_le_sq.mpr (abs_sub_round_le (F.representable_round r) q)
  have hr := sq_le_sq.mpr (abs_sub_round_le (F.representable_round q) r)
  have hcross := not_le.mp hgt
  -- each is at least as near to its own rounding, so they lie on the sides of the middle
  have hmiddle : F.round q + F.round r ≤ 2 * q := by nlinarith
  have hmiddle' : 2 * r ≤ F.round q + F.round r := by nlinarith
  linarith

/-- An integer with few enough bits, divided by a power of two, is a number of the format. -/
theorem representable_div {n : Int} {k : Nat} (hn : |n| < 2 ^ F.precision)
    (hk : F.minExponent ≤ -(k : Int)) : F.Representable (n / 2 ^ k) :=
  ⟨n, -k, hn, hk, by rw [zpow_neg, zpow_natCast, div_eq_mul_inv]⟩

/-- So are integers with few enough bits. -/
theorem representable_intCast {n : Int} (hn : |n| < 2 ^ F.precision) (hmin : F.minExponent ≤ 0) :
    F.Representable n :=
  ⟨n, 0, hn, hmin, by rw [zpow_zero, mul_one]⟩

/-- The difference of two numbers of the format that are within a factor of two of each other is
a number of the format. -/
theorem Representable.sub (ha : F.Representable a) (hb : F.Representable b) (hle : b ≤ a)
    (hdouble : a ≤ 2 * b) : F.Representable (a - b) := by
  obtain ⟨m, e, hm, he, rfl⟩ := ha
  obtain ⟨n, f, hn, hf, rfl⟩ := hb
  have hm' := (abs_lt.mp hm).2
  have hn' := (abs_lt.mp hn).2
  -- in steps of the finer of the two exponents the difference is at most the number with it
  rcases le_total e f with hef | hef
  · have hb := eq_multiple (m := n) hef
    have hdiff : (m * 2 ^ e - n * 2 ^ f : ℚ) = ((m - n * 2 ^ (f - e).toNat : Int) : ℚ) * 2 ^ e := by
      rw [hb]
      push_cast
      ring
    refine ⟨m - n * 2 ^ (f - e).toNat, e, ?_, he, hdiff⟩
    rw [hb] at hle hdouble
    have hle' : n * 2 ^ (f - e).toNat ≤ m := by
      exact_mod_cast le_of_mul_le_mul_right hle (step_pos e)
    have hnonneg : 0 ≤ n * 2 ^ (f - e).toNat := by
      have hdouble' : m ≤ 2 * (n * 2 ^ (f - e).toNat) := by
        rw [← mul_assoc] at hdouble
        exact_mod_cast le_of_mul_le_mul_right hdouble (step_pos e)
      omega
    rw [abs_of_nonneg (by omega)]
    omega
  · have ha := eq_multiple (m := m) hef
    have hdiff : (m * 2 ^ e - n * 2 ^ f : ℚ) = ((m * 2 ^ (e - f).toNat - n : Int) : ℚ) * 2 ^ f := by
      rw [ha]
      push_cast
      ring
    refine ⟨m * 2 ^ (e - f).toNat - n, f, ?_, hf, hdiff⟩
    rw [ha] at hle hdouble
    have hle' : n ≤ m * 2 ^ (e - f).toNat := by
      exact_mod_cast le_of_mul_le_mul_right hle (step_pos f)
    have hdouble' : m * 2 ^ (e - f).toNat ≤ 2 * n := by
      rw [← mul_assoc] at hdouble
      exact_mod_cast le_of_mul_le_mul_right hdouble (step_pos f)
    rw [abs_of_nonneg (by omega)]
    omega

end Format
end BinaryRounding
