import Statskboo.Lib.BinaryRounding

/-!
# Number functions of the Rust standard library

The conversions between machine numbers and the readers of numerals that the program
calls.  A finite floating-point number is the fraction it denotes; infinities and what is
not a number stand outside of the model.

Main results:

- Theorem {lit}`f64Round_intCast`: rounding leaves integers alone.
- Theorems {lit}`toF32_natCast` and {lit}`toF32_le_one`: rounding to {lit}`f32` leaves
  numbers of up to 24 bits alone and does not pass one.
- Definition {lit}`f64`: the rounding of {lit}`f64` as one of the roundings that the results on
  arithmetic hold for.
- Theorem {lit}`ofDigits_toDigits`: the decimal digits of a number denote it.
- Theorem {lit}`signed_of_digits`: a numeral of digits is read as the number they denote.
- Theorem {lit}`saturate_eq_self`: a saturating cast leaves a value in range alone.
-/

namespace Statskboo
namespace Numbers

open BinaryRounding

/-! ## Casts -/

/-- The value in a range that {lit}`as` yields for a float, and {lit}`clamp` for an
integer. -/
def saturate (lo hi n : Int) : Int :=
  max lo (min n hi)

theorem saturate_eq_self {lo hi n : Int} (hlo : lo ≤ n) (hhi : n ≤ hi) :
    saturate lo hi n = n := by
  unfold saturate
  omega

/-- The value that {lit}`as u8` yields for an integer. -/
def wrapU8 (n : Int) : Nat :=
  (n % 2 ^ 8).toNat

/-! ## Rounding -/

/-- {lit}`f64::round`: to the nearest integer, halves away from zero. -/
def f64Round (q : ℚ) : Int :=
  if q < 0 then -⌊-q + 1 / 2⌋ else ⌊q + 1 / 2⌋

/-- Rounding leaves integers alone. -/
theorem f64Round_intCast (n : Int) : f64Round n = n := by
  have hfloor : ∀ m : Int, ⌊(m : ℚ) + 1 / 2⌋ = m := by
    intro m
    rw [Int.floor_eq_iff]
    constructor <;> linarith
  unfold f64Round
  split_ifs
  · have hneg : -(n : ℚ) = ((-n : Int) : ℚ) := by push_cast; rfl
    rw [hneg, hfloor, neg_neg]
  · exact hfloor n

/-- The nearest number of type {lit}`f32`. -/
def toF32 (q : ℚ) : ℚ :=
  Format.binary32.round q

/-- Numbers of up to 24 bits are numbers of type {lit}`f32`. -/
theorem toF32_natCast {n : Nat} (h : n < 2 ^ 24) : toF32 n = n := by
  have hbits : |(n : Int)| < 2 ^ 24 := by
    rw [abs_of_nonneg (Int.natCast_nonneg n)]
    exact_mod_cast h
  exact Format.round_eq_self (Format.representable_intCast hbits (by decide))

/-- What is at most one is rounded to at most one. -/
theorem toF32_le_one {q : ℚ} (h : q ≤ 1) : toF32 q ≤ 1 := by
  have hone : toF32 1 = 1 := toF32_natCast (n := 1) (by decide)
  rw [← hone]
  exact Format.monotone_round h

/-! ## Arithmetic -/

/-- What an operation on {lit}`f64` makes of its exact result.  Besides the rounding of the type
itself, the results hold for exact fractions. -/
class Rounding where
  round : ℚ → ℚ
  monotone : Monotone round
  round_round : ∀ q, round (round q) = round q
  round_div : ∀ n k : Nat, n < 2 ^ 53 → k ≤ 53 → round (n / 2 ^ k) = n / 2 ^ k
  round_sub : ∀ a b, round a = a → round b = b → b ≤ a → a ≤ 2 * b → round (a - b) = a - b

/-- The rounding of {lit}`f64`, without overflow. -/
@[reducible]
def f64 : Rounding where
  round := Format.binary64.round
  monotone := Format.monotone_round
  round_round := Format.round_round
  round_div n k hn hk := by
    have hbits : |(n : Int)| < 2 ^ 53 := by
      rw [abs_of_nonneg (Int.natCast_nonneg n)]
      exact_mod_cast hn
    have hexponent : (-1074 : Int) ≤ -(k : Int) := by omega
    have hself := Format.round_eq_self (F := Format.binary64)
      (Format.representable_div hbits hexponent)
    rwa [Int.cast_natCast] at hself
  round_sub a b ha hb hle hdouble := by
    rw [Format.round_eq_self_iff] at ha hb ⊢
    exact ha.sub hb hle hdouble

/-- Exact fractions. -/
@[reducible]
def exactFractions : Rounding where
  round := id
  monotone := monotone_id
  round_round _ := rfl
  round_div _ _ _ _ := rfl
  round_sub _ _ _ _ _ _ := rfl

/-! ## Numerals -/

/-- The number that decimal digits denote. -/
def ofDigits (ds : List Char) : Nat :=
  ds.foldl (fun n d => 10 * n + (d.toNat - '0'.toNat)) 0

/-- The decimal digits of a number denote it. -/
theorem ofDigits_toDigits (n : Nat) : ofDigits (Nat.toDigits 10 n) = n := by
  have h := Nat.ofDigitChars_ten_toDigits (n := n)
  rwa [Nat.ofDigitChars_eq_foldl] at h

/-- A leading sign, and the rest. -/
def takeSign : List Char → Bool × List Char
  | '+' :: s => (false, s)
  | '-' :: s => (true, s)
  | s => (false, s)

/-- The integer of a numeral with an optional sign. -/
def signed (s : List Char) : Option Int :=
  let (negative, ds) := takeSign s
  if ds.isEmpty || !ds.all Char.isDigit then none
  else some (if negative then -(ofDigits ds) else ofDigits ds)

theorem takeSign_of_digits {ds : List Char} (hds : ∀ c ∈ ds, c.isDigit = true) :
    takeSign ds = (false, ds) := by
  unfold takeSign
  split
  · exact absurd (hds '+' List.mem_cons_self) (by decide)
  · exact absurd (hds '-' List.mem_cons_self) (by decide)
  · rfl

/-- A numeral of decimal digits is read as the number that they denote. -/
theorem signed_of_digits {ds : List Char} (hne : ds ≠ []) (hds : ∀ c ∈ ds, c.isDigit = true) :
    signed ds = some (ofDigits ds : Int) := by
  have hempty : ds.isEmpty = false := List.isEmpty_eq_false_iff.mpr hne
  have hall : ds.all Char.isDigit = true := List.all_eq_true.mpr hds
  rw [signed, takeSign_of_digits hds]
  simp [hempty, hall]

/-- {lit}`str::parse` for an unsigned type: no minus sign, not even before zero. -/
def parseUnsigned (hi : Nat) (s : List Char) : Option Nat :=
  if (takeSign s).1 then none
  else (signed s).bind fun n => if n ≤ hi then some n.toNat else none

/-- {lit}`str::parse` for a signed type. -/
def parseSigned (lo hi : Int) (s : List Char) : Option Int :=
  (signed s).bind fun n => if lo ≤ n ∧ n ≤ hi then some n else none

theorem parseUnsigned_of_digits {ds : List Char} {hi : Nat} (hne : ds ≠ [])
    (hds : ∀ c ∈ ds, c.isDigit = true) (hle : ofDigits ds ≤ hi) :
    parseUnsigned hi ds = some (ofDigits ds) := by
  rw [parseUnsigned, takeSign_of_digits hds, signed_of_digits hne hds]
  simp [hle]

theorem parseSigned_of_digits {ds : List Char} {lo hi : Int} (hne : ds ≠ [])
    (hds : ∀ c ∈ ds, c.isDigit = true) (hlo : lo ≤ ofDigits ds) (hhi : (ofDigits ds : Int) ≤ hi) :
    parseSigned lo hi ds = some (ofDigits ds : Int) := by
  rw [parseSigned, signed_of_digits hne hds, Option.bind_some, if_pos ⟨hlo, hhi⟩]

/-- The text of a number is read as the number. -/
theorem signed_toString (n : Int) : signed (toString n).toList = some n := by
  have hdigits (m : Nat) : ∀ c ∈ Nat.toDigits 10 m, c.isDigit = true := fun c hc =>
    Nat.isDigit_of_mem_toDigits (by decide) (by decide) hc
  have hne (m : Nat) : Nat.toDigits 10 m ≠ [] := Nat.toDigits_ne_nil
  rw [Int.toString_eq_repr, Int.repr_eq_if]
  split_ifs with hn
  · rw [Nat.toList_repr, signed_of_digits (hne _) (hdigits _), ofDigits_toDigits,
      Int.toNat_of_nonneg hn]
  · have hsign : ("-" ++ (-n).toNat.repr).toList = '-' :: Nat.toDigits 10 (-n).toNat := by
      rw [String.toList_append, Nat.toList_repr]
      rfl
    have hempty := List.isEmpty_eq_false_iff.mpr (hne (-n).toNat)
    have hall := List.all_eq_true.mpr (hdigits (-n).toNat)
    rw [hsign, signed, takeSign]
    simp only [hempty, hall, Bool.not_true, Bool.or_self, Bool.false_eq_true, if_false, if_true,
      ofDigits_toDigits]
    rw [Int.toNat_of_nonneg (by omega), neg_neg]

theorem parseSigned_toString {lo hi n : Int} (hlo : lo ≤ n) (hhi : n ≤ hi) :
    parseSigned lo hi (toString n).toList = some n := by
  rw [parseSigned, signed_toString, Option.bind_some, if_pos ⟨hlo, hhi⟩]

/-- The exponent of a decimal numeral; there is one for the empty text. -/
def parseExponent : List Char → Option Int
  | [] => some 0
  | c :: s => if c = 'e' ∨ c = 'E' then signed s else none

/-- {lit}`str::parse` for {lit}`f32`, without the names of the values that are no finite
number. -/
def parseF32 (s : List Char) : Option ℚ :=
  let (negative, s) := takeSign s
  let whole := s.takeWhile Char.isDigit
  let afterWhole := s.dropWhile Char.isDigit
  let (fraction, rest) :=
    match afterWhole with
    | '.' :: s => (s.takeWhile Char.isDigit, s.dropWhile Char.isDigit)
    | s => ([], s)
  if whole.isEmpty && fraction.isEmpty then none
  else do
    let exponent ← parseExponent rest
    let q : ℚ := ofDigits (whole ++ fraction) * 10 ^ (exponent - fraction.length)
    return toF32 (if negative then -q else q)

example : parseF32 "-12.50e1".toList = some (-125) := by decide +kernel

example : toF32 (1 / 3) = 11184811 / 2 ^ 25 := by decide +kernel

end Numbers
end Statskboo
