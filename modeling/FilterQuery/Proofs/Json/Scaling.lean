import Mathlib.Algebra.Order.Field.Power
import FilterQuery.Json.Numeral
import FilterQuery.Proofs.Number.Rounding

/-!
Scaling by a power of ten. The digits are rounded, the power of ten is, and their product or
quotient is rounded again; a quotient by more than 10^308 takes two steps. Each rounding but the
last changes the number by a factor within one part in 2^53 of 1, so the number that is rounded last
is close to the exact one (`Numeral.exists_fraction`). If the digits and the power are floats, it is
the exact one, and nothing is lost (`Numeral.exists_fraction_eq`).
-/
namespace FilterQuery

namespace Magnitude

/-- Half a step of a float, relative to the float. -/
def roundoff : ℚ := 1 / 2 ^ 53

/-- The first number is the second up to a factor between the bounds. -/
def Within (low high a b : ℚ) : Prop := low * b ≤ a ∧ a ≤ high * b

theorem Within.mul {low high low' high' a b c d : ℚ} (first : Within low high a b)
    (second : Within low' high' c d) (lowPositive : 0 ≤ low) (lowPositive' : 0 ≤ low')
    (positive : 0 ≤ b) (positive' : 0 ≤ d) :
    Within (low * low') (high * high') (a * c) (b * d) := by
  have lowest : 0 ≤ low * b := mul_nonneg lowPositive positive
  have lowest' : 0 ≤ low' * d := mul_nonneg lowPositive' positive'
  constructor
  · calc low * low' * (b * d) = low * b * (low' * d) := by ring
      _ ≤ a * c := mul_le_mul first.1 second.1 lowest' (lowest.trans first.1)
  · calc a * c ≤ high * b * (high' * d) :=
          mul_le_mul first.2 second.2 (lowest'.trans second.1) (lowest.trans (first.1.trans first.2))
      _ = high * high' * (b * d) := by ring

theorem Within.div {low high low' high' a b c d : ℚ} (first : Within low high a b)
    (second : Within low' high' c d) (lowPositive : 0 ≤ low) (lowPositive' : 0 < low')
    (positive : 0 ≤ b) (positive' : 0 < d) :
    Within (low / high') (high / low') (a / c) (b / d) := by
  have lowest : 0 ≤ low * b := mul_nonneg lowPositive positive
  have lowest' : 0 < low' * d := mul_pos lowPositive' positive'
  have divisor : 0 < c := lowest'.trans_le second.1
  constructor
  · calc low / high' * (b / d) = low * b / (high' * d) := div_mul_div_comm _ _ _ _
      _ ≤ a / c := div_le_div₀ (lowest.trans first.1) first.1 divisor second.2
  · calc a / c ≤ high * b / (low' * d) :=
          div_le_div₀ (lowest.trans (first.1.trans first.2)) first.2 lowest' second.1
      _ = high / low' * (b / d) := (div_mul_div_comm _ _ _ _).symm

theorem Within.abs_sub_le {low high a b : ℚ} (within : Within low high a b) (positive : 0 ≤ b)
    {e : ℚ} (least : 1 - e ≤ low) (most : high ≤ 1 + e) : |a - b| ≤ e * b := by
  have := mul_le_mul_of_nonneg_right least positive
  have := mul_le_mul_of_nonneg_right most positive
  obtain ⟨lower, upper⟩ := within
  rw [abs_le]
  constructor <;> linarith

/-- A number is changed by one rounding. -/
def Rounded (a b : ℚ) : Prop := Within (1 - roundoff) (1 + roundoff) a b

theorem two_pow_le_unitsPerOne : 2 ^ (52 : Nat) ≤ unitsPerOne := by
  unfold unitsPerOne
  exact Nat.pow_le_pow_right (by decide) (by decide)

theorem exactUnits_one (n : Nat) : exactUnits n 1 = n * unitsPerOne := by
  rw [exactUnits, Nat.cast_one, div_one]

/-- Above the smallest magnitudes a rounding changes a number by a factor. -/
theorem rounded_of_large {num den : Nat} (positive : 0 < den) (large : 2 ^ 52 ≤ exactUnits num den) :
    Rounded (roundUnits num den) (exactUnits num den) := by
  have error := abs_roundUnits_sub_exactUnits_le_max positive num
  generalize exactUnits num den = exact at error large ⊢
  generalize (roundUnits num den : ℚ) = rounded at error ⊢
  rw [max_eq_right (by linarith), abs_le] at error
  constructor <;> · unfold roundoff; linarith

/-- A positive whole number is not rounded to less than one. -/
theorem unitsPerOne_le_roundUnits {n : Nat} (positive : 0 < n) : unitsPerOne ≤ roundUnits n 1 := by
  have precise := precise_mul_unitsPerOne (m := 1) Nat.one_le_two_pow
  rw [Nat.one_mul] at precise
  calc unitsPerOne = roundUnits 1 1 :=
        (roundUnits_of_eq Nat.one_pos precise (Nat.mul_comm _ _)).symm
    _ ≤ roundUnits n 1 :=
        roundUnits_mono Nat.one_pos Nat.one_pos (Nat.mul_le_mul_right 1 positive)

theorem ne_zero_of_round? {value : Magnitude} {n : Nat} (known : round? n 1 = some value)
    (positive : 0 < n) : value ≠ zero := by
  rintro rfl
  have units := Nat.lt_of_lt_of_le unitsPerOne_pos (unitsPerOne_le_roundUnits positive)
  rw [round?_eq_some.mp known] at units
  exact absurd units (Nat.lt_irrefl 0)

theorem rounded_integer (n : Nat) : Rounded (roundUnits n 1) (n * unitsPerOne) := by
  rcases Nat.eq_zero_or_pos n with rfl | positive
  · have zero : roundUnits 0 1 = 0 := roundUnits_of_eq Nat.one_pos precise_zero (Nat.zero_mul _)
    rw [zero, Nat.cast_zero, zero_mul]
    exact ⟨(mul_zero _).le, (mul_zero _).ge⟩
  · rw [← exactUnits_one]
    refine rounded_of_large Nat.one_pos ?_
    have units : (2 ^ 52 : ℚ) ≤ unitsPerOne := by exact_mod_cast two_pow_le_unitsPerOne
    have some : (1 : ℚ) ≤ n := by exact_mod_cast positive
    rw [exactUnits_one]
    exact units.trans (le_mul_of_one_le_left ((by positivity : (0 : ℚ) ≤ 2 ^ 52).trans units) some)

/-- The distance between the largest magnitudes. -/
@[irreducible]
def topStep : Nat := 2 ^ (width - 53)

theorem two_pow_mul_topStep (k : Nat) : 2 ^ k * topStep = 2 ^ (k + (width - 53)) := by
  unfold topStep
  rw [Nat.pow_add]

theorem topStep_pos : 0 < topStep := by
  unfold topStep
  exact Nat.two_pow_pos _

theorem limit_eq : limit = 2 ^ (53 : Nat) * topStep := by
  have bits : 53 + (width - 53) = width := Nat.add_sub_of_le (by decide)
  rw [two_pow_mul_topStep, bits]
  unfold limit
  rfl

theorem precise_mul_topStep {n : Nat} (few : n ≤ 2 ^ (53 : Nat)) : Precise (n * topStep) := by
  unfold topStep
  exact precise_mul_two_pow few _

/-- From half of the limit on, precise counts are multiples of the step. -/
theorem exists_mul_topStep {m : Nat} (precise : Precise m) (large : limit ≤ 2 * m) :
    ∃ n, m = n * topStep := by
  have reached : 2 ^ (52 + (width - 53)) ≤ m := by
    rw [limit_eq] at large
    rw [← two_pow_mul_topStep]
    omega
  obtain ⟨n, multiple⟩ := dvd_of_precise precise reached
  refine ⟨n, ?_⟩
  rw [multiple, Nat.mul_comm]
  unfold topStep
  rfl

/-- Half a step below 2^1024 a number is not rounded up to it. -/
theorem roundUnits_lt_limit_of_exactUnits {num den : Nat} (positive : 0 < den)
    (below : exactUnits num den < limit - (topStep : ℚ) / 2) : roundUnits num den < limit := by
  have largest : limit - topStep = (2 ^ (53 : Nat) - 1) * topStep := by
    rw [limit_eq, Nat.sub_mul, Nat.one_mul]
  have le : topStep ≤ limit := by
    rw [limit_eq]
    exact Nat.le_mul_of_pos_left _ (by decide)
  have nearest := abs_roundUnits_sub_exactUnits_le positive num
    (largest ▸ precise_mul_topStep (Nat.sub_le _ _))
  by_contra beyond
  have reached : (limit : ℚ) ≤ roundUnits num den := by exact_mod_cast Nat.not_lt.mp beyond
  have step : (0 : ℚ) < topStep := Nat.cast_pos.mpr topStep_pos
  rw [Nat.cast_sub le] at nearest
  have := add_le_two_mul_of_abs_sub_le (by linarith) nearest
  linarith

/-- A number that is rounded to a magnitude near 2^1024 is at most half a step above it. -/
theorem exactUnits_le_of_roundUnits {num den : Nat} (positive : 0 < den)
    (large : limit ≤ 2 * roundUnits num den) (small : roundUnits num den + topStep ≤ limit) :
    exactUnits num den ≤ roundUnits num den + (topStep : ℚ) / 2 := by
  obtain ⟨n, multiple⟩ := exists_mul_topStep (precise_roundUnits num den) large
  have next : roundUnits num den + topStep = (n + 1) * topStep := by
    rw [multiple, Nat.add_mul, Nat.one_mul]
  rw [next, limit_eq] at small
  have nearest := abs_roundUnits_sub_exactUnits_le positive num
    (next ▸ precise_mul_topStep (Nat.le_of_mul_le_mul_right small topStep_pos))
  have step : (0 : ℚ) < topStep := Nat.cast_pos.mpr topStep_pos
  rw [Nat.cast_add] at nearest
  have := two_mul_le_add_of_abs_sub_le (by linarith) nearest
  linarith

section

variable {a b p x y unit : ℚ}

theorem Within.mul_right {low high c : ℚ} (within : Within low high a b) (positive : 0 ≤ c) :
    Within low high (a * c) (b * c) := by
  obtain ⟨lower, upper⟩ := within
  constructor
  · rw [← mul_assoc]
    exact mul_le_mul_of_nonneg_right lower positive
  · rw [← mul_assoc]
    exact mul_le_mul_of_nonneg_right upper positive

/-- The product of two rounded numbers, in units. -/
theorem within_mul (positive : 0 < unit) (nonnegative : 0 ≤ x) (nonnegative' : 0 ≤ y)
    (first : Rounded a (x * unit)) (power : Rounded p (y * unit)) :
    Within ((1 - roundoff) * (1 - roundoff)) ((1 + roundoff) * (1 + roundoff))
      (a * p / unit) (x * y * unit) := by
  have product := (first.mul power (by norm_num [roundoff]) (by norm_num [roundoff])
    (mul_nonneg nonnegative positive.le) (mul_nonneg nonnegative' positive.le)).mul_right
      (inv_nonneg.mpr positive.le)
  have exact : x * unit * (y * unit) * unit⁻¹ = x * y * unit := by field_simp
  rwa [exact, ← div_eq_mul_inv] at product

theorem abs_mul_sub_le (positive : 0 < unit) (nonnegative : 0 ≤ x) (nonnegative' : 0 ≤ y)
    (first : Rounded a (x * unit)) (power : Rounded p (y * unit)) :
    |a * p / unit - x * y * unit| ≤ 41 / 10 * roundoff * (x * y * unit) :=
  (within_mul positive nonnegative nonnegative' first power).abs_sub_le
    (mul_nonneg (mul_nonneg nonnegative nonnegative') positive.le)
    (by norm_num [roundoff]) (by norm_num [roundoff])

/-- The quotient of two rounded numbers, in units. -/
theorem within_div (positive : 0 < unit) (nonnegative : 0 ≤ x) (positive' : 0 < y)
    (first : Rounded a (x * unit)) (power : Rounded p (y * unit)) :
    Within ((1 - roundoff) / (1 + roundoff)) ((1 + roundoff) / (1 - roundoff))
      (a * unit / p) (x / y * unit) := by
  have quotient := (first.div power (by norm_num [roundoff]) (by norm_num [roundoff])
    (mul_nonneg nonnegative positive.le) (mul_pos positive' positive)).mul_right positive.le
  have exact : x * unit / (y * unit) = x / y := mul_div_mul_right x y positive.ne'
  rwa [exact, div_mul_eq_mul_div] at quotient

theorem abs_div_sub_le (positive : 0 < unit) (nonnegative : 0 ≤ x) (positive' : 0 < y)
    (first : Rounded a (x * unit)) (power : Rounded p (y * unit)) :
    |a * unit / p - x / y * unit| ≤ 41 / 10 * roundoff * (x / y * unit) :=
  (within_div positive nonnegative positive' first power).abs_sub_le
    (mul_nonneg (div_nonneg nonnegative positive'.le) positive.le)
    (by norm_num [roundoff]) (by norm_num [roundoff])

/-- One over a rounded number, in units. -/
theorem within_reciprocal (positive : 0 < unit) (positive' : 0 < y)
    (power : Rounded p (y * unit)) :
    Within (1 / (1 + roundoff)) (1 / (1 - roundoff)) (unit / p) (1 / y) := by
  have same : Within 1 1 unit unit := ⟨(one_mul unit).le, (one_mul unit).ge⟩
  have divided := same.div power zero_le_one (by norm_num [roundoff]) positive.le
    (mul_pos positive' positive)
  have exact : unit / (y * unit) = 1 / y := by field_simp
  rwa [exact] at divided

/-- A rounded quotient that is divided by ten or more: of half a unit less than a tenth is left. -/
theorem abs_mul_sub_mul_le {q rounded factor : ℚ} (nonnegative : 0 ≤ q) (positive : 0 ≤ factor)
    (small : factor ≤ 2 / 10) (error : |rounded - q| ≤ max (1 / 2) (q / 2 ^ 53)) :
    |rounded * factor - q * factor| ≤ roundoff * (q * factor) + 1 / 10 := by
  have sum : |rounded - q| ≤ 1 / 2 + roundoff * q := by
    refine error.trans (max_le ?_ ?_) <;> · unfold roundoff; linarith
  rw [← sub_mul, abs_mul, abs_of_nonneg positive]
  calc |rounded - q| * factor ≤ (1 / 2 + roundoff * q) * factor :=
        mul_le_mul_of_nonneg_right sum positive
    _ = roundoff * (q * factor) + factor / 2 := by ring
    _ ≤ roundoff * (q * factor) + 1 / 10 := by linarith

/-- A quotient that is rounded, if only to half a unit, and then divided by ten or more. -/
theorem abs_div_div_sub_le {z p' rounded : ℚ} (positive : 0 < unit) (nonnegative : 0 ≤ x)
    (positive' : 0 < y) (ten : 10 ≤ z) (first : Rounded a (x * unit)) (power : Rounded p (y * unit))
    (power' : Rounded p' (z * unit))
    (error : |rounded - a * unit / p| ≤ max (1 / 2) (a * unit / p / 2 ^ 53)) :
    |rounded * unit / p' - x / y / z * unit| ≤
      41 / 10 * roundoff * (x / y / z * unit) + 1 / 10 := by
  have large : 0 < z := by linarith
  have quotient := within_div positive nonnegative positive' first power
  have reciprocal := within_reciprocal positive large power'
  have exactNonneg : 0 ≤ x / y * unit :=
    mul_nonneg (div_nonneg nonnegative positive'.le) positive.le
  have quotientNonneg : 0 ≤ a * unit / p :=
    (mul_nonneg (by norm_num [roundoff]) exactNonneg).trans quotient.1
  -- Without the rounding in between, the two quotients are one product.
  have both := quotient.mul reciprocal (by norm_num [roundoff]) (by norm_num [roundoff])
    exactNonneg (one_div_nonneg.mpr large.le)
  have exact : x / y * unit * (1 / z) = x / y / z * unit := by ring
  have wholeNonneg := mul_nonneg exactNonneg (one_div_nonneg.mpr large.le)
  rw [exact] at both wholeNonneg
  have close := both.abs_sub_le (e := 61 / 20 * roundoff) wholeNonneg (by norm_num [roundoff])
    (by norm_num [roundoff])
  have most : a * unit / p * (unit / p') ≤ 21 / 20 * (x / y / z * unit) :=
    both.2.trans (mul_le_mul_of_nonneg_right (by norm_num [roundoff]) wholeNonneg)
  -- The rounding in between weighs at most a tenth of a unit, or one more part in 2^53.
  have factorNonneg : 0 ≤ unit / p' :=
    (mul_nonneg (by norm_num [roundoff]) (one_div_nonneg.mpr large.le)).trans reciprocal.1
  have factorSmall : unit / p' ≤ 2 / 10 := by
    have tenth : 1 / z ≤ 1 / 10 := one_div_le_one_div_of_le (by norm_num) ten
    have bound : 1 / (1 - roundoff) ≤ 2 := by norm_num [roundoff]
    calc unit / p' ≤ 1 / (1 - roundoff) * (1 / z) := reciprocal.2
      _ ≤ 2 * (1 / 10) := mul_le_mul bound tenth (one_div_nonneg.mpr large.le) (by norm_num)
      _ = 2 / 10 := by norm_num
  have between := abs_mul_sub_mul_le quotientNonneg factorNonneg factorSmall error
  have weight := mul_le_mul_of_nonneg_left most (by norm_num [roundoff] : 0 ≤ roundoff)
  rw [mul_div_assoc]
  calc |rounded * (unit / p') - x / y / z * unit|
      ≤ |rounded * (unit / p') - a * unit / p * (unit / p')| +
          |a * unit / p * (unit / p') - x / y / z * unit| := abs_sub_le _ _ _
    _ ≤ roundoff * (a * unit / p * (unit / p')) + 1 / 10 +
          61 / 20 * roundoff * (x / y / z * unit) := add_le_add between close
    _ ≤ 41 / 10 * roundoff * (x / y / z * unit) + 1 / 10 := by linarith

end

end Magnitude

namespace Json.Numeral

open Magnitude (unitsPerOne unitsPerOne_pos limit roundUnits exactUnits roundoff round?)

/-! ## The steps of scaling -/

theorem exists_powerOfTen? {k : Nat} (small : k ≤ maxPower) :
    ∃ power, Magnitude.powerOfTen? k = some power ∧ power.units = roundUnits (10 ^ k) 1 := by
  refine Magnitude.exists_round? (Magnitude.roundUnits_lt_limit ?_)
  calc 10 ^ k ≤ 10 ^ maxPower := Nat.pow_le_pow_right (by decide) small
    _ ≤ 3 * 2 ^ (1022 : Nat) := by decide +kernel

theorem scaleByPower_natCast {value power : Magnitude} {k : Nat} (small : k ≤ maxPower)
    (known : Magnitude.powerOfTen? k = some power) :
    scaleByPower value k = value.mul? power := by
  rw [scaleByPower, if_pos (Int.natCast_nonneg k), Int.natAbs_natCast, if_pos small, known,
    Option.bind_eq_bind, Option.bind_some]

theorem scaleByPower_neg {value power : Magnitude} {k : Nat} (positive : 0 < k)
    (small : k ≤ maxPower) (known : Magnitude.powerOfTen? k = some power) :
    scaleByPower value (-k) = value.div? power := by
  have once : (k - 1) / maxPower = 0 := Nat.div_eq_of_lt (by omega)
  rw [scaleByPower, if_neg (by omega), Int.natAbs_neg, Int.natAbs_natCast]
  dsimp only
  rw [once, Nat.mul_zero, Nat.sub_zero, known, divideRepeatedly, Option.bind_eq_bind,
    Option.bind_some, Option.bind_some]

theorem scaleByPower_neg_twice {value smaller divisor power : Magnitude} {k : Nat}
    (large : maxPower < k) (small : k ≤ maxPower + maxPower) (nonzero : value ≠ Magnitude.zero)
    (known : Magnitude.powerOfTen? maxPower = some divisor)
    (known' : Magnitude.powerOfTen? (k - maxPower) = some power)
    (step : value.div? divisor = some smaller) :
    scaleByPower value (-k) = smaller.div? power := by
  have twice : (k - 1) / maxPower = 1 := by
    rw [Nat.div_eq_iff (by decide)]
    omega
  rw [scaleByPower, if_neg (by omega), Int.natAbs_neg, Int.natAbs_natCast]
  dsimp only
  rw [twice, Nat.mul_one, known', divideRepeatedly, if_neg nonzero, known, Option.bind_eq_bind,
    Option.bind_some, step, Option.bind_some, divideRepeatedly, Option.bind_some,
    Option.bind_some]

theorem exactUnits_mul (a b : Magnitude) :
    exactUnits (a.units * b.units) (unitsPerOne * unitsPerOne) = a.units * b.units / unitsPerOne := by
  have positive : (unitsPerOne : ℚ) ≠ 0 := Nat.cast_ne_zero.mpr unitsPerOne_pos.ne'
  unfold exactUnits
  push_cast
  field_simp

theorem unitsPerOne_le_of_powerOfTen {power : Magnitude} {k : Nat}
    (units : power.units = roundUnits (10 ^ k) 1) : unitsPerOne ≤ power.units := by
  rw [units]
  exact Magnitude.unitsPerOne_le_roundUnits (Nat.pow_pos (by decide))

theorem rounded_ten_pow (k : Nat) :
    Magnitude.Rounded (roundUnits (10 ^ k) 1) (10 ^ k * unitsPerOne) := by
  exact_mod_cast Magnitude.rounded_integer (10 ^ k)

/-- A quotient by a power of ten is no larger. -/
theorem exists_div? (value : Magnitude) {divisor : Magnitude} (large : unitsPerOne ≤ divisor.units) :
    ∃ quotient, value.div? divisor = some quotient ∧
      quotient.units = roundUnits value.units divisor.units := by
  refine Magnitude.exists_round? (Nat.lt_of_le_of_lt ?_ value.representable.1)
  calc roundUnits value.units divisor.units ≤ roundUnits value.units unitsPerOne :=
        Magnitude.roundUnits_mono (Nat.lt_of_lt_of_le unitsPerOne_pos large) unitsPerOne_pos
          (Nat.mul_le_mul_left _ large)
    _ = value.units := Magnitude.roundUnits_units value

variable {c : Nat} {value : Magnitude}

theorem exists_product (value : Magnitude) {k : Nat} (small : k ≤ maxPower) :
    ∃ num den, 0 < den ∧ scaleByPower value k = round? num den ∧
      exactUnits num den = value.units * roundUnits (10 ^ k) 1 / unitsPerOne := by
  obtain ⟨power, known, units⟩ := exists_powerOfTen? small
  refine ⟨value.units * power.units, unitsPerOne * unitsPerOne,
    Nat.mul_pos unitsPerOne_pos unitsPerOne_pos, scaleByPower_natCast small known, ?_⟩
  rw [exactUnits_mul, units]

theorem exists_quotient (value : Magnitude) {k : Nat} (positive : 0 < k) (small : k ≤ maxPower) :
    ∃ num den, 0 < den ∧ scaleByPower value (-k) = round? num den ∧
      exactUnits num den = value.units * unitsPerOne / roundUnits (10 ^ k) 1 := by
  obtain ⟨power, known, units⟩ := exists_powerOfTen? small
  refine ⟨value.units, power.units,
    Nat.lt_of_lt_of_le unitsPerOne_pos (unitsPerOne_le_of_powerOfTen units),
    scaleByPower_neg positive small known, ?_⟩
  rw [exactUnits, units]

theorem exists_second_quotient (rounded : Magnitude.Rounded value.units (c * unitsPerOne)) {k : Nat}
    (large : maxPower < k) (small : k ≤ maxPower + maxPower) (nonzero : value ≠ Magnitude.zero) :
    ∃ num den, 0 < den ∧ scaleByPower value (-k) = round? num den ∧
      |exactUnits num den - c / 10 ^ k * unitsPerOne| ≤
        41 / 10 * roundoff * (c / 10 ^ k * unitsPerOne) + 1 / 10 := by
  obtain ⟨divisor, known, units⟩ := exists_powerOfTen? (Nat.le_refl maxPower)
  obtain ⟨power, known', units'⟩ := exists_powerOfTen? (Nat.sub_le_iff_le_add.mpr small)
  have divisorLarge := unitsPerOne_le_of_powerOfTen units
  obtain ⟨smaller, step, stepUnits⟩ := exists_div? value divisorLarge
  refine ⟨smaller.units, power.units,
    Nat.lt_of_lt_of_le unitsPerOne_pos (unitsPerOne_le_of_powerOfTen units'),
    scaleByPower_neg_twice large small nonzero known known' step, ?_⟩
  have split : (10 : ℚ) ^ k = 10 ^ maxPower * 10 ^ (k - maxPower) := by
    rw [← pow_add, Nat.add_sub_of_le (Nat.le_of_lt large)]
  have atLeast : (10 : ℚ) ≤ 10 ^ (k - maxPower) :=
    le_self_pow₀ (by norm_num) (Nat.sub_ne_zero_of_lt large)
  have error := Magnitude.abs_roundUnits_sub_exactUnits_le_max
    (Nat.lt_of_lt_of_le unitsPerOne_pos divisorLarge) value.units
  rw [← stepUnits] at error
  rw [split, ← div_div]
  exact Magnitude.abs_div_div_sub_le (Nat.cast_pos.mpr unitsPerOne_pos) (Nat.cast_nonneg c)
    (pow_pos (by norm_num) _) atLeast rounded (units ▸ rounded_ten_pow _)
    (units' ▸ rounded_ten_pow _) error

/-- The fraction that is rounded last is close to the digits times the power of ten, in units. -/
theorem exists_fraction {e : Int} (rounded : Magnitude.Rounded value.units (c * unitsPerOne))
    (least : -340 ≤ e) (most : e ≤ 308) (nonzero : e < -maxPower → value ≠ Magnitude.zero) :
    ∃ num den, 0 < den ∧ scaleByPower value e = round? num den ∧
      |exactUnits num den - c * 10 ^ e * unitsPerOne| ≤
        41 / 10 * roundoff * (c * 10 ^ e * unitsPerOne) + 1 / 10 := by
  have unitPositive : (0 : ℚ) < unitsPerOne := Nat.cast_pos.mpr unitsPerOne_pos
  have digits : (0 : ℚ) ≤ c := Nat.cast_nonneg c
  have ten (k : Nat) : (0 : ℚ) < 10 ^ k := pow_pos (by norm_num) k
  rcases Int.lt_or_le e 0 with negative | nonnegative
  · obtain ⟨k, rfl⟩ : ∃ k : Nat, e = -k := ⟨e.natAbs, by omega⟩
    rw [zpow_neg, zpow_natCast, ← div_eq_mul_inv]
    rcases Nat.lt_or_ge maxPower k with large | small
    · refine exists_second_quotient rounded large ?_ (nonzero (by omega))
      unfold maxPower
      omega
    · obtain ⟨num, den, positive, same, exact⟩ := exists_quotient value (by omega) small
      refine ⟨num, den, positive, same, ?_⟩
      rw [exact]
      exact (Magnitude.abs_div_sub_le unitPositive digits (ten k) rounded (rounded_ten_pow k)).trans
        (le_add_of_nonneg_right (by norm_num))
  · obtain ⟨k, rfl⟩ := Int.eq_ofNat_of_zero_le nonnegative
    have small : k ≤ maxPower := by
      unfold maxPower
      omega
    obtain ⟨num, den, positive, same, exact⟩ := exists_product value small
    refine ⟨num, den, positive, same, ?_⟩
    rw [exact, zpow_natCast]
    exact (Magnitude.abs_mul_sub_le unitPositive digits (ten k).le rounded (rounded_ten_pow k)).trans
      (le_add_of_nonneg_right (by norm_num))

/-- A product that is two and a half steps below 2^1024 is not beyond the largest magnitude. -/
theorem isSome_scaleByPower (rounded : Magnitude.Rounded value.units (c * unitsPerOne)) {k : Nat}
    (small : k ≤ maxPower)
    (below : (c * 10 ^ k * unitsPerOne : ℚ) ≤ limit - 5 / 2 * Magnitude.topStep) :
    (scaleByPower value k).isSome = true := by
  obtain ⟨num, den, positive, same, exact⟩ := exists_product value small
  have unitPositive : (0 : ℚ) < unitsPerOne := Nat.cast_pos.mpr unitsPerOne_pos
  have upper := (Magnitude.within_mul unitPositive (Nat.cast_nonneg c) (pow_pos (by norm_num) k).le
    rounded (rounded_ten_pow k)).2
  rw [← exact] at upper
  rw [same, round?, dif_pos]
  · rfl
  · refine Magnitude.roundUnits_lt_limit_of_exactUnits positive (upper.trans_lt ?_)
    have step : (0 : ℚ) < Magnitude.topStep := Nat.cast_pos.mpr Magnitude.topStep_pos
    have bits : (limit : ℚ) = 2 ^ 53 * Magnitude.topStep := by
      exact_mod_cast Magnitude.limit_eq
    rw [bits] at below ⊢
    generalize (c * 10 ^ k * unitsPerOne : ℚ) = product at below ⊢
    generalize (Magnitude.topStep : ℚ) = top at step below ⊢
    calc (1 + roundoff) * (1 + roundoff) * product
        ≤ (1 + roundoff) * (1 + roundoff) * (2 ^ 53 * top - 5 / 2 * top) :=
          mul_le_mul_of_nonneg_left below (by norm_num [roundoff])
      _ = (2 ^ 53 - 1 / 2 - 4 * roundoff - 5 / 2 * roundoff ^ 2) * top := by
          unfold roundoff
          ring
      _ < 2 ^ 53 * top - top / 2 := by
          unfold roundoff
          linarith

/-- The powers of ten up to 10^22 are floats. -/
theorem roundUnits_ten_pow {k : Nat} (small : k ≤ 22) :
    roundUnits (10 ^ k) 1 = 10 ^ k * unitsPerOne := by
  refine Magnitude.roundUnits_of_eq Nat.one_pos ?_ (Nat.mul_one _).symm
  have odd : 5 ^ k ≤ 2 ^ (53 : Nat) :=
    (Nat.pow_le_pow_right (by decide) small).trans (by decide)
  have factors : 10 ^ k * unitsPerOne = 5 ^ k * 2 ^ (k + Magnitude.scale) := by
    rw [← Magnitude.two_pow_mul_unitsPerOne, ← Nat.mul_assoc, ← Nat.mul_pow]
  rw [factors]
  exact Magnitude.precise_mul_two_pow odd _

/-- If the digits and the power of ten are floats, the fraction that is rounded last is the exact
number. -/
theorem exists_fraction_eq {e : Int} (exact : value.units = c * unitsPerOne)
    (small : e.natAbs ≤ 22) :
    ∃ num den, 0 < den ∧ scaleByPower value e = round? num den ∧
      exactUnits num den = c * 10 ^ e * unitsPerOne := by
  have unitPositive : (unitsPerOne : ℚ) ≠ 0 := Nat.cast_ne_zero.mpr unitsPerOne_pos.ne'
  have below : 22 ≤ maxPower := by decide
  rcases Int.lt_or_le e 0 with negative | nonnegative
  · obtain ⟨k, rfl⟩ : ∃ k : Nat, e = -k := ⟨e.natAbs, by omega⟩
    rw [Int.natAbs_neg, Int.natAbs_natCast] at small
    obtain ⟨num, den, positive, same, fraction⟩ :=
      exists_quotient value (by omega) (small.trans below)
    refine ⟨num, den, positive, same, ?_⟩
    rw [fraction, exact, roundUnits_ten_pow small, zpow_neg, zpow_natCast]
    push_cast
    field_simp
  · obtain ⟨k, rfl⟩ := Int.eq_ofNat_of_zero_le nonnegative
    rw [Int.natAbs_natCast] at small
    obtain ⟨num, den, positive, same, fraction⟩ := exists_product value (small.trans below)
    refine ⟨num, den, positive, same, ?_⟩
    rw [fraction, exact, roundUnits_ten_pow small, zpow_natCast]
    push_cast
    field_simp

end Json.Numeral

end FilterQuery
