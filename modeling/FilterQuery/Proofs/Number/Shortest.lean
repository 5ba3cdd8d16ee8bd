import Mathlib.Algebra.Order.Field.Power
import FilterQuery.Number.Decimal
import FilterQuery.Proofs.Number.Rounding

/-!
The shortest decimal of a magnitude. A decimal within one part in 2 · 10^16 of a magnitude is
rounded to it, since the next magnitudes are more than twice as far away. On the grid of 17 digits
one of the two neighbours is that near, so the search always finds a decimal, and what it finds
reads back (`Decimal.shortest_readsBack`).
-/
namespace FilterQuery.Decimal

open Magnitude (unitsPerOne unitsPerOne_pos limit roundUnits exactUnits)

def toRat (d : Decimal) : ℚ := d.coefficient * 10 ^ d.exponent

theorem denominator_pos (d : Decimal) : 0 < d.denominator := Nat.pow_pos (by decide)

theorem ten_zpow_eq (e : Int) : (10 : ℚ) ^ e = 10 ^ e.toNat / 10 ^ (-e).toNat := by
  obtain ⟨n, rfl | rfl⟩ := e.eq_nat_or_neg
  · simp
  · simp

/-- The fraction of the decimal is its number. -/
theorem numerator_mul_div_denominator (d : Decimal) (unit : ℚ) :
    d.numerator * unit / d.denominator = d.toRat * unit := by
  rw [numerator, denominator, toRat, ten_zpow_eq]
  push_cast
  ring

theorem exactUnits_eq (d : Decimal) :
    exactUnits d.numerator d.denominator = d.toRat * unitsPerOne := by
  rw [exactUnits, numerator_mul_div_denominator]

theorem readsBack_iff {d : Decimal} {value : Magnitude} :
    d.ReadsBack value ↔ roundUnits d.numerator d.denominator = value.units :=
  Magnitude.round?_eq_some

/-- Whether a decimal reads back depends only on its number. -/
theorem ReadsBack.congr {d d' : Decimal} {value : Magnitude} (reads : d.ReadsBack value)
    (same : d.toRat = d'.toRat) : d'.ReadsBack value := by
  have exact : exactUnits d.numerator d.denominator = exactUnits d'.numerator d'.denominator := by
    rw [exactUnits_eq, exactUnits_eq, same]
  rw [readsBack_iff] at reads ⊢
  rw [← Magnitude.roundUnits_of_exactUnits_eq d.denominator_pos d'.denominator_pos exact, reads]

/-- A decimal within one part in 2 · 10^16 of a magnitude is rounded to it. -/
theorem readsBack_of_near {d : Decimal} {value : Magnitude}
    (near : 20000000000000000 * |d.toRat * unitsPerOne - value.units| ≤ value.units) :
    d.ReadsBack value := by
  rw [← exactUnits_eq] at near
  exact readsBack_iff.mpr
    (Magnitude.roundUnits_of_near d.denominator_pos value.precise_units near)

theorem length_digits_le {n e : Nat} (positive : 0 < e) (small : n < 10 ^ e) :
    (digits n).length ≤ e := (Nat.length_toDigits_le_iff (by decide) positive).mpr small

theorem lt_pow_length_digits (n : Nat) : n < 10 ^ (digits n).length :=
  (Nat.length_toDigits_le_iff (by decide) Nat.length_toDigits_pos).mp (Nat.le_refl _)

theorem pow_length_digits_le {n : Nat} (positive : 0 < n) : 10 ^ (digits n).length ≤ n * 10 := by
  obtain ⟨k, length⟩ := Nat.exists_eq_add_one.mpr (Nat.length_toDigits_pos (b := 10) (n := n))
  rw [digits, length, Nat.pow_succ]
  refine Nat.mul_le_mul_right 10 (Nat.not_lt.mp fun small => ?_)
  rcases Nat.eq_zero_or_pos k with rfl | some
  · rw [Nat.pow_zero] at small
    omega
  · have short := length_digits_le some small
    rw [digits, length] at short
    omega

theorem powerAbove_bounds {value : Magnitude} (positive : 0 < value.units) :
    10 ^ (powerAbove value - 1) * unitsPerOne ≤ (value.units : ℚ) ∧
      (value.units : ℚ) < 10 ^ powerAbove value * unitsPerOne := by
  have ten : (10 : ℚ) ≠ 0 := by norm_num
  have unitPositive := unitsPerOne_pos
  rw [powerAbove]
  generalize unitsPerOne = unit at unitPositive ⊢
  generalize value.units = units at positive ⊢
  split
  case isTrue large =>
    have below := lt_pow_length_digits (units / unit)
    have above := Nat.mul_le_mul_right unit (pow_length_digits_le (Nat.div_pos large unitPositive))
    have whole := Nat.div_mul_le_self units unit
    rw [Nat.div_lt_iff_lt_mul unitPositive] at below
    rw [Nat.mul_right_comm] at above
    generalize (digits (units / unit)).length = length at below above ⊢
    constructor
    · rw [zpow_sub₀ ten, zpow_natCast, zpow_one, div_mul_eq_mul_div, div_le_iff₀ (by norm_num)]
      exact_mod_cast above.trans (Nat.mul_le_mul_right 10 whole)
    · rw [zpow_natCast]
      exact_mod_cast below
  case isFalse small =>
    have below := lt_pow_length_digits ((unit - 1) / units)
    have quotient : 0 < (unit - 1) / units := Nat.div_pos (by omega) positive
    have above := Nat.mul_le_mul_right units (pow_length_digits_le quotient)
    have whole := Nat.div_mul_le_self (unit - 1) units
    rw [Nat.div_lt_iff_lt_mul positive, Nat.mul_comm] at below
    rw [Nat.mul_right_comm, Nat.mul_comm] at above
    generalize (digits ((unit - 1) / units)).length = length at below above ⊢
    constructor
    · have reached : unit ≤ units * 10 ^ length := by omega
      rw [sub_sub_cancel_left, zpow_neg, zpow_natCast, ← div_eq_inv_mul, div_le_iff₀ (by positivity)]
      exact_mod_cast reached
    · have passed : units * 10 ^ length < 10 * unit := by omega
      rw [zpow_sub₀ ten, zpow_natCast, zpow_one, div_mul_eq_mul_div, lt_div_iff₀ (by positivity)]
      exact_mod_cast passed

/-- The value in grid steps. -/
theorem gridFraction_eq (value : Magnitude) (g : Int) :
    ((gridFraction value g).1 : ℚ) / (gridFraction value g).2 =
      value.units / (10 ^ g * unitsPerOne) := by
  rw [gridFraction, ten_zpow_eq]
  generalize unitsPerOne = unit
  push_cast
  field_simp

theorem gridFraction_pos (value : Magnitude) (g : Int) : 0 < (gridFraction value g).2 :=
  Nat.mul_pos unitsPerOne_pos (Nat.pow_pos (by decide))

theorem step_pos (g : Int) : (0 : ℚ) < 10 ^ g * unitsPerOne :=
  mul_pos (zpow_pos (by norm_num) g) (Nat.cast_pos.mpr unitsPerOne_pos)

/-- A fraction lies between a whole number and the next one. -/
theorem div_bounds (num : Nat) {den : Nat} (positive : 0 < den) :
    ((num / den : Nat) : ℚ) ≤ num / den ∧ (num / den : ℚ) < (num / den + 1 : Nat) := by
  refine ⟨Nat.cast_div_le, ?_⟩
  rw [div_lt_iff₀ (Nat.cast_pos.mpr positive)]
  exact_mod_cast Nat.lt_mul_of_div_lt (Nat.lt_succ_self _) positive

/-- A whole number or the next one is within half of a fraction. -/
theorem abs_div_sub_le_half (num : Nat) {den : Nat} (positive : 0 < den) :
    |((num / den : Nat) : ℚ) - num / den| ≤ 1 / 2 ∨
      |((num / den + 1 : Nat) : ℚ) - num / den| ≤ 1 / 2 := by
  obtain ⟨lower, upper⟩ := div_bounds num positive
  rw [Nat.cast_add_one] at upper ⊢
  rw [abs_le, abs_le]
  by_cases nearer : (num / den : ℚ) ≤ ((num / den : Nat) : ℚ) + 1 / 2
  · left
    constructor <;> linarith
  · right
    constructor <;> linarith

/-- On a grid with steps of at most one part in 10^16 of the value, a neighbour reads back. -/
theorem readsBack_of_fine {value : Magnitude} {g : Int} {n : Nat}
    (fine : 10000000000000000 * (10 ^ g * unitsPerOne) ≤ (value.units : ℚ))
    (near : |(n : ℚ) - (gridFraction value g).1 / (gridFraction value g).2| ≤ 1 / 2) :
    (Decimal.mk n g).ReadsBack value := by
  have step := step_pos g
  refine readsBack_of_near ?_
  rw [gridFraction_eq] at near
  rw [toRat, mul_assoc]
  generalize (10 : ℚ) ^ g * unitsPerOne = unit at step fine near ⊢
  generalize (value.units : ℚ) = units at fine near ⊢
  have scaled : (n : ℚ) * unit - units = (n - units / unit) * unit := by field_simp
  rw [scaled, abs_mul, abs_of_pos step]
  have := mul_le_mul_of_nonneg_right near step.le
  linarith

theorem of_neighbour? {tie : Tie} {value : Magnitude} {g : Int} {d : Decimal}
    (found : neighbour? tie value g = some d) :
    d.ReadsBack value ∧ d.exponent = g ∧
      d.coefficient ≤ (gridFraction value g).1 / (gridFraction value g).2 + 1 := by
  unfold neighbour? at found
  dsimp only at found
  split_ifs at found with lower upper
  all_goals cases found
  · exact ⟨upper, rfl, Nat.le_refl _⟩
  · exact ⟨lower, rfl, Nat.le_succ _⟩
  · exact ⟨lower, rfl, Nat.le_succ _⟩
  · exact ⟨‹_›, rfl, Nat.le_refl _⟩

theorem isSome_neighbour? (tie : Tie) {value : Magnitude} {g : Int}
    (either : (Decimal.mk ((gridFraction value g).1 / (gridFraction value g).2) g).ReadsBack value ∨
      (Decimal.mk ((gridFraction value g).1 / (gridFraction value g).2 + 1) g).ReadsBack value) :
    (neighbour? tie value g).isSome = true := by
  unfold neighbour?
  dsimp only
  split_ifs with lower upper
  · rfl
  · rfl
  · rfl
  · rfl
  · exact absurd either (not_or.mpr ⟨lower, ‹_›⟩)

/-- Seventeen digits are enough. -/
theorem isSome_neighbour?_seventeen (tie : Tie) {value : Magnitude} (positive : 0 < value.units) :
    (neighbour? tie value (powerAbove value - 17)).isSome = true := by
  have fine : 10000000000000000 * (10 ^ (powerAbove value - 17) * unitsPerOne) ≤
      (value.units : ℚ) := by
    have reached := (powerAbove_bounds positive).1
    have exponents : powerAbove value - 1 = 16 + (powerAbove value - 17) := by ring
    rw [exponents, zpow_add₀ (by norm_num), mul_assoc] at reached
    exact_mod_cast reached
  refine isSome_neighbour? tie ?_
  rcases abs_div_sub_le_half (gridFraction value _).1 (gridFraction_pos value _) with near | near
  · exact .inl (readsBack_of_fine fine near)
  · exact .inr (readsBack_of_fine fine near)

/-- What is found along a range is found at the first place where something is. -/
theorem exists_first_of_findSome? {α : Type} {f : Nat → Option α} {n : Nat} {a : α}
    (found : (List.range n).findSome? f = some a) :
    ∃ k < n, f k = some a ∧ ∀ j < k, f j = none := by
  induction n with
  | zero => cases found
  | succ n ih =>
    rw [List.range_succ, List.findSome?_append] at found
    cases before : (List.range n).findSome? f with
    | some b =>
      rw [before, Option.some_or] at found
      obtain ⟨k, small, here, first⟩ := ih (before.trans found)
      exact ⟨k, Nat.lt_succ_of_lt small, here, first⟩
    | none =>
      rw [before, Option.none_or, List.findSome?_singleton] at found
      refine ⟨n, Nat.lt_succ_self n, found, fun j small => ?_⟩
      exact List.findSome?_eq_none_iff.mp before j (List.mem_range.mpr small)

theorem exists_found (tie : Tie) {value : Magnitude} (positive : 0 < value.units) :
    ∃ n d, n < maxDigits ∧ neighbour? tie value (powerAbove value - (n + 1 : Nat)) = some d ∧
      (∀ k < n, neighbour? tie value (powerAbove value - (k + 1 : Nat)) = none) ∧
      shortest tie value = canonical d.coefficient d.exponent := by
  have some : ((List.range maxDigits).findSome? fun n =>
      neighbour? tie value (powerAbove value - (n + 1 : Nat))).isSome = true := by
    refine List.findSome?_isSome_iff.mpr ⟨16, List.mem_range.mpr (by decide), ?_⟩
    exact isSome_neighbour?_seventeen tie positive
  obtain ⟨d, found⟩ := Option.isSome_iff_exists.mp some
  obtain ⟨n, small, neighbour, first⟩ := exists_first_of_findSome? found
  refine ⟨n, d, small, neighbour, first, ?_⟩
  rw [shortest, found, Option.elim_some]

theorem toRat_canonical (c : Nat) (e : Int) : (canonical c e).toRat = c * 10 ^ e := by
  fun_induction canonical c e with
  | case1 e => simp [toRat]
  | case2 c e _ zero ih =>
    have whole : (c : ℚ) = (c / 10 : Nat) * 10 := by
      exact_mod_cast (Nat.div_mul_cancel (Nat.dvd_of_mod_eq_zero zero)).symm
    rw [ih, zpow_add₀ (by norm_num), zpow_one, whole]
    ring
  | case3 c e => rfl

theorem coefficient_canonical_le (c : Nat) (e : Int) : (canonical c e).coefficient ≤ c := by
  fun_induction canonical c e with
  | case1 e => exact Nat.le_refl 0
  | case2 c e _ _ ih => exact ih.trans (Nat.div_le_self c 10)
  | case3 c e => exact Nat.le_refl c

/-- Zero has one canonical decimal. -/
theorem canonical_eq_zero {c : Nat} {e : Int} (zero : (canonical c e).coefficient = 0) :
    canonical c e = ⟨0, 0⟩ := by
  fun_induction canonical c e with
  | case1 e => rfl
  | case2 c e _ _ ih => exact ih zero
  | case3 c e positive => exact absurd zero positive

/-- A canonical coefficient ends in zero only if it is zero. -/
theorem coefficient_canonical_mod (c : Nat) (e : Int) :
    (canonical c e).coefficient = 0 ∨ (canonical c e).coefficient % 10 ≠ 0 := by
  fun_induction canonical c e with
  | case1 e => exact .inl rfl
  | case2 c e _ _ ih => exact ih
  | case3 c e _ last => exact .inr last

theorem le_exponent_canonical {c : Nat} (e : Int) (positive : 0 < c) :
    e ≤ (canonical c e).exponent := by
  fun_induction canonical c e with
  | case1 e => exact absurd positive (Nat.lt_irrefl 0)
  | case2 c e _ zero ih =>
    have := ih (by omega)
    omega
  | case3 c e => exact Int.le_refl e

theorem shortest_zero (tie : Tie) : shortest tie Magnitude.zero = ⟨0, 0⟩ := by
  cases tie <;> decide +kernel

theorem eq_zero_or_pos (value : Magnitude) : value = Magnitude.zero ∨ 0 < value.units := by
  rcases Nat.eq_zero_or_pos value.units with zero | positive
  · exact .inl (Magnitude.ext_units zero)
  · exact .inr positive

/-- The shortest decimal of a magnitude is rounded to the magnitude. -/
theorem shortest_readsBack (tie : Tie) (value : Magnitude) :
    (shortest tie value).ReadsBack value := by
  rcases eq_zero_or_pos value with rfl | positive
  · rw [shortest_zero]
    decide +kernel
  · obtain ⟨n, d, _, found, _, same⟩ := exists_found tie positive
    rw [same]
    exact (of_neighbour? found).1.congr (toRat_canonical _ _).symm

/-- The shortest decimal of zero has the exponent 0. -/
theorem exponent_shortest_of_zero {tie : Tie} {value : Magnitude}
    (zero : (shortest tie value).coefficient = 0) : (shortest tie value).exponent = 0 := by
  rcases eq_zero_or_pos value with rfl | positive
  · rw [shortest_zero]
  · obtain ⟨n, d, _, _, _, same⟩ := exists_found tie positive
    rw [same] at zero ⊢
    rw [canonical_eq_zero zero]

/-- The last digit behind the point is not zero. -/
theorem coefficient_shortest_mod {tie : Tie} {value : Magnitude}
    (part : (shortest tie value).exponent < 0) : (shortest tie value).coefficient % 10 ≠ 0 := by
  rcases eq_zero_or_pos value with rfl | positive
  · rw [shortest_zero] at part
    cases part
  · have nonzero : (shortest tie value).coefficient ≠ 0 :=
      fun zero => part.ne (exponent_shortest_of_zero zero)
    obtain ⟨n, d, _, _, _, same⟩ := exists_found tie positive
    rw [same] at nonzero ⊢
    exact (coefficient_canonical_mod d.coefficient d.exponent).resolve_left nonzero

/-- On the grid of n digits a value has at most n digits. -/
theorem gridFraction_lt {value : Magnitude} (positive : 0 < value.units) (n : Nat) :
    (gridFraction value (powerAbove value - n)).1 / (gridFraction value (powerAbove value - n)).2 <
      10 ^ n := by
  have ten : (10 : ℚ) ≠ 0 := by norm_num
  have above := (powerAbove_bounds positive).2
  have step := step_pos (powerAbove value - n)
  have floor : (((gridFraction value (powerAbove value - n)).1 /
      (gridFraction value (powerAbove value - n)).2 : Nat) : ℚ) < 10 ^ n := by
    refine Nat.cast_div_le.trans_lt ?_
    rw [gridFraction_eq, div_lt_iff₀ step, ← mul_assoc, ← zpow_natCast, ← zpow_add₀ ten,
      add_sub_cancel]
    exact above
  exact_mod_cast floor

theorem coefficient_shortest_le (tie : Tie) (value : Magnitude) :
    (shortest tie value).coefficient ≤ 10 ^ maxDigits := by
  rcases eq_zero_or_pos value with rfl | positive
  · rw [shortest_zero]
    exact Nat.zero_le _
  · obtain ⟨n, d, small, found, _, same⟩ := exists_found tie positive
    rw [same]
    calc (canonical d.coefficient d.exponent).coefficient
        ≤ d.coefficient := coefficient_canonical_le _ _
      _ ≤ (gridFraction value _).1 / (gridFraction value _).2 + 1 := (of_neighbour? found).2.2
      _ ≤ 10 ^ (n + 1) := gridFraction_lt positive (n + 1)
      _ ≤ 10 ^ maxDigits := Nat.pow_le_pow_right (by decide) small

theorem le_powerAbove (value : Magnitude) : -323 ≤ powerAbove value := by
  rw [powerAbove]
  split
  · omega
  · have reciprocal : (unitsPerOne - 1) / value.units < 10 ^ (324 : Nat) := by
      have units : unitsPerOne ≤ 10 ^ (324 : Nat) := by
        unfold unitsPerOne
        decide +kernel
      calc (unitsPerOne - 1) / value.units ≤ unitsPerOne - 1 := Nat.div_le_self _ _
        _ < unitsPerOne := Nat.sub_lt unitsPerOne_pos Nat.one_pos
        _ ≤ 10 ^ (324 : Nat) := units
    have := length_digits_le (by decide) reciprocal
    omega

theorem le_exponent_shortest (tie : Tie) (value : Magnitude) :
    -340 ≤ (shortest tie value).exponent := by
  rcases eq_zero_or_pos value with rfl | positive
  · rw [shortest_zero]
    decide
  · obtain ⟨n, d, small, found, _, same⟩ := exists_found tie positive
    have above := le_powerAbove value
    have exponent := (of_neighbour? found).2.1
    rw [same]
    rcases Nat.eq_zero_or_pos d.coefficient with zero | some
    · rw [zero, canonical, if_pos rfl]
      decide
    · have := le_exponent_canonical d.exponent some
      unfold maxDigits at small
      omega

/-- The powers of ten from 10^309 on are beyond the largest magnitude. -/
theorem two_pow_le_ten_pow {k : Nat} (large : 308 < k) : 2 ^ (1024 : Nat) ≤ 10 ^ k :=
  calc 2 ^ (1024 : Nat) ≤ 10 ^ (309 : Nat) := by decide +kernel
    _ ≤ 10 ^ k := Nat.pow_le_pow_right (by decide) large

/-- A decimal of 309 places before the point is beyond the largest magnitude. -/
theorem exponent_le_of_readsBack {d : Decimal} {value : Magnitude} (reads : d.ReadsBack value)
    (some : 0 < d.coefficient) : d.exponent ≤ 308 := by
  by_contra large
  have whole : d.denominator = 1 := by
    rw [denominator, Int.toNat_of_nonpos (by omega), Nat.pow_zero]
  have beyond : 2 ^ (1024 : Nat) ≤ d.numerator :=
    (two_pow_le_ten_pow (by omega)).trans (Nat.le_mul_of_pos_left _ some)
  have first : roundUnits (2 ^ (1024 : Nat)) 1 = limit := by
    refine Magnitude.roundUnits_of_eq Nat.one_pos Magnitude.precise_limit ?_
    rw [Magnitude.two_pow_mul_unitsPerOne, Nat.mul_one, Magnitude.two_pow_add_scale]
  rw [readsBack_iff, whole] at reads
  have le := Magnitude.roundUnits_mono Nat.one_pos Nat.one_pos (Nat.mul_le_mul_right 1 beyond)
  rw [first, reads] at le
  exact absurd value.representable.1 (Nat.not_lt.mpr le)

theorem exponent_shortest_le (tie : Tie) (value : Magnitude) :
    (shortest tie value).exponent ≤ 308 := by
  rcases Nat.eq_zero_or_pos (shortest tie value).coefficient with zero | some
  · rw [exponent_shortest_of_zero zero]
    decide
  · exact exponent_le_of_readsBack (shortest_readsBack tie value) some

end FilterQuery.Decimal
