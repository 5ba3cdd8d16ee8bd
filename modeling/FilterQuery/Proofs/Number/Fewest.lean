import FilterQuery.Proofs.Number.Shortest

/-!
No decimal with fewer digits. The decimals that are rounded to a magnitude lie around it without a
gap (`ReadsBack.of_between`), so if one with n digits is, a neighbour of the magnitude on the grid of
n digits is as well. The search goes through the grids in order, so no decimal that is rounded to
the magnitude has fewer significant digits than the one it finds (`hasDigits_shortest`).
-/
namespace FilterQuery.Decimal

open Magnitude (unitsPerOne unitsPerOne_pos roundUnits exactUnits)

/-- The number is a decimal with at most so many significant digits. -/
def HasDigits (n : Nat) (q : ℚ) : Prop := ∃ d : Decimal, d.coefficient < 10 ^ n ∧ d.toRat = q

theorem HasDigits.mono {n k : Nat} {q : ℚ} (digits : HasDigits n q) (le : n ≤ k) :
    HasDigits k q := by
  obtain ⟨d, few, same⟩ := digits
  exact ⟨d, Nat.lt_of_lt_of_le few (Nat.pow_le_pow_right (by decide) le), same⟩

theorem toRat_mk (c : Nat) (e : Int) : (mk c e).toRat = c * 10 ^ e := rfl

/-- A power of ten has one significant digit, so it is not longer than the numbers below it. -/
theorem hasDigits_of_le {d : Decimal} {n : Nat} (some : 0 < n) (few : d.coefficient ≤ 10 ^ n) :
    HasDigits n d.toRat := by
  rcases Nat.lt_or_eq_of_le few with below | same
  · exact ⟨d, below, rfl⟩
  · refine ⟨⟨1, n + d.exponent⟩, Nat.one_lt_pow some.ne' (by decide), ?_⟩
    rw [toRat, toRat_mk, same, zpow_add₀ (by norm_num), zpow_natCast]
    push_cast
    ring

variable {value : Magnitude} {d d' : Decimal}

/-- What lies between a decimal that reads back and the magnitude reads back. -/
theorem ReadsBack.of_between (reads : d.ReadsBack value)
    (between : d.toRat * unitsPerOne ≤ d'.toRat * unitsPerOne ∧
        d'.toRat * unitsPerOne ≤ value.units ∨
      (value.units : ℚ) ≤ d'.toRat * unitsPerOne ∧
        d'.toRat * unitsPerOne ≤ d.toRat * unitsPerOne) : d'.ReadsBack value := by
  have unit := unitsPerOne_pos
  rw [← Magnitude.exactUnits_units value, ← exactUnits_eq, ← exactUnits_eq] at between
  rw [readsBack_iff] at reads ⊢
  rcases between with ⟨lower, upper⟩ | ⟨lower, upper⟩
  · have above := Magnitude.roundUnits_le_of_exactUnits_le d.denominator_pos d'.denominator_pos lower
    have below := Magnitude.roundUnits_le_of_exactUnits_le d'.denominator_pos unit upper
    rw [reads] at above
    rw [Magnitude.roundUnits_units] at below
    exact Nat.le_antisymm below above
  · have above := Magnitude.roundUnits_le_of_exactUnits_le unit d'.denominator_pos lower
    have below := Magnitude.roundUnits_le_of_exactUnits_le d'.denominator_pos d.denominator_pos upper
    rw [Magnitude.roundUnits_units] at above
    rw [reads] at below
    exact Nat.le_antisymm below above

/-- Only zero is written without digits. -/
theorem ReadsBack.coefficient_pos (reads : d.ReadsBack value) (positive : 0 < value.units) :
    0 < d.coefficient := by
  refine Nat.pos_of_ne_zero fun zero => ?_
  have none : d.numerator = 0 := by rw [numerator, zero, Nat.zero_mul]
  have rounded : roundUnits 0 d.denominator = 0 :=
    Magnitude.roundUnits_of_eq d.denominator_pos Magnitude.precise_zero (by rw [Nat.zero_mul, Nat.zero_mul])
  rw [readsBack_iff, none, rounded] at reads
  omega

/-- On a grid more steps are a larger number. -/
theorem toRat_mk_le {a b : Nat} (le : a ≤ b) (g : Int) :
    (mk a g).toRat * unitsPerOne ≤ (mk b g).toRat * unitsPerOne := by
  rw [toRat_mk, toRat_mk, mul_assoc, mul_assoc]
  exact mul_le_mul_of_nonneg_right (Nat.cast_le.mpr le) (step_pos g).le

/-- The value lies between its neighbours. -/
theorem neighbours_around (value : Magnitude) (g : Int) :
    (mk ((gridFraction value g).1 / (gridFraction value g).2) g).toRat * unitsPerOne ≤ value.units ∧
      (value.units : ℚ) ≤
        (mk ((gridFraction value g).1 / (gridFraction value g).2 + 1) g).toRat * unitsPerOne := by
  obtain ⟨lower, upper⟩ := div_bounds (gridFraction value g).1 (gridFraction_pos value g)
  rw [gridFraction_eq] at lower upper
  rw [toRat_mk, toRat_mk, mul_assoc, mul_assoc]
  exact ⟨(le_div_iff₀ (step_pos g)).mp lower, (div_le_iff₀ (step_pos g)).mp upper.le⟩

/-- If some number of the grid reads back, a neighbour of the value does. -/
theorem isSome_neighbour?_of_readsBack (tie : Tie) {g : Int} {n : Nat}
    (reads : (mk n g).ReadsBack value) : (neighbour? tie value g).isSome = true := by
  obtain ⟨lower, upper⟩ := neighbours_around value g
  refine isSome_neighbour? tie ?_
  rcases Nat.lt_or_ge ((gridFraction value g).1 / (gridFraction value g).2) n with above | below
  · exact .inr (reads.of_between (.inr ⟨upper, toRat_mk_le above g⟩))
  · exact .inl (reads.of_between (.inl ⟨toRat_mk_le below g, lower⟩))

/-- If a decimal with n digits reads back, some number on the grid of n digits does. -/
theorem exists_on_grid {n : Nat} (positive : 0 < value.units) (few : d.coefficient < 10 ^ n)
    (reads : d.ReadsBack value) : ∃ j, (mk j (powerAbove value - n)).ReadsBack value := by
  have ten : (1 : ℚ) < 10 := by norm_num
  have unit : (0 : ℚ) < unitsPerOne := Nat.cast_pos.mpr unitsPerOne_pos
  have digits := reads.coefficient_pos positive
  have some : n ≠ 0 := by
    rintro rfl
    rw [Nat.pow_zero] at few
    omega
  rcases Int.lt_or_le d.exponent (powerAbove value - n) with fine | coarse
  · -- The decimal lies below the largest power of ten that is not above the value.
    refine ⟨10 ^ (n - 1), reads.of_between (.inl ?_)⟩
    have power : (mk (10 ^ (n - 1)) (powerAbove value - n)).toRat = 10 ^ (powerAbove value - 1) := by
      rw [toRat_mk, Nat.cast_pow, Nat.cast_ofNat, ← zpow_natCast, ← zpow_add₀ (by norm_num)]
      congr 1
      omega
    rw [power]
    refine ⟨mul_le_mul_of_nonneg_right ?_ unit.le, (powerAbove_bounds positive).1⟩
    calc d.toRat ≤ 10 ^ n * 10 ^ d.exponent :=
          mul_le_mul_of_nonneg_right (by exact_mod_cast few.le) (zpow_pos (by norm_num) _).le
      _ = 10 ^ (n + d.exponent) := by rw [zpow_add₀ (by norm_num), zpow_natCast]
      _ ≤ 10 ^ (powerAbove value - 1) := zpow_le_zpow_right₀ ten.le (by omega)
  · refine ⟨d.coefficient * 10 ^ (d.exponent - (powerAbove value - n)).toNat, reads.congr ?_⟩
    rw [toRat, toRat_mk, Nat.cast_mul, Nat.cast_pow, Nat.cast_ofNat, mul_assoc, ← zpow_natCast,
      ← zpow_add₀ (by norm_num), Int.toNat_of_nonneg (by omega), sub_add_cancel]

/-- Of the decimals that are rounded to a magnitude, none has fewer digits than the shortest one. -/
theorem hasDigits_shortest (tie : Tie) {n : Nat} (few : d.coefficient < 10 ^ n)
    (reads : d.ReadsBack value) : HasDigits n (shortest tie value).toRat := by
  rcases eq_zero_or_pos value with rfl | positive
  · rw [shortest_zero]
    exact ⟨_, Nat.pow_pos (by decide), rfl⟩
  · obtain ⟨k, found, small, neighbour, first, same⟩ := exists_found tie positive
    have most := (of_neighbour? neighbour).2.2.trans (gridFraction_lt positive (k + 1))
    have digits : HasDigits (k + 1) (shortest tie value).toRat := by
      rw [same, toRat_canonical]
      exact hasDigits_of_le (Nat.succ_pos k) most
    refine digits.mono (Nat.succ_le_of_lt (Nat.lt_of_not_le fun early => ?_))
    -- Otherwise the search would have ended on the grid of n digits.
    obtain ⟨j, multiple⟩ := exists_on_grid positive few reads
    have ended := isSome_neighbour?_of_readsBack tie multiple
    cases n with
    | zero => exact absurd (reads.coefficient_pos positive) (by omega)
    | succ n =>
      rw [first n early] at ended
      cases ended

/-- Seventeen digits are always enough. -/
theorem hasDigits_seventeen (tie : Tie) (value : Magnitude) :
    HasDigits maxDigits (shortest tie value).toRat :=
  hasDigits_of_le (by decide) (coefficient_shortest_le tie value)

end FilterQuery.Decimal
