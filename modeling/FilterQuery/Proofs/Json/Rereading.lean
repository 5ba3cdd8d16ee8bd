import FilterQuery.Proofs.Json.Floats
import FilterQuery.Proofs.Json.Scaling

/-!
Floats that are read back. The digits of a float's text are a decimal that is rounded to the float;
what is read from them is rounded from a number close to this decimal, so it is close to the float
(`Magnitude.abs_roundUnits_sub_roundUnits_le`), and never beyond the largest one
(`Decimal.exists_read?_shortest`). If the digits and the power of ten are floats, it is the float
itself (`Decimal.read?_of_plain`).
-/
namespace FilterQuery

open Magnitude (unitsPerOne unitsPerOne_pos limit roundUnits exactUnits roundoff round? topStep
  topStep_pos)

/-- Two numbers up to four roundings apart are rounded to counts of one part in 2^50 apart, or of
one unit. -/
theorem Magnitude.abs_roundUnits_sub_roundUnits_le {num den num' den' : Nat} (positive : 0 < den)
    (positive' : 0 < den')
    (close : |exactUnits num den - exactUnits num' den'| ≤
      41 / 10 * roundoff * exactUnits num' den' + 1 / 10) :
    |(roundUnits num den : ℚ) - roundUnits num' den'| ≤ 1 + roundUnits num' den' / 2 ^ 50 := by
  have error := abs_roundUnits_sub_exactUnits_le_max positive num
  have error' := abs_roundUnits_sub_exactUnits_le_max positive' num'
  have nonneg := exactUnits_nonneg num den
  have nonneg' := exactUnits_nonneg num' den'
  generalize exactUnits num den = exact at *
  generalize exactUnits num' den' = exact' at *
  generalize roundUnits num den = read at *
  generalize roundUnits num' den' = float at *
  have sum := error.trans (max_le_add_of_nonneg (by norm_num) (by positivity))
  have sum' := error'.trans (max_le_add_of_nonneg (by norm_num) (by positivity))
  have far : |(read : ℚ) - float| ≤ 111 / 100 + 64 / 10 * (float / 2 ^ 53) := by
    have path := abs_sub_le (read : ℚ) exact float
    have path' := abs_sub_le exact exact' (float : ℚ)
    rw [abs_sub_comm exact'] at path'
    have upper := sub_le_iff_le_add.mp ((le_abs_self _).trans close)
    have upper' := sub_le_iff_le_add.mp ((neg_sub (float : ℚ) exact' ▸ neg_le_abs _).trans sum')
    unfold roundoff at close upper
    linarith
  obtain ⟨distance, same⟩ : ∃ n : Int, (read : ℚ) - float = n := ⟨read - float, by push_cast; rfl⟩
  rw [same] at far ⊢
  -- The distance is a whole number, so for small floats it is at most 1.
  rcases le_or_gt (float / 2 ^ 53 : ℚ) (1 / 10) with small | large
  · have below : |(distance : ℚ)| < 2 := by linarith
    have whole : |distance| < 2 := by exact_mod_cast below
    have one : |(distance : ℚ)| ≤ 1 := by exact_mod_cast Int.lt_add_one_iff.mp whole
    exact one.trans (le_add_of_nonneg_right (by positivity))
  · linarith

namespace Decimal

open Json.Numeral (scaleByPower maxPower)

/-- The magnitude that is read from the digits and the exponent. -/
def read? (d : Decimal) : Option Magnitude := do
  scaleByPower (← round? d.coefficient 1) d.exponent

theorem float?_eq (negative : Bool) (d : Decimal) :
    Json.Numeral.float? negative d.coefficient d.exponent = d.read?.map (.float negative) := by
  unfold Json.Numeral.float? read?
  cases round? d.coefficient 1 with
  | none => rfl
  | some value =>
    simp only [Option.bind_eq_bind, Option.bind_some]
    cases scaleByPower value d.exponent <;> rfl

/-- The digits fit 64 bits, and the power of ten is reached in two steps. -/
structure Moderate (d : Decimal) : Prop where
  few : d.coefficient < 2 ^ (64 : Nat)
  least : -340 ≤ d.exponent
  most : d.exponent ≤ 308
  nonzero : d.exponent < -maxPower → 0 < d.coefficient

variable {d : Decimal} {m : Magnitude}

theorem Moderate.exists_round? (moderate : d.Moderate) :
    ∃ value, round? d.coefficient 1 = some value ∧
      Magnitude.Rounded value.units (d.coefficient * unitsPerOne) ∧
      (d.exponent < -maxPower → value ≠ Magnitude.zero) := by
  have small : d.coefficient ≤ 3 * 2 ^ (1022 : Nat) :=
    (Nat.le_of_lt moderate.few).trans (by decide +kernel)
  obtain ⟨value, known, units⟩ := Magnitude.exists_round? (Magnitude.roundUnits_lt_limit small)
  exact ⟨value, known, units ▸ Magnitude.rounded_integer d.coefficient,
    fun below => Magnitude.ne_zero_of_round? known (moderate.nonzero below)⟩

/-- The fraction that is rounded last is close to the decimal. -/
theorem Moderate.exists_near (moderate : d.Moderate) :
    ∃ num den, 0 < den ∧ d.read? = round? num den ∧
      |exactUnits num den - d.toRat * unitsPerOne| ≤
        41 / 10 * roundoff * (d.toRat * unitsPerOne) + 1 / 10 := by
  obtain ⟨value, known, rounded, nonzero⟩ := moderate.exists_round?
  obtain ⟨num, den, positive, same, close⟩ :=
    Json.Numeral.exists_fraction rounded moderate.least moderate.most nonzero
  refine ⟨num, den, positive, ?_, close⟩
  rw [read?, known, Option.bind_eq_bind, Option.bind_some, same]

/-- The fraction that is rounded last is rounded to a count close to the magnitude that the decimal
itself is rounded to. -/
theorem Moderate.exists_fraction (moderate : d.Moderate) (reads : d.ReadsBack m) :
    ∃ num den, d.read? = round? num den ∧
      |(roundUnits num den : ℚ) - m.units| ≤ 1 + m.units / 2 ^ 50 := by
  obtain ⟨num, den, positive, same, close⟩ := moderate.exists_near
  refine ⟨num, den, same, ?_⟩
  rw [← exactUnits_eq] at close
  rw [← readsBack_iff.mp reads]
  exact Magnitude.abs_roundUnits_sub_roundUnits_le positive d.denominator_pos close

theorem Moderate.abs_sub_le (moderate : d.Moderate) (reads : d.ReadsBack m) {read : Magnitude}
    (found : d.read? = some read) : |(read.units : ℚ) - m.units| ≤ 1 + m.units / 2 ^ 50 := by
  obtain ⟨num, den, same, close⟩ := moderate.exists_fraction reads
  rw [same, Magnitude.round?_eq_some] at found
  rwa [found] at close

/-- A decimal with places behind the point is far below the largest magnitudes. -/
theorem Moderate.whole_of_large (moderate : d.Moderate) (reads : d.ReadsBack m)
    (large : limit ≤ 2 * m.units) : 0 ≤ d.exponent := by
  by_contra part
  have bound : 2 ^ (64 : Nat) ≤ 2 ^ (53 : Nat) * 2 ^ (11 : Nat) := by decide
  have numerator : d.numerator = d.coefficient := by
    rw [Decimal.numerator, Int.toNat_of_nonpos (by omega), Nat.pow_zero, Nat.mul_one]
  have fixed : roundUnits (2 ^ (64 : Nat)) 1 = 2 ^ (64 + Magnitude.scale) := by
    refine Magnitude.roundUnits_of_eq Nat.one_pos (Magnitude.precise_two_pow _) ?_
    rw [Magnitude.two_pow_mul_unitsPerOne, Nat.mul_one]
  have le : roundUnits d.numerator d.denominator ≤ 2 ^ (64 + Magnitude.scale) := by
    rw [← fixed]
    refine Magnitude.roundUnits_mono d.denominator_pos Nat.one_pos ?_
    rw [numerator, Nat.mul_one]
    exact (Nat.le_of_lt moderate.few).trans (Nat.le_mul_of_pos_right _ d.denominator_pos)
  have twice : 2 * 2 ^ (64 + Magnitude.scale) < limit := by
    rw [Nat.mul_comm, ← Nat.pow_succ]
    exact Magnitude.two_pow_lt_limit (by decide)
  rw [readsBack_iff.mp reads] at le
  omega

/-- Three steps below 2^1024 a decimal is not refused. -/
theorem Moderate.isSome_read? (moderate : d.Moderate) (reads : d.ReadsBack m)
    (below : m.units + 3 * topStep ≤ limit) : d.read?.isSome = true := by
  rcases Nat.lt_or_ge (2 * m.units) limit with small | large
  · obtain ⟨num, den, same, close⟩ := moderate.exists_fraction reads
    rw [same, round?, dif_pos]
    · rfl
    · have far : 4 ≤ limit := by
        have : 2 ^ (2 : Nat) ≤ limit := Magnitude.two_pow_le_limit (by decide)
        exact this
      have upper := (le_abs_self _).trans close
      have small' : (2 * m.units : ℚ) < limit := by exact_mod_cast small
      have far' : (4 : ℚ) ≤ limit := by exact_mod_cast far
      have inside : (roundUnits num den : ℚ) < limit := by linarith
      exact_mod_cast inside
  · obtain ⟨value, known, rounded, _⟩ := moderate.exists_round?
    obtain ⟨k, whole⟩ := Int.eq_ofNat_of_zero_le (moderate.whole_of_large reads large)
    have small : k ≤ maxPower := by
      have most := moderate.most
      unfold maxPower
      omega
    rw [read?, known, Option.bind_eq_bind, Option.bind_some, whole]
    refine Json.Numeral.isSome_scaleByPower rounded small ?_
    have rounds := readsBack_iff.mp reads
    have near := Magnitude.exactUnits_le_of_roundUnits d.denominator_pos (rounds ▸ large)
      (rounds ▸ by omega)
    have below' : (m.units + 3 * topStep : ℚ) ≤ limit := by exact_mod_cast below
    rw [exactUnits_eq, rounds, toRat, whole, zpow_natCast] at near
    linarith

theorem toRat_asRead (d : Decimal) : d.asRead.toRat = d.toRat := by
  rw [asRead]
  split
  case isTrue written =>
    obtain ⟨k, whole⟩ := Int.eq_ofNat_of_zero_le written.2
    rw [toRat, toRat, whole, Int.toNat_natCast, zpow_natCast, zpow_neg_one, Nat.cast_mul,
      Nat.cast_pow, pow_succ]
    push_cast
    field_simp
  case isFalse => rfl

theorem readsBack_asRead (m : Magnitude) : (shortest .even m).asRead.ReadsBack m :=
  (shortest_readsBack .even m).congr (toRat_asRead _).symm

theorem moderate_asRead (m : Magnitude) : (shortest .even m).asRead.Moderate := by
  have digits : 10 ^ maxDigits < 2 ^ (64 : Nat) := by decide
  rw [asRead]
  split
  case isTrue written =>
    have tenth : ¬ (-1 : Int) < -maxPower := by decide
    have least : (-340 : Int) ≤ -1 := by decide
    have most : (-1 : Int) ≤ 308 := by decide
    exact ⟨Json.Numeral.tenths_lt written, least, most, fun below => absurd below tenth⟩
  case isFalse =>
    refine ⟨Nat.lt_of_le_of_lt (coefficient_shortest_le .even m) digits,
      le_exponent_shortest .even m, exponent_shortest_le .even m, fun below => ?_⟩
    refine Nat.pos_of_ne_zero fun zero => ?_
    rw [exponent_shortest_of_zero zero] at below
    exact absurd below (by decide)

/-- The two largest magnitudes are not refused. -/
theorem isSome_read?_largest : ∀ n : Fin 2,
    ∀ representable : Magnitude.Representable ((2 ^ (53 : Nat) - (n + 1)) * topStep),
      (shortest .even ⟨_, representable⟩).asRead.read?.isSome = true := by
  decide +kernel

theorem isSome_read?_of_large (large : ¬ m.units + 3 * topStep ≤ limit) :
    (shortest .even m).asRead.read?.isSome = true := by
  have step := topStep_pos
  have bounded := m.representable.1
  rw [Magnitude.limit_eq] at large bounded
  obtain ⟨n, multiple⟩ := Magnitude.exists_mul_topStep m.precise_units
    (by rw [Magnitude.limit_eq]; omega)
  rw [multiple] at large bounded
  have few : n < 2 ^ (53 : Nat) := Nat.lt_of_mul_lt_mul_right bounded
  have many : 2 ^ (53 : Nat) < n + 3 := by
    rw [← Nat.add_mul] at large
    exact Nat.lt_of_mul_lt_mul_right (Nat.not_le.mp large)
  have same : m.units = (2 ^ (53 : Nat) - (2 ^ (53 : Nat) - 1 - n + 1)) * topStep := by
    rw [multiple]
    congr 1
    omega
  have whole : m = ⟨_, same ▸ m.representable⟩ := Magnitude.ext_units same
  rw [whole]
  exact isSome_read?_largest ⟨2 ^ (53 : Nat) - 1 - n, by omega⟩ _

/-- The text of a float is never refused. -/
theorem exists_read?_shortest (m : Magnitude) :
    ∃ read, (shortest .even m).asRead.read? = some read ∧
      |(read.units : ℚ) - m.units| ≤ 1 + m.units / 2 ^ 50 := by
  have moderate := moderate_asRead m
  have reads := readsBack_asRead m
  have some : (shortest .even m).asRead.read?.isSome = true := by
    by_cases below : m.units + 3 * topStep ≤ limit
    · exact moderate.isSome_read? reads below
    · exact isSome_read?_of_large below
  obtain ⟨read, found⟩ := Option.isSome_iff_exists.mp some
  exact ⟨read, found, moderate.abs_sub_le reads found⟩

/-- Both the digits and the power of ten are floats. -/
def Plain (d : Decimal) : Prop := d.coefficient ≤ 2 ^ (53 : Nat) ∧ d.exponent.natAbs ≤ 22

instance (d : Decimal) : Decidable d.Plain := inferInstanceAs (Decidable (_ ∧ _))

theorem read?_of_plain (plain : d.Plain) (reads : d.ReadsBack m) : d.read? = some m := by
  obtain ⟨few, small⟩ := plain
  have inside : d.coefficient ≤ 3 * 2 ^ (1022 : Nat) := few.trans (by decide +kernel)
  obtain ⟨value, known, units⟩ := Magnitude.exists_round? (Magnitude.roundUnits_lt_limit inside)
  rw [Magnitude.roundUnits_of_eq Nat.one_pos (Magnitude.precise_mul_unitsPerOne few)
    (Nat.mul_one _).symm] at units
  obtain ⟨num, den, positive, same, exact⟩ := Json.Numeral.exists_fraction_eq units small
  rw [read?, known, Option.bind_eq_bind, Option.bind_some, same, Magnitude.round?_eq_some,
    ← readsBack_iff.mp reads]
  refine Magnitude.roundUnits_of_exactUnits_eq positive d.denominator_pos ?_
  rw [exact, exactUnits_eq, toRat]

end Decimal

end FilterQuery
