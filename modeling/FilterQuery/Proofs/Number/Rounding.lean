import Mathlib.Algebra.Order.Field.Rat
import Mathlib.Data.Nat.Cast.Order.Field
import Mathlib.Tactic.FieldSimp
import Mathlib.Tactic.Linarith
import Mathlib.Tactic.Positivity
import Mathlib.Tactic.Ring
import FilterQuery.Number.Magnitude

/-!
What rounding does. Among all counts of units with at most 53 significant bits, rounding picks one
that is nearest to the fraction (`abs_roundUnits_sub_exactUnits_le`), so it leaves such a count
alone, respects the order of fractions, and is off by at most one part in 2^53, or by half a unit
where the magnitudes are a unit apart.
-/
namespace FilterQuery.Magnitude

/-- The count has no set bit under its leading 53. -/
def Precise (units : Nat) : Prop := 2 ^ spareBits units ∣ units

/-- The fraction as an exact count of units. -/
def exactUnits (num den : Nat) : ℚ := num * unitsPerOne / den

theorem two_pow_mul_unitsPerOne (k : Nat) : 2 ^ k * unitsPerOne = 2 ^ (k + scale) := by
  unfold unitsPerOne
  rw [Nat.pow_add]

theorem two_pow_add_scale : 2 ^ (1024 + scale) = limit := by
  have bits : 1024 + scale = width := by decide
  unfold limit
  rw [bits]

theorem two_pow_lt_limit {k : Nat} (small : k < width) : 2 ^ k < limit := by
  unfold limit
  exact Nat.pow_lt_pow_right Nat.one_lt_two small

theorem exactUnits_nonneg (num den : Nat) : 0 ≤ exactUnits num den := by
  unfold exactUnits
  positivity

theorem precise_zero : Precise 0 := Nat.dvd_zero _

theorem precise_mul_two_pow {m : Nat} (significand : m ≤ 2 ^ (53 : Nat)) (s : Nat) :
    Precise (m * 2 ^ s) := two_pow_spareBits_dvd significand

theorem precise_two_pow (k : Nat) : Precise (2 ^ k) := by
  have := precise_mul_two_pow (Nat.one_le_two_pow (n := 53)) k
  rwa [Nat.one_mul] at this

theorem precise_mul_unitsPerOne {m : Nat} (significand : m ≤ 2 ^ (53 : Nat)) :
    Precise (m * unitsPerOne) := by
  unfold unitsPerOne
  exact precise_mul_two_pow significand scale

theorem precise_limit : Precise limit := by
  unfold limit
  exact precise_two_pow width

theorem precise_units (value : Magnitude) : Precise value.units := value.representable.2

theorem precise_roundUnits (num den : Nat) : Precise (roundUnits num den) :=
  precise_mul_two_pow (roundQuotient_le_two_pow _ den) _

/-- A count with spare bits reaches the power of two where they start to be spare. -/
theorem two_pow_le_of_spareBits_pos {m : Nat} (spare : 0 < spareBits m) :
    2 ^ (52 + spareBits m) ≤ m := by
  have leading : 52 + spareBits m = m.log2 := by
    unfold spareBits at spare ⊢
    omega
  rw [leading]
  refine Nat.log2_self_le fun zero => ?_
  rw [zero] at spare
  exact absurd spare (by decide)

/-- From the leading bit on which 53 bits reach down to `2 ^ k`, precise counts are multiples of it.
-/
theorem dvd_of_precise {m k : Nat} (precise : Precise m) (large : 2 ^ (52 + k) ≤ m) : 2 ^ k ∣ m := by
  refine Nat.dvd_trans (Nat.pow_dvd_pow 2 ?_) precise
  have : m ≠ 0 := fun zero => absurd (zero ▸ large) (Nat.not_le.mpr (Nat.two_pow_pos _))
  have := (Nat.le_log2 this).mpr large
  unfold spareBits
  omega

/-- The quotient is rounded down if the remainder is at most half the divisor, and up if it is at
least half. -/
theorem roundQuotient_cases (num den : Nat) :
    roundQuotient num den = num / den ∧ 2 * (num % den) ≤ den ∨
      roundQuotient num den = num / den + 1 ∧ den ≤ 2 * (num % den) := by
  unfold roundQuotient
  dsimp only
  split
  case isTrue below => exact .inl ⟨rfl, Nat.le_of_lt below⟩
  case isFalse notBelow =>
    split
    case isTrue above => exact .inr ⟨rfl, Nat.le_of_lt above⟩
    case isFalse notAbove =>
      obtain even | odd := Nat.mod_two_eq_zero_or_one (num / den)
      · exact .inl ⟨by rw [even, Nat.add_zero], Nat.not_lt.mp notAbove⟩
      · exact .inr ⟨by rw [odd], Nat.not_lt.mp notBelow⟩

/-- No whole number is nearer to the quotient. -/
theorem abs_roundQuotient_sub_le {den : Nat} (positive : 0 < den) (num j : Nat) :
    |((roundQuotient num den * den : Nat) - num : Int)| ≤ |((j * den : Nat) - num : Int)| := by
  have division : num / den * den + num % den = num := Nat.div_add_mod' num den
  have remainder : num % den < den := Nat.mod_lt num positive
  have next : (num / den + 1) * den = num / den * den + den := by ring
  -- The other number is at most the quotient, or at least the next number.
  have multiples : j * den ≤ num / den * den ∨ num / den * den + den ≤ j * den := by
    rcases Nat.lt_or_ge (num / den) j with above | below
    · exact .inr (next ▸ Nat.mul_le_mul_right den above)
    · exact .inl (Nat.mul_le_mul_right den below)
  rw [Int.abs_eq_natAbs, Int.abs_eq_natAbs]
  rcases roundQuotient_cases num den with ⟨rounded, half⟩ | ⟨rounded, half⟩
  · rw [rounded]
    omega
  · rw [rounded, next]
    omega

/-- The nearest whole number is at most half a step away. -/
theorem two_mul_abs_roundQuotient_sub_le {den : Nat} (positive : 0 < den) (num : Nat) :
    2 * |((roundQuotient num den * den : Nat) - num : Int)| ≤ den := by
  have division : num / den * den + num % den = num := Nat.div_add_mod' num den
  have remainder : num % den < den := Nat.mod_lt num positive
  have next : (num / den + 1) * den = num / den * den + den := by ring
  rw [Int.abs_eq_natAbs]
  rcases roundQuotient_cases num den with ⟨rounded, half⟩ | ⟨rounded, half⟩
  · rw [rounded]
    omega
  · rw [rounded, next]
    omega

/-- A precise count that is no multiple of the step lies below the power of two where the step
starts, and this power lies between it and the fraction. -/
theorem between_of_not_dvd {scaled den m k : Nat} (positive : 0 < den) (precise : Precise m)
    (spare : spareBits (scaled / den) = k) (multiple : ¬ 2 ^ k ∣ m) :
    m * den < 2 ^ (52 + k) * den ∧ 2 ^ (52 + k) * den ≤ scaled := by
  have below : m < 2 ^ (52 + k) := Nat.not_le.mp fun large => multiple (dvd_of_precise precise large)
  have positiveSpare : 0 < k := by
    refine Nat.pos_of_ne_zero fun zero => multiple ?_
    rw [zero]
    exact Nat.one_dvd m
  refine ⟨Nat.mul_lt_mul_of_pos_right below positive, ?_⟩
  rw [← Nat.le_div_iff_mul_le positive]
  rw [← spare] at positiveSpare ⊢
  exact two_pow_le_of_spareBits_pos positiveSpare

/-- Of the precise counts, none is nearer to the fraction. -/
theorem abs_roundUnits_mul_sub_le {den m : Nat} (positive : 0 < den) (num : Nat)
    (precise : Precise m) :
    |((roundUnits num den * den : Nat) - (num * unitsPerOne : Nat) : Int)| ≤
      |((m * den : Nat) - (num * unitsPerOne : Nat) : Int)| := by
  unfold roundUnits
  dsimp only
  generalize num * unitsPerOne = scaled
  obtain ⟨k, spare⟩ : ∃ k, spareBits (scaled / den) = k := ⟨_, rfl⟩
  rw [spare]
  have step : 0 < den * 2 ^ k := Nat.mul_pos positive (Nat.two_pow_pos k)
  have regroup (j : Nat) : j * 2 ^ k * den = j * (den * 2 ^ k) := by ring
  rw [regroup]
  by_cases multiple : 2 ^ k ∣ m
  · obtain ⟨j, rfl⟩ := multiple
    rw [Nat.mul_comm (2 ^ k), regroup]
    exact abs_roundQuotient_sub_le step scaled j
  · obtain ⟨between, reached⟩ := between_of_not_dvd positive precise spare multiple
    have nearest := abs_roundQuotient_sub_le step scaled (2 ^ (52 : Nat))
    rw [← regroup (2 ^ (52 : Nat)), ← Nat.pow_add] at nearest
    rw [Int.abs_eq_natAbs, Int.abs_eq_natAbs] at nearest ⊢
    omega

/-- The distance to the fraction, over its denominator. -/
theorem sub_exactUnits_eq {den : Nat} (positive : 0 < den) (num n : Nat) :
    (n : ℚ) - exactUnits num den =
      (((n * den : Nat) - (num * unitsPerOne : Nat) : Int) : ℚ) / den := by
  have positive' : (0 : ℚ) < den := Nat.cast_pos.mpr positive
  unfold exactUnits
  push_cast
  field_simp

theorem abs_roundUnits_sub_exactUnits_le {den m : Nat} (positive : 0 < den) (num : Nat)
    (precise : Precise m) :
    |(roundUnits num den : ℚ) - exactUnits num den| ≤ |(m : ℚ) - exactUnits num den| := by
  rw [sub_exactUnits_eq positive, sub_exactUnits_eq positive, abs_div, abs_div]
  refine div_le_div_of_nonneg_right ?_ (abs_nonneg _)
  rw [← Int.cast_abs, ← Int.cast_abs, Int.cast_le]
  exact abs_roundUnits_mul_sub_le positive num precise

/-- A precise count is left alone. -/
theorem roundUnits_of_eq {num den m : Nat} (positive : 0 < den) (precise : Precise m)
    (same : num * unitsPerOne = m * den) : roundUnits num den = m := by
  have nearest := abs_roundUnits_mul_sub_le positive num precise
  rw [same, sub_self, abs_zero] at nearest
  have zero := abs_eq_zero.mp (le_antisymm nearest (abs_nonneg _))
  rw [sub_eq_zero, Int.natCast_inj] at zero
  exact Nat.eq_of_mul_eq_mul_right positive zero

theorem round?_eq_some {num den : Nat} {value : Magnitude} :
    round? num den = some value ↔ roundUnits num den = value.units := by
  unfold round?
  split
  case isTrue small => exact Option.some_inj.trans ⟨congrArg units, fun same => ext_units same⟩
  case isFalse large =>
    refine iff_of_false (by simp) fun same => large ?_
    rw [same]
    exact value.representable.1

theorem roundUnits_units (value : Magnitude) : roundUnits value.units unitsPerOne = value.units :=
  roundUnits_of_eq unitsPerOne_pos (precise_units value) rfl

theorem exactUnits_units (value : Magnitude) : exactUnits value.units unitsPerOne = value.units := by
  rw [exactUnits, mul_div_cancel_right₀ _ (Nat.cast_ne_zero.mpr unitsPerOne_pos.ne')]

theorem roundQuotient_mul_right (num den : Nat) {c : Nat} (positive : 0 < c) :
    roundQuotient (num * c) (den * c) = roundQuotient num den := by
  have scale (a b : Nat) : 2 * (a * c) < b * c ↔ 2 * a < b := by
    rw [← Nat.mul_assoc, Nat.mul_lt_mul_right positive]
  have scale' (a b : Nat) : b * c < 2 * (a * c) ↔ b < 2 * a := by
    rw [← Nat.mul_assoc, Nat.mul_lt_mul_right positive]
  simp only [roundQuotient, Nat.mul_div_mul_right _ _ positive, Nat.mul_mod_mul_right, scale,
    scale']

theorem roundUnits_mul_right (num den : Nat) {c : Nat} (positive : 0 < c) :
    roundUnits (num * c) (den * c) = roundUnits num den := by
  unfold roundUnits
  dsimp only
  rw [Nat.mul_right_comm num c, Nat.mul_div_mul_right _ _ positive, Nat.mul_right_comm den c,
    roundQuotient_mul_right _ _ positive]

/-- Rounding depends only on the fraction, not on how it is written. -/
theorem roundUnits_congr {num den num' den' : Nat} (positive : 0 < den) (positive' : 0 < den')
    (same : num * den' = num' * den) : roundUnits num den = roundUnits num' den' := by
  rw [← roundUnits_mul_right num den positive', same, Nat.mul_comm den,
    roundUnits_mul_right num' den' positive]

theorem exactUnits_le_exactUnits {num den num' den' : Nat} (positive : 0 < den)
    (positive' : 0 < den') :
    exactUnits num den ≤ exactUnits num' den' ↔ num * den' ≤ num' * den := by
  have units : (0 : ℚ) < unitsPerOne := Nat.cast_pos.mpr unitsPerOne_pos
  unfold exactUnits
  rw [div_le_div_iff₀ (Nat.cast_pos.mpr positive) (Nat.cast_pos.mpr positive'),
    mul_right_comm, mul_right_comm (num' : ℚ), mul_le_mul_iff_left₀ units]
  exact_mod_cast Iff.rfl

theorem roundUnits_of_exactUnits_eq {num den num' den' : Nat} (positive : 0 < den)
    (positive' : 0 < den') (same : exactUnits num den = exactUnits num' den') :
    roundUnits num den = roundUnits num' den' :=
  roundUnits_congr positive positive' (le_antisymm
    ((exactUnits_le_exactUnits positive positive').mp same.le)
    ((exactUnits_le_exactUnits positive' positive).mp same.ge))

/-- Of two numbers, the upper one can only be the nearer one beyond their midpoint. -/
theorem add_le_two_mul_of_abs_sub_le {a b q : ℚ} (below : b < a) (nearer : |a - q| ≤ |b - q|) :
    a + b ≤ 2 * q := by
  have reach : a - q ≤ |b - q| := (le_abs_self _).trans nearer
  rcases abs_cases (b - q) with ⟨value, _⟩ | ⟨value, _⟩ <;> linarith

/-- Of two numbers, the lower one can only be the nearer one before their midpoint. -/
theorem two_mul_le_add_of_abs_sub_le {a b q : ℚ} (below : b < a) (nearer : |b - q| ≤ |a - q|) :
    2 * q ≤ a + b := by
  have reach : q - b ≤ |a - q| := (neg_sub b q ▸ neg_le_abs _).trans nearer
  rcases abs_cases (a - q) with ⟨value, _⟩ | ⟨value, _⟩ <;> linarith

/-- A larger fraction is not rounded to a smaller count. -/
theorem roundUnits_mono {num den num' den' : Nat} (positive : 0 < den) (positive' : 0 < den')
    (le : num * den' ≤ num' * den) : roundUnits num den ≤ roundUnits num' den' := by
  rcases Nat.lt_or_eq_of_le le with lt | same
  · have strict : exactUnits num den < exactUnits num' den' := by
      rw [← not_le, exactUnits_le_exactUnits positive' positive]
      exact Nat.not_le.mpr lt
    by_contra reversed
    have below : (roundUnits num' den' : ℚ) < roundUnits num den :=
      Nat.cast_lt.mpr (Nat.not_le.mp reversed)
    have lower := add_le_two_mul_of_abs_sub_le below
      (abs_roundUnits_sub_exactUnits_le positive num (precise_roundUnits num' den'))
    have upper := two_mul_le_add_of_abs_sub_le below
      (abs_roundUnits_sub_exactUnits_le positive' num' (precise_roundUnits num den))
    linarith
  · exact Nat.le_of_eq (roundUnits_congr positive positive' same)

theorem roundUnits_le_of_exactUnits_le {num den num' den' : Nat} (positive : 0 < den)
    (positive' : 0 < den') (le : exactUnits num den ≤ exactUnits num' den') :
    roundUnits num den ≤ roundUnits num' den' :=
  roundUnits_mono positive positive' ((exactUnits_le_exactUnits positive positive').mp le)

/-- What lies a quarter below 2^1024 is not rounded beyond the largest magnitude. -/
theorem roundUnits_lt_limit {n : Nat} (small : n ≤ 3 * 2 ^ (1022 : Nat)) :
    roundUnits n 1 < limit := by
  have fixed : roundUnits (3 * 2 ^ (1022 : Nat)) 1 = 3 * 2 ^ (1022 + scale) := by
    refine roundUnits_of_eq Nat.one_pos (precise_mul_two_pow (by decide) _) ?_
    rw [Nat.mul_one, Nat.mul_assoc, two_pow_mul_unitsPerOne]
  have quarters : limit = 4 * 2 ^ (1022 + scale) := by
    have bits : 1024 + scale = 1022 + scale + 2 := by omega
    rw [← two_pow_add_scale, bits, Nat.pow_add 2 _ 2, Nat.mul_comm]
  calc roundUnits n 1 ≤ roundUnits (3 * 2 ^ (1022 : Nat)) 1 :=
        roundUnits_mono Nat.one_pos Nat.one_pos (Nat.mul_le_mul_right 1 small)
    _ = 3 * 2 ^ (1022 + scale) := fixed
    _ < 4 * 2 ^ (1022 + scale) := Nat.mul_lt_mul_of_pos_right (by decide) (Nat.two_pow_pos _)
    _ = limit := quarters.symm

theorem exists_round? {num den : Nat} (small : roundUnits num den < limit) :
    ∃ value, round? num den = some value ∧ value.units = roundUnits num den :=
  ⟨⟨_, representable_roundUnits small⟩, round?_eq_some.mpr rfl, rfl⟩

/-- Rounding is off by at most half a unit, or by one part in 2^53. -/
theorem abs_roundUnits_sub_exactUnits_le_max {den : Nat} (positive : 0 < den) (num : Nat) :
    |(roundUnits num den : ℚ) - exactUnits num den| ≤
      max (1 / 2) (exactUnits num den / 2 ^ 53) := by
  have positive' : (0 : ℚ) < den := Nat.cast_pos.mpr positive
  obtain ⟨k, spare⟩ : ∃ k, spareBits (num * unitsPerOne / den) = k := ⟨_, rfl⟩
  have half : 2 * |(roundUnits num den : ℚ) - exactUnits num den| ≤ 2 ^ k := by
    have step : 0 < den * 2 ^ k := Nat.mul_pos positive (Nat.two_pow_pos k)
    have nearest := two_mul_abs_roundQuotient_sub_le step (num * unitsPerOne)
    have regroup : roundUnits num den * den =
        roundQuotient (num * unitsPerOne) (den * 2 ^ k) * (den * 2 ^ k) := by
      rw [roundUnits, spare]
      ring
    rw [← regroup] at nearest
    rw [sub_exactUnits_eq positive, abs_div, abs_of_pos positive', ← Int.cast_abs, ← mul_div_assoc,
      div_le_iff₀ positive']
    calc (2 * |((roundUnits num den * den : Nat) - (num * unitsPerOne : Nat) : Int)| : ℚ)
        ≤ (den * 2 ^ k : Nat) := by exact_mod_cast nearest
      _ = 2 ^ k * den := by push_cast; ring
  rcases Nat.eq_zero_or_pos k with rfl | some
  · refine le_max_of_le_left ?_
    linarith
  · refine le_max_of_le_right ?_
    have reached : (2 ^ (52 + k) : ℚ) ≤ exactUnits num den := by
      have floor := two_pow_le_of_spareBits_pos (spare ▸ some)
      rw [spare] at floor
      calc (2 ^ (52 + k) : ℚ) ≤ (num * unitsPerOne / den : Nat) := by exact_mod_cast floor
        _ ≤ (num * unitsPerOne : Nat) / (den : ℚ) := Nat.cast_div_le
        _ = exactUnits num den := by rw [exactUnits, Nat.cast_mul]
    rw [pow_add] at reached
    linarith

/-- Two different precise counts are more than one part in 10^16 apart. -/
theorem lt_mul_abs_sub_of_precise {m r : Nat} (precise : Precise m) (precise' : Precise r)
    (other : r ≠ m) : (m : Int) < 10000000000000000 * |(r : Int) - m| := by
  have bound := lt_two_pow_spareBits m
  obtain ⟨k, spare⟩ : ∃ k, spareBits m = k := ⟨_, rfl⟩
  rw [Precise, spare] at precise
  rw [spare, Nat.pow_add] at bound
  rw [Int.abs_eq_natAbs]
  by_cases multiple : 2 ^ k ∣ r
  · -- Both are multiples of the step.
    have apart : 2 ^ k ≤ ((r : Int) - m).natAbs := by
      refine Nat.le_of_dvd (by omega) ?_
      exact Int.natCast_dvd.mp (Int.dvd_sub (Int.natCast_dvd_natCast.mpr multiple)
        (Int.natCast_dvd_natCast.mpr precise))
    omega
  · -- The other count lies below the power of two where the step starts, with half a step there.
    have below : r < 2 ^ (52 + k) := Nat.not_le.mp fun large => multiple (dvd_of_precise precise' large)
    have positive : 0 < k := by
      refine Nat.pos_of_ne_zero fun zero => multiple ?_
      rw [zero]
      exact Nat.one_dvd r
    have reached : 2 ^ (52 + k) ≤ m := by
      rw [← spare] at positive ⊢
      exact two_pow_le_of_spareBits_pos positive
    have bottom : m = 2 ^ (52 + k) ∨ 2 ^ k ≤ m - 2 ^ (52 + k) := by
      rcases Nat.lt_or_eq_of_le reached with above | same
      · have start : 2 ^ k ∣ 2 ^ (52 + k) := Nat.pow_dvd_pow 2 (Nat.le_add_left k 52)
        exact .inr (Nat.le_of_dvd (Nat.sub_pos_of_lt above) (Nat.dvd_sub precise start))
      · exact .inl same.symm
    obtain ⟨j, rfl⟩ : ∃ j, k = j + 1 := Nat.exists_eq_succ_of_ne_zero positive.ne'
    have apart : 2 ^ j ≤ 2 ^ (52 + (j + 1)) - r := by
      rcases Nat.lt_or_ge r (2 ^ (52 + j)) with far | near
      · have : 2 ^ j ≤ 2 ^ (52 + j) := Nat.pow_le_pow_right Nat.two_pos (Nat.le_add_left j 52)
        have : 2 ^ (52 + (j + 1)) = 2 * 2 ^ (52 + j) := by ring
        omega
      · have top : 2 ^ j ∣ 2 ^ (52 + (j + 1)) := Nat.pow_dvd_pow 2 (by omega)
        exact Nat.le_of_dvd (Nat.sub_pos_of_lt below)
          (Nat.dvd_sub top (dvd_of_precise precise' near))
    have : 2 ^ (52 + (j + 1)) = 2 ^ (53 : Nat) * 2 ^ j := by ring
    have : 2 ^ (j + 1) = 2 * 2 ^ j := by ring
    omega

/-- Of the precise counts, one within one part in 2 · 10^16 of a number is the nearest. -/
theorem eq_of_near {m r : Nat} {q : ℚ} (precise : Precise m) (precise' : Precise r)
    (near : 20000000000000000 * |q - m| ≤ m) (nearer : |(r : ℚ) - q| ≤ |(m : ℚ) - q|) : r = m := by
  by_contra other
  have apart : (m : ℚ) < 10000000000000000 * |(r : ℚ) - m| := by
    exact_mod_cast lt_mul_abs_sub_of_precise precise precise' other
  have triangle := abs_sub_le (r : ℚ) q m
  rw [abs_sub_comm (m : ℚ)] at nearer
  linarith

/-- A fraction within one part in 2 · 10^16 of a precise count is rounded to it. -/
theorem roundUnits_of_near {num den m : Nat} (positive : 0 < den) (precise : Precise m)
    (near : 20000000000000000 * |exactUnits num den - m| ≤ m) : roundUnits num den = m :=
  eq_of_near precise (precise_roundUnits num den) near
    (abs_roundUnits_sub_exactUnits_le positive num precise)

end FilterQuery.Magnitude
