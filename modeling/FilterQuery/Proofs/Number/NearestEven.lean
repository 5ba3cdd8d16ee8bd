import FilterQuery.Proofs.Number.Rounding

/-!
Rounding to nearest with ties to even, said without an algorithm. The precise counts are the
magnitudes as they would be without a largest one. A number is rounded to a precise count if no
other one is nearer, and if of two that are equally near it has the even significand. There is only
one such count (`NearestEven.unique`), and rounding finds it (`roundUnits_eq_iff`).
-/
namespace FilterQuery.Magnitude

/-- The bits of a count without its spare ones. -/
def significand (units : Nat) : Nat := units / 2 ^ spareBits units

/-- The number, in units, is rounded to the count: to nearest, ties to even. -/
structure NearestEven (units : Nat) (exact : ℚ) : Prop where
  precise : Precise units
  nearest : ∀ m, Precise m → |(units : ℚ) - exact| ≤ |(m : ℚ) - exact|
  even : ∀ m, Precise m → m ≠ units → |(m : ℚ) - exact| = |(units : ℚ) - exact| →
    significand units % 2 = 0

/-- A precise count has an even significand if it is a multiple of twice its step. -/
theorem significand_even_iff {m : Nat} (precise : Precise m) :
    significand m % 2 = 0 ↔ 2 ^ (spareBits m + 1) ∣ m := by
  obtain ⟨j, multiple⟩ := precise
  have step := Nat.two_pow_pos (spareBits m)
  rw [significand, Nat.pow_succ]
  generalize 2 ^ spareBits m = unit at multiple step ⊢
  rw [multiple, Nat.mul_div_cancel_left _ step, Nat.mul_dvd_mul_iff_left step,
    Nat.dvd_iff_mod_eq_zero]

/-- At most 52 bits, at any scale but the smallest, make an even significand. -/
theorem two_pow_succ_spareBits_dvd {half : Nat} (small : half ≤ 2 ^ (52 : Nat)) (k : Nat) :
    2 ^ (spareBits (half * 2 ^ (k + 1)) + 1) ∣ half * 2 ^ (k + 1) := by
  rcases Nat.lt_or_eq_of_le small with below | rfl
  · have bound : half * 2 ^ (k + 1) < 2 ^ (53 + k) := by
      have exponents : 53 + k = 52 + (k + 1) := by omega
      rw [exponents, Nat.pow_add 2 52]
      exact Nat.mul_lt_mul_of_pos_right below (Nat.two_pow_pos _)
    exact Nat.dvd_trans (Nat.pow_dvd_pow 2 (Nat.succ_le_succ (spareBits_le bound)))
      (Nat.dvd_mul_left _ _)
  · rw [← Nat.pow_add]
    refine Nat.pow_dvd_pow 2 ?_
    rw [spareBits, Nat.log2_two_pow]
    omega

/-- The next precise count is a step away. -/
theorem precise_add_step {m : Nat} (precise : Precise m) : Precise (m + 2 ^ spareBits m) := by
  have bound := lt_two_pow_spareBits m
  obtain ⟨j, multiple⟩ := precise
  generalize spareBits m = k at bound multiple ⊢
  have next : m + 2 ^ k = (j + 1) * 2 ^ k := by rw [multiple]; ring
  rw [next]
  refine precise_mul_two_pow (Nat.succ_le_of_lt ?_) k
  rw [Nat.pow_add, multiple, Nat.mul_comm (2 ^ k)] at bound
  exact Nat.lt_of_mul_lt_mul_right bound

/-- Between two precise counts with even significands there is another precise count. -/
theorem exists_precise_between {m r : Nat} (precise : Precise m) (precise' : Precise r)
    (even : significand m % 2 = 0) (even' : significand r % 2 = 0) (below : m < r) :
    ∃ next, Precise next ∧ m < next ∧ next < r := by
  rw [significand_even_iff precise] at even
  rw [significand_even_iff precise'] at even'
  have step := Nat.two_pow_pos (spareBits m)
  have larger : spareBits m ≤ spareBits r := by
    refine spareBits_le (below.trans ?_)
    exact lt_two_pow_spareBits r
  have apart : 2 ^ (spareBits m + 1) ≤ r - m := by
    refine Nat.le_of_dvd (Nat.sub_pos_of_lt below) (Nat.dvd_sub ?_ even)
    exact Nat.dvd_trans (Nat.pow_dvd_pow 2 (Nat.succ_le_succ larger)) even'
  refine ⟨_, precise_add_step precise, Nat.lt_add_of_pos_right step, ?_⟩
  rw [Nat.pow_succ] at apart
  omega

/-- What lies strictly between two numbers that are equally near to a third is nearer to it. -/
theorem abs_sub_lt_of_between {a b c q : ℚ} (tie : |a - q| = |b - q|) (above : a < c)
    (below : c < b) : |c - q| < |a - q| := by
  rcases abs_cases (a - q) with ⟨value, _⟩ | ⟨value, _⟩ <;>
    rcases abs_cases (b - q) with ⟨value', _⟩ | ⟨value', _⟩ <;>
    rw [abs_lt] <;> constructor <;> linarith

variable {m r : Nat} {exact : ℚ}

theorem NearestEven.not_lt (first : NearestEven m exact) (second : NearestEven r exact) :
    ¬ m < r := by
  intro below
  have tie : |(m : ℚ) - exact| = |(r : ℚ) - exact| :=
    le_antisymm (first.nearest r second.precise) (second.nearest m first.precise)
  obtain ⟨next, precise, above, before⟩ := exists_precise_between first.precise second.precise
    (first.even r second.precise below.ne' tie.symm) (second.even m first.precise below.ne tie) below
  have nearer := abs_sub_lt_of_between tie (Nat.cast_lt.mpr above) (Nat.cast_lt.mpr before)
  exact absurd (first.nearest next precise) (not_le.mpr nearer)

/-- A number is rounded to one count only. -/
theorem NearestEven.unique (first : NearestEven m exact) (second : NearestEven r exact) : m = r :=
  Nat.le_antisymm (Nat.not_lt.mp (second.not_lt first)) (Nat.not_lt.mp (first.not_lt second))

/-- Of two equally near whole numbers the even one is taken. -/
theorem roundQuotient_even_of_tie {num den j : Nat} (positive : 0 < den)
    (other : j ≠ roundQuotient num den)
    (tie : |((j * den : Nat) - num : Int)| = |((roundQuotient num den * den : Nat) - num : Int)|) :
    roundQuotient num den % 2 = 0 := by
  have division : num / den * den + num % den = num := Nat.div_add_mod' num den
  have remainder : num % den < den := Nat.mod_lt num positive
  have next : (num / den + 1) * den = num / den * den + den := by ring
  -- A number other than the quotient and the next one is at least a step further away.
  have multiples : j = num / den ∨ j = num / den + 1 ∨ j * den + den ≤ num / den * den ∨
      (num / den + 1) * den + den ≤ j * den := by
    rcases Nat.lt_trichotomy j (num / den) with below | same | above
    · have step := Nat.mul_le_mul_right den (Nat.succ_le_of_lt below)
      rw [Nat.succ_mul] at step
      exact .inr (.inr (.inl step))
    · exact .inl same
    · rcases Nat.lt_or_eq_of_le (Nat.succ_le_of_lt above) with beyond | same
      · have step := Nat.mul_le_mul_right den (Nat.succ_le_of_lt beyond)
        rw [Nat.succ_mul] at step
        exact .inr (.inr (.inr step))
      · exact .inr (.inl same.symm)
  unfold roundQuotient at other tie ⊢
  dsimp only at other tie ⊢
  rw [Int.abs_eq_natAbs, Int.abs_eq_natAbs] at tie
  split_ifs at other tie ⊢ with down up
  · rcases multiples with rfl | rfl | far | far <;> omega
  · rcases multiples with rfl | rfl | far | far <;> omega
  · omega

/-- Two counts are equally near to a fraction if they are without its denominator. -/
theorem abs_sub_exactUnits_eq_iff {num den : Nat} (positive : 0 < den) :
    |(m : ℚ) - exactUnits num den| = |(r : ℚ) - exactUnits num den| ↔
      |((m * den : Nat) - (num * unitsPerOne : Nat) : Int)| =
        |((r * den : Nat) - (num * unitsPerOne : Nat) : Int)| := by
  rw [sub_exactUnits_eq positive, sub_exactUnits_eq positive, abs_div, abs_div,
    div_left_inj' (abs_ne_zero.mpr (Nat.cast_ne_zero.mpr positive.ne')), ← Int.cast_abs,
    ← Int.cast_abs, Int.cast_inj]

/-- A precise count that is as near as the rounded one is a multiple of the same step. -/
theorem dvd_of_tie {num den k : Nat} (positive : 0 < den) (precise : Precise m)
    (spare : spareBits (num * unitsPerOne / den) = k)
    (tie : |((m * den : Nat) - (num * unitsPerOne : Nat) : Int)| =
      |((roundUnits num den * den : Nat) - (num * unitsPerOne : Nat) : Int)|) : 2 ^ k ∣ m := by
  by_contra other
  -- The power of two between the two counts would be nearer.
  obtain ⟨between, reached⟩ := between_of_not_dvd positive precise spare other
  have nearer := abs_roundUnits_mul_sub_le positive num (precise_two_pow (52 + k))
  rw [Int.abs_eq_natAbs, Int.abs_eq_natAbs] at tie nearer
  generalize num * unitsPerOne = scaled at tie reached nearer
  omega

/-- Of two equally near precise counts the one with the even significand is taken. -/
theorem significand_roundUnits_of_tie {num den : Nat} (positive : 0 < den) (precise : Precise m)
    (other : m ≠ roundUnits num den)
    (tie : |(m : ℚ) - exactUnits num den| = |(roundUnits num den : ℚ) - exactUnits num den|) :
    significand (roundUnits num den) % 2 = 0 := by
  rw [abs_sub_exactUnits_eq_iff positive] at tie
  obtain ⟨k, spare⟩ : ∃ k, spareBits (num * unitsPerOne / den) = k := ⟨_, rfl⟩
  obtain ⟨j, rfl⟩ := dvd_of_tie positive precise spare tie
  obtain ⟨quotient, known⟩ : ∃ n, roundQuotient (num * unitsPerOne) (den * 2 ^ k) = n := ⟨_, rfl⟩
  have small : quotient ≤ 2 ^ (53 : Nat) := by
    rw [← known, ← spare]
    exact roundQuotient_le_two_pow _ den
  have units : roundUnits num den = quotient * 2 ^ k := by rw [roundUnits, spare, known]
  have regroup (j : Nat) : j * 2 ^ k * den = j * (den * 2 ^ k) := by ring
  rw [significand_even_iff (precise_roundUnits num den)]
  rw [units, Nat.mul_comm (2 ^ k)] at other
  rw [units, Nat.mul_comm (2 ^ k), regroup, regroup, ← known] at tie
  have even := roundQuotient_even_of_tie (Nat.mul_pos positive (Nat.two_pow_pos k))
    (fun same => other (by rw [same, known])) tie
  rw [known] at even
  obtain ⟨half, rfl⟩ := Nat.dvd_of_mod_eq_zero even
  have twice : 2 * half * 2 ^ k = half * 2 ^ (k + 1) := by ring
  rw [units, twice]
  rw [Nat.pow_succ', Nat.mul_le_mul_left_iff Nat.two_pos] at small
  exact two_pow_succ_spareBits_dvd small k

/-- Rounding is to nearest with ties to even. -/
theorem roundUnits_eq_iff {num den : Nat} (positive : 0 < den) :
    roundUnits num den = m ↔ NearestEven m (exactUnits num den) := by
  have rounded : NearestEven (roundUnits num den) (exactUnits num den) :=
    ⟨precise_roundUnits num den, fun m precise => abs_roundUnits_sub_exactUnits_le positive num precise,
      fun m precise => significand_roundUnits_of_tie positive precise⟩
  exact ⟨fun same => same ▸ rounded, fun nearest => rounded.unique nearest⟩

end FilterQuery.Magnitude
