/-!
The finite magnitudes of binary64. A magnitude counts units of 2^-1074, the smallest positive one. A
count is representable when it is below 2^1024 and its bits under the leading 53 are zero. Rounding
takes any fraction to the nearest representable count, a tie to the even neighbour, so arithmetic is
exact arithmetic on natural numbers followed by one rounding.
-/
namespace FilterQuery

/-- Powers of natural numbers are core's, whatever else is in scope. -/
scoped instance (priority := 2000) powNat : Pow Nat Nat := instPowNat

namespace Magnitude

/-- A unit is 2 to the power of minus this. -/
def scale : Nat := 1074

/-- Every magnitude has at most this many bits. -/
def width : Nat := 2098

/-- The number of units in 1. -/
@[irreducible]
def unitsPerOne : Nat := 2 ^ scale

/-- The first count past the largest magnitude: 2^1024 in units. -/
@[irreducible]
def limit : Nat := 2 ^ width

theorem unitsPerOne_pos : 0 < unitsPerOne := by
  unfold unitsPerOne
  exact Nat.two_pow_pos scale

theorem two_pow_le_limit {k : Nat} (small : k ≤ width) : 2 ^ k ≤ limit := by
  unfold limit
  exact Nat.pow_le_pow_right (by decide) small

theorem limit_pos : 0 < limit := Nat.lt_of_lt_of_le Nat.one_pos (two_pow_le_limit (Nat.zero_le _))

/-- How many low bits of a count lie under its leading 53. -/
def spareBits (units : Nat) : Nat := units.log2 - 52

/-- The count is the size of some finite binary64 number. -/
def Representable (units : Nat) : Prop := units < limit ∧ 2 ^ spareBits units ∣ units

instance (units : Nat) : Decidable (Representable units) :=
  inferInstanceAs (Decidable (_ ∧ _))

theorem lt_two_pow_spareBits (units : Nat) : units < 2 ^ (53 + spareBits units) :=
  Nat.lt_of_lt_of_le Nat.lt_log2_self
    (Nat.pow_le_pow_right (by decide) (by unfold spareBits; omega))

theorem spareBits_le {units s : Nat} (h : units < 2 ^ (53 + s)) : spareBits units ≤ s := by
  unfold spareBits
  by_cases zero : units = 0
  · simp [zero]
  · have := (Nat.log2_lt zero).2 h
    omega

/-- A number of at most 53 significant bits, at any scale, has no bits under its leading 53. -/
theorem two_pow_spareBits_dvd {m s : Nat} (significand : m ≤ 2 ^ (53 : Nat)) :
    2 ^ spareBits (m * 2 ^ s) ∣ m * 2 ^ s := by
  rcases Nat.lt_or_eq_of_le significand with lt | rfl
  · have bound : m * 2 ^ s < 2 ^ (53 + s) := by
      rw [Nat.pow_add]
      exact Nat.mul_lt_mul_of_pos_right lt (Nat.two_pow_pos s)
    exact Nat.dvd_trans (Nat.pow_dvd_pow 2 (spareBits_le bound)) (Nat.dvd_mul_left _ _)
  · rw [← Nat.pow_add]
    refine Nat.pow_dvd_pow 2 ?_
    unfold spareBits
    rw [Nat.log2_two_pow]
    omega

/-- At most 53 significant bits, at any scale, make a representable count. -/
theorem representable_mul {m s : Nat} (significand : m ≤ 2 ^ (53 : Nat))
    (small : m * 2 ^ s < limit) : Representable (m * 2 ^ s) :=
  ⟨small, two_pow_spareBits_dvd significand⟩

/-- The quotient to the nearest whole number, a tie to the even one. -/
def roundQuotient (num den : Nat) : Nat :=
  let quotient := num / den
  let remainder := num % den
  if 2 * remainder < den then quotient
  else if den < 2 * remainder then quotient + 1
  else quotient + quotient % 2

theorem roundQuotient_le (num den : Nat) : roundQuotient num den ≤ num / den + 1 := by
  unfold roundQuotient
  dsimp only
  split
  · omega
  · split <;> omega

/-- The count of units nearest to `num / den`, at 53 significant bits. -/
def roundUnits (num den : Nat) : Nat :=
  let scaled := num * unitsPerOne
  let step := 2 ^ spareBits (scaled / den)
  roundQuotient scaled (den * step) * step

/-- Rounding leaves at most 53 significant bits. -/
theorem roundQuotient_le_two_pow (scaled den : Nat) :
    roundQuotient scaled (den * 2 ^ spareBits (scaled / den)) ≤ 2 ^ (53 : Nat) := by
  refine Nat.le_trans (roundQuotient_le _ _) ?_
  rw [← Nat.div_div_eq_div_mul, Nat.add_one_le_iff]
  refine (Nat.div_lt_iff_lt_mul (Nat.two_pow_pos _)).2 ?_
  rw [← Nat.pow_add]
  exact lt_two_pow_spareBits _

theorem representable_roundUnits {num den : Nat} (small : roundUnits num den < limit) :
    Representable (roundUnits num den) :=
  representable_mul (roundQuotient_le_two_pow _ den) small

end Magnitude

/-- The size of a finite binary64 number, in units of 2^-1074. -/
structure Magnitude where
  units : Nat
  representable : Magnitude.Representable units
  deriving DecidableEq

namespace Magnitude

theorem ext_units {a b : Magnitude} (h : a.units = b.units) : a = b := by
  cases a; cases b; simp_all

def zero : Magnitude := ⟨0, limit_pos, Nat.dvd_zero _⟩

/-- The magnitude nearest to `num / den`, or none when it lies beyond the largest one. -/
def round? (num den : Nat) : Option Magnitude :=
  if small : roundUnits num den < limit then
    some ⟨roundUnits num den, representable_roundUnits small⟩
  else none

/-- The product, rounded. -/
def mul? (a b : Magnitude) : Option Magnitude :=
  round? (a.units * b.units) (unitsPerOne * unitsPerOne)

/-- The quotient, rounded; the divisor is not zero. -/
def div? (a b : Magnitude) : Option Magnitude := round? a.units b.units

/-- The magnitude nearest to a power of ten. -/
def powerOfTen? (exponent : Nat) : Option Magnitude := round? (10 ^ exponent) 1

end Magnitude

end FilterQuery
