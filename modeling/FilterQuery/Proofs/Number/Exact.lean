import Mathlib.Algebra.Order.Ring.Cast
import Mathlib.Order.Compare
import Mathlib.Order.WithBot
import FilterQuery.Number.Binary64
import FilterQuery.Proofs.Number.Rounding

/-!
The exact number of a float, and integers as floats. Floats are ordered as their exact numbers are,
with the infinities at both ends (`Binary64.compare?_eq_cmp`). The float of an integer is nearest to
it, and no other float lies between the two, so the order between the integer and another float can
only be lost, never reversed.
-/
namespace FilterQuery

open Magnitude (unitsPerOne unitsPerOne_pos limit roundUnits Precise)

/-- Rational numbers between two infinities. -/
abbrev ExtendedRat := WithBot (WithTop ℚ)

/-- The number of so many units; a count past the largest magnitude stands for an infinity. -/
def ExtendedRat.ofUnits (units : Int) : ExtendedRat :=
  if limit ≤ units then ⊤ else if units ≤ -limit then ⊥ else ((units / unitsPerOne : ℚ) : WithTop ℚ)

/-- Up to the counts that stand for the infinities, more units are a larger number. -/
theorem ExtendedRat.ofUnits_lt_ofUnits {u v : Int} (inside : u.natAbs ≤ limit)
    (inside' : v.natAbs ≤ limit) : ofUnits u < ofUnits v ↔ u < v := by
  have positive : (0 : ℚ) < unitsPerOne := Nat.cast_pos.mpr unitsPerOne_pos
  have below (x : ℚ) : ((x : WithTop ℚ) : ExtendedRat) < ⊤ :=
    WithBot.coe_lt_coe.mpr (WithTop.coe_lt_top x)
  have limitPos := Magnitude.limit_pos
  unfold ofUnits
  generalize limit = limit at *
  split_ifs <;> simp [below, div_lt_div_iff_of_pos_right positive] <;> omega

/-- Up to the counts that stand for the infinities, other units are another number. -/
theorem ExtendedRat.ofUnits_inj {u v : Int} (inside : u.natAbs ≤ limit)
    (inside' : v.natAbs ≤ limit) : ofUnits u = ofUnits v ↔ u = v := by
  refine ⟨fun same => ?_, fun same => same ▸ rfl⟩
  have notBelow := (ofUnits_lt_ofUnits inside inside').not.mp (not_lt_of_ge same.ge)
  have notAbove := (ofUnits_lt_ofUnits inside' inside).not.mp (not_lt_of_ge same.le)
  omega

/-- Two counts up to those that stand for the infinities compare as their numbers do. -/
theorem ExtendedRat.cmp_ofUnits {u v : Int} (inside : u.natAbs ≤ limit) (inside' : v.natAbs ≤ limit) :
    cmp (ofUnits u) (ofUnits v) = cmp u v := by
  simp only [cmp, cmpUsing, ofUnits_lt_ofUnits inside inside',
    ofUnits_lt_ofUnits inside' inside]

/-- An integer as an exact number. -/
def ExtendedRat.ofInt (n : Int) : ExtendedRat := ((n : ℚ) : WithTop ℚ)

namespace Binary64

open toUnits? (signed)

/-- The exact number of a float, if it is one. -/
def number? : Binary64 → Option ExtendedRat
  | nan => none
  | infinite true => some ⊥
  | infinite false => some ⊤
  | finite negative magnitude =>
    some ((signed negative magnitude.units / unitsPerOne : ℚ) : WithTop ℚ)

theorem number?_eq_none {a : Binary64} : a.number? = none ↔ a = nan := by
  cases a with
  | nan => simp [number?]
  | infinite negative => cases negative <;> simp [number?]
  | finite negative magnitude => simp [number?]

theorem natAbs_signed (negative : Bool) (units : Nat) : (signed negative units).natAbs = units := by
  cases negative <;> simp [signed]

theorem ofUnits_signed (negative : Bool) {units : Nat} (small : units < limit) :
    ExtendedRat.ofUnits (signed negative units) =
      ((signed negative units / unitsPerOne : ℚ) : WithTop ℚ) := by
  have size := natAbs_signed negative units
  rw [ExtendedRat.ofUnits, if_neg (by omega), if_neg (by omega)]

theorem number?_eq (a : Binary64) : a.number? = a.toUnits?.map ExtendedRat.ofUnits := by
  have limitPos := Magnitude.limit_pos
  cases a with
  | nan => rfl
  | infinite negative =>
    cases negative with
    | false => simp [number?, toUnits?, signed, ExtendedRat.ofUnits]
    | true =>
      have outside : ¬ (limit : Int) ≤ -limit := by omega
      simp [number?, toUnits?, signed, ExtendedRat.ofUnits, outside]
  | finite negative magnitude =>
    rw [number?, toUnits?, Option.map_some, ofUnits_signed negative magnitude.representable.1]

theorem natAbs_le_limit {a : Binary64} {units : Int} (known : a.toUnits? = some units) :
    units.natAbs ≤ limit := by
  cases a with
  | nan => cases known
  | infinite negative =>
    cases known
    exact Nat.le_of_eq (natAbs_signed negative limit)
  | finite negative magnitude =>
    cases known
    rw [natAbs_signed]
    exact Nat.le_of_lt magnitude.representable.1

/-- The numeric order is the order of the exact numbers. -/
theorem compare?_eq_cmp {a b : Binary64} {x y : ExtendedRat} (number : a.number? = some x)
    (number' : b.number? = some y) : a.compare? b = some (cmp x y) := by
  rw [number?_eq, Option.map_eq_some_iff] at number number'
  obtain ⟨u, units, rfl⟩ := number
  obtain ⟨v, units', rfl⟩ := number'
  have inside := natAbs_le_limit units
  have inside' := natAbs_le_limit units'
  rw [ExtendedRat.cmp_ofUnits inside inside', cmp_eq_compare, compare?, units, units']
  rfl

/-- What a float comes to in units is a precise count. -/
theorem precise_natAbs {a : Binary64} {units : Int} (known : a.toUnits? = some units) :
    Precise units.natAbs := by
  cases a with
  | nan => cases known
  | infinite negative =>
    cases known
    rw [natAbs_signed]
    exact Magnitude.precise_limit
  | finite negative magnitude =>
    cases known
    rw [natAbs_signed]
    exact magnitude.precise_units

/-- The count of units nearest to an integer, with the sign of the integer. -/
def roundedUnits (n : Int) : Int := signed (n < 0) (roundUnits n.natAbs 1)

theorem natAbs_roundedUnits (n : Int) : (roundedUnits n).natAbs = roundUnits n.natAbs 1 :=
  natAbs_signed _ _

theorem signed_natAbs_mul (n : Int) (k : Nat) : signed (n < 0) (n.natAbs * k) = n * k := by
  unfold signed
  rcases Int.lt_or_le n 0 with negative | positive
  · rw [decide_eq_true negative, if_pos rfl, Nat.cast_mul,
      Int.ofNat_natAbs_of_nonpos (Int.le_of_lt negative), Int.neg_mul, Int.neg_neg]
  · rw [decide_eq_false (Int.not_lt.mpr positive), if_neg (by decide), Nat.cast_mul,
      Int.natAbs_of_nonneg positive]

/-- Of the precise counts of either sign, none is nearer to the integer. -/
theorem abs_roundedUnits_sub_le (n : Int) {z : Int} (precise : Precise z.natAbs) :
    |roundedUnits n - n * unitsPerOne| ≤ |z - n * unitsPerOne| := by
  have nearest := Magnitude.abs_roundUnits_mul_sub_le Nat.one_pos n.natAbs precise
  have zero := Magnitude.abs_roundUnits_mul_sub_le Nat.one_pos n.natAbs Magnitude.precise_zero
  rw [← signed_natAbs_mul]
  rw [Int.abs_eq_natAbs, Int.abs_eq_natAbs] at nearest zero ⊢
  unfold roundedUnits
  cases decide (n < 0) with
  | true =>
    rw [signed, if_pos rfl, signed, if_pos rfl]
    omega
  | false =>
    rw [signed, if_neg (by decide), signed, if_neg (by decide)]
    omega

/-- No precise count lies strictly between an integer and its float, on either side. -/
theorem le_roundedUnits {n z : Int} (precise : Precise z.natAbs) (le : z ≤ n * unitsPerOne) :
    z ≤ roundedUnits n := by
  have nearest := abs_roundedUnits_sub_le n precise
  rw [Int.abs_eq_natAbs, Int.abs_eq_natAbs] at nearest
  omega

theorem roundedUnits_le {n z : Int} (precise : Precise z.natAbs) (le : n * unitsPerOne ≤ z) :
    roundedUnits n ≤ z := by
  have nearest := abs_roundedUnits_sub_le n precise
  rw [Int.abs_eq_natAbs, Int.abs_eq_natAbs] at nearest
  omega

/-- A larger integer does not become a smaller float. -/
theorem roundedUnits_mono {m n : Int} (le : m ≤ n) : roundedUnits m ≤ roundedUnits n := by
  have precise (k : Int) : Precise (roundedUnits k).natAbs := by
    rw [natAbs_roundedUnits]
    exact Magnitude.precise_roundUnits _ _
  rcases Int.lt_or_eq_of_le le with lt | rfl
  · have scaled : m * unitsPerOne < n * unitsPerOne :=
      Int.mul_lt_mul_of_pos_right lt (Int.natCast_pos.mpr unitsPerOne_pos)
    have nearest := abs_roundedUnits_sub_le m (precise n)
    have nearest' := abs_roundedUnits_sub_le n (precise m)
    rw [Int.abs_eq_natAbs, Int.abs_eq_natAbs] at nearest nearest'
    omega
  · exact Int.le_refl _

theorem natAbs_le (n : Int64) : n.toInt.natAbs ≤ 2 ^ (63 : Nat) := by
  have lower : -9223372036854775808 ≤ n.toInt := Int64.le_toInt n
  have upper : n.toInt < 9223372036854775808 := Int64.toInt_lt n
  omega

theorem ofFraction_of_lt (negative : Bool) {num den : Nat} (small : roundUnits num den < limit) :
    ofFraction negative num den =
      finite negative ⟨roundUnits num den, Magnitude.representable_roundUnits small⟩ := by
  rw [ofFraction, Magnitude.round?, dif_pos small, Option.elim_some]

/-- An integer of 64 bits is a finite float. -/
theorem toUnits?_ofInt (n : Int64) : (ofInt n.toInt).toUnits? = some (roundedUnits n.toInt) := by
  have small : roundUnits n.toInt.natAbs 1 < limit :=
    Magnitude.roundUnits_lt_limit ((natAbs_le n).trans (by decide +kernel))
  rw [ofInt, ofFraction_of_lt _ small, toUnits?, roundedUnits]

/-- An integer of 64 bits as a count of units, well within the magnitudes. -/
theorem ofInt_eq_ofUnits (n : Int64) :
    ExtendedRat.ofInt n.toInt = ExtendedRat.ofUnits (n.toInt * unitsPerOne) ∧
      (n.toInt * unitsPerOne).natAbs ≤ limit := by
  have inside : (n.toInt * unitsPerOne).natAbs < limit := by
    rw [Int.natAbs_mul, Int.natAbs_natCast]
    calc n.toInt.natAbs * unitsPerOne ≤ 2 ^ (63 : Nat) * unitsPerOne :=
          Nat.mul_le_mul_right _ (natAbs_le n)
      _ = 2 ^ (63 + Magnitude.scale) := Magnitude.two_pow_mul_unitsPerOne _
      _ < limit := Magnitude.two_pow_lt_limit (by decide)
  have positive : (unitsPerOne : ℚ) ≠ 0 := Nat.cast_ne_zero.mpr unitsPerOne_pos.ne'
  refine ⟨?_, Nat.le_of_lt inside⟩
  rw [ExtendedRat.ofUnits, if_neg (by omega), if_neg (by omega), ExtendedRat.ofInt, Int.cast_mul,
    Int.cast_natCast, mul_div_cancel_right₀ _ positive]

theorem cmp_roundedUnits (n : Int) {z : Int} (precise : Precise z.natAbs) :
    cmp (roundedUnits n) z = if roundedUnits n = z then .eq else cmp (n * unitsPerOne) z := by
  by_cases same : roundedUnits n = z
  · rw [if_pos same, same, cmp_self_eq_eq]
  · rw [if_neg same]
    rcases lt_trichotomy (n * unitsPerOne) z with below | equal | above
    · have below' := lt_of_le_of_ne (roundedUnits_le precise below.le) same
      rw [(cmp_eq_lt_iff _ _).mpr below, (cmp_eq_lt_iff _ _).mpr below']
    · exact absurd (le_antisymm (roundedUnits_le precise equal.le) (le_roundedUnits precise equal.ge))
        same
    · have above' := lt_of_le_of_ne (le_roundedUnits precise above.le) (Ne.symm same)
      rw [(cmp_eq_gt_iff _ _).mpr above, (cmp_eq_gt_iff _ _).mpr above']

/-- The float of an integer and any float are ordered as the integer and the float are; only where
the two floats are equal may the numbers differ. -/
theorem compare?_ofInt (n : Int64) {b : Binary64} {y : ExtendedRat} (number : b.number? = some y) :
    (ofInt n.toInt).compare? b =
      some (if (ofInt n.toInt).number? = some y then .eq
        else cmp (ExtendedRat.ofInt n.toInt) y) := by
  have rounded : (ofInt n.toInt).number? = some (ExtendedRat.ofUnits (roundedUnits n.toInt)) := by
    rw [number?_eq, toUnits?_ofInt, Option.map_some]
  have insideFloat := natAbs_le_limit (toUnits?_ofInt n)
  obtain ⟨value, insideInt⟩ := ofInt_eq_ofUnits n
  rw [compare?_eq_cmp rounded number, rounded]
  rw [number?_eq, Option.map_eq_some_iff] at number
  obtain ⟨v, units, rfl⟩ := number
  have inside := natAbs_le_limit units
  have same : some (ExtendedRat.ofUnits (roundedUnits n.toInt)) = some (ExtendedRat.ofUnits v) ↔
      roundedUnits n.toInt = v := by
    rw [Option.some_inj, ExtendedRat.ofUnits_inj insideFloat inside]
  rw [value, ExtendedRat.cmp_ofUnits insideFloat inside, ExtendedRat.cmp_ofUnits insideInt inside,
    cmp_roundedUnits _ (precise_natAbs units), if_congr same rfl rfl]

/-- The float of an integer is finite, and no finite float is nearer to the integer. -/
theorem exists_number?_ofInt (n : Int64) :
    ∃ r : ℚ, (ofInt n.toInt).number? = some ((r : WithTop ℚ) : ExtendedRat) ∧
      ∀ (c : Binary64) (s : ℚ), c.number? = some ((s : WithTop ℚ) : ExtendedRat) →
        |r - n.toInt| ≤ |s - n.toInt| := by
  have small : roundUnits n.toInt.natAbs 1 < limit :=
    Magnitude.roundUnits_lt_limit ((natAbs_le n).trans (by decide +kernel))
  have positive : (0 : ℚ) < unitsPerOne := Nat.cast_pos.mpr unitsPerOne_pos
  have distance (u : Int) : (u : ℚ) / unitsPerOne - n.toInt =
      ((u - n.toInt * unitsPerOne : Int) : ℚ) / unitsPerOne := by
    push_cast
    field_simp
  refine ⟨roundedUnits n.toInt / unitsPerOne, ?_, ?_⟩
  · rw [ofInt, ofFraction_of_lt _ small, number?, roundedUnits]
  · intro c s number
    cases c with
    | nan => cases number
    | infinite negative => cases negative <;> cases number
    | finite negative magnitude =>
      cases number
      rw [distance, distance, abs_div, abs_div]
      refine div_le_div_of_nonneg_right ?_ (abs_nonneg _)
      rw [← Int.cast_abs, ← Int.cast_abs, Int.cast_le]
      refine abs_roundedUnits_sub_le n.toInt ?_
      rw [natAbs_signed]
      exact magnitude.precise_units

/-- An integer of up to 53 bits is a float. -/
theorem number?_ofInt_of_small {n : Int64} (small : n.toInt.natAbs ≤ 2 ^ (53 : Nat)) :
    (ofInt n.toInt).number? = some (ExtendedRat.ofInt n.toInt) := by
  have fixed : roundUnits n.toInt.natAbs 1 = n.toInt.natAbs * unitsPerOne := by
    refine Magnitude.roundUnits_of_eq Nat.one_pos ?_ (Nat.mul_one _).symm
    exact Magnitude.precise_mul_unitsPerOne small
  have same : roundedUnits n.toInt = n.toInt * unitsPerOne := by
    rw [roundedUnits, fixed, signed_natAbs_mul]
  rw [number?_eq, toUnits?_ofInt, Option.map_some, same, (ofInt_eq_ofUnits n).1]

end Binary64

end FilterQuery
