import FilterQuery.Proofs.Json.Rereading

/-!
Integers of any size as numerals. An integer has one text: its digits, without superfluous zeros and
behind a minus sign if it is negative (`integerText_iff`). Its digits are absorbed as long as they
fit 64 bits, so of a longer integer the leading digits are kept, which are the integer up to one part
in 2^60 (`Leads.of_absorb`). From these a float close to the integer is read, or nothing if that
would be beyond the largest one (`Leads.read?_cases`).
-/
namespace FilterQuery

namespace Json.Numeral

theorem digitValue_lt {c : Char} (digit : c.isDigit = true) : digitValue c < 10 := by
  have bound : c.toNat ≤ 57 := (Char.isDigit_iff_toNat.mp digit).2
  have zero : '0'.toNat = 48 := rfl
  rw [digitValue, zero]
  omega

theorem digitChar_digitValue {c : Char} (digit : c.isDigit = true) :
    Nat.digitChar (digitValue c) = c := by
  have bound : 48 ≤ c.toNat := (Char.isDigit_iff_toNat.mp digit).1
  have zero : '0'.toNat = 48 := rfl
  rw [← Char.toNat_inj, Nat.toNat_digitChar_of_lt_ten (digitValue_lt digit), digitValue, zero]
  omega

/-- The digits of zero start with a zero. -/
theorem ofDigits_pos {text : List Char}
    (same : Decimal.digits (ofDigits (text.map digitValue)) = text)
    (other : text.head? ≠ some '0') : 0 < ofDigits (text.map digitValue) := by
  refine Nat.pos_of_ne_zero fun zero => other ?_
  rw [← same, zero]
  rfl

/-- Digits are those of their number, if they do not start with a superfluous zero. -/
theorem digits_ofDigits {text : List Char} (written : Digits text)
    (noZero : text.head? = some '0' → text = ['0']) :
    Decimal.digits (ofDigits (text.map digitValue)) = text := by
  induction text using List.reverseRecOn with
  | nil => exact absurd rfl written.1
  | append_singleton front c ih =>
    have digit : c.isDigit = true := written.2 c (List.mem_append_right _ List.mem_cons_self)
    have last : Decimal.digits (digitValue c) = [c] := by
      rw [Decimal.digits, Nat.toDigits_of_lt_base (digitValue_lt digit), digitChar_digitValue digit]
    have step : ofDigits ((front ++ [c]).map digitValue) =
        10 * ofDigits (front.map digitValue) + digitValue c := by
      rw [List.map_append, ofDigits_append, Nat.mul_comm]
      rfl
    rw [step]
    by_cases first : front = []
    · subst first
      have alone : 10 * ofDigits (([] : List Char).map digitValue) + digitValue c =
          digitValue c := Nat.zero_add _
      rw [alone]
      exact last
    · have frontDigits : Digits front :=
        ⟨first, fun d member => written.2 d (List.mem_append_left _ member)⟩
      have other : front.head? ≠ some '0' := by
        intro zero
        have alone := noZero (by rw [List.head?_append_of_ne_nil _ first, zero])
        have length := congrArg List.length alone
        rw [List.length_append] at length
        exact first (List.length_eq_zero_iff.mp (Nat.succ.inj length))
      have same := ih frontDigits fun zero => absurd zero other
      rw [Decimal.digits, ← Nat.toDigits_append_toDigits (by decide) (ofDigits_pos same other)
        (digitValue_lt digit)]
      exact congrArg₂ (· ++ ·) same last

end Json.Numeral

section

open Json.Numeral

/-- The text of an integer: digits, of which the first is not a zero before another one, behind a
minus sign if the integer is negative. -/
inductive IntegerText : Int → List Char → Prop
  | natural {digits : List Char} : Digits digits → (digits.head? = some '0' → digits = ['0']) →
      IntegerText (ofDigits (digits.map digitValue)) digits
  | negative {digits : List Char} : Digits digits → digits.head? ≠ some '0' →
      IntegerText (-(ofDigits (digits.map digitValue) : Int)) ('-' :: digits)

theorem integerText_intText (n : Int) : IntegerText n (intText n) := by
  have written := digits_digits n.natAbs
  have read := ofDigits_digits n.natAbs
  have onlyZero := eq_zero_of_head?_digits n.natAbs
  by_cases negative : n < 0
  · have value : n = -(ofDigits ((Decimal.digits n.natAbs).map digitValue) : Int) := by omega
    have text := IntegerText.negative written fun zero => by
      have := onlyZero zero
      omega
    rw [← value] at text
    rw [intText, decide_eq_true negative]
    exact text
  · have value : n = (ofDigits ((Decimal.digits n.natAbs).map digitValue) : Int) := by omega
    have text := IntegerText.natural written fun zero => by
      rw [onlyZero zero]
      rfl
    rw [← value] at text
    rw [intText, decide_eq_false negative]
    exact text

/-- An integer has one text. -/
theorem integerText_iff {n : Int} {text : List Char} : IntegerText n text ↔ text = intText n := by
  refine ⟨fun written => ?_, fun same => same ▸ integerText_intText n⟩
  cases written with
  | natural digits noZero =>
    rw [intText, decide_eq_false (by omega), Int.natAbs_natCast, digits_ofDigits digits noZero]
    rfl
  | @negative digits written other =>
    have same := digits_ofDigits written fun zero => absurd zero other
    have positive := ofDigits_pos same other
    rw [intText, decide_eq_true (by omega), Int.natAbs_neg, Int.natAbs_natCast, same]
    rfl

end

namespace Magnitude

/-- The magnitude is the number up to one part in 2^50. -/
def CloseTo (magnitude : Magnitude) (n : Nat) : Prop :=
  |(magnitude.units : ℚ) / unitsPerOne - n| ≤ n / 2 ^ 50

theorem closeTo_of_units {magnitude : Magnitude} {n : Nat}
    (close : |(magnitude.units : ℚ) - n * unitsPerOne| ≤ n * unitsPerOne / 2 ^ 50) :
    magnitude.CloseTo n := by
  have unit : (0 : ℚ) < unitsPerOne := Nat.cast_pos.mpr unitsPerOne_pos
  rw [CloseTo, div_sub' unit.ne', abs_div, abs_of_pos unit, div_le_iff₀ unit, mul_comm _ (n : ℚ),
    div_mul_eq_mul_div]
  exact close

/-- A whole number is rounded to a magnitude close to it. -/
theorem closeTo_of_rounded {magnitude : Magnitude} {n : Nat}
    (rounded : magnitude.units = roundUnits n 1) : magnitude.CloseTo n := by
  have least : 1 - 1 / 2 ^ 50 ≤ 1 - roundoff := by norm_num [roundoff]
  have most : 1 + roundoff ≤ 1 + 1 / 2 ^ 50 := by norm_num [roundoff]
  have close := (rounded_integer n).abs_sub_le (by positivity) least most
  rw [one_div_mul_eq_div, ← rounded] at close
  exact closeTo_of_units close

end Magnitude

namespace Json.Numeral

/-- Digits add less than one to the number before them. -/
theorem foldl_digits_bounds (n : Nat) {digits : List Nat} (each : ∀ digit ∈ digits, digit < 10) :
    n * 10 ^ digits.length ≤ digits.foldl (fun n digit => n * 10 + digit) n ∧
      digits.foldl (fun n digit => n * 10 + digit) n < (n + 1) * 10 ^ digits.length := by
  induction digits generalizing n with
  | nil => simp
  | cons digit digits ih =>
    have small := each digit List.mem_cons_self
    obtain ⟨lower, upper⟩ :=
      ih (n * 10 + digit) fun other member => each other (List.mem_cons_of_mem _ member)
    rw [List.foldl_cons, List.length_cons, Nat.pow_succ', ← Nat.mul_assoc, ← Nat.mul_assoc]
    refine ⟨(Nat.mul_le_mul_right _ (by omega)).trans lower, upper.trans_le ?_⟩
    exact Nat.mul_le_mul_right _ (by omega)

/-- Digits are left only if they would not have fit 64 bits, and they are a small part of the number.
-/
theorem absorb_bounds {n s : Nat} {digits left : List Nat} (each : ∀ digit ∈ digits, digit < 10)
    (small : n < 2 ^ (64 : Nat)) (absorbed : absorb n digits = (s, left)) :
    s < 2 ^ (64 : Nat) ∧ (left ≠ [] → 2 ^ (60 : Nat) ≤ s) ∧
      s * 10 ^ left.length ≤ digits.foldl (fun n digit => n * 10 + digit) n ∧
      digits.foldl (fun n digit => n * 10 + digit) n < (s + 1) * 10 ^ left.length := by
  induction digits generalizing n with
  | nil =>
    cases absorbed
    exact ⟨small, fun some => absurd rfl some, foldl_digits_bounds _ each⟩
  | cons digit digits ih =>
    rw [absorb] at absorbed
    split at absorbed
    case isTrue fits =>
      exact ih (fun other member => each other (List.mem_cons_of_mem _ member)) fits absorbed
    case isFalse full =>
      cases absorbed
      have last := each digit List.mem_cons_self
      exact ⟨small, fun _ => by omega, foldl_digits_bounds _ each⟩

/-- The number `s · 10 ^ k` is the integer up to one part in 2^60. -/
structure Leads (n s k : Nat) : Prop where
  positive : 0 < s
  few : s < 2 ^ (64 : Nat)
  le : s * 10 ^ k ≤ n
  near : 2 ^ (60 : Nat) * (n - s * 10 ^ k) ≤ n

/-- What is absorbed of digits that do not fit 64 bits leads their number. -/
theorem Leads.of_absorb {s : Nat} {digits left : List Nat} (each : ∀ digit ∈ digits, digit < 10)
    (absorbed : absorb 0 digits = (s, left)) (some : left ≠ []) :
    Leads (ofDigits digits) s left.length := by
  obtain ⟨few, many, lower, upper⟩ := absorb_bounds each (by decide) absorbed
  have large := many some
  refine ⟨by omega, few, lower, ?_⟩
  have part : 2 ^ (60 : Nat) * 10 ^ left.length ≤ s * 10 ^ left.length :=
    Nat.mul_le_mul_right _ large
  rw [Nat.succ_mul] at upper
  rw [ofDigits]
  generalize digits.foldl _ 0 = number at lower upper ⊢
  generalize s * 10 ^ left.length = product at lower upper part ⊢
  generalize 10 ^ left.length = power at upper part
  omega

/-- An integer that does not fit 64 bits is read as a float, from its leading digits. -/
theorem exists_leads {n : Int} (far : n < -9223372036854775808 ∨ 18446744073709551616 ≤ n) :
    ∃ s k, Leads n.natAbs s k ∧ (ofInt n).value? = float? (n < 0) s k := by
  by_cases small : n.natAbs < 2 ^ (64 : Nat)
  · refine ⟨n.natAbs, 0, ⟨by omega, small, by omega, by omega⟩, ?_⟩
    rw [value?_ofInt_of_lt small, integer?]
    simp only [decide_eq_true_eq]
    rw [if_pos (by omega), if_pos (by omega), decide_eq_true (by omega)]
    rfl
  · have each : ∀ digit ∈ (ofInt n).whole, digit < 10 := by
      intro digit member
      obtain ⟨c, isDigit, rfl⟩ := List.mem_map.mp member
      exact digitValue_lt ((digits_digits n.natAbs).2 c isDigit)
    have read : ofDigits (ofInt n).whole = n.natAbs := ofDigits_digits n.natAbs
    obtain ⟨s, left, absorbed⟩ : ∃ s left, absorb 0 (ofInt n).whole = (s, left) := ⟨_, _, rfl⟩
    cases left with
    | nil =>
      -- All digits would have been absorbed.
      obtain ⟨few, _, _, upper⟩ := absorb_bounds each (by decide) absorbed
      rw [← ofDigits, read, List.length_nil, Nat.pow_zero] at upper
      omega
    | cons digit left =>
      refine ⟨s, _, read ▸ Leads.of_absorb each absorbed (List.cons_ne_nil _ _), ?_⟩
      have shift : (((digit :: left).length : Int) - (0 - 0 : Nat)) + 0 = (digit :: left).length := by
        omega
      rw [value?, absorbed]
      exact congrArg (float? (n < 0) s) shift

open Magnitude (unitsPerOne unitsPerOne_pos limit roundUnits roundoff round? CloseTo)

/-- A number that is rounded close to the leading digits of an integer is close to the integer. -/
theorem abs_sub_le_of_leading {whole leading exact rounded : ℚ} (large : 2 ^ 52 ≤ whole)
    (le : leading ≤ whole) (near : 2 ^ 60 * (whole - leading) ≤ whole) (nonneg : 0 ≤ exact)
    (close : |exact - leading| ≤ 41 / 10 * roundoff * leading + 1 / 10)
    (error : |rounded - exact| ≤ max (1 / 2) (exact / 2 ^ 53)) :
    |rounded - whole| ≤ whole / 2 ^ 50 := by
  have sum := error.trans (max_le_add_of_nonneg (by norm_num) (by positivity))
  unfold roundoff at close
  rw [abs_le] at close sum ⊢
  obtain ⟨lower, upper⟩ := close
  obtain ⟨lower', upper'⟩ := sum
  constructor <;> linarith

variable {n s k : Nat}

theorem Leads.moderate (leads : Leads n s k) (small : k ≤ maxPower) : (Decimal.mk s k).Moderate := by
  unfold maxPower at small
  exact ⟨leads.few, by dsimp only; omega, by dsimp only; omega, fun _ => leads.positive⟩

/-- Beyond 10^308 the leading digits of an integer are refused. -/
theorem Leads.read?_of_large (leads : Leads n s k) (large : maxPower < k) :
    (Decimal.mk s k).read? = none := by
  rw [Decimal.read?]
  cases known : Magnitude.round? s 1 with
  | none => rfl
  | some value =>
    have nonzero := Magnitude.ne_zero_of_round? known leads.positive
    rw [Option.bind_eq_bind, Option.bind_some, scaleByPower, if_pos (Int.natCast_nonneg k),
      Int.natAbs_natCast, if_neg (Nat.not_le.mpr large), if_neg nonzero]

theorem Leads.two_pow_le (leads : Leads n s k) (large : maxPower < k) : 2 ^ (1024 : Nat) ≤ n :=
  calc 2 ^ (1024 : Nat) ≤ 10 ^ k := Decimal.two_pow_le_ten_pow large
    _ ≤ s * 10 ^ k := Nat.le_mul_of_pos_left _ leads.positive
    _ ≤ n := leads.le

/-- The fraction that is rounded last is rounded to a count close to the integer. -/
theorem Leads.exists_fraction (leads : Leads n s k) (small : k ≤ maxPower) :
    ∃ num den, (Decimal.mk s k).read? = round? num den ∧
      |(roundUnits num den : ℚ) - n * unitsPerOne| ≤ n * unitsPerOne / 2 ^ 50 := by
  obtain ⟨num, den, positive, same, close⟩ := (leads.moderate small).exists_near
  have unit : (2 ^ 52 : ℚ) ≤ unitsPerOne := by exact_mod_cast Magnitude.two_pow_le_unitsPerOne
  have unit' : (0 : ℚ) ≤ unitsPerOne := Nat.cast_nonneg _
  have leading : (Decimal.mk s k).toRat = (s * 10 ^ k : Nat) := by
    rw [Decimal.toRat, zpow_natCast]
    push_cast
    rfl
  have one : (1 : ℚ) ≤ n := by
    exact_mod_cast (Nat.mul_pos leads.positive (Nat.pow_pos (by decide))).trans_le leads.le
  have near : (2 ^ 60 : ℚ) * (n - (s * 10 ^ k : Nat)) ≤ n := by
    rw [← Nat.cast_sub leads.le]
    exact_mod_cast leads.near
  refine ⟨num, den, same, abs_sub_le_of_leading (unit.trans (le_mul_of_one_le_left unit' one)) ?_ ?_
    (Magnitude.exactUnits_nonneg num den) close
    (Magnitude.abs_roundUnits_sub_exactUnits_le_max positive num)⟩
  · rw [leading]
    exact mul_le_mul_of_nonneg_right (Nat.cast_le.mpr leads.le) unit'
  · rw [leading, ← sub_mul, ← mul_assoc]
    exact mul_le_mul_of_nonneg_right near unit'

/-- From the leading digits a float close to the integer is read, or nothing if the integer is about
2^1024 or more. -/
theorem Leads.read?_cases (leads : Leads n s k) :
    (∃ m, (Decimal.mk s k).read? = some m ∧ m.CloseTo n) ∨
      (Decimal.mk s k).read? = none ∧ (2 ^ 1024 : ℚ) ≤ n + n / 2 ^ 50 := by
  rcases Nat.lt_or_ge maxPower k with large | small
  · refine .inr ⟨leads.read?_of_large large, ?_⟩
    have reached : ((2 ^ (1024 : Nat) : Nat) : ℚ) ≤ n := Nat.cast_le.mpr (leads.two_pow_le large)
    rw [Nat.cast_pow, Nat.cast_ofNat] at reached
    exact reached.trans (le_add_of_nonneg_right (by positivity))
  · have unit : (0 : ℚ) < unitsPerOne := Nat.cast_pos.mpr unitsPerOne_pos
    obtain ⟨num, den, same, close⟩ := leads.exists_fraction small
    rw [same]
    by_cases inside : roundUnits num den < limit
    · obtain ⟨m, found, units⟩ := Magnitude.exists_round? inside
      rw [← units] at close
      exact .inl ⟨m, found, Magnitude.closeTo_of_units close⟩
    · refine .inr ⟨dif_neg inside, ?_⟩
      have beyond : (limit : ℚ) ≤ roundUnits num den := Nat.cast_le.mpr (Nat.not_lt.mp inside)
      rw [← Magnitude.two_pow_add_scale, ← Magnitude.two_pow_mul_unitsPerOne, Nat.cast_mul,
        Nat.cast_pow, Nat.cast_ofNat] at beyond
      have upper := sub_le_iff_le_add'.mp ((le_abs_self _).trans close)
      rw [← div_mul_eq_mul_div, ← add_mul] at upper
      exact le_of_mul_le_mul_right (beyond.trans upper) unit

end Json.Numeral

end FilterQuery
