import FilterQuery.Proofs.Number.Positional

/-!
Floats as numerals. In every layout of a decimal the digits are those of its coefficient, with zeros
before them or, in a whole number, behind them; the place of the point and the exponent give the
power of ten. So the text is read as the coefficient and the exponent of the decimal, except that a
whole number is read in tenths (`Numeral.writes_jsonText`).
-/
namespace FilterQuery

namespace Decimal

/-- The JSON text has neither an exponent nor empty places behind the point. -/
def WrittenWhole (d : Decimal) : Prop :=
  (-5 ≤ d.leadingExponent ∧ d.leadingExponent ≤ 15) ∧ 0 ≤ d.exponent

instance (d : Decimal) : Decidable d.WrittenWhole := inferInstanceAs (Decidable (_ ∧ _))

/-- The decimal as its JSON text is read: in tenths, if the text ends in `.0`. -/
def asRead (d : Decimal) : Decimal :=
  if d.WrittenWhole then ⟨d.coefficient * 10 ^ (d.exponent.toNat + 1), -1⟩ else d

end Decimal

namespace Json.Numeral

open Decimal (digits)

/-- A numeral with a fraction or an exponent is the float of its digits, if they fit 64 bits. -/
theorem value?_of_lt {negative : Bool} {whole : List Nat} {fraction : Option (List Nat)}
    {power : Option Int} (isFloat : fraction ≠ none ∨ power ≠ none)
    (small : ofDigits (whole ++ fraction.getD []) < 2 ^ (64 : Nat)) :
    value? ⟨negative, whole, fraction, power⟩ =
      float? negative (ofDigits (whole ++ fraction.getD []))
        (power.getD 0 - (fraction.getD []).length) := by
  rw [ofDigits_append] at small
  have wholeSmall := Nat.lt_of_le_of_lt (le_foldl_digits _ (fraction.getD [])) small
  have first : absorb 0 whole = (ofDigits whole, []) := absorb_of_lt wholeSmall
  have second := absorb_of_lt small
  -- All digits are absorbed, so the fraction alone shifts the point.
  have shift (power : Int) : ((([] : List Nat).length : Int) -
      ((fraction.getD []).length - ([] : List Nat).length : Nat)) + power =
        power - (fraction.getD []).length := by
    rw [List.length_nil, Nat.sub_zero]
    omega
  rw [value?, first, ofDigits_append]
  dsimp only
  split
  case h_1 noPower noFraction _ =>
    exact absurd isFloat (not_or.mpr ⟨not_not_intro rfl, not_not_intro rfl⟩)
  case h_2 =>
    rw [second]
    dsimp only
    rw [shift]

/-- The text is that of a numeral that is read as the float of the decimal. -/
def Writes (negative : Bool) (d : Decimal) (text : List Char) : Prop :=
  ∃ numeral : Numeral, numeral.WrittenAs (signText negative ++ text) ∧
    numeral.value? = float? negative d.coefficient d.exponent

theorem writes_of_digits {negative : Bool} {d : Decimal} {whole fraction exponent : List Char}
    {fractionDigits : Option (List Nat)} {power : Option Int} (wholeDigits : Digits whole)
    (noZero : whole.head? = some '0' → whole = ['0'])
    (fractionText : FractionText fractionDigits fraction)
    (exponentText : ExponentText power exponent) (isFloat : fractionDigits ≠ none ∨ power ≠ none)
    (coefficient : ofDigits (whole.map digitValue ++ fractionDigits.getD []) = d.coefficient)
    (place : power.getD 0 - (fractionDigits.getD []).length = d.exponent)
    (small : d.coefficient < 2 ^ (64 : Nat)) :
    Writes negative d (whole ++ fraction ++ exponent) := by
  refine ⟨⟨negative, whole.map digitValue, fractionDigits, power⟩, ?_, ?_⟩
  · rw [← List.append_assoc, ← List.append_assoc]
    exact .mk wholeDigits noZero fractionText exponentText
  · rw [← coefficient] at small ⊢
    rw [value?_of_lt isFloat small, place]

theorem exponentText (e : Int) :
    ExponentText (some e) ('e' :: (if e < 0 then '-' else '+') :: digits e.natAbs) := by
  have read := ofDigits_digits e.natAbs
  by_cases negative : e < 0
  · have written : ExponentText (some (-ofDigits ((digits e.natAbs).map digitValue)))
        ('e' :: '-' :: digits e.natAbs) := .minus (.inl rfl) (digits_digits e.natAbs)
    have value : -(ofDigits ((digits e.natAbs).map digitValue) : Int) = e := by omega
    rw [if_pos negative]
    rwa [value] at written
  · have written : ExponentText (some (ofDigits ((digits e.natAbs).map digitValue)))
        ('e' :: '+' :: digits e.natAbs) := .plus (.inl rfl) (digits_digits e.natAbs)
    have value : (ofDigits ((digits e.natAbs).map digitValue) : Int) = e := by omega
    rw [if_neg negative]
    rwa [value] at written

theorem fractionText (digits : List Char) (all : ∀ c ∈ digits, c.isDigit = true) :
    ∃ fraction, FractionText fraction (Decimal.fractionPart digits) ∧
      fraction.getD [] = digits.map digitValue := by
  cases digits with
  | nil => exact ⟨none, .absent, rfl⟩
  | cons c digits => exact ⟨some _, .present ⟨List.cons_ne_nil _ _, all⟩, rfl⟩

theorem writes_scientific (negative : Bool) {d : Decimal}
    (small : d.coefficient < 2 ^ (64 : Nat)) : Writes negative d d.scientific := by
  obtain ⟨nonempty, all⟩ := digits_digits d.coefficient
  have read := ofDigits_digits d.coefficient
  have leading : d.leadingExponent = d.exponent + (digits d.coefficient).length - 1 := rfl
  rw [Decimal.scientific]
  cases split : digits d.coefficient with
  | nil => exact absurd split nonempty
  | cons c rest =>
    rw [split] at all read leading
    obtain ⟨fraction, written, same⟩ :=
      fractionText rest fun _ member => all _ (List.mem_cons_of_mem _ member)
    have first : Digits [c] := ⟨List.cons_ne_nil _ _, List.forall_mem_singleton.mpr
      (all c List.mem_cons_self)⟩
    refine writes_of_digits first ?_ written (exponentText d.leadingExponent)
      (.inr (Option.some_ne_none _)) ?_ ?_ small
    · intro zero
      rw [Option.some.inj zero]
      rfl
    · rw [same, ← List.map_append]
      exact read
    · rw [same, Option.getD_some, leading, List.length_map, List.length_cons]
      omega

/-- Digits around a point. -/
theorem writes_point (negative : Bool) {d : Decimal} {whole fraction : List Char}
    (wholeDigits : Digits whole) (noZero : whole.head? = some '0' → whole = ['0'])
    (fractionDigits : Digits fraction)
    (coefficient : ofDigits ((whole ++ fraction).map digitValue) = d.coefficient)
    (place : -(fraction.length : Int) = d.exponent) (small : d.coefficient < 2 ^ (64 : Nat)) :
    Writes negative d (whole ++ '.' :: fraction) := by
  have isFloat : some (fraction.map digitValue) ≠ none ∨ (none : Option Int) ≠ none :=
    .inl (Option.some_ne_none _)
  rw [List.map_append] at coefficient
  have written := @writes_of_digits negative d whole _ [] _ _ wholeDigits noZero
    (.present fractionDigits) .absent isFloat coefficient ?_ small
  · rwa [List.append_nil] at written
  · rw [Option.getD_some, List.length_map, Option.getD_none, Int.zero_sub]
    exact place

theorem writes_whole (negative : Bool) {d : Decimal} (whole : 0 ≤ d.exponent)
    (ofZero : d.coefficient = 0 → d.exponent = 0)
    (small : d.coefficient * 10 ^ (d.exponent.toNat + 1) < 2 ^ (64 : Nat)) :
    Writes negative ⟨d.coefficient * 10 ^ (d.exponent.toNat + 1), -1⟩
      (d.positional ++ ['.', '0']) := by
  obtain ⟨wholeDigits, noZero, value⟩ := Decimal.positional_of_whole whole ofZero
  have oneZero : Digits ['0'] := ⟨List.cons_ne_nil _ _, List.forall_mem_singleton.mpr rfl⟩
  refine writes_point negative wholeDigits noZero oneZero ?_ rfl small
  rw [List.map_append, ofDigits_append, value]
  exact Nat.mul_assoc _ _ _

theorem writes_fraction (negative : Bool) {d : Decimal} (part : d.exponent < 0)
    (ofZero : d.coefficient = 0 → d.exponent = 0) (small : d.coefficient < 2 ^ (64 : Nat)) :
    Writes negative d d.positional := by
  obtain ⟨whole, fraction, splits⟩ := Decimal.exists_splits part ofZero
  rw [splits.text]
  refine writes_point negative splits.wholeDigits splits.noZero splits.fractionDigits splits.value
    ?_ small
  rw [splits.places, neg_neg]

/-- A whole number that is written without an exponent has at most 16 digits. -/
theorem tenths_lt {d : Decimal} (whole : d.WrittenWhole) :
    d.coefficient * 10 ^ (d.exponent.toNat + 1) < 2 ^ (64 : Nat) := by
  have leading : d.leadingExponent = d.exponent + (digits d.coefficient).length - 1 := rfl
  obtain ⟨⟨_, few⟩, nonnegative⟩ := whole
  calc d.coefficient * 10 ^ (d.exponent.toNat + 1)
      < 10 ^ (digits d.coefficient).length * 10 ^ (d.exponent.toNat + 1) :=
        Nat.mul_lt_mul_of_pos_right (Decimal.lt_pow_length_digits _) (Nat.pow_pos (by decide))
    _ = 10 ^ ((digits d.coefficient).length + (d.exponent.toNat + 1)) := (Nat.pow_add 10 _ _).symm
    _ ≤ 10 ^ (17 : Nat) := Nat.pow_le_pow_right (by decide) (by omega)
    _ < 2 ^ (64 : Nat) := by decide

/-- The JSON text of a decimal is read as the decimal. -/
theorem writes_jsonText (negative : Bool) {d : Decimal}
    (ofZero : d.coefficient = 0 → d.exponent = 0) (small : d.coefficient < 2 ^ (64 : Nat)) :
    Writes negative d.asRead d.jsonText := by
  rw [Decimal.jsonText, Decimal.asRead]
  by_cases moderate : -5 ≤ d.leadingExponent ∧ d.leadingExponent ≤ 15
  · rw [if_pos moderate]
    by_cases whole : 0 ≤ d.exponent
    · have written : d.WrittenWhole := ⟨moderate, whole⟩
      rw [if_pos whole, if_pos written]
      exact writes_whole negative whole ofZero (tenths_lt written)
    · rw [if_neg whole, if_neg fun written : d.WrittenWhole => whole written.2]
      exact writes_fraction negative (Int.not_le.mp whole) ofZero small
  · rw [if_neg moderate, if_neg fun written : d.WrittenWhole => moderate written.1]
    exact writes_scientific negative small

end Json.Numeral

end FilterQuery
