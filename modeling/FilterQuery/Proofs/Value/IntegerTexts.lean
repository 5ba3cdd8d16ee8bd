import FilterQuery.Proofs.Json.Integers
import FilterQuery.Proofs.Number.Exact
import FilterQuery.Proofs.Value.Rereading

/-!
Integers as values. An integer of 64 bits is written as its digits, and these are read as the same
integer. The digits of any other integer are read as a float of its sign close to it, or refused if
that would be beyond the largest float, but never as an integer
(`Value.integers_never_wrap`).
-/
namespace FilterQuery.Value

/-- What is read from the text of an integer is the value of its numeral. -/
theorem ofText_intText (n : Int) : ofText (String.ofList (intText n)) =
    (Json.Numeral.ofInt n).value?.elim (.error .malformed) fun number => .ok (ofNumber number) := by
  refine ofText_of_numeral ?_
  rw [String.toList_ofList]
  exact Json.Numeral.writtenAs_intText n

theorem ofText_int (k : Int64) : ofText (String.ofList (intText k.toInt)) = .ok (int k) := by
  rw [ofText_intText, Json.Numeral.value?_ofInt]
  exact congrArg _ (ofNumber_toInt k)

/-- An integer that fits 64 bits only without a sign becomes a float. -/
theorem ofNumber_of_large {n : Int} (large : 9223372036854775808 ≤ n)
    (small : n < 18446744073709551616) :
    ∃ magnitude, ofNumber (.integer n) = float (.finite (n < 0) magnitude) ∧
      magnitude.CloseTo n.natAbs := by
  have most : Int64.maxValue.toInt = 9223372036854775807 := rfl
  have few : n.natAbs ≤ 2 ^ (64 : Nat) := by omega
  have inside : Magnitude.roundUnits n.natAbs 1 < Magnitude.limit :=
    Magnitude.roundUnits_lt_limit (few.trans (by decide +kernel))
  refine ⟨⟨_, Magnitude.representable_roundUnits inside⟩, ?_, Magnitude.closeTo_of_rounded rfl⟩
  rw [ofNumber, if_neg (by omega), Binary64.ofInt, Binary64.ofFraction_of_lt _ inside]

/-- An integer that is not one of 64 bits is read as a float close to it, or refused. -/
theorem ofText_of_far {n : Int} (far : n < -9223372036854775808 ∨ 9223372036854775808 ≤ n) :
    (∃ magnitude, ofText (String.ofList (intText n)) = .ok (float (.finite (n < 0) magnitude)) ∧
        magnitude.CloseTo n.natAbs) ∨
      ofText (String.ofList (intText n)) = .error .malformed ∧
        (2 ^ 1024 : ℚ) ≤ n.natAbs + n.natAbs / 2 ^ 50 := by
  rw [ofText_intText]
  by_cases fits : 9223372036854775808 ≤ n ∧ n < 18446744073709551616
  · obtain ⟨magnitude, same, close⟩ := ofNumber_of_large fits.1 fits.2
    rw [Json.Numeral.value?_ofInt_of_fits (by omega) fits.2]
    exact .inl ⟨magnitude, congrArg _ same, close⟩
  · obtain ⟨s, k, leads, value⟩ := Json.Numeral.exists_leads (n := n) (by omega)
    have float := Decimal.float?_eq (n < 0) ⟨s, k⟩
    dsimp only at float
    rw [value, float]
    rcases leads.read?_cases with ⟨magnitude, found, close⟩ | ⟨refused, large⟩
    · rw [found]
      exact .inl ⟨magnitude, rfl, close⟩
    · rw [refused]
      exact .inr ⟨rfl, large⟩

/-- The integers of 64 bits. -/
theorem exists_toInt_iff {n : Int} :
    (∃ k : Int64, k.toInt = n) ↔ -2 ^ (63 : Nat) ≤ n ∧ n ≤ 2 ^ (63 : Nat) - 1 := by
  constructor
  · rintro ⟨k, rfl⟩
    have lower : -9223372036854775808 ≤ k.toInt := Int64.le_toInt k
    have upper : k.toInt < 9223372036854775808 := Int64.toInt_lt k
    constructor <;> omega
  · rintro ⟨lower, upper⟩
    exact ⟨Int64.ofInt n, Int64.toInt_ofInt_of_le (by omega) (by omega)⟩

/-- Every integer has one text. What is read from it is the integer exactly if that is one of 64 bits;
otherwise it is a finite float of the same sign, of the size of the integer up to one part in 2^50,
or the text is refused as no JSON, since the integer is about 2^1024 or more. An integer of 64 bits
is written as this text in a query and in JSON, so it is read back; minus zero is a float. -/
theorem integers_never_wrap :
    (∀ n : Int, ∃ text : String, (∀ other : String, IntegerText n other.toList ↔ other = text) ∧
      ((∃ k : Int64, ofText text = .ok (int k) ∧ k.toInt = n) ↔
        -2 ^ (63 : Nat) ≤ n ∧ n ≤ 2 ^ (63 : Nat) - 1) ∧
      ((-2 ^ (63 : Nat) ≤ n ∧ n ≤ 2 ^ (63 : Nat) - 1) ∨
        (∃ magnitude, ofText text = .ok (float (.finite (n < 0) magnitude)) ∧
          magnitude.CloseTo n.natAbs) ∨
        ∃ failure, ofText text = .error failure ∧ failure.category = "syntax" ∧
          (2 ^ 1024 : ℚ) ≤ n.natAbs + n.natAbs / 2 ^ 50)) ∧
    (∀ k : Int64, IntegerText k.toInt (int k).queryText.toList ∧
      (int k).toJson.toText = (int k).queryText ∧ ofText (int k).toJson.toText = .ok (int k)) ∧
    ofText "-0" = .ok (float (.finite true .zero)) := by
  refine ⟨fun n => ⟨String.ofList (intText n), fun other => ?_, ⟨?_, fun fits => ?_⟩, ?_⟩,
    fun k => ⟨?_, rfl, ofText_int k⟩, by decide +kernel⟩
  · rw [integerText_iff, ← String.toList_inj, String.toList_ofList]
  · rintro ⟨k, _, same⟩
    exact exists_toInt_iff.mp ⟨k, same⟩
  · obtain ⟨k, rfl⟩ := exists_toInt_iff.mpr fits
    exact ⟨k, ofText_int k, rfl⟩
  · by_cases fits : -2 ^ (63 : Nat) ≤ n ∧ n ≤ 2 ^ (63 : Nat) - 1
    · exact .inl fits
    · rcases ofText_of_far (n := n) (by omega) with read | ⟨refused, large⟩
      · exact .inr (.inl read)
      · exact .inr (.inr ⟨_, refused, rfl, large⟩)
  · rw [queryText, String.toList_ofList]
    exact integerText_intText k.toInt

/-- The integers next to those of 64 bits. -/
example : ofText "9223372036854775808" = .ok (float (.ofBits 0x43E0000000000000)) ∧
    ofText "-9223372036854775809" = .ok (float (.ofBits 0xC3E0000000000000)) := by
  decide +kernel

end FilterQuery.Value
