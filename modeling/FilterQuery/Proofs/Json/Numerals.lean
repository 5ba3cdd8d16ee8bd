import Mathlib.Data.List.Basic
import Mathlib.Data.List.TakeWhile
import FilterQuery.Proofs.Json.Grammar

/-!
JSON numerals, read and written. A numeral is read from the texts that the grammar gives it, if no
character follows that could continue it (`scan_of_writtenAs`), and from no other text
(`exists_writtenAs_of_scan`). An integer of 64 bits is written as a numeral of its value.
-/
namespace FilterQuery.Json

namespace Numeral

/-- The text does not go on with a digit. -/
def EndsDigits (text : List Char) : Prop := ∀ c ∈ text.head?, c.isDigit = false

/-- The character may stand in a numeral behind a digit. -/
def continues (c : Char) : Bool := c.isDigit || c = '.' || c = 'e' || c = 'E'

/-- The text does not go on with a character that could continue a numeral. -/
def Ends (text : List Char) : Prop := ∀ c ∈ text.head?, continues c = false

theorem ends_nil : Ends [] := by
  intro c first
  cases first

theorem ends_cons {c : Char} (other : continues c = false) (text : List Char) :
    Ends (c :: text) := by
  intro d first
  cases Option.mem_some_iff.mp first
  exact other

theorem endsDigits_cons {c : Char} (other : c.isDigit = false) (text : List Char) :
    EndsDigits (c :: text) := by
  intro d first
  cases Option.mem_some_iff.mp first
  exact other

theorem Ends.endsDigits {text : List Char} (ends : Ends text) : EndsDigits text := by
  intro c first
  have none := ends c first
  simp only [continues, Bool.or_eq_false_iff] at none
  exact none.1.1.1

theorem scanDigits_append {digits rest : List Char} (written : Digits digits)
    (ends : EndsDigits rest) : scanDigits (digits ++ rest) = .ok (digits.map digitValue, rest) := by
  obtain ⟨some, all⟩ := written
  have spanned : spanDigits (digits ++ rest) = (digits.map digitValue, rest) := by
    rw [spanDigits, List.takeWhile_append_of_pos all, List.dropWhile_append_of_pos all]
    cases rest with
    | nil => rw [List.takeWhile_nil, List.dropWhile_nil, List.append_nil]
    | cons c rest =>
      have other : ¬ c.isDigit = true := by simp [ends c rfl]
      rw [List.takeWhile_cons_of_neg other, List.dropWhile_cons_of_neg other, List.append_nil]
  cases digits with
  | nil => exact absurd rfl some
  | cons c digits =>
    rw [List.cons_append] at spanned ⊢
    rw [scanDigits, if_pos (all c List.mem_cons_self), spanned]

theorem exists_digits_of_scanDigits {input rest : List Char} {values : List Nat}
    (scanned : scanDigits input = .ok (values, rest)) :
    ∃ digits, input = digits ++ rest ∧ Digits digits ∧ values = digits.map digitValue := by
  cases input with
  | nil => cases scanned
  | cons c tail =>
    rw [scanDigits] at scanned
    split at scanned <;> try contradiction
    rename_i digit
    cases scanned
    refine ⟨(c :: tail).takeWhile Char.isDigit, List.takeWhile_append_dropWhile.symm,
      ⟨?_, fun _ member => List.mem_takeWhile_imp member⟩, rfl⟩
    rw [List.takeWhile_cons_of_pos digit]
    exact List.cons_ne_nil _ _

theorem scanWhole_append {digits rest : List Char} (written : Digits digits)
    (noZero : digits.head? = some '0' → digits = ['0']) (ends : EndsDigits rest) :
    scanWhole (digits ++ rest) = .ok (digits.map digitValue, rest) := by
  have scanned := scanDigits_append written ends
  unfold scanWhole
  split
  case h_1 c tail split =>
    cases digits with
    | nil => exact absurd rfl written.1
    | cons d digits =>
      obtain rfl := (List.cons.inj split).1
      cases noZero rfl
      obtain rfl : rest = c :: tail := (List.cons.inj split).2
      rw [if_neg (by simp [ends c rfl])]
      rfl
  case h_2 => exact scanned

theorem exists_digits_of_scanWhole {input rest : List Char} {values : List Nat}
    (scanned : scanWhole input = .ok (values, rest)) :
    ∃ digits, input = digits ++ rest ∧ Digits digits ∧
      (digits.head? = some '0' → digits = ['0']) ∧ values = digits.map digitValue := by
  unfold scanWhole at scanned
  split at scanned
  case h_1 c tail =>
    split at scanned <;> try contradiction
    cases scanned
    exact ⟨['0'], rfl, ⟨List.cons_ne_nil _ _, List.forall_mem_singleton.mpr rfl⟩, fun _ => rfl, rfl⟩
  case h_2 notLeading =>
    obtain ⟨digits, rfl, written, same⟩ := exists_digits_of_scanDigits scanned
    refine ⟨digits, rfl, written, ?_, same⟩
    intro zero
    cases digits with
    | nil => cases zero
    | cons d digits =>
      cases zero
      cases digits with
      | nil => rfl
      | cons d digits => exact absurd rfl (notLeading d (digits ++ rest))

theorem scanFraction_append {digits : Option (List Nat)} {text rest : List Char}
    (written : FractionText digits text) (noPoint : rest.head? ≠ some '.')
    (ends : EndsDigits rest) : scanFraction (text ++ rest) = .ok (digits, rest) := by
  cases written with
  | absent =>
    unfold scanFraction
    split
    case h_1 tail point =>
      rw [List.nil_append] at point
      exact absurd (congrArg List.head? point) noPoint
    case h_2 => rfl
  | present written =>
    rw [List.cons_append, scanFraction, scanDigits_append written ends]
    rfl

theorem exists_text_of_scanFraction {input rest : List Char} {digits : Option (List Nat)}
    (scanned : scanFraction input = .ok (digits, rest)) :
    ∃ text, input = text ++ rest ∧ FractionText digits text := by
  unfold scanFraction at scanned
  split at scanned
  case h_1 tail =>
    obtain ⟨result, scannedDigits, scanned⟩ := bind_eq_ok.mp scanned
    cases scanned
    obtain ⟨text, rfl, written, same⟩ := exists_digits_of_scanDigits scannedDigits
    exact ⟨'.' :: text, rfl, same ▸ .present written⟩
  case h_2 =>
    cases scanned
    exact ⟨[], rfl, .absent⟩

theorem scanSign_cases (input : List Char) :
    (∃ rest, input = '-' :: rest ∧ scanSign input = (true, rest)) ∨
      (∃ rest, input = '+' :: rest ∧ scanSign input = (false, rest)) ∨
      scanSign input = (false, input) := by
  unfold scanSign
  split
  case h_1 rest => exact .inl ⟨rest, rfl, rfl⟩
  case h_2 rest => exact .inr (.inl ⟨rest, rfl, rfl⟩)
  case h_3 => exact .inr (.inr rfl)

/-- Digits are not taken for a sign. -/
theorem scanSign_digits {digits : List Char} (written : Digits digits) (rest : List Char) :
    scanSign (digits ++ rest) = (false, digits ++ rest) := by
  cases digits with
  | nil => exact absurd rfl written.1
  | cons c digits =>
    have digit := written.2 c List.mem_cons_self
    obtain ⟨_, minus, _⟩ | ⟨_, plus, _⟩ | same := scanSign_cases (c :: digits ++ rest)
    · rw [(List.cons.inj minus).1] at digit
      cases digit
    · rw [(List.cons.inj plus).1] at digit
      cases digit
    · exact same

theorem scanExponent_append {power : Option Int} {text rest : List Char}
    (written : ExponentText power text) (ends : Ends rest) :
    scanExponent (text ++ rest) = .ok (power, rest) := by
  cases written with
  | absent =>
    cases rest with
    | nil => rfl
    | cons c rest =>
      have other := ends c rfl
      have noLetter : ¬ (c = 'e' ∨ c = 'E') := by
        rintro (rfl | rfl) <;> exact absurd other (by decide)
      rw [List.nil_append, scanExponent, if_neg noLetter]
      rfl
  | unsigned letter written =>
    rw [List.cons_append, scanExponent, if_pos letter, scanSign_digits written]
    dsimp only
    rw [scanDigits_append written ends.endsDigits]
    rfl
  | plus letter written =>
    rw [List.cons_append, List.cons_append, scanExponent, if_pos letter, scanSign]
    dsimp only
    rw [scanDigits_append written ends.endsDigits]
    rfl
  | minus letter written =>
    rw [List.cons_append, List.cons_append, scanExponent, if_pos letter, scanSign]
    dsimp only
    rw [scanDigits_append written ends.endsDigits]
    rfl

theorem exists_text_of_scanExponent {input rest : List Char} {power : Option Int}
    (scanned : scanExponent input = .ok (power, rest)) :
    ∃ text, input = text ++ rest ∧ ExponentText power text := by
  have signed (negative : Bool) {tail : List Char}
      (scanned : (do
          let result ← scanDigits tail
          return (some (if negative then -(ofDigits result.1 : Int) else ofDigits result.1),
            result.2)) =
        (.ok (power, rest) : Except Failure (Option Int × List Char))) :
      ∃ digits, tail = digits ++ rest ∧ Digits digits ∧
        power = some (if negative then -(ofDigits (digits.map digitValue) : Int)
          else ofDigits (digits.map digitValue)) := by
    obtain ⟨result, scannedDigits, scanned⟩ := bind_eq_ok.mp scanned
    cases scanned
    obtain ⟨digits, following, written, same⟩ := exists_digits_of_scanDigits scannedDigits
    exact ⟨digits, following, written, by rw [same]⟩
  cases input with
  | nil =>
    cases scanned
    exact ⟨[], rfl, .absent⟩
  | cons c tail =>
    rw [scanExponent] at scanned
    split at scanned
    case isTrue letter =>
      obtain ⟨_, rfl, sign⟩ | ⟨_, rfl, sign⟩ | sign := scanSign_cases tail <;> rw [sign] at scanned
      · obtain ⟨digits, rfl, written, rfl⟩ := signed true scanned
        exact ⟨c :: '-' :: digits, rfl, .minus letter written⟩
      · obtain ⟨digits, rfl, written, rfl⟩ := signed false scanned
        exact ⟨c :: '+' :: digits, rfl, .plus letter written⟩
      · obtain ⟨digits, rfl, written, rfl⟩ := signed false scanned
        exact ⟨c :: digits, rfl, .unsigned letter written⟩
    case isFalse =>
      cases scanned
      exact ⟨[], rfl, .absent⟩

/-- An exponent, or what follows it, is not taken for a fraction or for further digits. -/
theorem exponent_ends {power : Option Int} {text rest : List Char}
    (written : ExponentText power text) (ends : Ends rest) :
    (text ++ rest).head? ≠ some '.' ∧ EndsDigits (text ++ rest) := by
  cases written with
  | absent => exact ⟨fun point => absurd (ends '.' point) (by decide), ends.endsDigits⟩
  | unsigned letter | plus letter | minus letter =>
    refine ⟨?_, endsDigits_cons ?_ _⟩
    · rcases letter with rfl | rfl <;> simp
    · rcases letter with rfl | rfl <;> rfl

/-- A fraction, or what follows it, is not taken for further digits. -/
theorem fraction_ends {digits : Option (List Nat)} {text rest : List Char}
    (written : FractionText digits text) (ends : EndsDigits rest) : EndsDigits (text ++ rest) := by
  cases written with
  | absent => exact ends
  | present => exact endsDigits_cons rfl _

/-- Only a minus sign makes a numeral negative. -/
theorem scan_cases (input : List Char) :
    (∃ rest, input = '-' :: rest ∧ scan input = scan.unsigned true rest) ∨
      scan input = scan.unsigned false input := by
  unfold scan
  split
  case h_1 rest => exact .inl ⟨rest, rfl, rfl⟩
  case h_2 => exact .inr rfl

/-- A numeral is read as it is written, if nothing follows that could continue it. -/
theorem scan_of_writtenAs {numeral : Numeral} {text rest : List Char}
    (written : numeral.WrittenAs text) (ends : Ends rest) :
    scan (text ++ rest) = .ok (numeral, rest) := by
  obtain @⟨negative, whole, fraction, exponent, digits, power, wholeDigits, noZero, fractionText,
    exponentText⟩ := written
  obtain ⟨noPoint, endsExponent⟩ := exponent_ends exponentText ends
  have scanned : scan.unsigned negative (whole ++ (fraction ++ (exponent ++ rest))) =
      .ok (⟨negative, whole.map digitValue, digits, power⟩, rest) := by
    have endsFraction := fraction_ends fractionText endsExponent
    rw [scan.unsigned, scanWhole_append wholeDigits noZero endsFraction]
    dsimp only [bind, Except.bind]
    rw [scanFraction_append fractionText noPoint endsExponent]
    dsimp only
    rw [scanExponent_append exponentText ends]
    rfl
  simp only [List.append_assoc]
  cases negative with
  | true => exact scanned
  | false =>
    obtain ⟨_, minus, _⟩ | same := scan_cases (whole ++ (fraction ++ (exponent ++ rest)))
    · cases whole with
      | nil => exact absurd rfl wholeDigits.1
      | cons c whole =>
        have digit := wholeDigits.2 c List.mem_cons_self
        rw [(List.cons.inj minus).1] at digit
        cases digit
    · exact same.trans scanned

/-- A numeral is read only from what it is written as. -/
theorem exists_writtenAs_of_scan {input rest : List Char} {numeral : Numeral}
    (scanned : scan input = .ok (numeral, rest)) :
    ∃ text, input = text ++ rest ∧ numeral.WrittenAs text := by
  have unsigned {negative : Bool} {tail : List Char}
      (scanned : scan.unsigned negative tail = .ok (numeral, rest)) :
      ∃ text, signText negative ++ tail = text ++ rest ∧ numeral.WrittenAs text := by
    obtain ⟨whole, scannedWhole, scanned⟩ := bind_eq_ok.mp scanned
    obtain ⟨fraction, scannedFraction, scanned⟩ := bind_eq_ok.mp scanned
    obtain ⟨exponent, scannedExponent, scanned⟩ := bind_eq_ok.mp scanned
    cases scanned
    obtain ⟨wholeText, rfl, wholeDigits, noZero, sameWhole⟩ :=
      exists_digits_of_scanWhole scannedWhole
    obtain ⟨fractionText, following, writtenFraction⟩ := exists_text_of_scanFraction scannedFraction
    obtain ⟨exponentText, last, writtenExponent⟩ := exists_text_of_scanExponent scannedExponent
    rw [following, last, sameWhole]
    refine ⟨_, ?_, .mk wholeDigits noZero writtenFraction writtenExponent⟩
    simp only [List.append_assoc]
  obtain ⟨tail, rfl, same⟩ | same := scan_cases input
  · exact unsigned (same ▸ scanned)
  · exact unsigned (same ▸ scanned)

theorem le_foldl_digits (n : Nat) (digits : List Nat) :
    n ≤ digits.foldl (fun n digit => n * 10 + digit) n := by
  induction digits generalizing n with
  | nil => exact Nat.le_refl n
  | cons digit digits ih =>
    refine Nat.le_trans ?_ (ih (n * 10 + digit))
    omega

/-- Digits of a number below 2^64 are absorbed one and all. -/
theorem absorb_of_lt {n : Nat} {digits : List Nat}
    (small : digits.foldl (fun n digit => n * 10 + digit) n < 2 ^ (64 : Nat)) :
    absorb n digits = (digits.foldl (fun n digit => n * 10 + digit) n, []) := by
  induction digits generalizing n with
  | nil => rfl
  | cons digit digits ih =>
    rw [List.foldl_cons] at small
    rw [absorb, if_pos (Nat.lt_of_le_of_lt (le_foldl_digits _ digits) small), ih small,
      List.foldl_cons]

theorem ofDigits_digits (n : Nat) : ofDigits ((Decimal.digits n).map digitValue) = n := by
  have read : Nat.ofDigitChars 10 (Nat.toDigits 10 n) 0 = n :=
    Nat.ofDigitChars_toDigits (by decide) (by decide)
  rw [Nat.ofDigitChars_eq_foldl] at read
  rw [ofDigits, Decimal.digits, List.foldl_map]
  simpa only [digitValue, Nat.mul_comm 10] using read

theorem digits_digits (n : Nat) : Digits (Decimal.digits n) :=
  ⟨Nat.toDigits_ne_nil, fun _ member => Nat.isDigit_of_mem_toDigits (by decide) (by decide) member⟩

/-- No number but zero starts with the digit zero. -/
theorem eq_zero_of_head?_digits (n : Nat) (zero : (Decimal.digits n).head? = some '0') : n = 0 := by
  rw [Decimal.digits] at zero
  by_cases small : n < 10
  · rw [Nat.toDigits_of_lt_base small] at zero
    exact Nat.digitChar_eq_zero.mp (Option.some.inj zero)
  · rw [Nat.toDigits_of_base_le (by decide) (Nat.not_lt.mp small), List.head?_append_of_ne_nil _
      Nat.toDigits_ne_nil] at zero
    have quotient := eq_zero_of_head?_digits (n / 10) zero
    omega

/-- The numeral of an integer. -/
def ofInt (n : Int) : Numeral :=
  ⟨n < 0, (Decimal.digits n.natAbs).map digitValue, none, none⟩

theorem writtenAs_intText (n : Int) : (ofInt n).WrittenAs (intText n) := by
  have noZero : (Decimal.digits n.natAbs).head? = some '0' → Decimal.digits n.natAbs = ['0'] := by
    intro zero
    rw [eq_zero_of_head?_digits _ zero]
    rfl
  have written : (ofInt n).WrittenAs (signText (n < 0) ++ Decimal.digits n.natAbs ++ [] ++ []) :=
    .mk (digits_digits n.natAbs) noZero .absent .absent
  rwa [List.append_nil, List.append_nil] at written

/-- The digits of an integer's numeral are absorbed if it fits 64 bits without its sign. -/
theorem value?_ofInt_of_lt {n : Int} (small : n.natAbs < 2 ^ (64 : Nat)) :
    (ofInt n).value? = integer? (n < 0) n.natAbs := by
  have read := ofDigits_digits n.natAbs
  have absorbed : absorb 0 (ofInt n).whole = (n.natAbs, []) := by
    rw [← read] at small
    exact (absorb_of_lt small).trans (congrArg (·, []) read)
  rw [value?, absorbed]
  rfl

/-- An integer that fits 64 bits, with a sign or without one, is the value of its numeral. -/
theorem value?_ofInt_of_fits {n : Int} (lower : -9223372036854775808 ≤ n)
    (upper : n < 18446744073709551616) : (ofInt n).value? = some (.integer n) := by
  rw [value?_ofInt_of_lt (by omega), integer?]
  simp only [decide_eq_true_eq]
  by_cases negative : n < 0
  · rw [if_pos negative, if_neg (by omega)]
    exact congrArg (some ∘ Number.integer) (by omega)
  · rw [if_neg negative]
    exact congrArg (some ∘ Number.integer) (by omega)

theorem value?_ofInt (n : Int64) : (ofInt n.toInt).value? = some (.integer n.toInt) := by
  have upper : n.toInt < 9223372036854775808 := Int64.toInt_lt n
  exact value?_ofInt_of_fits (Int64.le_toInt n) (by omega)

end Numeral

/-- What is read from a numeral is its value, and one beyond the largest float is refused. -/
theorem Reader.run_numeral {numeral : Numeral} {text rest : List Char}
    (written : numeral.WrittenAs text) (ends : Numeral.Ends rest) :
    Reader.number.run (text ++ rest) =
      (numeral.value?.elim (.error .malformed) .ok : Except Failure Number).map (·, rest) := by
  simp only [Reader.number, Reader.check, Numeral.scan_of_writtenAs written ends]
  cases numeral.value? <;> rfl

theorem Reader.exists_writtenAs_of_number {number : Number} {input rest : List Char}
    (read : Reader.number.run input = .ok (number, rest)) :
    ∃ text, input = text ++ rest ∧ WrittenAs (.number number) text := by
  simp only [Reader.number, Reader.check] at read
  split at read <;> try contradiction
  rename_i numeral left scanned
  obtain ⟨text, rfl, written⟩ := Numeral.exists_writtenAs_of_scan scanned
  split at read <;> try contradiction
  rename_i result evaluated
  split at evaluated <;> try contradiction
  rename_i value
  cases evaluated
  cases read
  exact ⟨text, rfl, .number written value⟩

end FilterQuery.Json
