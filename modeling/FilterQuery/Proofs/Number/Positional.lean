import FilterQuery.Number.Layout
import FilterQuery.Proofs.Json.Numerals
import FilterQuery.Proofs.Number.Shortest

/-!
Numbers as digits around a point. A text of digits, possibly with a point among them, stands for one
number (`PositionalText.unique`). The positional layout of a decimal is such a text, and the number
is that of the decimal (`positionalText_positional`).
-/
namespace FilterQuery

namespace Json.Numeral

open Decimal (digits)

theorem ofDigits_append (front back : List Nat) :
    ofDigits (front ++ back) = back.foldl (fun n digit => n * 10 + digit) (ofDigits front) :=
  List.foldl_append

theorem ofDigits_append_zeros (digits : List Nat) (n : Nat) :
    ofDigits (digits ++ List.replicate n 0) = ofDigits digits * 10 ^ n := by
  induction n with
  | zero => rw [List.replicate_zero, List.append_nil, Nat.pow_zero, Nat.mul_one]
  | succ n ih =>
    rw [List.replicate_succ', ← List.append_assoc, ofDigits_append, ih, List.foldl_cons,
      List.foldl_nil, Nat.pow_succ, Nat.mul_assoc, Nat.add_zero]

theorem ofDigits_zeros_append (n : Nat) (digits : List Nat) :
    ofDigits (List.replicate n 0 ++ digits) = ofDigits digits := by
  induction n with
  | zero => rfl
  | succ n ih => exact ih

theorem digits_zeros (n : Nat) : ∀ c ∈ List.replicate n '0', c.isDigit = true := by
  intro c member
  rw [List.eq_of_mem_replicate member]
  rfl

theorem Digits.append {front back : List Char} (digits : Digits front)
    (all : ∀ c ∈ back, c.isDigit = true) : Digits (front ++ back) :=
  ⟨List.append_ne_nil_of_left_ne_nil digits.1 _,
    fun c member => (List.mem_append.mp member).elim (digits.2 c) (all c)⟩

theorem Digits.point_notMem {text : List Char} (digits : Digits text) : '.' ∉ text :=
  fun member => absurd (digits.2 '.' member) (by decide)

/-- Only the number zero has a text of digits that starts with zero. -/
theorem eq_zero_of_head?_append {n : Nat} {front back : List Char}
    (split : digits n = front ++ back) (zero : front.head? = some '0') : n = 0 := by
  refine eq_zero_of_head?_digits _ ?_
  rw [split]
  exact List.mem_head?_append_of_mem_head? zero

theorem getLast?_digits (n : Nat) : (digits n).getLast? = some (Nat.digitChar (n % 10)) := by
  rw [digits]
  by_cases small : n < 10
  · rw [Nat.toDigits_of_lt_base small, Nat.mod_eq_of_lt small]
    rfl
  · rw [Nat.toDigits_of_base_le (by decide) (Nat.not_lt.mp small), List.getLast?_concat]

end Json.Numeral

namespace Decimal

open Json.Numeral

/-- The text of a number that is not negative, without an exponent: digits, of which the first is
not a zero before another one, and possibly a point and more digits, of which the last is not zero.
-/
inductive PositionalText : ℚ → List Char → Prop
  | whole {digits : List Char} : Digits digits → (digits.head? = some '0' → digits = ['0']) →
      PositionalText (ofDigits (digits.map digitValue) : Nat) digits
  | pointed {whole fraction : List Char} : Digits whole →
      (whole.head? = some '0' → whole = ['0']) → Digits fraction → fraction.getLast? ≠ some '0' →
      PositionalText ((ofDigits ((whole ++ fraction).map digitValue) : Nat) / 10 ^ fraction.length)
        (whole ++ '.' :: fraction)

variable {q q' : ℚ} {text text' : List Char}

theorem PositionalText.exists_cons (written : PositionalText q text) :
    ∃ c tail, text = c :: tail ∧ c.isDigit = true := by
  cases written with
  | whole digits =>
    obtain ⟨c, tail, rfl⟩ := List.exists_cons_of_ne_nil digits.1
    exact ⟨c, tail, rfl, digits.2 c List.mem_cons_self⟩
  | @pointed whole fraction digits =>
    obtain ⟨c, tail, rfl⟩ := List.exists_cons_of_ne_nil digits.1
    exact ⟨c, tail ++ '.' :: fraction, rfl, digits.2 c List.mem_cons_self⟩

/-- A text is that of one number. -/
theorem PositionalText.unique (first : PositionalText q text) (second : PositionalText q' text) :
    q = q' := by
  cases first with
  | whole digits =>
    cases second with
    | whole => rfl
    | pointed => exact absurd (by simp) digits.point_notMem
  | @pointed whole fraction digits _ fractionDigits =>
    generalize same : whole ++ '.' :: fraction = text at second
    cases second with
    | whole digits' =>
      subst same
      exact absurd (by simp) digits'.point_notMem
    | pointed digits' _ fractionDigits' =>
      obtain ⟨rfl, -, rfl⟩ := (List.append_cons_inj_of_notMem digits.point_notMem
        fractionDigits.point_notMem).mp same
      rfl

/-- A sign and the text of a number are told apart. -/
theorem PositionalText.signText_append_inj (first : PositionalText q text)
    (second : PositionalText q' text') {negative negative' : Bool}
    (same : signText negative ++ text = signText negative' ++ text') :
    negative = negative' ∧ text = text' := by
  obtain ⟨c, tail, rfl, digit⟩ := first.exists_cons
  obtain ⟨c', tail', rfl, digit'⟩ := second.exists_cons
  cases negative <;> cases negative'
  · exact ⟨rfl, same⟩
  · cases (List.cons.inj same).1
    cases digit
  · cases (List.cons.inj same).1
    cases digit'
  · exact ⟨rfl, (List.cons.inj same).2⟩

/-- The digits before and behind the point in the layout of a decimal. -/
structure Splits (d : Decimal) (whole fraction : List Char) : Prop where
  text : d.positional = whole ++ '.' :: fraction
  wholeDigits : Digits whole
  noZero : whole.head? = some '0' → whole = ['0']
  fractionDigits : Digits fraction
  value : ofDigits ((whole ++ fraction).map digitValue) = d.coefficient
  places : (fraction.length : Int) = -d.exponent
  last : fraction.getLast? = (digits d.coefficient).getLast?

variable {d : Decimal}

/-- A whole number is its digits and zeros. -/
theorem positional_of_whole (whole : 0 ≤ d.exponent) (ofZero : d.coefficient = 0 → d.exponent = 0) :
    Digits d.positional ∧ (d.positional.head? = some '0' → d.positional = ['0']) ∧
      ofDigits (d.positional.map digitValue) = d.coefficient * 10 ^ d.exponent.toNat := by
  have written := digits_digits d.coefficient
  have zeros := digits_zeros d.exponent.toNat
  rw [positional, if_pos whole]
  refine ⟨written.append zeros, fun zero => ?_, ?_⟩
  · rw [List.head?_append_of_ne_nil _ written.1] at zero
    have isZero := eq_zero_of_head?_digits _ zero
    rw [ofZero isZero, isZero]
    rfl
  · have places : (List.replicate d.exponent.toNat '0').map digitValue =
        List.replicate d.exponent.toNat 0 := List.map_replicate
    rw [List.map_append, places, ofDigits_append_zeros, ofDigits_digits]

/-- The point stands among the digits. -/
theorem splits_inside (part : d.exponent < 0) (ofZero : d.coefficient = 0 → d.exponent = 0) {w : Nat}
    (some : 0 < w) (place : (digits d.coefficient).length + d.exponent = w) :
    d.Splits ((digits d.coefficient).take w) ((digits d.coefficient).drop w) := by
  have all := (digits_digits d.coefficient).2
  have read := ofDigits_digits d.coefficient
  have text : d.positional =
      (digits d.coefficient).take w ++ '.' :: (digits d.coefficient).drop w := by
    rw [positional, if_neg (Int.not_le.mpr part), place, if_pos (Int.natCast_pos.mpr some),
      Int.toNat_natCast]
  generalize split : digits d.coefficient = ds at all read place text ⊢
  have front : ds.take w ≠ [] := by
    rw [← List.length_pos_iff, List.length_take]
    omega
  have back : ds.drop w ≠ [] := by
    rw [← List.length_pos_iff, List.length_drop]
    omega
  refine ⟨text, ⟨front, fun c member => all c (List.mem_of_mem_take member)⟩, fun zero => ?_,
    ⟨back, fun c member => all c (List.mem_of_mem_drop member)⟩, ?_, ?_, ?_⟩
  · have isZero := eq_zero_of_head?_append (split.trans (List.take_append_drop w ds).symm) zero
    exact absurd (ofZero isZero) part.ne
  · rw [List.take_append_drop, read]
  · rw [List.length_drop]
    omega
  · rw [split, List.getLast?_drop, if_neg]
    omega

/-- The point and zeros stand before the digits. -/
theorem splits_below_one (part : d.exponent < 0) {n : Nat}
    (place : (digits d.coefficient).length + d.exponent = -n) :
    d.Splits ['0'] (List.replicate n '0' ++ digits d.coefficient) := by
  have written := digits_digits d.coefficient
  have read := ofDigits_digits d.coefficient
  have text : d.positional = ['0'] ++ '.' :: (List.replicate n '0' ++ digits d.coefficient) := by
    rw [positional, if_neg (Int.not_le.mpr part), place, if_neg (by omega), Int.neg_neg,
      Int.toNat_natCast]
    rfl
  refine ⟨text, ⟨List.cons_ne_nil _ _, List.forall_mem_singleton.mpr rfl⟩, fun _ => rfl,
    ⟨List.append_ne_nil_of_right_ne_nil _ written.1, fun c member => ?_⟩, ?_, ?_, ?_⟩
  · exact (List.mem_append.mp member).elim (digits_zeros n c) (written.2 c)
  · have zeros : (['0'] ++ (List.replicate n '0' ++ digits d.coefficient)).map digitValue =
        List.replicate (n + 1) 0 ++ (digits d.coefficient).map digitValue := by
      rw [List.map_append, List.map_append, List.map_replicate]
      rfl
    rw [zeros, ofDigits_zeros_append, read]
  · rw [List.length_append, List.length_replicate]
    omega
  · exact List.getLast?_append_of_ne_nil _ written.1

theorem exists_splits (part : d.exponent < 0) (ofZero : d.coefficient = 0 → d.exponent = 0) :
    ∃ whole fraction, d.Splits whole fraction := by
  by_cases point : 0 < (digits d.coefficient).length + d.exponent
  · obtain ⟨w, place⟩ := Int.eq_ofNat_of_zero_le point.le
    exact ⟨_, _, splits_inside part ofZero (by omega) place⟩
  · obtain ⟨n, place⟩ := Int.eq_ofNat_of_zero_le (Int.neg_nonneg_of_nonpos (Int.not_lt.mp point))
    exact ⟨_, _, splits_below_one part (Int.neg_eq_comm.mp place).symm⟩

/-- The layout of a decimal without trailing zeros is a text of its number. -/
theorem positionalText_positional (ofZero : d.coefficient = 0 → d.exponent = 0)
    (last : d.exponent < 0 → d.coefficient % 10 ≠ 0) : PositionalText d.toRat d.positional := by
  rcases Int.lt_or_le d.exponent 0 with part | whole
  · obtain ⟨front, back, splits⟩ := exists_splits part ofZero
    have number : d.toRat = (ofDigits ((front ++ back).map digitValue) : Nat) / 10 ^ back.length := by
      rw [splits.value, toRat, ← neg_neg d.exponent, ← splits.places, zpow_neg, zpow_natCast,
        ← div_eq_mul_inv]
    rw [number, splits.text]
    refine .pointed splits.wholeDigits splits.noZero splits.fractionDigits fun zero => ?_
    rw [splits.last, getLast?_digits, Option.some_inj] at zero
    exact last part (Nat.digitChar_eq_zero.mp zero)
  · obtain ⟨digits, noZero, value⟩ := positional_of_whole whole ofZero
    have number : d.toRat = (ofDigits (d.positional.map digitValue) : Nat) := by
      rw [value, toRat, ← Int.toNat_of_nonneg whole, zpow_natCast, Int.toNat_natCast]
      push_cast
      rfl
    rw [number]
    exact .whole digits noZero

end Decimal

end FilterQuery
