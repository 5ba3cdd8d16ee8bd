import FilterQuery.Json.Reader

/-!
JSON numerals and their values. A numeral is its digits: a whole part without superfluous zeros,
then possibly a fraction and an exponent. An integer of 64 bits keeps its value. Any other numeral
is a float, found from the leading digits that fit 64 bits by one multiplication or division with a
power of ten, so its last bit may differ from the nearest float's.
-/
namespace FilterQuery.Json

/-- The digits of a number as it is written. -/
structure Numeral where
  negative : Bool
  whole : List Nat
  fraction : Option (List Nat)
  exponent : Option Int

namespace Numeral

def digitValue (c : Char) : Nat := c.toNat - '0'.toNat

/-- The digits at the front, and the rest. -/
def spanDigits (input : List Char) : List Nat × List Char :=
  ((input.takeWhile Char.isDigit).map digitValue, input.dropWhile Char.isDigit)

/-- Digits, at least one. -/
def scanDigits (input : List Char) : Except Failure (List Nat × List Char) :=
  match input with
  | [] => .error .ended
  | c :: _ => if c.isDigit then .ok (spanDigits input) else .error .malformed

/-- The whole part: zero, or digits that start with another one. -/
def scanWhole (input : List Char) : Except Failure (List Nat × List Char) :=
  match input with
  | '0' :: c :: rest => if c.isDigit then .error .malformed else .ok ([0], c :: rest)
  | _ => scanDigits input

/-- The digits behind a point, if there is one. -/
def scanFraction (input : List Char) : Except Failure (Option (List Nat) × List Char) :=
  match input with
  | '.' :: rest => do
    let (digits, rest) ← scanDigits rest
    return (some digits, rest)
  | _ => return (none, input)

/-- The number that digits write. -/
def ofDigits (digits : List Nat) : Nat := digits.foldl (fun n digit => n * 10 + digit) 0

def scanSign (input : List Char) : Bool × List Char :=
  match input with
  | '-' :: rest => (true, rest)
  | '+' :: rest => (false, rest)
  | _ => (false, input)

/-- The exponent behind its letter, if there is one. -/
def scanExponent (input : List Char) : Except Failure (Option Int × List Char) :=
  match input with
  | [] => return (none, [])
  | c :: rest =>
    if c = 'e' ∨ c = 'E' then do
      let (negative, rest) := scanSign rest
      let (digits, rest) ← scanDigits rest
      return (some (if negative then -(ofDigits digits : Int) else ofDigits digits), rest)
    else return (none, input)

/-- A numeral at the front of a text. -/
def scan (input : List Char) : Except Failure (Numeral × List Char) :=
  match input with
  | '-' :: rest => unsigned true rest
  | _ => unsigned false input
where
  unsigned (negative : Bool) (input : List Char) : Except Failure (Numeral × List Char) := do
    let (whole, rest) ← scanWhole input
    let (fraction, rest) ← scanFraction rest
    let (exponent, rest) ← scanExponent rest
    return (⟨negative, whole, fraction, exponent⟩, rest)

/-- Takes digits into a number as long as it stays below 2^64; the other digits are left. -/
def absorb (n : Nat) : List Nat → Nat × List Nat
  | [] => (n, [])
  | digit :: rest =>
    if n * 10 + digit < 2 ^ (64 : Nat) then absorb (n * 10 + digit) rest else (n, digit :: rest)

/-- The largest power of ten below the largest float. -/
def maxPower : Nat := 308

/-- Divides by the largest such power, as often as given or until nothing is left. -/
def divideRepeatedly (value : Magnitude) : Nat → Option Magnitude
  | 0 => some value
  | times + 1 =>
    if value = Magnitude.zero then some value
    else do
      let smaller ← value.div? (← Magnitude.powerOfTen? maxPower)
      divideRepeatedly smaller times

/-- Multiplies by a power of ten: none beyond the largest float. A power that is too small for a
float is split into steps. -/
def scaleByPower (value : Magnitude) (exponent : Int) : Option Magnitude :=
  if 0 ≤ exponent then
    if exponent.natAbs ≤ maxPower then do value.mul? (← Magnitude.powerOfTen? exponent.natAbs)
    else if value = Magnitude.zero then some value
    else none
  else do
    let times := (exponent.natAbs - 1) / maxPower
    let smaller ← divideRepeatedly value times
    smaller.div? (← Magnitude.powerOfTen? (exponent.natAbs - maxPower * times))

/-- The float of the leading digits times a power of ten. -/
def float? (negative : Bool) (significand : Nat) (exponent : Int) : Option Number := do
  let magnitude ← scaleByPower (← Magnitude.round? significand 1) exponent
  return .float negative magnitude

/-- The number of an integer numeral whose digits fit 64 bits: an integer, unless it is minus zero
or below -2^63. -/
def integer? (negative : Bool) (n : Nat) : Option Number :=
  if negative then
    if n = 0 ∨ 2 ^ (63 : Nat) < n then float? true n 0 else some (.integer (-n))
  else some (.integer n)

/-- The number that a numeral writes; none when it is beyond the largest float. -/
def value? (numeral : Numeral) : Option Number :=
  let (significand, left) := absorb 0 numeral.whole
  match numeral.fraction, numeral.exponent, left with
  | none, none, [] => integer? numeral.negative significand
  | fraction, exponent, left =>
    let digits := fraction.getD []
    let (significand, ignored) := absorb significand digits
    let shift : Int := left.length - (digits.length - ignored.length : Nat)
    float? numeral.negative significand (shift + exponent.getD 0)

theorem length_lt_of_scanDigits {input rest : List Char} {digits : List Nat}
    (h : scanDigits input = .ok (digits, rest)) : rest.length < input.length := by
  unfold scanDigits at h
  split at h <;> try contradiction
  rename_i c tail
  split at h <;> try contradiction
  rename_i digit
  obtain rfl := rest_eq_of_ok h
  rw [List.dropWhile_cons_of_pos digit]
  exact Nat.lt_succ_of_le (List.dropWhile_sublist _).length_le

theorem length_lt_of_scanWhole {input rest : List Char} {digits : List Nat}
    (h : scanWhole input = .ok (digits, rest)) : rest.length < input.length := by
  unfold scanWhole at h
  split at h
  · split at h <;> try contradiction
    obtain rfl := rest_eq_of_ok h
    exact Nat.lt_succ_self _
  · exact length_lt_of_scanDigits h

theorem length_le_of_scanFraction {input rest : List Char} {digits : Option (List Nat)}
    (h : scanFraction input = .ok (digits, rest)) : rest.length ≤ input.length := by
  unfold scanFraction at h
  split at h
  · obtain ⟨result, scanned, h⟩ := bind_eq_ok.1 h
    have := length_lt_of_scanDigits scanned
    obtain rfl := rest_eq_of_ok h
    simp only [List.length_cons]
    omega
  · obtain rfl := rest_eq_of_ok h
    exact Nat.le_refl _

theorem length_scanSign_le (input : List Char) : (scanSign input).2.length ≤ input.length := by
  unfold scanSign
  split <;> simp

theorem length_le_of_scanExponent {input rest : List Char} {exponent : Option Int}
    (h : scanExponent input = .ok (exponent, rest)) : rest.length ≤ input.length := by
  unfold scanExponent at h
  split at h
  · obtain rfl := rest_eq_of_ok h
    exact Nat.le_refl _
  · rename_i c tail
    split at h
    · have := length_scanSign_le tail
      obtain ⟨result, scanned, h⟩ := bind_eq_ok.1 h
      have : result.2.length < (scanSign tail).2.length := length_lt_of_scanDigits scanned
      obtain rfl := rest_eq_of_ok h
      simp only [List.length_cons]
      omega
    · obtain rfl := rest_eq_of_ok h
      exact Nat.le_refl _

theorem length_lt_of_unsigned {negative : Bool} {input rest : List Char} {numeral : Numeral}
    (h : scan.unsigned negative input = .ok (numeral, rest)) : rest.length < input.length := by
  obtain ⟨whole, scannedWhole, h⟩ := bind_eq_ok.1 h
  obtain ⟨fraction, scannedFraction, h⟩ := bind_eq_ok.1 h
  obtain ⟨exponent, scannedExponent, h⟩ := bind_eq_ok.1 h
  have := length_lt_of_scanWhole scannedWhole
  have := length_le_of_scanFraction scannedFraction
  have := length_le_of_scanExponent scannedExponent
  obtain rfl := rest_eq_of_ok h
  omega

theorem length_lt_of_scan {input rest : List Char} {numeral : Numeral}
    (h : scan input = .ok (numeral, rest)) : rest.length < input.length := by
  unfold scan at h
  split at h
  · exact Nat.lt_succ_of_lt (length_lt_of_unsigned h)
  · exact length_lt_of_unsigned h

end Numeral

/-- Reads a number; one beyond the largest float is refused. -/
def Reader.number : Reader Number :=
  let numeral : Reader Numeral := ⟨Numeral.scan, Numeral.length_lt_of_scan⟩
  numeral.check fun numeral =>
    match numeral.value? with
    | some number => .ok number
    | none => .error .malformed

end FilterQuery.Json
