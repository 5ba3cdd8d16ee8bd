import FilterQuery.Number.Magnitude

/-!
Decimals and the shortest decimal of a magnitude. A decimal reads back as a magnitude when it rounds
to it. The shortest one is found grid by grid: with one digit, then two, up to seventeen, the two
neighbours of the value on the decimal grid are tried, and the first grid with a neighbour that
reads back wins; of two such neighbours the nearer is taken, and a tie goes by a stated rule.
-/
namespace FilterQuery

/-- The number `coefficient · 10 ^ exponent`. -/
structure Decimal where
  coefficient : Nat
  exponent : Int
  deriving DecidableEq

/-- Where an exact tie between two neighbouring decimals goes. -/
inductive Tie where
  | up
  | even
  deriving DecidableEq

namespace Decimal

def numerator (d : Decimal) : Nat := d.coefficient * 10 ^ d.exponent.toNat

def denominator (d : Decimal) : Nat := 10 ^ (-d.exponent).toNat

/-- The decimal rounds to the magnitude. -/
def ReadsBack (d : Decimal) (value : Magnitude) : Prop :=
  Magnitude.round? d.numerator d.denominator = some value

instance (d : Decimal) (value : Magnitude) : Decidable (d.ReadsBack value) :=
  inferInstanceAs (Decidable (_ = _))

/-- The decimal digits of a number, leading one first. -/
def digits (n : Nat) : List Char := Nat.toDigits 10 n

/-- The least power of ten above a positive magnitude: at least 1, its whole part counts digits;
below 1, its reciprocal does. -/
def powerAbove (value : Magnitude) : Int :=
  if Magnitude.unitsPerOne ≤ value.units then (digits (value.units / Magnitude.unitsPerOne)).length
  else 1 - (digits ((Magnitude.unitsPerOne - 1) / value.units)).length

/-- The value on the grid of multiples of `10 ^ exponent`, as a fraction of grid steps. -/
def gridFraction (value : Magnitude) (exponent : Int) : Nat × Nat :=
  (value.units * 10 ^ (-exponent).toNat, Magnitude.unitsPerOne * 10 ^ exponent.toNat)

/-- The upper neighbour is the better one when both read back. -/
def preferUpper (tie : Tie) (num den : Nat) : Bool :=
  if 2 * (num % den) = den then
    match tie with
    | .up => true
    | .even => (num / den) % 2 = 1
  else den < 2 * (num % den)

/-- The neighbour of the value on a grid that reads back, if one does. -/
def neighbour? (tie : Tie) (value : Magnitude) (exponent : Int) : Option Decimal :=
  let (num, den) := gridFraction value exponent
  let lower : Decimal := ⟨num / den, exponent⟩
  let upper : Decimal := ⟨num / den + 1, exponent⟩
  if lower.ReadsBack value then
    if upper.ReadsBack value then
      if preferUpper tie num den then some upper else some lower
    else some lower
  else if upper.ReadsBack value then some upper
  else none

/-- The same number without trailing zeros in its coefficient; zero has the exponent 0. -/
def canonical (coefficient : Nat) (exponent : Int) : Decimal :=
  if coefficient = 0 then ⟨0, 0⟩
  else if coefficient % 10 = 0 then canonical (coefficient / 10) (exponent + 1)
  else ⟨coefficient, exponent⟩
termination_by coefficient
decreasing_by omega

/-- No magnitude needs more significant digits than this. -/
def maxDigits : Nat := 17

/-- The decimal with the fewest digits that reads back as the magnitude. -/
def shortest (tie : Tie) (value : Magnitude) : Decimal :=
  let found := (List.range maxDigits).findSome? fun n =>
    neighbour? tie value (powerAbove value - (n + 1 : Nat))
  found.elim ⟨0, 0⟩ fun d => canonical d.coefficient d.exponent

end Decimal

end FilterQuery
