import FilterQuery.Number.Binary64
import FilterQuery.Number.Decimal

/-!
Layouts of a decimal as text. The positional layout writes every place between the leading digit and
the unit, or the last digit; the scientific layout writes one digit, a point if more follow, and a
signed exponent. Query text is always positional; JSON text is positional for moderate exponents and
always shows a point or an exponent.
-/
namespace FilterQuery

namespace Decimal

/-- The exponent of the leading digit. -/
def leadingExponent (d : Decimal) : Int := d.exponent + (digits d.coefficient).length - 1

/-- The digits with a point where the unit ends, and zeros where places are empty. -/
def positional (d : Decimal) : List Char :=
  let ds := digits d.coefficient
  let whole := ds.length + d.exponent
  if 0 ≤ d.exponent then ds ++ List.replicate d.exponent.toNat '0'
  else if 0 < whole then ds.take whole.toNat ++ '.' :: ds.drop whole.toNat
  else '0' :: '.' :: List.replicate (-whole).toNat '0' ++ ds

/-- The digits after the first, behind a point if there are any. -/
def fractionPart : List Char → List Char
  | [] => []
  | d :: ds => '.' :: d :: ds

/-- The leading digit, the others behind a point, and the exponent with its sign. -/
def scientific (d : Decimal) : List Char :=
  let ds := digits d.coefficient
  let sign := if d.leadingExponent < 0 then '-' else '+'
  ds.take 1 ++ fractionPart (ds.drop 1) ++ 'e' :: sign :: digits d.leadingExponent.natAbs

/-- JSON text of a decimal: positional when the leading exponent is from -5 to 15, where a whole
number gets `.0`, and scientific otherwise. -/
def jsonText (d : Decimal) : List Char :=
  if -5 ≤ d.leadingExponent ∧ d.leadingExponent ≤ 15 then
    if 0 ≤ d.exponent then d.positional ++ ['.', '0'] else d.positional
  else d.scientific

end Decimal

def signText (negative : Bool) : List Char := if negative then ['-'] else []

def intText (n : Int) : List Char := signText (n < 0) ++ Decimal.digits n.natAbs

/-- JSON text of a finite number: the shortest decimal, a tie to the even digit. -/
def Magnitude.jsonText (negative : Bool) (magnitude : Magnitude) : List Char :=
  signText negative ++ (Decimal.shortest .even magnitude).jsonText

/-- Query text of a number: the shortest decimal, a tie to the larger magnitude, never an exponent.
-/
def Binary64.queryText : Binary64 → String
  | .nan => "NaN"
  | .infinite negative => String.ofList (signText negative ++ ['i', 'n', 'f'])
  | .finite negative magnitude =>
    String.ofList (signText negative ++ (Decimal.shortest .up magnitude).positional)

end FilterQuery
