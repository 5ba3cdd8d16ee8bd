import FilterQuery.Number.Layout

/-!
Scalar values: what a filter compares with and what metadata holds. Values of one kind are ordered
within it, integers and floats are ordered with each other as floats, and no other pair is ordered.
Two values are equal in a filter when they are ordered as equal, so `1` and `1.0` are; they are the
same only if their kinds agree too.
-/
namespace FilterQuery

inductive Value where
  | bool (value : Bool)
  | int (value : Int64)
  | float (value : Binary64)
  | string (value : String)
  deriving DecidableEq

namespace Value

/-- The value as a float, if it is a number. -/
def asFloat? : Value → Option Binary64
  | int n => some (Binary64.ofInt n.toInt)
  | float x => some x
  | bool _ | string _ => none

def asString? : Value → Option String
  | string s => some s
  | bool _ | int _ | float _ => none

def isNumeric : Value → Bool
  | int _ | float _ => true
  | bool _ | string _ => false

/-- The order of two values; none when their kinds do not compare or one is not a number. Integers
compare exactly with each other and rounded with a float; strings compare by code point. -/
def compare? : Value → Value → Option Ordering
  | int a, int b => some (compare a.toInt b.toInt)
  | float a, float b => a.compare? b
  | int a, float b => (Binary64.ofInt a.toInt).compare? b
  | float a, int b => a.compare? (Binary64.ofInt b.toInt)
  | string a, string b => some (compare a b)
  | bool a, bool b => some (compare a b)
  | _, _ => none

/-- The two values are equal for a filter. -/
def equal (a b : Value) : Bool := a.compare? b = some .eq

/-- The two values have one kind and are equal in it; no float that is not a number is the same as
any value. -/
def same : Value → Value → Bool
  | float a, float b => a.same b
  | a, b => a = b

/-- The value as it stands in a query: strings verbatim, without quotes or escapes. -/
def queryText : Value → String
  | bool b => if b then "true" else "false"
  | int n => String.ofList (intText n.toInt)
  | float x => x.queryText
  | string s => s

end Value

end FilterQuery
