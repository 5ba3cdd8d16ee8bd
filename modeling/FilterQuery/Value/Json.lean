import FilterQuery.Json.Failure
import FilterQuery.Value

/-!
Values as JSON scalars. An integer beyond 64 bits with a sign becomes a float, and a float that is
not finite has no number in JSON, so it is written as `null`, which is no value.
-/
namespace FilterQuery.Value

def toJson : Value → Json
  | bool b => .bool b
  | int n => .number (.integer n.toInt)
  | float (.finite negative magnitude) => .number (.float negative magnitude)
  | float .nan | float (.infinite _) => .null
  | string s => .string s

/-- The number of a document, as a value. -/
def ofNumber : Json.Number → Value
  | .integer n =>
    if Int64.minValue.toInt ≤ n ∧ n ≤ Int64.maxValue.toInt then int (Int64.ofInt n)
    else float (Binary64.ofInt n)
  | .float negative magnitude => float (.finite negative magnitude)

def ofJson : Json → Except Json.Mismatch Value
  | .bool b => .ok (bool b)
  | .number n => .ok (ofNumber n)
  | .string s => .ok (string s)
  | .null | .array _ | .object _ => .error .notScalar

end FilterQuery.Value
