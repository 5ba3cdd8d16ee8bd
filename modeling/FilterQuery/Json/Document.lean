import FilterQuery.Json.Container
import FilterQuery.Json.Numeral

/-!
Reading whole documents. Arrays and objects may be nested 127 deep; deeper ones are refused, as if
the text were no JSON.
-/
namespace FilterQuery.Json

/-- How deep arrays and objects may be nested. -/
def maxDepth : Nat := 127

namespace Reader

/-- The reader of a value that is neither an array nor an object, by its first character. -/
def scalar (first : Char) : Except Failure (Reader Json) :=
  if first = 'n' then .ok (word ['n', 'u', 'l', 'l'] .null)
  else if first = 't' then .ok (word ['t', 'r', 'u', 'e'] (.bool true))
  else if first = 'f' then .ok (word ['f', 'a', 'l', 's', 'e'] (.bool false))
  else if first = '"' then .ok (string.map .string)
  else if first = '-' ∨ first.isDigit then .ok (number.map .number)
  else .error .malformed

/-- Reads a document in which arrays and objects are nested at most so deep. -/
def value : Nat → Reader Json
  | 0 => byFirst fun first =>
    if first = '[' ∨ first = '\x7b' then .error .malformed else scalar first
  | depth + 1 => byFirst fun first =>
    if first = '[' then
      .ok ((array (fun items => (value depth).map (· :: items)) []).map
        fun items => .array items.reverse)
    else if first = '\x7b' then
      .ok ((object (fun members name => .ok ((value depth).map fun json => (name, json) :: members))
        []).map fun members => .object members.reverse)
    else scalar first

/-- What a value is at its outermost level. Scalars are read; an array or object is known by its
opening bracket. -/
def found : Reader Found :=
  byFirst fun first =>
    if first = '[' then .ok (single .sequence)
    else if first = '\x7b' then .ok (single .map)
    else (scalar first).map (map Found.of)

/-- Refuses any value, as not being of the wanted type. -/
def refuse {α : Type} (expected : String) : Reader α :=
  found.check fun found => .error (.mismatch (.wrongType found expected))

/-- Reads an object, and refuses any other value; the start state and steps are those of the loop.
-/
def objectOnly {σ : Type} (step : σ → String → Except Failure (Reader σ)) (start : σ) : Reader σ :=
  byFirst fun first => .ok (if first = '\x7b' then object step start else refuse "a map")

end Reader

def ofText (text : String) : Except Failure Json := (Reader.value maxDepth).readAll text

end FilterQuery.Json
