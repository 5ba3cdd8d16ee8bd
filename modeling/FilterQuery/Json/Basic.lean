import FilterQuery.Number.Magnitude

/-!
JSON documents. A number is an integer or a finite float, and the members of an object keep the
order of the text, repeated names included.
-/
namespace FilterQuery

/-- A JSON number: an integer written without point or exponent, or a finite float. -/
inductive Json.Number where
  | integer (value : Int)
  | float (negative : Bool) (magnitude : Magnitude)
  deriving DecidableEq

inductive Json where
  | null
  | bool (value : Bool)
  | number (value : Json.Number)
  | string (value : String)
  | array (items : List Json)
  | object (members : List (String × Json))

end FilterQuery
