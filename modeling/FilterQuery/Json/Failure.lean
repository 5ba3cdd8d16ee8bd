import FilterQuery.Json.Basic
import FilterQuery.Number.Layout
import FilterQuery.Text.Quoted

/-!
Why a JSON text is refused. Either the text ends too early, or it is not JSON, or it is JSON of the
wrong shape; in the last case the mismatch says what was found and what was wanted.
-/
namespace FilterQuery.Json

/-- What stands in the text where something else was wanted. -/
inductive Found where
  | null
  | bool (value : Bool)
  | number (value : Number)
  | string (value : String)
  | sequence
  | map
  deriving DecidableEq

/-- What a document is at its outermost level. -/
def Found.of : Json → Found
  | .null => null
  | .bool b => bool b
  | .number n => number n
  | .string s => string s
  | .array _ => sequence
  | .object _ => map

def marked (text : String) : String := "`" ++ text ++ "`"

/-- The name of what was found, with its content if it is a scalar. -/
def Found.description : Found → String
  | null => "null"
  | bool true => "boolean " ++ marked "true"
  | bool false => "boolean " ++ marked "false"
  | number (.integer n) => "integer " ++ marked (String.ofList (intText n))
  | number (.float negative magnitude) =>
    "floating point " ++ marked (String.ofList (magnitude.jsonText negative))
  | string s => "string " ++ Text.quoted s
  | sequence => "sequence"
  | map => "map"

/-- How a document fails to have the wanted shape. -/
inductive Mismatch where
  | wrongType (found : Found) (expected : String)
  | unknownName (name : String) (known : List String)
  | indexTooLarge (index count : Nat)
  | duplicateMember (name : String)
  | missingMember (name : String)
  | wrongLength (length : Nat) (expected : String)
  | notScalar
  deriving DecidableEq

def Mismatch.message : Mismatch → String
  | wrongType found expected => "invalid type: " ++ found.description ++ ", expected " ++ expected
  | unknownName name known =>
    "unknown variant " ++ marked name ++ ", expected one of " ++
      String.intercalate ", " (known.map marked)
  | indexTooLarge index count =>
    "invalid value: integer " ++ marked (toString index) ++ ", expected variant index 0 <= i < " ++
      toString count
  | duplicateMember name => "duplicate field " ++ marked name
  | missingMember name => "missing field " ++ marked name
  | wrongLength length expected =>
    "invalid length " ++ toString length ++ ", expected " ++ expected
  | notScalar => "data did not match any variant of untagged enum Value"

/-- Why a text is refused: it ends too early, is not JSON, or has the wrong shape. -/
inductive Failure where
  | ended
  | malformed
  | mismatch (cause : Mismatch)
  deriving DecidableEq

/-- The class of a failure, as reported. -/
def Failure.category : Failure → String
  | ended => "eof"
  | malformed => "syntax"
  | mismatch _ => "data"

end FilterQuery.Json
