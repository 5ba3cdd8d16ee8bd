import FilterQuery.Json.Basic
import FilterQuery.Number.Layout

/-!
JSON text of a document, without white space. Only quotes, backslashes and control characters are
escaped in a string; every float shows a point or an exponent, so it is never read as an integer.
-/
namespace FilterQuery.Json

def hexDigit (n : Nat) : Char := Nat.digitChar (n % 16)

/-- How one character is written in a string. -/
def escapeChar (c : Char) : List Char :=
  if c = '"' then ['\\', '"']
  else if c = '\\' then ['\\', '\\']
  else if c = '\x08' then ['\\', 'b']
  else if c = '\t' then ['\\', 't']
  else if c = '\n' then ['\\', 'n']
  else if c = '\x0c' then ['\\', 'f']
  else if c = '\r' then ['\\', 'r']
  else if c.toNat < 0x20 then ['\\', 'u', '0', '0', hexDigit (c.toNat / 16), hexDigit c.toNat]
  else [c]

def stringText (s : String) : List Char := '"' :: s.toList.flatMap escapeChar ++ ['"']

def Number.text : Number → List Char
  | .integer n => intText n
  | .float negative magnitude => magnitude.jsonText negative

mutual

def text : Json → List Char
  | .null => ['n', 'u', 'l', 'l']
  | .bool true => ['t', 'r', 'u', 'e']
  | .bool false => ['f', 'a', 'l', 's', 'e']
  | .number n => n.text
  | .string s => stringText s
  | .array items => '[' :: itemsText items ++ [']']
  | .object members => '\x7b' :: membersText members ++ ['\x7d']

/-- The texts of the items, with commas between them. -/
def itemsText : List Json → List Char
  | [] => []
  | [item] => text item
  | item :: next :: rest => text item ++ ',' :: itemsText (next :: rest)

/-- The texts of the members, with commas between them. -/
def membersText : List (String × Json) → List Char
  | [] => []
  | [(name, value)] => stringText name ++ ':' :: text value
  | (name, value) :: next :: rest =>
    stringText name ++ ':' :: text value ++ ',' :: membersText (next :: rest)

end

def toText (json : Json) : String := String.ofList json.text

end FilterQuery.Json
