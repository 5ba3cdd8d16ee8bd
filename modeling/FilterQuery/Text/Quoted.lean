import FilterQuery.Text.Printable

/-!
Quoted texts for diagnostics: a text between double quotes, in which every character that would not
show as itself is escaped, so that two different texts never look alike.
-/
namespace FilterQuery.Text

/-- Lower-case hexadecimal digits, without leading zeros. -/
def hex (n : Nat) : List Char := Nat.toDigits 16 n

/-- How one character is written between quotes. -/
def quoteChar (c : Char) : List Char :=
  if c = '\x00' then ['\\', '0']
  else if c = '\t' then ['\\', 't']
  else if c = '\r' then ['\\', 'r']
  else if c = '\n' then ['\\', 'n']
  else if c = '\\' then ['\\', '\\']
  else if c = '"' then ['\\', '"']
  else if isJoining c || !isPrintable c then '\\' :: 'u' :: '\x7b' :: hex c.toNat ++ ['\x7d']
  else [c]

/-- The text between double quotes, its unprintable characters escaped. -/
def quoted (text : String) : String :=
  String.ofList ('"' :: text.toList.flatMap quoteChar ++ ['"'])

end FilterQuery.Text
