import FilterQuery.Json.Reader

/-!
JSON strings. Raw control characters are refused, and so is an escape that names half of a surrogate
pair: two escapes together name a character above U+FFFF, in the manner of UTF-16.
-/
namespace FilterQuery.Json

/-- The value of a hexadecimal digit, in either case. -/
def hexValue? (c : Char) : Option Nat :=
  if c.isDigit then some (c.toNat - '0'.toNat)
  else if 'a' ≤ c ∧ c ≤ 'f' then some (c.toNat - 'a'.toNat + 10)
  else if 'A' ≤ c ∧ c ≤ 'F' then some (c.toNat - 'A'.toNat + 10)
  else none

/-- The unit written by four hexadecimal digits. -/
def hexUnit? (a b c d : Char) : Option Nat := do
  return (((← hexValue? a) * 16 + (← hexValue? b)) * 16 + (← hexValue? c)) * 16 + (← hexValue? d)

/-- The text has fewer than four bytes, so it ends before four digits could. -/
def tooShort (input : List Char) : Bool := (String.ofList (input.take 4)).utf8ByteSize < 4

/-- Reads four hexadecimal digits. -/
def readUnit (input : List Char) : Except Failure (Nat × List Char) :=
  match input with
  | a :: b :: c :: d :: rest =>
    match hexUnit? a b c d with
    | some unit => .ok (unit, rest)
    | none => .error .malformed
  | _ => if tooShort input then .error .ended else .error .malformed

def isHighSurrogate (unit : Nat) : Bool := 0xD800 ≤ unit && unit < 0xDC00

def isLowSurrogate (unit : Nat) : Bool := 0xDC00 ≤ unit && unit < 0xE000

/-- The character that a pair of surrogates names. -/
def pairedChar (high low : Nat) : Char :=
  Char.ofNat ((high - 0xD800) * 0x400 + (low - 0xDC00) + 0x10000)

/-- Reads the digits of a unit escape, and a second escape where the first is half of a pair. -/
def readUnitEscape (input : List Char) : Except Failure (Char × List Char) :=
  match readUnit input with
  | .error failure => .error failure
  | .ok (unit, rest) =>
    if isLowSurrogate unit then .error .malformed
    else if isHighSurrogate unit then
      match dropWord ['\\', 'u'] rest with
      | .error failure => .error failure
      | .ok rest =>
        match readUnit rest with
        | .error failure => .error failure
        | .ok (low, rest) =>
          if isLowSurrogate low then .ok (pairedChar unit low, rest) else .error .malformed
    else .ok (Char.ofNat unit, rest)

/-- The character that a letter after a backslash stands for. -/
def escaped? (c : Char) : Option Char :=
  match c with
  | '"' | '\\' | '/' => some c
  | 'b' => some '\x08'
  | 'f' => some '\x0c'
  | 'n' => some '\n'
  | 'r' => some '\r'
  | 't' => some '\t'
  | _ => none

def readEscape : List Char → Except Failure (Char × List Char)
  | [] => .error .ended
  | c :: rest =>
    if c = 'u' then readUnitEscape rest
    else
      match escaped? c with
      | some character => .ok (character, rest)
      | none => .error .malformed

theorem length_le_of_readUnit {input rest : List Char} {unit : Nat}
    (h : readUnit input = .ok (unit, rest)) : rest.length ≤ input.length := by
  unfold readUnit at h
  split at h
  · split at h <;> try contradiction
    obtain rfl := rest_eq_of_ok h
    simp only [List.length_cons]
    omega
  · split at h <;> contradiction

theorem length_le_of_readUnitEscape {input rest : List Char} {c : Char}
    (h : readUnitEscape input = .ok (c, rest)) : rest.length ≤ input.length := by
  unfold readUnitEscape at h
  split at h <;> try contradiction
  rename_i unit afterUnit first
  have firstBound := length_le_of_readUnit first
  split at h <;> try contradiction
  split at h
  · split at h <;> try contradiction
    rename_i afterWord dropped
    have wordBound := length_le_of_dropWord dropped
    split at h <;> try contradiction
    rename_i low afterLow second
    have secondBound := length_le_of_readUnit second
    split at h <;> try contradiction
    obtain rfl := rest_eq_of_ok h
    omega
  · obtain rfl := rest_eq_of_ok h
    exact firstBound

theorem length_lt_of_readEscape {input rest : List Char} {c : Char}
    (h : readEscape input = .ok (c, rest)) : rest.length < input.length := by
  cases input with
  | nil => contradiction
  | cons d tail =>
    simp only [readEscape] at h
    split at h
    · exact Nat.lt_succ_of_le (length_le_of_readUnitEscape h)
    · split at h <;> try contradiction
      cases h
      exact Nat.lt_succ_self _

/-- Reads up to the closing quote; the characters before the input are given in reverse. -/
def readStringBody (before : List Char) (input : List Char) : Except Failure (String × List Char) :=
  match input with
  | [] => .error .ended
  | c :: rest =>
    if c = '"' then .ok (String.ofList before.reverse, rest)
    else if c = '\\' then
      match _ : readEscape rest with
      | .error failure => .error failure
      | .ok (escaped, rest) => readStringBody (escaped :: before) rest
    else if c.toNat < 0x20 then .error .malformed
    else readStringBody (c :: before) rest
termination_by input.length
decreasing_by
  · rename_i read
    have := length_lt_of_readEscape read
    simp only [List.length_cons]
    omega
  · simp

theorem length_lt_of_readStringBody {before input rest : List Char} {s : String}
    (h : readStringBody before input = .ok (s, rest)) : rest.length < input.length := by
  fun_induction readStringBody before input with
  | case1 => contradiction
  | case2 => simp_all
  | case3 => contradiction
  | case4 =>
    rename_i read _ ih
    have := length_lt_of_readEscape read
    have := ih h
    simp only [List.length_cons]
    omega
  | case5 => contradiction
  | case6 before c input _ _ _ ih =>
    have := ih h
    simp only [List.length_cons]
    omega

/-- Reads a string; its opening quote has been seen. -/
def Reader.string : Reader String where
  run
    | [] => .error .ended
    | _ :: rest => readStringBody [] rest
  shrinks {input value rest} h := by
    cases input with
    | nil => contradiction
    | cons c tail => exact Nat.lt_succ_of_lt (length_lt_of_readStringBody h)

end FilterQuery.Json
