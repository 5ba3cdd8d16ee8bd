import FilterQuery.Json.Failure

/-!
Readers of JSON text. A reader takes a value from the front of a text and leaves the rest, which is
always shorter, so a loop that reads one value after the other ends. Reading goes from left to right
and stops at the first failure, be it that the text is no JSON or that it has the wrong shape.
-/
namespace FilterQuery.Json

/-- A sequence of two steps succeeds when both do. -/
theorem bind_eq_ok {ε α β : Type} {x : Except ε α} {f : α → Except ε β} {result : β} :
    x >>= f = .ok result ↔ ∃ value, x = .ok value ∧ f value = .ok result := by
  cases x <;> simp [bind, Except.bind]

/-- A step succeeds whatever becomes of its error. -/
theorem mapError_eq_ok {ε ε' α : Type} {x : Except ε α} {f : ε → ε'} {result : α} :
    x.mapError f = .ok result ↔ x = .ok result := by
  cases x with
  | error failure => constructor <;> intro same <;> cases same
  | ok value => constructor <;> intro same <;> exact congrArg _ (Except.ok.inj same)

/-- Two results of reading that are equal leave the same rest. -/
theorem rest_eq_of_ok {α : Type} {a b : α} {rest rest' : List Char}
    (h : (.ok (a, rest) : Except Failure (α × List Char)) = .ok (b, rest')) : rest = rest' :=
  (Prod.mk.inj (Except.ok.inj h)).2

/-- Takes a value from the front of a text and leaves a shorter rest. -/
structure Reader (α : Type) where
  run : List Char → Except Failure (α × List Char)
  shrinks : ∀ {input value rest}, run input = .ok (value, rest) → rest.length < input.length

/-- The white space of JSON. -/
def isSpace (c : Char) : Bool := c = ' ' || c = '\t' || c = '\n' || c = '\r'

/-- The text from its first character that is not JSON white space. -/
def skipSpaces (input : List Char) : List Char := input.dropWhile isSpace

theorem length_skipSpaces_le (input : List Char) : (skipSpaces input).length ≤ input.length :=
  (List.dropWhile_sublist _).length_le

/-- Expects the given characters at the front. -/
def dropWord : List Char → List Char → Except Failure (List Char)
  | [], input => .ok input
  | _ :: _, [] => .error .ended
  | w :: word, c :: input => if w = c then dropWord word input else .error .malformed

theorem length_le_of_dropWord {word input rest : List Char} (h : dropWord word input = .ok rest) :
    rest.length ≤ input.length := by
  fun_induction dropWord word input with
  | case1 =>
    cases h
    exact Nat.le_refl _
  | case2 => contradiction
  | case3 _ _ _ ih => exact Nat.le_succ_of_le (ih h)
  | case4 => contradiction

namespace Reader

variable {α β : Type}

/-- Turns the value read, or refuses it. -/
def check (reader : Reader α) (f : α → Except Failure β) : Reader β where
  run input :=
    match reader.run input with
    | .error failure => .error failure
    | .ok (value, rest) =>
      match f value with
      | .error failure => .error failure
      | .ok result => .ok (result, rest)
  shrinks h := by
    split at h <;> try contradiction
    rename_i value rest read
    split at h <;> try contradiction
    cases h
    exact reader.shrinks read

/-- Turns the value read. -/
def map (f : α → β) (reader : Reader α) : Reader β := reader.check fun value => .ok (f value)

/-- Reads one value, and then another with the reader it chooses. -/
def andThen (reader : Reader α) (next : α → Reader β) : Reader β where
  run input :=
    match reader.run input with
    | .error failure => .error failure
    | .ok (value, rest) => (next value).run rest
  shrinks h := by
    split at h <;> try contradiction
    rename_i value rest read
    exact Nat.lt_trans ((next value).shrinks h) (reader.shrinks read)

/-- Chooses a reader by the first character that is not white space. -/
def byFirst (choose : Char → Except Failure (Reader α)) : Reader α where
  run input :=
    match skipSpaces input with
    | [] => .error .ended
    | c :: rest =>
      match choose c with
      | .error failure => .error failure
      | .ok reader => reader.run (c :: rest)
  shrinks {input value rest} h := by
    have bound := length_skipSpaces_le input
    split at h <;> try contradiction
    rename_i c rest text
    rw [text] at bound
    split at h <;> try contradiction
    rename_i reader chosen
    exact Nat.lt_of_lt_of_le (reader.shrinks h) bound

/-- Takes one character, which has been seen, for a value. -/
def single (value : α) : Reader α where
  run
    | [] => .error .ended
    | _ :: rest => .ok (value, rest)
  shrinks {input value rest} h := by
    cases input <;> simp_all

/-- Expects one character, after white space. -/
def symbol (c : Char) : Reader Unit :=
  byFirst fun first => if first = c then .ok (single ()) else .error .malformed

/-- Takes a word for a value; its first character has been seen. -/
def word (letters : List Char) (value : α) : Reader α where
  run
    | [] => .error .ended
    | _ :: rest =>
      match dropWord (letters.drop 1) rest with
      | .error failure => .error failure
      | .ok rest => .ok (value, rest)
  shrinks {input value rest} h := by
    cases input with
    | nil => contradiction
    | cons c tail =>
      simp only at h
      split at h <;> try contradiction
      rename_i left dropped
      cases h
      exact Nat.lt_succ_of_le (length_le_of_dropWord dropped)

/-- Reads a whole text: nothing but white space may follow the value. -/
def readAll (reader : Reader α) (text : String) : Except Failure α :=
  match reader.run text.toList with
  | .error failure => .error failure
  | .ok (value, rest) => if skipSpaces rest = [] then .ok value else .error .malformed

end Reader

end FilterQuery.Json
