import FilterQuery.Json.StringReader

/-!
Readers of arrays and objects. The loop carries a state: each item, or member, is read by a reader
that the state chooses, and that gives the next state. What an array or object means is decided
while it is read, so a value of the wrong shape is met before what follows it in the text.
-/
namespace FilterQuery.Json

/-- What follows an item: a comma, after which another item comes, or the closing bracket. -/
def readSeparator (closing : Char) (input : List Char) : Except Failure (Bool × List Char) :=
  match skipSpaces input with
  | [] => .error .ended
  | c :: rest =>
    if c = ',' then .ok (true, rest)
    else if c = closing then .ok (false, rest)
    else .error .malformed

theorem length_lt_of_readSeparator {closing : Char} {input rest : List Char} {more : Bool}
    (h : readSeparator closing input = .ok (more, rest)) : rest.length < input.length := by
  have bound := length_skipSpaces_le input
  unfold readSeparator at h
  split at h <;> try contradiction
  rename_i c tail text
  rw [text, List.length_cons] at bound
  split at h
  · cases h
    exact bound
  · split at h <;> try contradiction
    cases h
    exact bound

namespace Reader

variable {σ : Type}

/-- The items from the next one on, up to the closing bracket. -/
def items (closing : Char) (step : σ → Reader σ) (state : σ) (input : List Char) :
    Except Failure (σ × List Char) :=
  match _ : (step state).run input with
  | .error failure => .error failure
  | .ok (next, rest) =>
    match _ : readSeparator closing rest with
    | .error failure => .error failure
    | .ok (true, rest) => items closing step next rest
    | .ok (false, rest) => .ok (next, rest)
termination_by input.length
decreasing_by
  rename_i separated
  have := length_lt_of_readSeparator separated
  have := (step state).shrinks ‹_›
  omega

theorem length_lt_of_items {closing : Char} {step : σ → Reader σ} {state result : σ}
    {input left : List Char} (h : items closing step state input = .ok (result, left)) :
    left.length < input.length := by
  fun_induction items closing step state input with
  | case1 => contradiction
  | case2 => contradiction
  | case3 state input next rest read tail separated ih =>
    have := length_lt_of_readSeparator separated
    have := (step state).shrinks read
    have := ih h
    omega
  | case4 state input next rest read tail separated =>
    have := length_lt_of_readSeparator separated
    have := (step state).shrinks read
    cases h
    omega

/-- The items of a bracketed sequence; its opening bracket has been seen. -/
def bracketedItems (closing : Char) (step : σ → Reader σ) (start : σ) :
    List Char → Except Failure (σ × List Char)
  | [] => .error .ended
  | _ :: rest =>
    match skipSpaces rest with
    | [] => .error .ended
    | c :: tail =>
      if c = closing then .ok (start, tail) else items closing step start (c :: tail)

theorem length_lt_of_bracketedItems {closing : Char} {step : σ → Reader σ} {start result : σ}
    {input left : List Char} (h : bracketedItems closing step start input = .ok (result, left)) :
    left.length < input.length := by
  cases input with
  | nil => contradiction
  | cons opening tail =>
    have bound := length_skipSpaces_le tail
    rw [bracketedItems] at h
    split at h <;> try contradiction
    rename_i c after text
    rw [text] at bound
    refine Nat.lt_succ_of_lt (Nat.lt_of_lt_of_le ?_ bound)
    split at h
    · obtain rfl := rest_eq_of_ok h
      exact Nat.lt_succ_self _
    · exact length_lt_of_items h

/-- A bracketed sequence; its opening bracket has been seen. -/
def bracketed (closing : Char) (step : σ → Reader σ) (start : σ) : Reader σ :=
  ⟨bracketedItems closing step start, length_lt_of_bracketedItems⟩

/-- A member of an object: its name, which chooses the reader of its value, and the value. -/
def member (step : String → Except Failure (Reader σ)) : Reader σ where
  run input :=
    match skipSpaces input with
    | [] => .error .ended
    | c :: rest =>
      if c ≠ '"' then .error .malformed
      else
        match string.run (c :: rest) with
        | .error failure => .error failure
        | .ok (name, rest) =>
          match step name with
          | .error failure => .error failure
          | .ok reader =>
            match dropWord [':'] (skipSpaces rest) with
            | .error failure => .error failure
            | .ok rest => reader.run rest
  shrinks {input value rest} h := by
    have bound := length_skipSpaces_le input
    split at h <;> try contradiction
    rename_i c after text
    rw [text] at bound
    split at h <;> try contradiction
    split at h <;> try contradiction
    rename_i name afterName named
    split at h <;> try contradiction
    rename_i reader _
    split at h <;> try contradiction
    rename_i afterColon dropped
    have := string.shrinks named
    have := length_skipSpaces_le afterName
    have := length_le_of_dropWord dropped
    have := reader.shrinks h
    omega

/-- An array; its opening bracket has been seen. -/
def array (step : σ → Reader σ) (start : σ) : Reader σ := bracketed ']' step start

/-- An object; its opening brace has been seen. -/
def object (step : σ → String → Except Failure (Reader σ)) (start : σ) : Reader σ :=
  bracketed '\x7d' (fun state => member (step state)) start

end Reader

end FilterQuery.Json
