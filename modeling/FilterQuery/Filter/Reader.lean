import FilterQuery.Filter.Json
import FilterQuery.Json.Document

/-!
Reading filters. A filter is an object whose member `op` names the operator, with the operator's
fields as further members in any order; or it is an array of the operator and its fields in order.
Members of other names are ignored.

The operator is checked as soon as it is met in the text, everything else once the closing bracket
is read. Inside another filter the operator may also be given by its index.
-/
namespace FilterQuery

open Json (Mismatch Found Failure Reader)

namespace Operator

/-- What stands for an operator, in the words of a mismatch. -/
def expected : String := "variant identifier"

def ofName (name : String) : Except Mismatch Operator :=
  match ofName? name with
  | some operator => .ok operator
  | none => .error (.unknownName name (all.map Operator.name))

def ofIndex (index : Nat) : Except Mismatch Operator :=
  match all[index]? with
  | some operator => .ok operator
  | none => .error (.indexTooLarge index all.length)

/-- The operator of a document, by name or by index. -/
def ofJson : Json → Except Mismatch Operator
  | .string name => ofName name
  | .number (.integer (.ofNat index)) => ofIndex index
  | json => .error (.wrongType (.of json) expected)

def reader : Reader Operator :=
  .byFirst fun first =>
    if first = '"' then .ok (Reader.string.check fun name => (ofName name).mapError .mismatch)
    else .ok (.refuse expected)

/-- How many fields an operator has, in words. -/
def fieldCount (operator : Operator) : String :=
  match operator.fields.length with
  | 1 => "1 element"
  | n => toString n ++ " elements"

end Operator

/-- A document that may serve as a field, together with what it is as a filter. -/
structure Argument where
  json : Json
  filter : Except Mismatch Filter

def Argument.text (argument : Argument) : Except Mismatch String :=
  match argument.json with
  | .string s => .ok s
  | json => .error (.wrongType (.of json) "a string")

def Argument.scalars (argument : Argument) : Except Mismatch (List Value) :=
  match argument.json with
  | .array items => items.mapM Value.ofJson
  | json => .error (.wrongType (.of json) "a sequence")

/-- The fields found so far. -/
structure Fields where
  key : Option String
  value : Option Value
  values : Option (List Value)
  left : Option Filter
  right : Option Filter
  expr : Option Filter

namespace Fields

def empty : Fields := ⟨none, none, none, none, none, none⟩

def has (fields : Fields) : Field → Bool
  | .key => fields.key.isSome
  | .value => fields.value.isSome
  | .values => fields.values.isSome
  | .left => fields.left.isSome
  | .right => fields.right.isSome
  | .expr => fields.expr.isSome

/-- Takes an argument for a field, if it has the type of the field. -/
def put (fields : Fields) (field : Field) (argument : Argument) : Except Mismatch Fields :=
  match field with
  | .key => return { fields with key := some (← argument.text) }
  | .value => return { fields with value := some (← Value.ofJson argument.json) }
  | .values => return { fields with values := some (← argument.scalars) }
  | .left => return { fields with left := some (← argument.filter) }
  | .right => return { fields with right := some (← argument.filter) }
  | .expr => return { fields with expr := some (← argument.filter) }

def required {α : Type} (field : Field) : Option α → Except Mismatch α
  | some content => .ok content
  | none => .error (.missingMember field.name)

def assemble (fields : Fields) : Operator → Except Mismatch Filter
  | .relation relation => do
    let key ← required .key fields.key
    let value ← required .value fields.value
    return .leaf (.compare relation key value)
  | .membership membership => do
    let key ← required .key fields.key
    let values ← required .values fields.values
    return .leaf (.among membership key values)
  | .connective connective => do
    let left ← required .left fields.left
    let right ← required .right fields.right
    return .join connective left right
  | .negation => do
    let expr ← required .expr fields.expr
    return .not expr

/-- Takes the members of an object in the order of the text: those named like a field of the
operator, each at most once. -/
def ofMembers (operator : Operator) (members : List (String × Argument)) : Except Mismatch Fields :=
  members.foldlM (fun fields (name, argument) =>
    match Field.ofName? name with
    | none => .ok fields
    | some field =>
      if field ∉ operator.fields then .ok fields
      else if fields.has field then .error (.duplicateMember name)
      else fields.put field argument) empty

/-- Takes the items of an array after the operator, one for each field. -/
def ofItems (operator : Operator) (items : List Argument) : Except Mismatch Fields :=
  fill empty operator.fields items
where
  fill (fields : Fields) : List Field → List Argument → Except Mismatch Fields
    | [], [] => .ok fields
    | [], _ :: _ => .error (.wrongLength items.length (operator.fieldCount ++ " in sequence"))
    | _ :: _, [] =>
      .error (.wrongLength items.length
        ("struct variant FilterExpr::" ++ operator.label ++ " with " ++ operator.fieldCount))
    | field :: rest, argument :: arguments => do fill (← fields.put field argument) rest arguments

end Fields

namespace Filter

/-- What stands for a filter, in the words of a mismatch. -/
def expected : String := "internally tagged enum FilterExpr"

/-- The filter of an operator and the members beside it. -/
def ofMembers (operator : Operator) (members : List (String × Argument)) :
    Except Mismatch Filter := do
  (← Fields.ofMembers operator members).assemble operator

/-- The filter of an operator and the items after it. -/
def ofItems (operator : Operator) (items : List Argument) : Except Mismatch Filter := do
  (← Fields.ofItems operator items).assemble operator

/-- The operator of an object and the members beside it, in order. -/
def splitOperator (members : List (String × Argument)) :
    Except Mismatch (Operator × List (String × Argument)) := do
  let (operator, others) ← members.foldlM step (none, [])
  match operator with
  | some operator => return (operator, others.reverse)
  | none => .error (.missingMember Operator.tag)
where
  step (state : Option Operator × List (String × Argument)) (member : String × Argument) :
      Except Mismatch (Option Operator × List (String × Argument)) :=
    if member.1 = Operator.tag then
      if state.1.isSome then .error (.duplicateMember Operator.tag)
      else do return (some (← Operator.ofJson member.2.json), state.2)
    else .ok (state.1, member :: state.2)

/-- The filter of a document inside another filter. -/
def ofJson : Json → Except Mismatch Filter
  | .object members => do
    let arguments := members.map fun member => (member.1, Argument.mk member.2 (ofJson member.2))
    let (operator, others) ← splitOperator arguments
    ofMembers operator others
  | .array items =>
    match items.map fun item => Argument.mk item (ofJson item) with
    | [] => .error (.missingMember Operator.tag)
    | first :: rest => do ofItems (← Operator.ofJson first.json) rest
  | json => .error (.wrongType (.of json) expected)
termination_by json => sizeOf json
decreasing_by
  · rename_i found
    have := List.sizeOf_lt_of_mem found
    cases member
    simp_all
    omega
  · rename_i found
    have := List.sizeOf_lt_of_mem found
    simp_all
    omega

/-- A document with what it is as a filter. -/
def argument (json : Json) : Argument := ⟨json, ofJson json⟩

/-- Reads the members of an object: the operator and the other members, latest first. -/
def membersReader : Reader (Option Operator × List (String × Json)) :=
  .object step (none, [])
where
  step (state : Option Operator × List (String × Json)) (name : String) :
      Except Failure (Reader (Option Operator × List (String × Json))) :=
    if name = Operator.tag then
      if state.1.isSome then .error (.mismatch (.duplicateMember Operator.tag))
      else .ok (Operator.reader.map fun operator => (some operator, state.2))
    else
      .ok ((Reader.value (Json.maxDepth - 1)).map fun json => (state.1, (name, json) :: state.2))

/-- Reads the items of an array: the operator and the items after it, latest first. -/
def itemsReader : Reader (Option (Operator × List Json)) :=
  .array step none
where
  step : Option (Operator × List Json) → Reader (Option (Operator × List Json))
    | none => Operator.reader.map fun operator => some (operator, [])
    | some (operator, items) =>
      (Reader.value (Json.maxDepth - 1)).map fun json => some (operator, json :: items)

/-- The filter of what an object was read to be. -/
def ofReadMembers : Option Operator × List (String × Json) → Except Mismatch Filter
  | (none, _) => .error (.missingMember Operator.tag)
  | (some operator, members) =>
    ofMembers operator (members.reverse.map fun (name, json) => (name, argument json))

/-- The filter of what an array was read to be. -/
def ofReadItems : Option (Operator × List Json) → Except Mismatch Filter
  | none => .error (.missingMember Operator.tag)
  | some (operator, items) => ofItems operator (items.reverse.map argument)

def reader : Reader Filter :=
  .byFirst fun first =>
    if first = '\x7b' then
      .ok (membersReader.check fun read => (ofReadMembers read).mapError .mismatch)
    else if first = '[' then
      .ok (itemsReader.check fun read => (ofReadItems read).mapError .mismatch)
    else .ok (.refuse expected)

/-- Reads a filter, or `null` for none. -/
def optionalReader : Reader (Option Filter) :=
  .byFirst fun first =>
    if first = 'n' then .ok (.word ['n', 'u', 'l', 'l'] none) else .ok (reader.map some)

/-- Why a text is no valid filter: it does not read as one, or the filter breaks a rule. -/
inductive ReadError where
  | json (failure : Failure)
  | invalid (violation : Violation)
  deriving DecidableEq

def decode (text : String) : Except Failure Filter := reader.readAll text

/-- The filter of a text, valid or not, where `null` is none. -/
def decodeOptional (text : String) : Except Failure (Option Filter) := optionalReader.readAll text

/-- Passes a valid filter. -/
def checked (filter : Filter) : Except ReadError Filter := do
  filter.validate.mapError .invalid
  return filter

def ofText (text : String) : Except ReadError Filter := do
  checked (← (decode text).mapError .json)

/-- The valid filter of a text, where `null` is none. -/
def ofTextOptional (text : String) : Except ReadError (Option Filter) := do
  match ← (decodeOptional text).mapError .json with
  | some filter => return some (← checked filter)
  | none => return none

end Filter

end FilterQuery
