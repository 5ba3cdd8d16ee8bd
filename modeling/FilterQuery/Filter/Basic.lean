import FilterQuery.Filter.Operator
import FilterQuery.SortedMap
import FilterQuery.Value

/-!
Filters: boolean expressions over the fields of a document. A leaf relates one field to a value or
to a list of values; inner nodes join two filters or negate one. A filter is valid when every leaf
names a field and every list of values has one.
-/
namespace FilterQuery

/-- A condition on one field. -/
inductive Leaf where
  | compare (relation : Relation) (key : String) (value : Value)
  | among (membership : Membership) (key : String) (values : List Value)
  deriving DecidableEq

/-- A boolean expression over conditions. -/
inductive Filter where
  | leaf (leaf : Leaf)
  | join (connective : Connective) (left right : Filter)
  | not (inner : Filter)
  deriving DecidableEq

/-- Why a filter is not valid: a leaf without a field, or one whose list of values is empty. -/
inductive Violation where
  | emptyKey
  | emptyValues (key : String)
  deriving DecidableEq

def Violation.message : Violation → String
  | emptyKey => "filter key must not be empty"
  | emptyValues key => "membership filter on '" ++ key ++ "' has no values"

namespace Leaf

def key : Leaf → String
  | compare _ key _ => key
  | among _ key _ => key

/-- What the leaf does with its field. -/
def operator : Leaf → Operator
  | compare relation _ _ => .relation relation
  | among membership _ _ => .membership membership

/-- A leaf names a field, and lists a value where it lists values. -/
def validate : Leaf → Except Violation Unit
  | compare _ key _ => if key = "" then .error .emptyKey else .ok ()
  | among _ key values =>
    if key = "" then .error .emptyKey
    else if values = [] then .error (.emptyValues key)
    else .ok ()

/-- The two leaves have one operator and one field, and the same values. -/
def same : Leaf → Leaf → Bool
  | compare relation key value, compare relation' key' value' =>
    relation = relation' && key = key' && value.same value'
  | among membership key values, among membership' key' values' =>
    membership = membership' && key = key' && values.length = values'.length &&
      (values.zip values').all fun (value, value') => value.same value'
  | _, _ => false

end Leaf

namespace Filter

def eq (key : String) (value : Value) : Filter := leaf (.compare .eq key value)

/-- The field is missing or does not equal the value. -/
def notEq (key : String) (value : Value) : Filter := leaf (.compare .notEq key value)

def gt (key : String) (value : Value) : Filter := leaf (.compare .gt key value)

def gte (key : String) (value : Value) : Filter := leaf (.compare .gte key value)

def lt (key : String) (value : Value) : Filter := leaf (.compare .lt key value)

def lte (key : String) (value : Value) : Filter := leaf (.compare .lte key value)

def contains (key : String) (value : Value) : Filter := leaf (.compare .contains key value)

def isIn (key : String) (values : List Value) : Filter := leaf (.among .isIn key values)

/-- The field is missing or equals none of the values. -/
def notIn (key : String) (values : List Value) : Filter := leaf (.among .notIn key values)

def and (left right : Filter) : Filter := join .and left right

def or (left right : Filter) : Filter := join .or left right

/-- What the outermost node does. -/
def operator : Filter → Operator
  | leaf l => l.operator
  | join connective _ _ => .connective connective
  | not _ => .negation

/-- The name of the outermost operator. -/
def kind (filter : Filter) : String := filter.operator.name

def key? : Filter → Option String
  | leaf l => some l.key
  | join _ _ _ | not _ => none

def isLeaf (filter : Filter) : Bool := filter.key?.isSome

/-- The number of nodes on the longest way from the root to a leaf. -/
def depth : Filter → Nat
  | leaf _ => 1
  | join _ left right => 1 + max left.depth right.depth
  | not inner => 1 + inner.depth

/-- The leaves from left to right. -/
def leaves : Filter → List Leaf
  | leaf l => [l]
  | join _ left right => left.leaves ++ right.leaves
  | not inner => inner.leaves

/-- The fields of all leaves, each once, in ascending order. -/
def keys (filter : Filter) : List String :=
  (SortedMap.ofList (filter.leaves.map fun l => (l.key, ()))).entries.map (·.1)

/-- Finds the first leaf from the left that breaks a rule. -/
def validate : Filter → Except Violation Unit
  | leaf l => l.validate
  | join _ left right => do
    left.validate
    right.validate
  | not inner => inner.validate

/-- The two filters have one shape, and the same leaves in it. -/
def same : Filter → Filter → Bool
  | leaf l, leaf l' => l.same l'
  | join connective left right, join connective' left' right' =>
    connective = connective' && left.same left' && right.same right'
  | not inner, not inner' => inner.same inner'
  | _, _ => false

end Filter

end FilterQuery
