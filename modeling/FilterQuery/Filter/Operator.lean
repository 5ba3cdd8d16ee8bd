/-!
The operators of filters: relations of a field to one value, membership of a field in a list of
values, and the connectives. Their order and names are those of the JSON form.
-/
namespace FilterQuery

/-- How a field relates to one value. -/
inductive Relation where
  | eq
  | notEq
  | gt
  | gte
  | lt
  | lte
  | contains
  deriving DecidableEq

/-- Whether a field is among the listed values or not. -/
inductive Membership where
  | isIn
  | notIn
  deriving DecidableEq

/-- How two filters are joined. -/
inductive Connective where
  | and
  | or
  deriving DecidableEq

/-- What the outermost node of a filter does. -/
inductive Operator where
  | relation (relation : Relation)
  | membership (membership : Membership)
  | connective (connective : Connective)
  | negation
  deriving DecidableEq

namespace Operator

def all : List Operator :=
  [relation .eq, relation .notEq, relation .gt, relation .gte, relation .lt, relation .lte,
    membership .isIn, membership .notIn, relation .contains, connective .and, connective .or,
    negation]

/-- The name of an operator in JSON. -/
def name : Operator → String
  | relation .eq => "eq"
  | relation .notEq => "not_eq"
  | relation .gt => "gt"
  | relation .gte => "gte"
  | relation .lt => "lt"
  | relation .lte => "lte"
  | relation .contains => "contains"
  | membership .isIn => "in"
  | membership .notIn => "not_in"
  | connective .and => "and"
  | connective .or => "or"
  | negation => "not"

/-- The name of an operator in a diagnostic. -/
def label : Operator → String
  | relation .eq => "Eq"
  | relation .notEq => "NotEq"
  | relation .gt => "Gt"
  | relation .gte => "Gte"
  | relation .lt => "Lt"
  | relation .lte => "Lte"
  | relation .contains => "Contains"
  | membership .isIn => "In"
  | membership .notIn => "NotIn"
  | connective .and => "And"
  | connective .or => "Or"
  | negation => "Not"

def ofName? (name : String) : Option Operator := all.find? fun operator => operator.name = name

end Operator

end FilterQuery
