import FilterQuery.FieldType
import FilterQuery.Filter.Operator

/-!
Which predicates the query language can express on a field, by the type of the field, and why a
filter is refused when it needs another one.
-/
namespace FilterQuery

inductive PredicateClass where
  /-- The conditions `eq` and `not_eq`. -/
  | equality
  /-- The conditions `gt`, `gte`, `lt` and `lte`. -/
  | range
  /-- The conditions `in` and `not_in`. -/
  | membership
  deriving DecidableEq

namespace PredicateClass

def all : List PredicateClass := [equality, range, membership]

def name : PredicateClass → String
  | equality => "equality"
  | range => "range"
  | membership => "membership"

def label : PredicateClass → String
  | equality => "Equality"
  | range => "Range"
  | membership => "Membership"

end PredicateClass

namespace FieldType

/-- The classes of predicates that a field of this type can take. -/
def predicates : FieldType → List PredicateClass
  | numeric => [.equality, .range]
  | tag | text => [.equality, .membership]
  | geo | vector => []

def supports (type : FieldType) (predicate : PredicateClass) : Bool := predicate ∈ type.predicates

end FieldType

/-- Why a filter has no query: an operator without a form, or a predicate that a field cannot take.
-/
inductive Refusal where
  | unsupportedKind (operator : Operator)
  | unsupportedType (key : String) (type : FieldType) (predicate : PredicateClass)
  deriving DecidableEq

def Refusal.message : Refusal → String
  | unsupportedKind operator => "Unsupported filter kind: " ++ operator.name
  | unsupportedType key type predicate =>
    "Unsupported " ++ predicate.name ++ " filter on field '" ++ key ++ "' of type " ++ type.name

/-- Passes a predicate that a field of the type can take. -/
def FieldType.require (type : FieldType) (key : String) (predicate : PredicateClass) :
    Except Refusal Unit :=
  if type.supports predicate then .ok () else .error (.unsupportedType key type predicate)

end FilterQuery
