import FilterQuery.Filter.Basic
import FilterQuery.Json.Printer
import FilterQuery.Value.Json

/-!
Filters as JSON objects. The member `op` names the operator and comes first; the fields of the
operator follow in a fixed order.
-/
namespace FilterQuery

/-- The members of an operator's object. -/
inductive Field where
  | key
  | value
  | values
  | left
  | right
  | expr
  deriving DecidableEq

namespace Field

def all : List Field := [key, value, values, left, right, expr]

def name : Field → String
  | key => "key"
  | value => "value"
  | values => "values"
  | left => "left"
  | right => "right"
  | expr => "expr"

def ofName? (name : String) : Option Field := all.find? fun field => field.name = name

end Field

/-- The name of the member that holds the operator. -/
def Operator.tag : String := "op"

def Operator.fields : Operator → List Field
  | relation _ => [.key, .value]
  | membership _ => [.key, .values]
  | connective _ => [.left, .right]
  | negation => [.expr]

namespace Filter

/-- The object of an operator and its fields. -/
def tagged (operator : Operator) (fields : List (Field × Json)) : Json :=
  .object ((Operator.tag, .string operator.name) ::
    fields.map fun (field, json) => (field.name, json))

def toJson : Filter → Json
  | leaf (.compare relation key value) =>
    tagged (.relation relation) [(.key, .string key), (.value, value.toJson)]
  | leaf (.among membership key values) =>
    tagged (.membership membership)
      [(.key, .string key), (.values, .array (values.map Value.toJson))]
  | join connective left right =>
    tagged (.connective connective) [(.left, left.toJson), (.right, right.toJson)]
  | not inner => tagged .negation [(.expr, inner.toJson)]

/-- The filter as a line of JSON text. -/
def toText (filter : Filter) : String := filter.toJson.toText

end Filter

end FilterQuery
