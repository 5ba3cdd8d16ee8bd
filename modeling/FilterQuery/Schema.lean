import FilterQuery.FieldType
import FilterQuery.SortedMap

/-!
Schemas: which type each field has. A field that is not registered still resolves to a type, and the
default depends on the predicate: equality and membership take it for a tag, a range takes it for
text and is thereby refused.
-/
namespace FilterQuery

abbrev Schema := SortedMap FieldType

namespace Schema

/-- The type that equality and membership assume for an unregistered field. -/
def equalityDefault : FieldType := .tag

/-- The type that a range assumes for an unregistered field. -/
def rangeDefault : FieldType := .text

/-- The type of a field in an equality or membership predicate. -/
def equalityType (schema : Schema) (key : String) : FieldType :=
  (schema.get? key).getD equalityDefault

/-- The type of a field in a range predicate. -/
def rangeType (schema : Schema) (key : String) : FieldType := (schema.get? key).getD rangeDefault

end Schema

end FilterQuery
