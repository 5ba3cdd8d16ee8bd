import FilterQuery.Filter.Basic
import FilterQuery.Metadata

/-!
Evaluation of a filter on the metadata of a document. A missing field, or a value that does not
compare with the stored one, satisfies no positive condition; the conditions `not_eq` and `not_in`
are the negations of `eq` and `in`.
-/
namespace FilterQuery

/-- The part occurs in the text, as a run of consecutive characters. -/
def occursIn (part : List Char) : List Char → Bool
  | [] => part.isEmpty
  | c :: rest => part.isPrefixOf (c :: rest) || occursIn part rest

/-- The stored value stands to the given one in a relation. -/
def Relation.holds (relation : Relation) (stored : Option Value) (value : Value) : Bool :=
  let order := stored.bind fun actual => actual.compare? value
  match relation with
  | eq => order = some .eq
  | notEq => order ≠ some .eq
  | gt => order = some .gt
  | gte => order = some .gt || order = some .eq
  | lt => order = some .lt
  | lte => order = some .lt || order = some .eq
  | contains =>
    match stored, value with
    | some (.string text), .string part => occursIn part.toList text.toList
    | _, _ => false

/-- The stored value is, or is not, equal to one of those listed. -/
def Membership.holds (membership : Membership) (stored : Option Value) (values : List Value) :
    Bool :=
  let found := stored.any fun actual => values.any actual.equal
  match membership with
  | isIn => found
  | notIn => !found

/-- The connective on truth values. -/
def Connective.holds : Connective → Bool → Bool → Bool
  | and, a, b => a && b
  | or, a, b => a || b

/-- The document satisfies the condition. -/
def Leaf.accepts (metadata : Metadata) : Leaf → Bool
  | compare relation key value => relation.holds (metadata.get? key) value
  | among membership key values => membership.holds (metadata.get? key) values

/-- The document satisfies the filter. -/
def Filter.accepts (metadata : Metadata) : Filter → Bool
  | leaf l => l.accepts metadata
  | join connective left right => connective.holds (left.accepts metadata) (right.accepts metadata)
  | not inner => !inner.accepts metadata

/-- The document satisfies the filter, if there is one. -/
def Filter.acceptsOptional (metadata : Metadata) (filter : Option Filter) : Bool :=
  filter.all (Filter.accepts metadata)

end FilterQuery
