import FilterQuery.Filter.Basic
import FilterQuery.Query.Bound
import FilterQuery.Query.Brackets
import FilterQuery.Query.Fragment
import FilterQuery.Schema

/-!
Rendering of filters as queries. A leaf becomes a predicate `@key:body` whose form depends on the
type of the field; inner nodes put parentheses around their parts, from left to right. The first
leaf without a form stops the rendering, and a filter that is not rendered to its end has no query.
-/
namespace FilterQuery

namespace FieldType

/-- The body of an equality: an interval of one point, a tag, or a phrase. -/
def equalityBody? (type : FieldType) (value : Value) : Option String :=
  match type with
  | numeric => some (Brackets.interval.wrapPair value.queryText value.queryText)
  | tag => some (Brackets.tag.wrap value.queryText)
  | text => some (Brackets.phrase.wrap value.queryText)
  | geo | vector => none

/-- The body of a range, whatever the type: only fields that can take a range come to need it. -/
def rangeBody (lower upper : Bound) : String := Brackets.interval.wrapPair lower.text upper.text

/-- Alternatives with bars between them. -/
def alternatives (texts : List String) : String := String.intercalate " | " texts

/-- The body of a membership: alternative tags, or a choice of phrases. -/
def membershipBody? (type : FieldType) (values : List Value) : Option String :=
  match type with
  | tag => some (Brackets.tag.wrap (alternatives (values.map Value.queryText)))
  | text =>
    some (Brackets.choice.wrap
      (alternatives (values.map fun value => Brackets.phrase.wrap value.queryText)))
  | numeric | geo | vector => none

theorem isSome_equalityBody? (type : FieldType) (value : Value) :
    (type.equalityBody? value).isSome = type.supports .equality := by
  cases type <;> rfl

theorem isSome_membershipBody? (type : FieldType) (values : List Value) :
    (type.membershipBody? values).isSome = type.supports .membership := by
  cases type <;> rfl

end FieldType

namespace Fragment

/-- A predicate on a field. It is refused if the field cannot take its class, and also if the type
has no body for it. -/
def predicate (key : String) (type : FieldType) (predicateClass : PredicateClass)
    (body : Option String) : Fragment :=
  match type.require key predicateClass, body with
  | .ok _, some body => written ("@" ++ key ++ ":" ++ body)
  | .ok _, none => refused (.unsupportedType key type predicateClass)
  | .error refusal, _ => refused refusal

theorem predicate_of_supports {key body : String} {type : FieldType}
    {predicateClass : PredicateClass} (supports : type.supports predicateClass = true) :
    predicate key type predicateClass (some body) = written ("@" ++ key ++ ":" ++ body) := by
  simp only [predicate, FieldType.require, supports, if_true]

/-- Whichever of the two checks fails, the refusal is the same. -/
theorem refusal_predicate (key : String) (type : FieldType) (predicateClass : PredicateClass)
    (body : Option String) :
    (predicate key type predicateClass body).refusal =
      if type.supports predicateClass && body.isSome then none
      else some (.unsupportedType key type predicateClass) := by
  unfold predicate FieldType.require
  cases body <;> cases type.supports predicateClass <;> rfl

def equality (schema : Schema) (key : String) (value : Value) : Fragment :=
  let type := schema.equalityType key
  predicate key type .equality (type.equalityBody? value)

def range (schema : Schema) (key : String) (lower upper : Bound) : Fragment :=
  let type := schema.rangeType key
  predicate key type .range (some (FieldType.rangeBody lower upper))

def membership (schema : Schema) (key : String) (values : List Value) : Fragment :=
  let type := schema.equalityType key
  predicate key type .membership (type.membershipBody? values)

def negated (inner : Fragment) : Fragment := written "(-" ++ inner ++ written ")"

/-- Two fragments with a delimiter between them, in parentheses. -/
def group (left : Fragment) (delimiter : String) (right : Fragment) : Fragment :=
  written "(" ++ left ++ written delimiter ++ right ++ written ")"

@[simp] theorem refusal_negated (inner : Fragment) : (negated inner).refusal = inner.refusal := by
  simp [negated]

@[simp] theorem refusal_group (left : Fragment) (delimiter : String) (right : Fragment) :
    (group left delimiter right).refusal = left.refusal.or right.refusal := by
  simp [group]

theorem negated_written (text : String) :
    negated (written text) = written ("(-" ++ text ++ ")") := by
  simp only [negated, written_append_written]

theorem group_written (left delimiter right : String) :
    group (written left) delimiter (written right) =
      written ("(" ++ left ++ delimiter ++ right ++ ")") := by
  simp only [group, written_append_written]

end Fragment

def Connective.delimiter : Connective → String
  | and => " "
  | or => " | "

def Leaf.render (schema : Schema) : Leaf → Fragment
  | compare .eq key value => .equality schema key value
  | compare .notEq key value => .negated (.equality schema key value)
  | compare .gt key value => .range schema key (.exclusive value) .positiveInfinity
  | compare .gte key value => .range schema key (.inclusive value) .positiveInfinity
  | compare .lt key value => .range schema key .negativeInfinity (.exclusive value)
  | compare .lte key value => .range schema key .negativeInfinity (.inclusive value)
  | compare .contains _ _ => .refused (.unsupportedKind (.relation .contains))
  | among .isIn key values => .membership schema key values
  | among .notIn key values => .negated (.membership schema key values)

def Filter.render (schema : Schema) : Filter → Fragment
  | leaf l => l.render schema
  | join connective left right =>
    .group (left.render schema) connective.delimiter (right.render schema)
  | not inner => .negated (inner.render schema)

/-- The query that every document satisfies. -/
def Query.matchAll : String := "(*)"

/-- The query of a filter; without a filter, the one that every document satisfies. -/
def Query.compile (schema : Schema) : Option Filter → Except Refusal String
  | none => .ok matchAll
  | some filter => (filter.render schema).result

/-- A query that is being written, step by step. -/
structure Renderer where
  schema : Schema
  query : String

namespace Renderer

def new (schema : Schema) : Renderer := ⟨schema, ""⟩

/-- Writes a fragment, as far as it goes. -/
def emit (renderer : Renderer) (fragment : Fragment) : Renderer :=
  { renderer with query := renderer.query ++ fragment.text }

end Renderer

end FilterQuery
