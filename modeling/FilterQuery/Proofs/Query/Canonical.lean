import FilterQuery.Proofs.Query.Clause

/-!
Canonical forms of filters, and the clauses that filters are written as. A canonical form gives
every value by its text, a negated condition as the negation of a condition, and membership of a tag
in a list with one value as equality. Filters with one canonical form are written as one clause
(`clause?_canonical`), and the canonical form can be read off the clause (`filter?_of_clause?`).
-/
namespace FilterQuery

/-- The text of the value in queries, as a value. -/
def Value.displayed (value : Value) : Value := .string value.queryText

/-- The field equals one of the values; if it is a tag and there is only one, equals it. -/
def Filter.oneOf (schema : Schema) (key : String) : List Value → Filter
  | [value] => if schema.equalityType key = .tag then .eq key value else .isIn key [value]
  | values => .isIn key values

def Leaf.canonical (schema : Schema) : Leaf → Filter
  | compare .notEq key value => .not (.eq key value.displayed)
  | compare relation key value => .leaf (.compare relation key value.displayed)
  | among .isIn key values => .oneOf schema key (values.map Value.displayed)
  | among .notIn key values => .not (.oneOf schema key (values.map Value.displayed))

/-- The canonical form of a filter: leaf by leaf, without a change to the nodes above them. -/
def Filter.canonical (schema : Schema) : Filter → Filter
  | leaf l => l.canonical schema
  | join connective left right => .join connective (left.canonical schema) (right.canonical schema)
  | not inner => .not (inner.canonical schema)

namespace FieldType

open Query

/-- The body that says that a field of this type equals the word. -/
def equalityForm? (type : FieldType) (word : String) : Option Body :=
  match type with
  | numeric => some (.interval (.inclusive (.string word)) (.inclusive (.string word)))
  | tag => some (.tags [word])
  | text => some (.phrase word)
  | geo | vector => none

/-- The body that says that a field of this type lies between the ends. -/
def rangeForm? (type : FieldType) (lower upper : Bound) : Option Body :=
  match type with
  | numeric => some (.interval lower upper)
  | tag | text | geo | vector => none

/-- The body that says that a field of this type equals one of the words. -/
def membershipForm? (type : FieldType) (words : List String) : Option Body :=
  match type with
  | tag => some (.tags words)
  | text => some (.phrases words)
  | numeric | geo | vector => none

end FieldType

open Query (Body Clause)

def Leaf.clause? (schema : Schema) : Leaf → Option Clause
  | compare .eq key value => equality key value
  | compare .notEq key value => (equality key value).map .negation
  | compare .gt key value => range key (.exclusive value.displayed) .positiveInfinity
  | compare .gte key value => range key (.inclusive value.displayed) .positiveInfinity
  | compare .lt key value => range key .negativeInfinity (.exclusive value.displayed)
  | compare .lte key value => range key .negativeInfinity (.inclusive value.displayed)
  | compare .contains _ _ => none
  | among .isIn key values => membership key values
  | among .notIn key values => (membership key values).map .negation
where
  equality (key : String) (value : Value) : Option Clause :=
    ((schema.equalityType key).equalityForm? value.queryText).map (.field key)
  range (key : String) (lower upper : Bound) : Option Clause :=
    ((schema.rangeType key).rangeForm? lower upper).map (.field key)
  membership (key : String) (values : List Value) : Option Clause :=
    ((schema.equalityType key).membershipForm? (values.map Value.queryText)).map (.field key)

/-- Two clauses in a group, if both exist. -/
def Query.Clause.group? (connective : Connective) : Option Clause → Option Clause → Option Clause
  | some left, some right => some (.group connective left right)
  | _, _ => none

theorem Query.Clause.group?_eq_some {connective : Connective} {left? right? : Option Clause}
    {clause : Clause} (found : group? connective left? right? = some clause) :
    ∃ left right, left? = some left ∧ right? = some right ∧
      clause = .group connective left right := by
  cases left? with
  | none => cases found
  | some left =>
    cases right? with
    | none => cases found
    | some right =>
      cases found
      exact ⟨left, right, rfl, rfl, rfl⟩

def Filter.clause? (schema : Schema) : Filter → Option Clause
  | leaf l => l.clause? schema
  | join connective left right =>
    Query.Clause.group? connective (left.clause? schema) (right.clause? schema)
  | not inner => (inner.clause? schema).map .negation

namespace Fragment

/-- The fragment writes the clause, and is refused where there is none. -/
def Writes (fragment : Fragment) : Option Clause → Prop
  | some clause => fragment = written clause.text
  | none => fragment.refusal ≠ none

theorem writes_equality (schema : Schema) (key : String) (value : Value) :
    (equality schema key value).Writes (Leaf.clause?.equality schema key value) := by
  unfold equality Leaf.clause?.equality
  cases schema.equalityType key with
  | numeric | tag | text => exact predicate_of_supports rfl
  | geo | vector =>
    intro accepted
    rw [refusal_predicate] at accepted
    cases accepted

/-- Only the texts of the ends are written. -/
theorem writes_range (schema : Schema) (key : String) {lower upper lower' upper' : Bound}
    (lowers : lower.text = lower'.text) (uppers : upper.text = upper'.text) :
    (range schema key lower upper).Writes (Leaf.clause?.range schema key lower' upper') := by
  unfold range Leaf.clause?.range FieldType.rangeBody
  rw [lowers, uppers]
  cases schema.rangeType key with
  | numeric => exact predicate_of_supports rfl
  | tag | text | geo | vector =>
    intro accepted
    rw [refusal_predicate] at accepted
    cases accepted

theorem writes_membership (schema : Schema) (key : String) (values : List Value) :
    (membership schema key values).Writes (Leaf.clause?.membership schema key values) := by
  unfold membership Leaf.clause?.membership
  cases schema.equalityType key with
  | tag => exact predicate_of_supports rfl
  | text =>
    have phrases : values.map (fun value => Brackets.phrase.wrap value.queryText) =
        (values.map Value.queryText).map Brackets.phrase.wrap := by
      rw [List.map_map]
      rfl
    simp only [FieldType.membershipBody?, phrases]
    exact predicate_of_supports rfl
  | numeric | geo | vector =>
    intro accepted
    rw [refusal_predicate] at accepted
    cases accepted

theorem Writes.negated {fragment : Fragment} {clause : Option Clause}
    (writes : fragment.Writes clause) : fragment.negated.Writes (clause.map .negation) := by
  cases clause with
  | none =>
    intro accepted
    rw [refusal_negated] at accepted
    exact writes accepted
  | some clause =>
    cases writes
    exact negated_written clause.text

theorem Writes.group {a b : Fragment} {left right : Option Clause} (connective : Connective)
    (writesLeft : a.Writes left) (writesRight : b.Writes right) :
    (group a connective.delimiter b).Writes (Query.Clause.group? connective left right) := by
  cases left with
  | none =>
    intro accepted
    rw [refusal_group, Option.or_eq_none_iff] at accepted
    exact writesLeft accepted.1
  | some left =>
    cases right with
    | none =>
      intro accepted
      rw [refusal_group, Option.or_eq_none_iff] at accepted
      exact writesRight accepted.2
    | some right =>
      cases writesLeft
      cases writesRight
      exact group_written left.text connective.delimiter right.text

end Fragment

theorem Leaf.writes_render (schema : Schema) (l : Leaf) :
    (l.render schema).Writes (l.clause? schema) := by
  cases l with
  | compare relation key value =>
    cases relation with
    | eq => exact Fragment.writes_equality schema key value
    | notEq => exact (Fragment.writes_equality schema key value).negated
    | gt | gte | lt | lte => exact Fragment.writes_range schema key rfl rfl
    | contains =>
      intro accepted
      cases accepted
  | among membership key values =>
    cases membership with
    | isIn => exact Fragment.writes_membership schema key values
    | notIn => exact (Fragment.writes_membership schema key values).negated

/-- Rendering writes the clause of the filter. -/
theorem Filter.writes_render (schema : Schema) (filter : Filter) :
    (filter.render schema).Writes (filter.clause? schema) := by
  induction filter with
  | leaf l => exact l.writes_render schema
  | join connective left right ihLeft ihRight => exact ihLeft.group connective ihRight
  | not inner ih => exact ih.negated

/-- A query is the text of the clause of its filter. -/
theorem Query.compile_eq_ok {schema : Schema} {filter : Filter} {query : String} :
    compile schema (some filter) = .ok query ↔
      ∃ clause, filter.clause? schema = some clause ∧ clause.text = query := by
  have writes := filter.writes_render schema
  rw [compile, Fragment.result_eq_ok]
  cases clause : filter.clause? schema with
  | none =>
    rw [clause] at writes
    constructor
    · intro written
      rw [written] at writes
      exact absurd rfl writes
    · rintro ⟨_, none, _⟩
      cases none
  | some clause' =>
    rw [clause] at writes
    rw [show filter.render schema = _ from writes]
    constructor
    · intro same
      cases same
      exact ⟨clause', rfl, rfl⟩
    · rintro ⟨_, found, rfl⟩
      cases found
      rfl

theorem clause?_oneOf (schema : Schema) (key : String) (values : List Value) :
    (Filter.oneOf schema key (values.map Value.displayed)).clause? schema =
      Leaf.clause?.membership schema key values := by
  have texts : (values.map Value.displayed).map Value.queryText = values.map Value.queryText := by
    rw [List.map_map]
    rfl
  have listed : (Filter.isIn key (values.map Value.displayed)).clause? schema =
      Leaf.clause?.membership schema key values := by
    rw [Filter.isIn, Filter.clause?, Leaf.clause?, Leaf.clause?.membership, texts]
    rfl
  match values with
  | [] => exact listed
  | [value] =>
    rw [List.map_singleton, Filter.oneOf]
    split
    case isTrue tag =>
      rw [Filter.eq, Filter.clause?, Leaf.clause?, Leaf.clause?.equality, Leaf.clause?.membership,
        tag]
      rfl
    case isFalse => exact listed
  | _ :: _ :: _ => exact listed

theorem Leaf.clause?_canonical (schema : Schema) (l : Leaf) :
    (l.canonical schema).clause? schema = l.clause? schema := by
  cases l with
  | compare relation key value => cases relation <;> rfl
  | among membership key values =>
    cases membership with
    | isIn => exact clause?_oneOf schema key values
    | notIn => exact congrArg (Option.map Query.Clause.negation) (clause?_oneOf schema key values)

/-- A filter is written like its canonical form. -/
theorem Filter.clause?_canonical (schema : Schema) (filter : Filter) :
    (filter.canonical schema).clause? schema = filter.clause? schema := by
  induction filter with
  | leaf l => exact l.clause?_canonical schema
  | join connective left right ihLeft ihRight => rw [canonical, clause?, ihLeft, ihRight, clause?]
  | not inner ih => rw [canonical, clause?, ih, clause?]

/-- The canonical filter that the body stands for, if it stands for one. -/
def Query.Body.filter? (key : String) : Body → Option Filter
  | .interval (.value value false) (.value _ false) => some (.eq key value)
  | .interval (.value value true) .positiveInfinity => some (.gt key value)
  | .interval (.value value false) .positiveInfinity => some (.gte key value)
  | .interval .negativeInfinity (.value value true) => some (.lt key value)
  | .interval .negativeInfinity (.value value false) => some (.lte key value)
  | .interval _ _ => none
  | .tags [word] | .phrase word => some (.eq key (.string word))
  | .tags words | .phrases words => some (.isIn key (words.map .string))

/-- The canonical filter that the clause stands for, if it stands for one. -/
def Query.Clause.filter? : Clause → Option Filter
  | field key body => body.filter? key
  | negation inner => inner.filter?.map .not
  | group connective left right => do return .join connective (← left.filter?) (← right.filter?)

theorem filter?_of_equality {schema : Schema} {key : String} {value : Value} {clause : Clause}
    (found : Leaf.clause?.equality schema key value = some clause) :
    clause.filter? = some (.eq key value.displayed) := by
  unfold Leaf.clause?.equality at found
  cases type : schema.equalityType key with
  | numeric | tag | text =>
    rw [type] at found
    cases found
    rfl
  | geo | vector =>
    rw [type] at found
    cases found

/-- A range has a clause on numeric fields only, which is an interval. -/
theorem interval_of_range {schema : Schema} {key : String} {lower upper : Bound}
    {clause : Clause} (found : Leaf.clause?.range schema key lower upper = some clause) :
    schema.rangeType key = .numeric ∧ clause = .field key (.interval lower upper) := by
  unfold Leaf.clause?.range at found
  cases type : schema.rangeType key with
  | numeric =>
    rw [type] at found
    cases found
    exact ⟨rfl, rfl⟩
  | tag | text | geo | vector =>
    rw [type] at found
    cases found

theorem filter?_of_membership {schema : Schema} {key : String} {values : List Value}
    {clause : Clause} (found : Leaf.clause?.membership schema key values = some clause) :
    clause.filter? = some (.oneOf schema key (values.map Value.displayed)) := by
  unfold Leaf.clause?.membership at found
  have words : values.map Value.displayed = (values.map Value.queryText).map .string := by
    rw [List.map_map]
    rfl
  rw [words]
  generalize values.map Value.queryText = words at found
  cases type : schema.equalityType key with
  | tag =>
    rw [type] at found
    cases found
    match words with
    | [] | _ :: _ :: _ => rfl
    | [word] => simp [Query.Clause.filter?, Query.Body.filter?, Filter.oneOf, type]
  | text =>
    rw [type] at found
    cases found
    match words with
    | [] | _ :: _ :: _ => rfl
    | [word] => simp [Query.Clause.filter?, Query.Body.filter?, Filter.oneOf, type]
  | numeric | geo | vector =>
    rw [type] at found
    cases found

theorem Leaf.filter?_of_clause? {schema : Schema} {l : Leaf} {clause : Clause}
    (found : l.clause? schema = some clause) : clause.filter? = some (l.canonical schema) := by
  cases l with
  | compare relation key value =>
    cases relation with
    | eq => exact filter?_of_equality found
    | notEq =>
      obtain ⟨inner, foundInner, rfl⟩ := Option.map_eq_some_iff.mp found
      rw [Query.Clause.filter?, filter?_of_equality foundInner]
      rfl
    | gt | gte | lt | lte =>
      rw [(interval_of_range found).2]
      rfl
    | contains => cases found
  | among membership key values =>
    cases membership with
    | isIn => exact filter?_of_membership found
    | notIn =>
      obtain ⟨inner, foundInner, rfl⟩ := Option.map_eq_some_iff.mp found
      rw [Query.Clause.filter?, filter?_of_membership foundInner]
      rfl

/-- The clause of a filter stands for its canonical form. -/
theorem Filter.filter?_of_clause? {schema : Schema} {filter : Filter} {clause : Clause}
    (found : filter.clause? schema = some clause) :
    clause.filter? = some (filter.canonical schema) := by
  induction filter generalizing clause with
  | leaf l => exact Leaf.filter?_of_clause? found
  | join connective left right ihLeft ihRight =>
    obtain ⟨clauseLeft, clauseRight, foundLeft, foundRight, rfl⟩ :=
      Query.Clause.group?_eq_some found
    rw [Query.Clause.filter?, ihLeft foundLeft, ihRight foundRight]
    rfl
  | not inner ih =>
    obtain ⟨clauseInner, foundInner, rfl⟩ := Option.map_eq_some_iff.mp found
    rw [Query.Clause.filter?, ih foundInner]
    rfl

end FilterQuery
