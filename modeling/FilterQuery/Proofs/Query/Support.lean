import FilterQuery.Query.Rendering

/-!
Which filters have a query. A leaf is supported when the query language has a form for its condition
on the type of its field. A filter is compiled exactly when all its leaves are supported, and
otherwise it is refused because of the first one, from the left, that is not.
-/
namespace FilterQuery

namespace Leaf

/-- The condition has a form on the type of the field. An unregistered field counts as a tag, and
for the four order relations as text. -/
def Supported (schema : Schema) : Leaf → Prop
  | compare .contains _ _ => False
  | compare .eq key _ | compare .notEq key _ =>
    (schema.get? key).getD .tag ∈ [FieldType.numeric, .tag, .text]
  | compare .gt key _ | compare .gte key _ | compare .lt key _ | compare .lte key _ =>
    (schema.get? key).getD .text = .numeric
  | among _ key _ => (schema.get? key).getD .tag ∈ [FieldType.tag, .text]

instance (schema : Schema) : (l : Leaf) → Decidable (l.Supported schema)
  | compare .contains _ _ => inferInstanceAs (Decidable False)
  | compare .eq _ _ | compare .notEq _ _ => inferInstanceAs (Decidable (_ ∈ _))
  | compare .gt _ _ | compare .gte _ _ | compare .lt _ _ | compare .lte _ _ =>
    inferInstanceAs (Decidable (_ = _))
  | among _ _ _ => inferInstanceAs (Decidable (_ ∈ _))

/-- What is said of the leaf when it is not supported: its operator, or its field with the assumed
type and the class of its condition. -/
def refusal (schema : Schema) : Leaf → Refusal
  | compare .contains _ _ => .unsupportedKind (.relation .contains)
  | compare .eq key _ | compare .notEq key _ =>
    .unsupportedType key ((schema.get? key).getD .tag) .equality
  | compare .gt key _ | compare .gte key _ | compare .lt key _ | compare .lte key _ =>
    .unsupportedType key ((schema.get? key).getD .text) .range
  | among _ key _ => .unsupportedType key ((schema.get? key).getD .tag) .membership

end Leaf

theorem FieldType.supports_equality (type : FieldType) :
    type.supports .equality = decide (type ∈ [numeric, tag, text]) := by
  cases type <;> rfl

theorem FieldType.supports_range (type : FieldType) :
    type.supports .range = decide (type = numeric) := by
  cases type <;> rfl

theorem FieldType.supports_membership (type : FieldType) :
    type.supports .membership = decide (type ∈ [tag, text]) := by
  cases type <;> rfl

namespace Fragment

theorem refusal_equality (schema : Schema) (key : String) (value : Value) :
    (equality schema key value).refusal =
      if (schema.get? key).getD .tag ∈ [FieldType.numeric, .tag, .text] then none
      else some (.unsupportedType key ((schema.get? key).getD .tag) .equality) := by
  simp only [equality, refusal_predicate, FieldType.isSome_equalityBody?, Bool.and_self,
    FieldType.supports_equality, decide_eq_true_eq, Schema.equalityType, Schema.equalityDefault]

theorem refusal_range (schema : Schema) (key : String) (lower upper : Bound) :
    (range schema key lower upper).refusal =
      if (schema.get? key).getD .text = .numeric then none
      else some (.unsupportedType key ((schema.get? key).getD .text) .range) := by
  simp only [range, refusal_predicate, Option.isSome_some, Bool.and_true,
    FieldType.supports_range, decide_eq_true_eq, Schema.rangeType, Schema.rangeDefault]

theorem refusal_membership (schema : Schema) (key : String) (values : List Value) :
    (membership schema key values).refusal =
      if (schema.get? key).getD .tag ∈ [FieldType.tag, .text] then none
      else some (.unsupportedType key ((schema.get? key).getD .tag) .membership) := by
  simp only [membership, refusal_predicate, FieldType.isSome_membershipBody?, Bool.and_self,
    FieldType.supports_membership, decide_eq_true_eq, Schema.equalityType, Schema.equalityDefault]

end Fragment

/-- A leaf is refused exactly when it is not supported. -/
theorem Leaf.refusal_render (schema : Schema) (l : Leaf) :
    (l.render schema).refusal =
      if l.Supported schema then none else some (l.refusal schema) := by
  cases l with
  | compare relation key value =>
    cases relation with
    | eq => exact Fragment.refusal_equality schema key value
    | notEq =>
      rw [Leaf.render, Fragment.refusal_negated]
      exact Fragment.refusal_equality schema key value
    | gt | gte | lt | lte => exact Fragment.refusal_range schema key _ _
    | contains => rfl
  | among membership key values =>
    cases membership with
    | isIn => exact Fragment.refusal_membership schema key values
    | notIn =>
      rw [Leaf.render, Fragment.refusal_negated]
      exact Fragment.refusal_membership schema key values

namespace Filter

/-- The leftmost leaf that is not supported. -/
def firstUnsupported? (schema : Schema) (filter : Filter) : Option Leaf :=
  filter.leaves.find? fun l => !decide (l.Supported schema)

theorem firstUnsupported?_join (schema : Schema) (connective : Connective) (left right : Filter) :
    (join connective left right).firstUnsupported? schema =
      (left.firstUnsupported? schema).or (right.firstUnsupported? schema) :=
  List.find?_append

theorem firstUnsupported?_eq_none {schema : Schema} {filter : Filter} :
    filter.firstUnsupported? schema = none ↔ ∀ l ∈ filter.leaves, l.Supported schema := by
  simp [firstUnsupported?]

theorem firstUnsupported?_eq_some {schema : Schema} {filter : Filter} {l : Leaf} :
    filter.firstUnsupported? schema = some l ↔
      ¬ l.Supported schema ∧ ∃ before after, filter.leaves = before ++ l :: after ∧
        ∀ l' ∈ before, l'.Supported schema := by
  simp [firstUnsupported?, List.find?_eq_some_iff_append]

/-- Rendering runs from left to right, through every node, to the first leaf that is not supported.
-/
theorem refusal_render (schema : Schema) (filter : Filter) :
    (filter.render schema).refusal =
      (filter.firstUnsupported? schema).map (Leaf.refusal schema) := by
  induction filter with
  | leaf l =>
    rw [render, Leaf.refusal_render]
    by_cases supported : l.Supported schema
    · simp [firstUnsupported?, leaves, supported]
    · simp [firstUnsupported?, leaves, supported]
  | join connective left right ihLeft ihRight =>
    rw [render, Fragment.refusal_group, ihLeft, ihRight, firstUnsupported?_join, Option.map_or]
  | not inner ih =>
    rw [render, Fragment.refusal_negated, ih]
    rfl

end Filter

theorem Leaf.name_of_refusal {schema : Schema} {l : Leaf} {operator : Operator}
    (h : l.refusal schema = .unsupportedKind operator) : operator.name = "contains" := by
  cases l with
  | compare relation key value =>
    cases relation with
    | contains =>
      cases h
      rfl
    | eq | notEq | gt | gte | lt | lte => cases h
  | among membership key values => cases h

/-- A filter has a query exactly when every leaf is supported. Otherwise it is refused, and the
refusal is the one of the first unsupported leaf from the left; where it names an operator, that is
`contains`. -/
theorem compile_blames_first_unsupported (schema : Schema) (filter : Filter) :
    ((∃ query, Query.compile schema (some filter) = .ok query) ↔
        ∀ l ∈ filter.leaves, l.Supported schema) ∧
      (∀ refusal, Query.compile schema (some filter) = .error refusal ↔
        ∃ before l after, filter.leaves = before ++ l :: after ∧
          (∀ l' ∈ before, l'.Supported schema) ∧ ¬ l.Supported schema ∧
          refusal = l.refusal schema) ∧
      (∀ operator, Query.compile schema (some filter) = .error (.unsupportedKind operator) →
        operator.name = "contains") := by
  have errors : ∀ refusal, Query.compile schema (some filter) = .error refusal ↔
      ∃ l, filter.firstUnsupported? schema = some l ∧ refusal = l.refusal schema := by
    intro refusal
    rw [Query.compile, Fragment.result_eq_error, Filter.refusal_render, Option.map_eq_some_iff]
    exact exists_congr fun l => and_congr_right fun _ => eq_comm
  refine ⟨?_, ?_, ?_⟩
  · rw [← Filter.firstUnsupported?_eq_none]
    constructor
    · rintro ⟨query, compiled⟩
      rw [Option.eq_none_iff_forall_ne_some]
      intro l found
      have refused := (errors (l.refusal schema)).mpr ⟨l, found, rfl⟩
      rw [compiled] at refused
      cases refused
    · intro none
      cases compiled : Query.compile schema (some filter) with
      | ok query => exact ⟨query, rfl⟩
      | error refusal =>
        obtain ⟨l, found, _⟩ := (errors refusal).mp compiled
        rw [none] at found
        cases found
  · intro refusal
    rw [errors]
    constructor
    · rintro ⟨l, found, same⟩
      obtain ⟨unsupported, before, after, split, supported⟩ :=
        Filter.firstUnsupported?_eq_some.mp found
      exact ⟨before, l, after, split, supported, unsupported, same⟩
    · rintro ⟨before, l, after, split, supported, unsupported, same⟩
      exact ⟨l, Filter.firstUnsupported?_eq_some.mpr ⟨unsupported, before, after, split, supported⟩,
        same⟩
  · intro operator refused
    obtain ⟨l, _, same⟩ := (errors _).mp refused
    exact Leaf.name_of_refusal same.symm

/-- Without a schema, the second of three leaves is to blame, although the third is not supported
either. -/
theorem compile_blames_second_of_three :
    let filter : Filter := .and (.eq "color" (.string "red"))
      (.or (.contains "title" (.string "a")) (.gt "price" (.int 1)))
    Query.compile SortedMap.empty (some filter) =
        .error (.unsupportedKind (.relation .contains)) ∧
      (Operator.relation .contains).name = "contains" := by
  intro filter
  have blamed := compile_blames_first_unsupported SortedMap.empty filter
  have supported : ∀ l ∈ [Leaf.compare .eq "color" (.string "red")],
      l.Supported SortedMap.empty := by
    intro l member
    cases List.mem_singleton.mp member
    decide
  have refused : Query.compile SortedMap.empty (some filter) =
      .error (.unsupportedKind (.relation .contains)) :=
    (blamed.2.1 _).mpr ⟨_, .compare .contains "title" (.string "a"), _, rfl, supported,
      by decide, rfl⟩
  exact ⟨refused, blamed.2.2 _ refused⟩

end FilterQuery
