import FilterQuery.Proofs.Filter.Footprint
import FilterQuery.Proofs.Query.Support

/-!
What a compilation takes from the schema. A leaf asks the schema for one type, the one its field has
or is assumed to have in its class of predicates, and a leaf with the relation `contains` asks for
none (`Leaf.assumedType?`). Schemas that answer alike give the same query, or the same refusal
(`Filter.render_congr`), so only the fields of the filter count, and a field that is not registered
counts as one that is registered with the default.
-/
namespace FilterQuery

namespace Schema

/-- A field that is registered with the default of equality and membership counts as before. -/
theorem equalityType_insert_default {schema : Schema} {key : String}
    (unregistered : schema.get? key = none) :
    equalityType (schema.insert key equalityDefault) key = equalityType schema key := by
  rw [equalityType, equalityType, SortedMap.get?_insert, if_pos rfl, unregistered]
  rfl

/-- A field that is registered with the default of ranges counts as before. -/
theorem rangeType_insert_default {schema : Schema} {key : String}
    (unregistered : schema.get? key = none) :
    rangeType (schema.insert key rangeDefault) key = rangeType schema key := by
  rw [rangeType, rangeType, SortedMap.get?_insert, if_pos rfl, unregistered]
  rfl

end Schema

namespace Leaf

/-- The leaf has one of the four order relations. -/
def IsRange : Leaf → Prop
  | compare .gt _ _ | compare .gte _ _ | compare .lt _ _ | compare .lte _ _ => True
  | compare .eq _ _ | compare .notEq _ _ | compare .contains _ _ | among _ _ _ => False

def IsContains : Leaf → Prop
  | compare .contains _ _ => True
  | compare _ _ _ | among _ _ _ => False

/-- The type that the schema gives the field in the class of the leaf, if the leaf has a class. -/
def assumedType? (schema : Schema) : Leaf → Option FieldType
  | compare .contains _ _ => none
  | compare .eq key _ | compare .notEq key _ | among _ key _ => some (schema.equalityType key)
  | compare .gt key _ | compare .gte key _ | compare .lt key _ | compare .lte key _ =>
    some (schema.rangeType key)

variable {schema schema' : Schema}

/-- A schema counts for a leaf only by the type that it gives the field. -/
theorem render_congr {l : Leaf} (same : l.assumedType? schema = l.assumedType? schema') :
    l.render schema = l.render schema' := by
  cases l with
  | compare relation key value =>
    cases relation with
    | contains => rfl
    | eq | notEq =>
      have types : schema.equalityType key = schema'.equalityType key := Option.some.inj same
      simp only [render, Fragment.equality, types]
    | gt | gte | lt | lte =>
      have types : schema.rangeType key = schema'.rangeType key := Option.some.inj same
      simp only [render, Fragment.range, types]
  | among membership key values =>
    have types : schema.equalityType key = schema'.equalityType key := Option.some.inj same
    cases membership <;> simp only [render, Fragment.membership, types]

theorem assumedType?_congr {l : Leaf} (same : schema.get? l.key = schema'.get? l.key) :
    l.assumedType? schema = l.assumedType? schema' := by
  cases l with
  | compare relation key value =>
    change schema.get? key = schema'.get? key at same
    cases relation <;>
      simp only [assumedType?, Schema.equalityType, Schema.rangeType, same]
  | among membership key values =>
    change schema.get? key = schema'.get? key at same
    simp only [assumedType?, Schema.equalityType, same]

/-- To register another field changes nothing for the leaf. -/
theorem assumedType?_insert_of_ne {l : Leaf} {key : String} (other : l.key ≠ key)
    (type : FieldType) : l.assumedType? (schema.insert key type) = l.assumedType? schema := by
  refine assumedType?_congr ?_
  rw [SortedMap.get?_insert, if_neg other.symm]

theorem assumedType?_insert_tag {l : Leaf} (unregistered : schema.get? l.key = none)
    (noRange : ¬ l.IsRange) :
    l.assumedType? (schema.insert l.key .tag) = l.assumedType? schema := by
  have types := Schema.equalityType_insert_default unregistered
  cases l with
  | compare relation key value =>
    cases relation with
    | contains => rfl
    | eq | notEq => exact congrArg some types
    | gt | gte | lt | lte => exact absurd trivial noRange
  | among membership key values => exact congrArg some types

theorem assumedType?_insert_text {l : Leaf} (unregistered : schema.get? l.key = none)
    (admitted : l.IsRange ∨ l.IsContains) :
    l.assumedType? (schema.insert l.key .text) = l.assumedType? schema := by
  have types := Schema.rangeType_insert_default unregistered
  cases l with
  | compare relation key value =>
    cases relation with
    | contains => rfl
    | eq | notEq => rcases admitted with none | none <;> exact none.elim
    | gt | gte | lt | lte => exact congrArg some types
  | among membership key values => rcases admitted with none | none <;> exact none.elim

/-- A range over a field that is not registered is refused. -/
theorem not_supported_of_isRange {l : Leaf} (unregistered : schema.get? l.key = none)
    (range : l.IsRange) : ¬ l.Supported schema := by
  intro supported
  cases l with
  | compare relation key value =>
    change schema.get? key = none at unregistered
    cases relation with
    | contains | eq | notEq => exact range
    | gt | gte | lt | lte =>
      rw [Supported, unregistered] at supported
      cases supported
  | among membership key values => exact range

end Leaf

namespace Filter

variable {schema schema' : Schema}

/-- Schemas that give every leaf the same type give the filter the same fragment. -/
theorem render_congr {filter : Filter}
    (same : ∀ l ∈ filter.leaves, l.assumedType? schema = l.assumedType? schema') :
    filter.render schema = filter.render schema' := by
  induction filter with
  | leaf l => exact Leaf.render_congr (same l (List.mem_singleton_self l))
  | join connective left right ihLeft ihRight =>
    rw [render, ihLeft fun l inLeft => same l (List.mem_append_left _ inLeft),
      ihRight fun l inRight => same l (List.mem_append_right _ inRight), render]
  | not inner ih => rw [render, ih same, render]

theorem compile_congr {filter : Filter}
    (same : ∀ l ∈ filter.leaves, l.assumedType? schema = l.assumedType? schema') :
    Query.compile schema (some filter) = Query.compile schema' (some filter) :=
  congrArg Fragment.result (render_congr same)

/-- To register a field changes nothing if it changes nothing for the leaves with this field. -/
theorem compile_insert {filter : Filter} {key : String} {type : FieldType}
    (same : ∀ l ∈ filter.leaves, l.key = key →
      l.assumedType? (schema.insert l.key type) = l.assumedType? schema) :
    Query.compile (schema.insert key type) (some filter) = Query.compile schema (some filter) := by
  refine compile_congr fun l member => ?_
  by_cases here : l.key = key
  · rw [← here]
    exact same l member here
  · exact Leaf.assumedType?_insert_of_ne here type

end Filter

/-- The result of a compilation depends only on what the schema holds for the fields of the filter.
An unregistered field may be registered as a tag unless a range is over it, and as text if nothing
but ranges and `contains` are; and while a field with a range over it is not registered, there is no
query. -/
theorem compile_depends_on_fields (filter : Filter) :
    (∀ schema schema' : Schema, (∀ key ∈ filter.keys, schema.get? key = schema'.get? key) →
        Query.compile schema (some filter) = Query.compile schema' (some filter)) ∧
      ∀ (schema : Schema) (key : String), schema.get? key = none →
        ((∀ l ∈ filter.leaves, l.key = key → ¬ l.IsRange) →
          Query.compile (schema.insert key .tag) (some filter) =
            Query.compile schema (some filter)) ∧
        ((∀ l ∈ filter.leaves, l.key = key → l.IsRange ∨ l.IsContains) →
          Query.compile (schema.insert key .text) (some filter) =
            Query.compile schema (some filter)) ∧
        ((∃ l ∈ filter.leaves, l.key = key ∧ l.IsRange) →
          ∀ query, Query.compile schema (some filter) ≠ .ok query) := by
  constructor
  · intro schema schema' same
    refine Filter.compile_congr fun l member => Leaf.assumedType?_congr ?_
    exact same l.key (Filter.mem_keys.mpr ⟨l, member, rfl⟩)
  · intro schema key unregistered
    refine ⟨?_, ?_, ?_⟩
    · intro noRange
      refine Filter.compile_insert fun l member here => ?_
      exact Leaf.assumedType?_insert_tag (here ▸ unregistered) (noRange l member here)
    · intro admitted
      refine Filter.compile_insert fun l member here => ?_
      exact Leaf.assumedType?_insert_text (here ▸ unregistered) (admitted l member here)
    · rintro ⟨l, member, rfl, range⟩ query compiled
      have complete : (filter.render schema).refusal = none := by
        rw [Query.compile, Fragment.result_eq_ok] at compiled
        rw [compiled, Fragment.refusal_written]
      rw [Filter.refusal_render, Option.map_eq_none_iff, Filter.firstUnsupported?_eq_none]
        at complete
      exact Leaf.not_supported_of_isRange unregistered range (complete l member)

/-- A schema that knows `color` and one that knows an unused field as well compile a filter alike,
`year` may be registered as a tag or the type of a range, and a range over it is refused. -/
theorem compile_depends_on_fields_of_two :
    let schema : Schema := SortedMap.empty.insert "color" .tag
    let wider : Schema := schema.insert "size" .numeric
    let equality : Filter := .and (.eq "color" (.string "red")) (.eq "year" (.int 1990))
    let range : Filter := .or (.contains "year" (.string "9")) (.gt "year" (.int 1990))
    Query.compile schema (some equality) = Query.compile wider (some equality) ∧
      Query.compile (schema.insert "year" .tag) (some equality) =
        Query.compile schema (some equality) ∧
      Query.compile (schema.insert "year" .text) (some range) =
        Query.compile schema (some range) ∧
      Query.compile schema (some range) ≠ .ok "" := by
  intro schema wider equality range
  have used : ∀ key ∈ equality.keys, schema.get? key = wider.get? key := by
    decide +kernel
  have unregistered : schema.get? "year" = none := by decide +kernel
  have noRange : ∀ l ∈ equality.leaves, l.key = "year" → ¬ l.IsRange := by
    intro l member _
    rcases List.mem_cons.mp member with rfl | member
    · exact id
    · cases List.mem_singleton.mp member
      exact id
  have onlyRanges : ∀ l ∈ range.leaves, l.key = "year" → l.IsRange ∨ l.IsContains := by
    intro l member _
    rcases List.mem_cons.mp member with rfl | member
    · exact .inr trivial
    · cases List.mem_singleton.mp member
      exact .inl trivial
  have ranged : ∃ l ∈ range.leaves, l.key = "year" ∧ l.IsRange :=
    ⟨.compare .gt "year" (.int 1990), List.mem_of_elem_eq_true (by decide +kernel), rfl, trivial⟩
  have ofEquality := compile_depends_on_fields equality
  have ofRange := (compile_depends_on_fields range).2 schema "year" unregistered
  exact ⟨ofEquality.1 schema wider used, (ofEquality.2 schema "year" unregistered).1 noRange,
    ofRange.2.1 onlyRanges, ofRange.2.2 ranged ""⟩

end FilterQuery
