import FilterQuery.Filter.Evaluation

/-!
Reduction of filters to a core: the relations `eq`, `gt`, `lt` and `contains`, joined and negated.
An order that includes equality is tried as the strict order and then as equality, membership as one
equality after the other, and a negative condition is the negation of a positive one. A document
satisfies the reduced filter exactly when it satisfies the filter (`accepts_core`).
-/
namespace FilterQuery

def Relation.IsCore : Relation → Prop
  | eq | gt | lt | contains => True
  | notEq | gte | lte => False

def Leaf.IsCore : Leaf → Prop
  | compare relation _ _ => relation.IsCore
  | among _ _ _ => False

/-- Where the leaf lists values, it lists at least one. -/
def Leaf.HasValues : Leaf → Prop
  | compare _ _ _ => True
  | among _ _ values => values ≠ []

/-- The field equals the first value or one of the others, tried in order. -/
def Filter.anyOf (key : String) (first : Value) : List Value → Filter
  | [] => .eq key first
  | next :: rest => .or (.eq key first) (anyOf key next rest)

/-- A leaf in the core. Without values there is nothing to try, and the leaf stays as it is. -/
def Leaf.core : Leaf → Filter
  | compare .notEq key value => .not (.eq key value)
  | compare .gte key value => .or (.gt key value) (.eq key value)
  | compare .lte key value => .or (.lt key value) (.eq key value)
  | among .isIn key (first :: rest) => .anyOf key first rest
  | among .notIn key (first :: rest) => .not (.anyOf key first rest)
  | l => .leaf l

/-- The filter in the core: every leaf is replaced where it stands. -/
def Filter.core : Filter → Filter
  | leaf l => l.core
  | join connective left right => .join connective left.core right.core
  | not inner => .not inner.core

/-- Membership in a list is equality with one of its values. -/
theorem Membership.holds_isIn (stored : Option Value) (values : List Value) :
    isIn.holds stored values = values.any fun value => Relation.eq.holds stored value := by
  cases stored with
  | none =>
    refine (List.any_eq_false.mpr ?_).symm
    intro value _
    simp [Relation.holds]
  | some actual => rfl

/-- Membership depends only on which values are listed, not on their order or number. -/
theorem Membership.holds_congr (membership : Membership) (stored : Option Value)
    {values values' : List Value} (same : ∀ value, value ∈ values ↔ value ∈ values') :
    membership.holds stored values = membership.holds stored values' := by
  have positive : isIn.holds stored values = isIn.holds stored values' := by
    rw [holds_isIn, holds_isIn, Bool.eq_iff_iff, List.any_eq_true, List.any_eq_true]
    simp only [same]
  cases membership with
  | isIn => exact positive
  | notIn => exact congrArg Bool.not positive

namespace Filter

theorem accepts_anyOf (metadata : Metadata) (key : String) (first : Value) (rest : List Value) :
    (anyOf key first rest).accepts metadata = (isIn key (first :: rest)).accepts metadata := by
  have listed (values : List Value) : (isIn key values).accepts metadata =
      values.any fun value => (eq key value).accepts metadata :=
    Membership.holds_isIn _ values
  induction rest generalizing first with
  | nil => rw [anyOf, listed, List.any_cons, List.any_nil, Bool.or_false]
  | cons next rest ih =>
    calc (anyOf key first (next :: rest)).accepts metadata
        = ((eq key first).accepts metadata || (anyOf key next rest).accepts metadata) := rfl
      _ = ((eq key first).accepts metadata || (isIn key (next :: rest)).accepts metadata) := by
          rw [ih]
      _ = (isIn key (first :: next :: rest)).accepts metadata := by
          simp only [listed, List.any_cons]

theorem leaves_anyOf (key : String) (first : Value) (rest : List Value) :
    (anyOf key first rest).leaves = (first :: rest).map fun value => .compare .eq key value := by
  induction rest generalizing first with
  | nil => rfl
  | cons next rest ih =>
    rw [List.map_cons, ← ih]
    rfl

end Filter

namespace Leaf

theorem accepts_core_leaf (metadata : Metadata) (l : Leaf) :
    l.core.accepts metadata = l.accepts metadata := by
  cases l with
  | compare relation key value =>
    cases relation with
    | eq | gt | lt | contains | gte | lte => rfl
    | notEq => simp [core, Filter.accepts, Filter.eq, accepts, Relation.holds]
  | among membership key values =>
    cases values with
    | nil => cases membership <;> rfl
    | cons first rest =>
      have listed := Filter.accepts_anyOf metadata key first rest
      cases membership with
      | isIn => exact listed
      | notIn => exact congrArg Bool.not listed

theorem isCore_of_mem_core {l l' : Leaf} (hasValues : l.HasValues) (member : l' ∈ l.core.leaves) :
    l'.IsCore := by
  have listed {key : String} {first : Value} {rest : List Value}
      (member : l' ∈ (Filter.anyOf key first rest).leaves) : l'.IsCore := by
    rw [Filter.leaves_anyOf] at member
    obtain ⟨value, _, rfl⟩ := List.mem_map.mp member
    trivial
  cases l with
  | compare relation key value =>
    cases relation with
    | eq | gt | lt | contains | notEq =>
      cases List.mem_singleton.mp member
      trivial
    | gte | lte =>
      rcases List.mem_cons.mp member with rfl | member
      · trivial
      · cases List.mem_singleton.mp member
        trivial
  | among membership key values =>
    cases values with
    | nil => exact absurd rfl hasValues
    | cons first rest => cases membership <;> exact listed member

end Leaf

namespace Filter

/-- A document satisfies a filter exactly when it satisfies the filter in the core, whatever is
stored for the fields; if every list has a value, only core leaves are left. In particular, the
answer to a membership does not depend on the order or the number of the listed values. -/
theorem accepts_core (filter : Filter) (metadata : Metadata) :
    filter.core.accepts metadata = filter.accepts metadata ∧
      ((∀ l ∈ filter.leaves, l.HasValues) → ∀ l ∈ filter.core.leaves, l.IsCore) ∧
      ∀ (membership : Membership) (key : String) (values values' : List Value),
        (∀ value, value ∈ values ↔ value ∈ values') →
          (leaf (.among membership key values)).accepts metadata =
            (leaf (.among membership key values')).accepts metadata := by
  refine ⟨?_, ?_, ?_⟩
  · induction filter with
    | leaf l => exact l.accepts_core_leaf metadata
    | join connective left right ihLeft ihRight => rw [core, accepts, ihLeft, ihRight, accepts]
    | not inner ih => rw [core, accepts, ih, accepts]
  · intro hasValues
    induction filter with
    | leaf l =>
      intro l' member
      exact Leaf.isCore_of_mem_core (hasValues l (List.mem_singleton_self l)) member
    | join connective left right ihLeft ihRight =>
      intro l member
      rcases List.mem_append.mp member with member | member
      · exact ihLeft (fun l' inLeft => hasValues l' (List.mem_append_left _ inLeft)) l member
      · exact ihRight (fun l' inRight => hasValues l' (List.mem_append_right _ inRight)) l member
    | not inner ih => exact ih hasValues
  · intro membership key values values' same
    exact membership.holds_congr (metadata.get? key) same

/-- A rating that is not a number is neither at least 3 nor less, and the colour, which is missing,
is none of those listed, in whatever order and however often they are. -/
theorem accepts_core_of_nan :
    let metadata : Metadata := SortedMap.empty.insert "rating" (.float .nan)
    let filter : Filter := .and (.not (.gte "rating" (.int 3)))
      (.notIn "color" [.string "red", .string "blue"])
    (∀ l ∈ filter.leaves, l.HasValues) ∧ (∀ l ∈ filter.core.leaves, l.IsCore) ∧
      filter.core.accepts metadata = true ∧
      (Filter.notIn "color" [.string "blue", .string "red", .string "blue"]).accepts metadata =
        (Filter.notIn "color" [.string "red", .string "blue"]).accepts metadata := by
  intro metadata filter
  have reduced := accepts_core filter metadata
  have hasValues : ∀ l ∈ filter.leaves, l.HasValues := by
    intro l member
    rcases List.mem_cons.mp member with rfl | member
    · trivial
    · cases List.mem_singleton.mp member
      exact List.cons_ne_nil _ _
  have same (value : Value) : value ∈ [.string "blue", .string "red", .string "blue"] ↔
      value ∈ [Value.string "red", .string "blue"] := by
    simp only [List.mem_cons]
    grind
  exact ⟨hasValues, reduced.2.1 hasValues, reduced.1.trans rfl,
    reduced.2.2 .notIn "color" _ _ same⟩

end Filter

end FilterQuery
