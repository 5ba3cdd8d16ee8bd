import FilterQuery.Filter.Basic
import FilterQuery.Proofs.Sequences
import Mathlib.Logic.Relation

/-!
Valid filters. A filter is valid when each of its leaves is, and one that is not is blamed on the
first leaf, from the left, that breaks a rule (`Filter.validate_eq`). Negations, the connectives, and
whether a condition is stated positively make no difference (`Filter.Reworded.validate_eq`).
-/
namespace FilterQuery

namespace Leaf

/-- The leaf names a field, and it lists a value where it lists values. -/
def Valid : Leaf → Prop
  | compare _ key _ => key ≠ ""
  | among _ key values => key ≠ "" ∧ values ≠ []

instance : (l : Leaf) → Decidable l.Valid
  | compare _ key _ => inferInstanceAs (Decidable (key ≠ ""))
  | among _ key values => inferInstanceAs (Decidable (key ≠ "" ∧ values ≠ []))

/-- The rule that the leaf breaks. A field without a name comes before missing values. -/
inductive Breaks : Leaf → Violation → Prop
  | emptyKey {l : Leaf} : l.key = "" → Breaks l .emptyKey
  | emptyValues {membership : Membership} {key : String} : key ≠ "" →
      Breaks (among membership key []) (.emptyValues key)

/-- A leaf passes exactly if it is valid. -/
theorem validate_eq_ok {l : Leaf} : l.validate = .ok () ↔ l.Valid := by
  cases l with
  | compare relation key value =>
    by_cases unnamed : key = "" <;> simp [validate, Valid, unnamed]
  | among membership key values =>
    by_cases unnamed : key = ""
    · simp [validate, Valid, unnamed]
    · by_cases none : values = [] <;> simp [validate, Valid, unnamed, none]

theorem validate_eq_error {l : Leaf} {violation : Violation} :
    l.validate = .error violation ↔ l.Breaks violation := by
  constructor
  · intro refused
    cases l with
    | compare relation key value =>
      rw [validate] at refused
      split at refused <;> cases refused
      exact .emptyKey ‹key = ""›
    | among membership key values =>
      rw [validate] at refused
      split at refused
      · cases refused
        exact .emptyKey ‹key = ""›
      · split at refused <;> cases refused
        subst values
        exact .emptyValues ‹key ≠ ""›
  · intro breaks
    cases breaks with
    | emptyKey unnamed =>
      cases l with
      | compare relation key value => exact if_pos unnamed
      | among membership key values => exact if_pos unnamed
    | emptyValues named => exact (if_neg named).trans (if_pos rfl)

end Leaf

namespace Filter

/-- A filter is checked leaf by leaf, from left to right. -/
theorem validate_eq (filter : Filter) : filter.validate = filter.leaves.forM Leaf.validate := by
  induction filter with
  | leaf l =>
    rw [validate, leaves]
    cases valid : l.validate <;> simp [valid]
  | join connective left right ihLeft ihRight =>
    rw [validate, ihLeft, ihRight]
    exact List.forM_append.symm
  | not inner ih => exact ih

/-- The filter is negated somewhere, a connective is exchanged, or a condition is stated positively
instead of negatively. -/
inductive Reworded : Filter → Filter → Prop
  | negated (filter : Filter) : Reworded filter (.not filter)
  | joined (connective connective' : Connective) (left right : Filter) :
      Reworded (.join connective left right) (.join connective' left right)
  | equality (key : String) (value : Value) : Reworded (.notEq key value) (.eq key value)
  | membership (key : String) (values : List Value) :
      Reworded (.notIn key values) (.isIn key values)
  | inLeft {left left' : Filter} (connective : Connective) (right : Filter) : Reworded left left' →
      Reworded (.join connective left right) (.join connective left' right)
  | inRight {right right' : Filter} (connective : Connective) (left : Filter) :
      Reworded right right' →
      Reworded (.join connective left right) (.join connective left right')
  | inside {inner inner' : Filter} : Reworded inner inner' → Reworded (.not inner) (.not inner')

/-- A change of the words changes no verdict. -/
theorem Reworded.validate_eq {filter other : Filter} (reworded : Reworded filter other) :
    filter.validate = other.validate := by
  induction reworded with
  | negated filter => rfl
  | joined connective connective' left right => rfl
  | equality key value => rfl
  | membership key values => rfl
  | inLeft connective right _ ih => rw [validate, ih, validate]
  | inRight connective left _ ih => rw [validate, ih, validate]
  | inside _ ih => exact ih

/-- However often words are changed, and changed back, the verdict stays. -/
theorem validate_eq_of_reworded {filter other : Filter}
    (reworded : Relation.EqvGen Reworded filter other) : filter.validate = other.validate := by
  induction reworded with
  | rel filter other step => exact step.validate_eq
  | refl filter => rfl
  | symm filter other _ ih => exact ih.symm
  | trans first second third _ _ ih ih' => exact ih.trans ih'

end Filter

/-- A filter is valid exactly if all its leaves are: they name a field, and list a value where they
list values. Otherwise the first leaf that is not valid is to blame; that it names no field comes
before that it lists no value, so a field that is blamed for missing values has a name. Negations,
connectives and whether conditions are stated positively make no difference. -/
theorem validate_blames_first_invalid (filter : Filter) :
    (filter.validate = .ok () ↔ ∀ l ∈ filter.leaves, l.Valid) ∧
      (∀ violation, filter.validate = .error violation ↔
        ∃ before l after, filter.leaves = before ++ l :: after ∧ (∀ l' ∈ before, l'.Valid) ∧
          (l.key = "" ∧ violation = .emptyKey ∨
            l.key ≠ "" ∧ (∃ membership, l = .among membership l.key []) ∧
              violation = .emptyValues l.key)) ∧
      (∀ key, filter.validate = .error (.emptyValues key) → key ≠ "") ∧
      ∀ other, Relation.EqvGen Filter.Reworded filter other →
        other.validate = filter.validate := by
  have errors : ∀ violation, filter.validate = .error violation ↔
      ∃ before l after, filter.leaves = before ++ l :: after ∧ (∀ l' ∈ before, l'.Valid) ∧
        l.Breaks violation := by
    intro violation
    rw [filter.validate_eq, forM_eq_error]
    simp only [Leaf.validate_eq_ok, Leaf.validate_eq_error]
  have breaks (l : Leaf) (violation : Violation) : l.Breaks violation ↔
      (l.key = "" ∧ violation = .emptyKey ∨
        l.key ≠ "" ∧ (∃ membership, l = .among membership l.key []) ∧
          violation = .emptyValues l.key) := by
    constructor
    · intro broken
      cases broken with
      | emptyKey unnamed => exact .inl ⟨unnamed, rfl⟩
      | emptyValues named => exact .inr ⟨named, ⟨_, rfl⟩, rfl⟩
    · rintro (⟨unnamed, rfl⟩ | ⟨named, ⟨membership, same⟩, rfl⟩)
      · exact .emptyKey unnamed
      · rw [same] at named ⊢
        exact .emptyValues named
  refine ⟨?_, ?_, ?_, fun other reworded => (Filter.validate_eq_of_reworded reworded).symm⟩
  · rw [filter.validate_eq, forM_eq_ok]
    simp only [Leaf.validate_eq_ok]
  · simp only [errors, breaks, implies_true]
  · intro key refused
    obtain ⟨_, _, _, _, _, broken⟩ := (errors _).mp refused
    cases broken with
    | emptyValues named => exact named

/-- The second of three leaves is to blame, which names a field but lists no value; the third does
neither. The same is said of the filter without its negation and with other connectives. -/
theorem validate_blames_second_of_three :
    let filter : Filter := .and (.eq "color" (.string "red"))
      (.not (.or (.notIn "size" []) (.isIn "" [])))
    let other : Filter := .and (.notEq "color" (.string "red"))
      (.and (.notIn "size" []) (.isIn "" []))
    filter.validate = .error (.emptyValues "size") ∧ "size" ≠ "" ∧
      other.validate = .error (.emptyValues "size") := by
  intro filter other
  obtain ⟨_, errors, named, alike⟩ := validate_blames_first_invalid filter
  have valid : ∀ l ∈ [Leaf.compare .eq "color" (.string "red")], l.Valid := by decide
  have refused : filter.validate = .error (.emptyValues "size") :=
    (errors _).mpr ⟨_, .among .notIn "size" [], _, rfl, valid, .inr ⟨by decide, ⟨_, rfl⟩, rfl⟩⟩
  have reworded : Relation.EqvGen Filter.Reworded filter other :=
    .trans _ _ _ (.rel _ _ (.inRight .and _ (.inside (.joined .or .and _ _))))
      (.trans _ _ _ (.symm _ _ (.rel _ _ (.inRight .and _ (.negated _))))
        (.symm _ _ (.rel _ _ (.inLeft .and _ (.equality _ _)))))
  exact ⟨refused, named "size" refused, (alike other reworded).trans refused⟩

end FilterQuery
