import FilterQuery.Proofs.Query.Canonical

/-!
Queries are unambiguous. Two filters whose words hold no delimiter are compiled to one query exactly
when they have one canonical form, and no filter at all is compiled to the query that every document
satisfies.
-/
namespace FilterQuery

open Query (Plain delimiters)

theorem plain_of_subset {a b : List Char} (subset : a ⊆ b) (plain : Plain b) : Plain a :=
  fun c member => plain c (subset member)

theorem plain_digits (n : Nat) : Plain (Decimal.digits n) := by
  intro c member delimiter
  have digit : c.isDigit = true := Nat.isDigit_of_mem_toDigits (by decide) (by decide) member
  have noDigits : (delimiters.all fun c => !c.isDigit) = true := by decide
  have notDigit := List.all_eq_true.mp noDigits c delimiter
  rw [digit] at notDigit
  cases notDigit

theorem plain_zeros (n : Nat) : Plain (List.replicate n '0') := by
  intro c member
  rw [List.eq_of_mem_replicate member]
  decide

theorem plain_signText (negative : Bool) : Plain (signText negative) := by
  cases negative <;> decide

theorem plain_positional (d : Decimal) : Plain d.positional := by
  have digits := plain_digits d.coefficient
  unfold Decimal.positional
  dsimp only
  split
  · exact Query.plain_append.mpr ⟨digits, plain_zeros _⟩
  · split
    · refine Query.plain_append.mpr ⟨plain_of_subset (List.take_subset _ _) digits, ?_⟩
      exact Query.plain_cons.mpr ⟨by decide, plain_of_subset (List.drop_subset _ _) digits⟩
    · refine Query.plain_append.mpr ⟨?_, digits⟩
      refine Query.plain_cons.mpr ⟨by decide, Query.plain_cons.mpr ⟨by decide, plain_zeros _⟩⟩

/-- Only the text of a string can hold a delimiter. -/
theorem Value.plain_queryText {value : Value}
    (string : ∀ s, value = .string s → Plain s.toList) : Plain value.queryText.toList := by
  cases value with
  | bool b => cases b <;> decide
  | int n =>
    rw [queryText, String.toList_ofList]
    exact Query.plain_append.mpr ⟨plain_signText _, plain_digits _⟩
  | float x =>
    cases x with
    | nan => decide
    | infinite negative => cases negative <;> decide
    | finite negative magnitude =>
      rw [queryText, Binary64.queryText, String.toList_ofList]
      exact Query.plain_append.mpr ⟨plain_signText _, plain_positional _⟩
  | string s => exact string s rfl

/-- A type other than the one that is assumed is registered. -/
theorem Schema.eq_some_of_getD {registered : Option FieldType} {assumed type : FieldType}
    (other : assumed ≠ type) (resolved : registered.getD assumed = type) :
    registered = some type := by
  cases registered with
  | none => exact absurd resolved other
  | some registered => exact congrArg some resolved

def Leaf.values : Leaf → List Value
  | compare _ _ value => [value]
  | among _ _ values => values

/-- No delimiter stands in the key or in a string value, there is a value, and on a numeric field no
value reads like an infinity. -/
structure Leaf.Legible (schema : Schema) (l : Leaf) : Prop where
  key : Plain l.key.toList
  strings : ∀ s, .string s ∈ l.values → Plain s.toList
  listed : l.values ≠ []
  finite : schema.get? l.key = some .numeric →
    ∀ value ∈ l.values, value.queryText ≠ "inf" ∧ value.queryText ≠ "-inf"

/-- It is enough that the texts of the values hold no delimiter. -/
theorem Leaf.Legible.of_texts {schema : Schema} {l : Leaf} (key : Plain l.key.toList)
    (texts : ∀ value ∈ l.values, Plain value.queryText.toList) (listed : l.values ≠ [])
    (finite : schema.get? l.key = some .numeric →
      ∀ value ∈ l.values, value.queryText ≠ "inf" ∧ value.queryText ≠ "-inf") :
    l.Legible schema :=
  ⟨key, fun s member => texts (.string s) member, listed, finite⟩

def Filter.Legible (schema : Schema) (filter : Filter) : Prop :=
  ∀ l ∈ filter.leaves, l.Legible schema

namespace Leaf.Legible

variable {schema : Schema} {l : Leaf}

theorem plain_queryText (legible : l.Legible schema) {value : Value} (member : value ∈ l.values) :
    Plain value.queryText.toList :=
  Value.plain_queryText fun s isString => legible.strings s (isString ▸ member)

theorem bound (legible : l.Legible schema) (numeric : schema.get? l.key = some .numeric)
    {value : Value} (member : value ∈ l.values) (exclusive : Bool) :
    (Bound.value value.displayed exclusive).Legible :=
  .word exclusive (legible.plain_queryText member) (legible.finite numeric value member).1
    (legible.finite numeric value member).2

theorem of_equality (legible : l.Legible schema) {value : Value} (member : value ∈ l.values)
    {clause : Query.Clause} (found : clause?.equality schema l.key value = some clause) :
    clause.Legible := by
  unfold clause?.equality at found
  cases type : schema.equalityType l.key with
  | numeric =>
    rw [type] at found
    cases found
    have numeric := Schema.eq_some_of_getD (by decide) type
    exact ⟨legible.key, legible.bound numeric member false, legible.bound numeric member false⟩
  | tag =>
    rw [type] at found
    cases found
    refine ⟨legible.key, by simp, ?_⟩
    simpa using legible.plain_queryText member
  | text =>
    rw [type] at found
    cases found
    exact ⟨legible.key, legible.plain_queryText member⟩
  | geo | vector =>
    rw [type] at found
    cases found

theorem of_range (legible : l.Legible schema) {lower upper : Bound} {clause : Query.Clause}
    (lowerLegible : schema.get? l.key = some .numeric → lower.Legible)
    (upperLegible : schema.get? l.key = some .numeric → upper.Legible)
    (found : clause?.range schema l.key lower upper = some clause) : clause.Legible := by
  obtain ⟨type, rfl⟩ := interval_of_range found
  have numeric := Schema.eq_some_of_getD (by decide) type
  exact ⟨legible.key, lowerLegible numeric, upperLegible numeric⟩

theorem of_membership (legible : l.Legible schema) {clause : Query.Clause}
    (found : clause?.membership schema l.key l.values = some clause) : clause.Legible := by
  have words : l.values.map Value.queryText ≠ [] ∧
      ∀ word ∈ l.values.map Value.queryText, Plain word.toList := by
    refine ⟨fun none => legible.listed (List.map_eq_nil_iff.mp none), ?_⟩
    intro word member
    obtain ⟨value, memberValue, rfl⟩ := List.mem_map.mp member
    exact legible.plain_queryText memberValue
  unfold clause?.membership at found
  cases type : schema.equalityType l.key with
  | tag | text =>
    rw [type] at found
    cases found
    exact ⟨legible.key, words⟩
  | numeric | geo | vector =>
    rw [type] at found
    cases found

end Leaf.Legible

theorem Leaf.Legible.clause {schema : Schema} {l : Leaf} {clause : Query.Clause}
    (legible : l.Legible schema) (found : l.clause? schema = some clause) : clause.Legible := by
  cases l with
  | compare relation key value =>
    have member : value ∈ (Leaf.compare relation key value).values := List.mem_singleton_self value
    cases relation with
    | eq => exact legible.of_equality member found
    | notEq =>
      obtain ⟨inner, foundInner, rfl⟩ := Option.map_eq_some_iff.mp found
      exact (legible.of_equality member foundInner : inner.Legible)
    | gt | gte =>
      exact legible.of_range (fun numeric => legible.bound numeric member _)
        (fun _ => .positiveInfinity) found
    | lt | lte =>
      exact legible.of_range (fun _ => .negativeInfinity)
        (fun numeric => legible.bound numeric member _) found
    | contains => cases found
  | among membership key values =>
    cases membership with
    | isIn => exact legible.of_membership found
    | notIn =>
      obtain ⟨inner, foundInner, rfl⟩ := Option.map_eq_some_iff.mp found
      exact (legible.of_membership foundInner : inner.Legible)

/-- Legible filters are written as legible clauses. -/
theorem Filter.Legible.clause {schema : Schema} {filter : Filter} {clause : Query.Clause}
    (legible : filter.Legible schema) (found : filter.clause? schema = some clause) :
    clause.Legible := by
  induction filter generalizing clause with
  | leaf l => exact Leaf.Legible.clause (legible l (List.mem_singleton_self l)) found
  | join connective left right ihLeft ihRight =>
    obtain ⟨clauseLeft, clauseRight, foundLeft, foundRight, rfl⟩ :=
      Query.Clause.group?_eq_some found
    exact ⟨ihLeft (fun l member => legible l (List.mem_append_left _ member)) foundLeft,
      ihRight (fun l member => legible l (List.mem_append_right _ member)) foundRight⟩
  | not inner ih =>
    obtain ⟨clauseInner, foundInner, rfl⟩ := Option.map_eq_some_iff.mp found
    exact (ih legible foundInner : clauseInner.Legible)

/-- Legible filters that are compiled have one query exactly if they have one canonical form. The
query without a filter belongs to no filter, legible or not. -/
theorem compile_eq_iff_canonical_eq (schema : Schema) :
    (∀ a b : Filter, (∃ query, Query.compile schema (some a) = .ok query) →
      (∃ query, Query.compile schema (some b) = .ok query) → a.Legible schema →
      b.Legible schema → (Query.compile schema (some a) = Query.compile schema (some b) ↔
        a.canonical schema = b.canonical schema)) ∧
      Query.compile schema none = .ok "(*)" ∧
      ∀ filter, Query.compile schema (some filter) ≠ .ok "(*)" := by
  refine ⟨?_, rfl, ?_⟩
  · rintro a b ⟨queryA, compiledA⟩ ⟨queryB, compiledB⟩ legibleA legibleB
    obtain ⟨clauseA, foundA, rfl⟩ := Query.compile_eq_ok.mp compiledA
    obtain ⟨clauseB, foundB, rfl⟩ := Query.compile_eq_ok.mp compiledB
    rw [compiledA, compiledB]
    constructor
    · intro same
      have clauses : clauseA = clauseB := Query.Clause.text_inj (legibleA.clause foundA)
        (legibleB.clause foundB) (Except.ok.inj same)
      have formA := Filter.filter?_of_clause? foundA
      rw [clauses, Filter.filter?_of_clause? foundB] at formA
      exact (Option.some.inj formA).symm
    · intro same
      have clauses : some clauseA = some clauseB := by
        rw [← foundA, ← foundB, ← a.clause?_canonical, ← b.clause?_canonical, same]
      rw [Option.some.inj clauses]
  · intro filter compiled
    obtain ⟨clause, _, same⟩ := Query.compile_eq_ok.mp compiled
    exact clause.text_ne_matchAll same

/-- With `price` numeric and `color` a tag: the only colour that is excluded is negated, and a
number is its text. -/
theorem compile_eq_of_single_excluded :
    let schema : Schema := SortedMap.empty.insert "price" .numeric
    let a : Filter := .and (.notIn "color" [.string "red"]) (.gt "price" (.int 10))
    let b : Filter := .and (.not (.eq "color" (.string "red"))) (.gt "price" (.string "10"))
    (∃ query, Query.compile schema (some a) = .ok query) ∧
      (∃ query, Query.compile schema (some b) = .ok query) ∧ a.Legible schema ∧
      b.Legible schema ∧ Query.compile schema (some a) = Query.compile schema (some b) := by
  intro schema a b
  have compiledA : Query.compile schema (some a) =
      .ok "((-@color:\x7bred\x7d) @price:[(10 inf])" := by rfl
  have compiledB : Query.compile schema (some b) =
      .ok "((-@color:\x7bred\x7d) @price:[(10 inf])" := by rfl
  have legibleA : a.Legible schema := by
    intro l member
    rcases List.mem_cons.mp member with rfl | member
    · exact .of_texts (by decide) (by decide) (by decide) (by decide)
    · cases List.mem_singleton.mp member
      exact .of_texts (by decide) (by decide) (by decide) (by decide)
  have legibleB : b.Legible schema := by
    intro l member
    rcases List.mem_cons.mp member with rfl | member
    · exact .of_texts (by decide) (by decide) (by decide) (by decide)
    · cases List.mem_singleton.mp member
      exact .of_texts (by decide) (by decide) (by decide) (by decide)
  exact ⟨⟨_, compiledA⟩, ⟨_, compiledB⟩, legibleA, legibleB,
    ((compile_eq_iff_canonical_eq schema).1 a b ⟨_, compiledA⟩ ⟨_, compiledB⟩ legibleA
      legibleB).mpr (by decide)⟩

end FilterQuery
