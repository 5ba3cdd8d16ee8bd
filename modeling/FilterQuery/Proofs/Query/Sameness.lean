import FilterQuery.Proofs.Filter.Sameness
import FilterQuery.Proofs.Number.Shortest
import FilterQuery.Proofs.Query.Clause
import FilterQuery.Proofs.Query.Support

/-!
What filters that are the same are good for. They break one rule, have one set of keys, accept the
same documents and are refused alike; but a query shows the sign of a zero, which makes no other
difference between them (`Filter.reveals_render`). So they have one query exactly if no zero of one
stands where the other has the zero with the other sign (`same_filters_agree_up_to_zeros`).
-/
namespace FilterQuery

namespace Query

/-- If texts that begin with the two are one text, the two are one text themselves, and `P` holds.
-/
def Reveals (P : Prop) (x y : List Char) : Prop :=
  ∀ rest rest', x ++ rest = y ++ rest' → P ∧ x = y

variable {P Q : Prop} {x y x' y' : List Char}

theorem reveals_refl (x : List Char) : Reveals True x x := fun _ _ _ => ⟨trivial, rfl⟩

theorem Reveals.imp (reveals : Reveals P x y) (imp : P → Q) : Reveals Q x y := by
  intro rest rest' same
  obtain ⟨holds, equal⟩ := reveals rest rest' same
  exact ⟨imp holds, equal⟩

/-- What comes second is seen once the first parts are known to be equal. -/
theorem Reveals.append (first : Reveals P x y) (second : Reveals Q x' y') :
    Reveals (P ∧ Q) (x ++ x') (y ++ y') := by
  intro rest rest' same
  rw [List.append_assoc, List.append_assoc] at same
  obtain ⟨holds, rfl⟩ := first _ _ same
  obtain ⟨holds', rfl⟩ := second _ _ (List.append_cancel_left same)
  exact ⟨⟨holds, holds'⟩, rfl⟩

theorem Reveals.between (inside : Reveals P x y) (before after : List Char) :
    Reveals P (before ++ x ++ after) (before ++ y ++ after) := by
  have whole := ((reveals_refl before).append inside).append (reveals_refl after)
  exact whole.imp fun holds => holds.1.2

theorem reveals_intercalate {α : Type} {R : α → α → Prop} {text : α → List Char}
    (each : ∀ a b, R a b → Reveals (a = b) (text a) (text b)) (delimiter : List Char)
    {xs ys : List α} (related : List.Forall₂ R xs ys) :
    Reveals (xs = ys) (delimiter.intercalate (xs.map text))
      (delimiter.intercalate (ys.map text)) := by
  induction related with
  | nil => exact (reveals_refl _).imp fun _ => rfl
  | @cons a b xs ys first rest ih =>
    have begins := each a b first
    cases rest with
    | nil =>
      rw [List.map_singleton, List.map_singleton, List.intercalate_singleton,
        List.intercalate_singleton]
      exact begins.imp fun same => congrArg (fun item => [item]) same
    | cons second rest =>
      simp only [List.map_cons, List.intercalate_cons_cons] at ih ⊢
      have whole := (begins.append (reveals_refl delimiter)).append ih
      exact whole.imp fun holds => congrArg₂ List.cons holds.1.1 holds.2

end Query

open Query (Reveals)

/-- A query shows which of the two zeros a value is. -/
theorem Value.reveals_queryText {a b : Value} (same : a.same b = true) :
    Reveals (a = b) a.queryText.toList b.queryText.toList := by
  rcases same_eq_true.mp same with ⟨rfl, _⟩ | ⟨negative, rfl, rfl⟩
  · exact (Query.reveals_refl _).imp fun _ => rfl
  · have text (negative : Bool) :
        (float (.finite negative .zero)).queryText.toList = signText negative ++ ['0'] := by
      rw [queryText, Binary64.queryText, Decimal.shortest_zero, String.toList_ofList]
      rfl
    -- One of the texts begins with the minus sign and the other with the digit.
    intro rest rest' same
    rw [text, text] at same
    cases negative <;> simp [signText] at same

theorem Query.Reveals.wrap {P : Prop} {a b : String} (inside : Reveals P a.toList b.toList)
    (brackets : Brackets) :
    Reveals P (brackets.wrap a).toList (brackets.wrap b).toList := by
  simp only [Brackets.wrap, String.toList_append]
  exact inside.between _ _

theorem Query.Reveals.wrapPair {P Q : Prop} {a b a' b' : String}
    (lower : Reveals P a.toList b.toList) (upper : Reveals Q a'.toList b'.toList)
    (brackets : Brackets) :
    Reveals (P ∧ Q) (brackets.wrapPair a a').toList (brackets.wrapPair b b').toList := by
  refine Reveals.wrap ?_ brackets
  simp only [String.toList_append]
  have whole := (lower.append (Query.reveals_refl " ".toList)).append upper
  exact whole.imp fun holds => ⟨holds.1.1, holds.2⟩

theorem Bound.reveals_text {a b : Value} (same : a.same b = true) (exclusive : Bool) :
    Reveals (a = b) (text (.value a exclusive)).toList (text (.value b exclusive)).toList := by
  have value := Value.reveals_queryText same
  cases exclusive with
  | false => exact value
  | true =>
    simp only [text, String.toList_append]
    have whole := (Query.reveals_refl "(".toList).append value
    exact whole.imp fun holds => holds.2

namespace FieldType

theorem reveals_alternatives (text : Value → String)
    (each : ∀ a b, Value.same a b = true → Reveals (a = b) (text a).toList (text b).toList)
    {xs ys : List Value} (same : List.Forall₂ (fun a b => a.same b = true) xs ys) :
    Reveals (xs = ys) (alternatives (xs.map text)).toList (alternatives (ys.map text)).toList := by
  simp only [alternatives, String.toList_intercalate, List.map_map]
  exact Query.reveals_intercalate each _ same

/-- Values that are the same have bodies on the same fields, which show whether they are equal. -/
theorem reveals_equalityBody? {a b : Value} (same : a.same b = true) (type : FieldType) :
    Option.Rel (fun x y => Reveals (a = b) x.toList y.toList) (type.equalityBody? a)
      (type.equalityBody? b) := by
  have value := Value.reveals_queryText same
  cases type with
  | numeric => exact .some ((value.wrapPair value .interval).imp And.left)
  | tag => exact .some (value.wrap .tag)
  | text => exact .some (value.wrap .phrase)
  | geo | vector => exact .none

theorem reveals_membershipBody? {xs ys : List Value}
    (same : List.Forall₂ (fun a b => a.same b = true) xs ys) (type : FieldType) :
    Option.Rel (fun x y => Reveals (xs = ys) x.toList y.toList) (type.membershipBody? xs)
      (type.membershipBody? ys) := by
  cases type with
  | tag =>
    have words := reveals_alternatives _ (fun _ _ => Value.reveals_queryText) same
    exact .some (words.wrap .tag)
  | text =>
    have phrases := reveals_alternatives (fun value => Brackets.phrase.wrap value.queryText)
      (fun _ _ alike => (Value.reveals_queryText alike).wrap .phrase) same
    exact .some (phrases.wrap .choice)
  | numeric | geo | vector => exact .none

end FieldType

namespace Fragment

/-- The fragments are refused alike, and if they are not, their texts are equal only if `P` holds.
-/
structure Reveals (P : Prop) (a b : Fragment) : Prop where
  refusal : a.refusal = b.refusal
  text : a.refusal = none → Query.Reveals P a.text.toList b.text.toList

variable {P Q : Prop} {a b a' b' : Fragment}

theorem reveals_refl (a : Fragment) : Reveals True a a := ⟨rfl, fun _ => Query.reveals_refl _⟩

theorem Reveals.imp (reveals : Reveals P a b) (imp : P → Q) : Reveals Q a b :=
  ⟨reveals.refusal, fun complete => (reveals.text complete).imp imp⟩

theorem Reveals.append (first : Reveals P a b) (second : Reveals Q a' b') :
    Reveals (P ∧ Q) (a ++ a') (b ++ b') where
  refusal := by rw [refusal_append, refusal_append, first.refusal, second.refusal]
  text complete := by
    rw [refusal_append, Option.or_eq_none_iff] at complete
    obtain ⟨complete, complete'⟩ := complete
    rw [append_of_none complete, append_of_none (first.refusal ▸ complete), String.toList_append,
      String.toList_append]
    exact (first.text complete).append (second.text complete')

theorem Reveals.negated (inner : Reveals P a b) : Reveals P (negated a) (negated b) := by
  have whole := ((reveals_refl (written "(-")).append inner).append (reveals_refl (written ")"))
  exact whole.imp fun holds => holds.1.2

theorem Reveals.group (left : Reveals P a b) (right : Reveals Q a' b') (delimiter : String) :
    Reveals (P ∧ Q) (group a delimiter a') (group b delimiter b') := by
  have opened := ((reveals_refl (written "(")).append left).append
    (reveals_refl (written delimiter))
  have whole := (opened.append right).append (reveals_refl (written ")"))
  exact whole.imp fun holds => ⟨holds.1.1.1.2, holds.1.2⟩

theorem reveals_predicate {body body' : Option String}
    (bodies : Option.Rel (fun x y => Query.Reveals P x.toList y.toList) body body') (key : String)
    (type : FieldType) (predicateClass : PredicateClass) :
    Reveals P (predicate key type predicateClass body)
      (predicate key type predicateClass body') where
  refusal := by
    rw [refusal_predicate, refusal_predicate]
    cases bodies <;> rfl
  text complete := by
    rw [refusal_predicate] at complete
    cases bodies with
    | none => simp at complete
    | @some x y inside =>
      -- Without support the predicate is refused, whatever its body is.
      have supports : type.supports predicateClass = true := by
        by_contra unsupported
        simp [unsupported] at complete
      rw [predicate_of_supports supports, predicate_of_supports supports]
      simp only [written, String.toList_append]
      have whole := (Query.reveals_refl ("@".toList ++ key.toList ++ ":".toList)).append inside
      exact whole.imp fun holds => holds.2

end Fragment

theorem Leaf.reveals_render {l l' : Leaf} (same : l.Related (fun a b => a.same b = true) l')
    (schema : Schema) : (l.render schema).Reveals (l = l') (l'.render schema) := by
  cases same with
  | @compare relation key a b value =>
    have equality : (Fragment.equality schema key a).Reveals (a = b)
        (Fragment.equality schema key b) :=
      Fragment.reveals_predicate (FieldType.reveals_equalityBody? value _) key _ _
    have range {lower upper lower' upper' : Bound}
        (ends : Reveals (a = b) (FieldType.rangeBody lower upper).toList
          (FieldType.rangeBody lower' upper').toList) :
        (Fragment.range schema key lower upper).Reveals (a = b)
          (Fragment.range schema key lower' upper') :=
      Fragment.reveals_predicate (.some ends) key _ _
    have fixed (bound : Bound) := Query.reveals_refl bound.text.toList
    have congr : a = b → Leaf.compare relation key a = .compare relation key b := congrArg _
    refine Fragment.Reveals.imp ?_ congr
    cases relation with
    | eq => exact equality
    | notEq => exact equality.negated
    | gt =>
      have ends := (Bound.reveals_text value true).wrapPair (fixed .positiveInfinity) .interval
      exact range (ends.imp And.left)
    | gte =>
      have ends := (Bound.reveals_text value false).wrapPair (fixed .positiveInfinity) .interval
      exact range (ends.imp And.left)
    | lt =>
      have ends := (fixed .negativeInfinity).wrapPair (Bound.reveals_text value true) .interval
      exact range (ends.imp And.right)
    | lte =>
      have ends := (fixed .negativeInfinity).wrapPair (Bound.reveals_text value false) .interval
      exact range (ends.imp And.right)
    | contains => exact ⟨rfl, nofun⟩
  | @among membership key xs ys values =>
    have body := Fragment.reveals_predicate
      (FieldType.reveals_membershipBody? values (schema.equalityType key)) key
      (schema.equalityType key) .membership
    have congr : xs = ys → Leaf.among membership key xs = .among membership key ys := congrArg _
    refine Fragment.Reveals.imp ?_ congr
    cases membership with
    | isIn => exact body
    | notIn => exact body.negated

/-- Filters that are the same are refused alike, and have one query only if they are equal. -/
theorem Filter.reveals_render {filter filter' : Filter}
    (same : filter.Related (fun a b => a.same b = true) filter') (schema : Schema) :
    (filter.render schema).Reveals (filter = filter') (filter'.render schema) := by
  induction same with
  | leaf related => exact (Leaf.reveals_render related schema).imp (congrArg Filter.leaf)
  | join connective _ _ ihLeft ihRight =>
    exact (ihLeft.group ihRight connective.delimiter).imp fun holds =>
      congrArg₂ (Filter.join connective) holds.1 holds.2
  | not _ ih => exact ih.negated.imp (congrArg Filter.not)

/-- Filters that are the same are refused alike, and if they are not refused they have one query
exactly if they are equal. -/
theorem Query.compile_of_same {filter filter' : Filter}
    (same : filter.Related (fun a b => a.same b = true) filter') (schema : Schema) :
    (∀ refusal, compile schema (some filter) = .error refusal ↔
      compile schema (some filter') = .error refusal) ∧
    ∀ query, compile schema (some filter) = .ok query →
      (compile schema (some filter') = .ok query ↔ filter = filter') := by
  have reveals := Filter.reveals_render same schema
  constructor
  · intro refusal
    rw [compile, compile, Fragment.result_eq_error, Fragment.result_eq_error, reveals.refusal]
  · intro query compiled
    constructor
    · intro compiled'
      rw [compile, Fragment.result_eq_ok] at compiled compiled'
      have texts := reveals.text (by rw [compiled]; rfl)
      rw [compiled, compiled'] at texts
      exact (texts [] [] rfl).1
    · rintro rfl
      exact compiled

/-- Filters that are the same are valid alike, have the same keys, accept the same documents and are
refused alike. If they are not refused, they have one query exactly if no zero of one stands where
the other has the zero with the other sign. -/
theorem same_filters_agree_up_to_zeros {filter filter' : Filter}
    (same : filter.same filter' = true) :
    filter.validate = filter'.validate ∧ filter.keys = filter'.keys ∧
    (∀ metadata, filter.accepts metadata = filter'.accepts metadata) ∧
    ∀ schema,
      (∀ refusal, Query.compile schema (some filter) = .error refusal ↔
        Query.compile schema (some filter') = .error refusal) ∧
      ∀ query, Query.compile schema (some filter) = .ok query →
        (Query.compile schema (some filter') = .ok query ↔
          filter.Related (fun a b => ¬ a.OppositeZeros b) filter') := by
  have related := Filter.same_eq_true.mp same
  refine ⟨related.validate_eq, related.keys_eq, ?_, ?_⟩
  · intro metadata
    exact Filter.accepts_congr_of_same related metadata
  · intro schema
    obtain ⟨refused, queries⟩ := Query.compile_of_same related schema
    refine ⟨refused, ?_⟩
    intro query compiled
    rw [queries query compiled, Filter.eq_iff_of_same related]

/-- The two zeros stand under a negation in a list with another float: a document with the integer
zero is refused by both filters, and the queries differ. -/
theorem same_filters_agree_up_to_zeros_in_lists :
    let half : Value := .float (.ofBits 0x3FE0000000000000)
    let filter : Filter := .not (.isIn "x" [half, .float (.ofBits 0)])
    let filter' : Filter := .not (.isIn "x" [half, .float (.ofBits 0x8000000000000000)])
    let metadata : Metadata := SortedMap.ofList [("x", .int 0)]
    filter.same filter' = true ∧ filter.keys = filter'.keys ∧
      filter.accepts metadata = filter'.accepts metadata ∧
      Query.compile SortedMap.empty (some filter) = .ok "(-@x:\x7b0.5 | 0\x7d)" ∧
      Query.compile SortedMap.empty (some filter') ≠ .ok "(-@x:\x7b0.5 | 0\x7d)" := by
  intro half filter filter' metadata
  have same : filter.same filter' = true := by decide +kernel
  have compiled : Query.compile SortedMap.empty (some filter) = .ok "(-@x:\x7b0.5 | 0\x7d)" := by
    decide +kernel
  obtain ⟨_, keys, accepts, agree⟩ := same_filters_agree_up_to_zeros same
  obtain ⟨_, queries⟩ := agree SortedMap.empty
  refine ⟨same, keys, accepts metadata, compiled, ?_⟩
  intro alike
  have signs := (queries _ compiled).mp alike
  have equal := (Filter.eq_iff_of_same (Filter.same_eq_true.mp same)).mpr signs
  have differ : filter ≠ filter' := by decide +kernel
  exact differ equal

/-- Zeros are equal as numbers whatever their sign, and written with it. -/
theorem query_shows_sign_of_zero :
    let schema : Schema := SortedMap.ofList [("x", .numeric)]
    let filter : Filter := .eq "x" (.float (.ofBits 0))
    let filter' : Filter := .eq "x" (.float (.ofBits 0x8000000000000000))
    filter.same filter' = true ∧ Query.compile schema (some filter) = .ok "@x:[0 0]" ∧
      Query.compile schema (some filter') = .ok "@x:[-0 -0]" ∧
      Query.compile schema (some filter) ≠ Query.compile schema (some filter') := by
  decide +kernel

end FilterQuery
