import FilterQuery.Proofs.Filter.Presentation

/-!
Documents that differ in style. A node of a filter may be an object or an array, and an object may
have its members in any order and others among them; the operator and the fields are the same. Such
documents present the same filter (`Restyled.presents_iff`).
-/
namespace FilterQuery

/-- The document is made of the documents of the operator and of its fields, as an object with
whatever other members or as an array. -/
inductive MadeOf (operator : Operator) : Json → Json → List Json → Prop
  | object {members : List (String × Json)} {tag : Json} {args : List Json} :
      Json.Sole members Operator.tag tag →
      List.Forall₂ (fun field arg => Json.Sole members field.name arg) operator.fields args →
      MadeOf operator (.object members) tag args
  | array {tag : Json} {args : List Json} : MadeOf operator (.array (tag :: args)) tag args

/-- The fields of the operator are filters. -/
def Operator.TakesFilters : Operator → Prop
  | relation _ | membership _ => False
  | connective _ | negation => True

/-- The documents are the same up to style, at the outermost node and at each node inside. -/
inductive Restyled : Json → Json → Prop
  | refl (json : Json) : Restyled json json
  | outside {operator : Operator} {json json' tag : Json} {args : List Json} :
      operator.GivenBy .inner tag → MadeOf operator json tag args → MadeOf operator json' tag args →
      Restyled json json'
  | inside {operator : Operator} {json json' tag : Json} {args args' : List Json} :
      operator.GivenBy .inner tag → operator.TakesFilters → MadeOf operator json tag args →
      MadeOf operator json' tag args' → List.Forall₂ Restyled args args' → Restyled json json'

theorem Json.Sole.unique {members : List (String × Json)} {name : String} {value value' : Json}
    (sole : Sole members name value) (sole' : Sole members name value') : value = value' := by
  have same := sole.symm.trans sole'
  simpa using same

theorem MadeOf.tag_unique {operator operator' : Operator} {json tag tag' : Json}
    {args args' : List Json} (made : MadeOf operator json tag args)
    (made' : MadeOf operator' json tag' args') : tag = tag' := by
  cases made with
  | object sole _ =>
    cases made' with
    | object sole' _ => exact sole.unique sole'
  | array =>
    cases made'
    rfl

theorem MadeOf.args_unique {operator : Operator} {json tag tag' : Json} {args args' : List Json}
    (made : MadeOf operator json tag args) (made' : MadeOf operator json tag' args') :
    args = args' := by
  cases made with
  | @object members _ _ _ soles =>
    cases made' with
    | object _ soles' =>
      have unique : Relator.RightUnique
          fun (field : Field) arg => Json.Sole members field.name arg :=
        fun _ _ _ sole sole' => sole.unique sole'
      exact List.right_unique_forall₂' unique soles soles'
  | array =>
    cases made'
    rfl

namespace Filter

theorem presents_iff_madeOf {position : Position} {json : Json} {filter : Filter} :
    Presents position json filter ↔ ∃ tag args, MadeOf filter.operator json tag args ∧
      filter.operator.GivenBy position tag ∧ Arguments (Presents .inner) args filter := by
  constructor
  · intro presents
    cases presents with
    | object tagged given soles arguments => exact ⟨_, _, .object tagged soles, given, arguments⟩
    | array given arguments => exact ⟨_, _, .array, given, arguments⟩
  · rintro ⟨tag, args, made, given, arguments⟩
    cases made with
    | object tagged soles => exact .object tagged given soles arguments
    | array => exact .array given arguments

end Filter

theorem Operator.GivenBy.unique {position : Position} {json : Json} {operator operator' : Operator}
    (given : operator.GivenBy position json) (given' : operator'.GivenBy .inner json) :
    operator = operator' := by
  have inner : operator.GivenBy .inner json := by
    cases given with
    | name => exact .name .inner operator
    | index found => exact .index found
  have decoded := Operator.ofJson_eq_ok.mpr inner
  exact Except.ok.inj (decoded.symm.trans (Operator.ofJson_eq_ok.mpr given'))

namespace Restyled

open FilterQuery.Filter (Presents)

theorem flip_of_forall_mem {args args' : List Json}
    (flip : ∀ arg ∈ args, ∀ {json'}, Restyled arg json' → Restyled json' arg)
    (children : List.Forall₂ Restyled args args') : List.Forall₂ Restyled args' args := by
  induction children with
  | nil => exact .nil
  | cons first _ ih =>
    exact .cons (flip _ List.mem_cons_self first)
      (ih fun arg member => flip arg (List.mem_cons_of_mem _ member))

/-- A restyled node has the same operator, and the same fields unless these are filters. -/
theorem exists_madeOf {json json' tag : Json} {operator : Operator} {args : List Json}
    (restyled : Restyled json json') {position : Position} (given : operator.GivenBy position tag)
    (made : MadeOf operator json tag args) :
    ∃ args', MadeOf operator json' tag args' ∧
      (args' = args ∨ operator.TakesFilters ∧ List.Forall₂ Restyled args args') := by
  cases restyled with
  | refl => exact ⟨args, made, .inl rfl⟩
  | outside given' made₁ made₂ =>
    obtain rfl := made.tag_unique made₁
    obtain rfl := given.unique given'
    obtain rfl := made.args_unique made₁
    exact ⟨_, made₂, .inl rfl⟩
  | inside given' joins made₁ made₂ children =>
    obtain rfl := made.tag_unique made₁
    obtain rfl := given.unique given'
    obtain rfl := made.args_unique made₁
    exact ⟨_, made₂, .inr ⟨joins, children⟩⟩

/-- Restyling keeps what a document presents. -/
theorem presents {json json' : Json} {position : Position} {filter : Filter}
    (restyled : Restyled json json') (presents : Presents position json filter) :
    Presents position json' filter := by
  -- At each node the fields either stay or are filters, to which the induction applies.
  induction filter generalizing json json' position with
  | leaf leaf =>
    obtain ⟨tag, args, made, given, arguments⟩ := Filter.presents_iff_madeOf.mp presents
    obtain ⟨_, made', rfl | ⟨joins, _⟩⟩ := restyled.exists_madeOf given made
    · exact Filter.presents_iff_madeOf.mpr ⟨tag, _, made', given, arguments⟩
    · cases leaf <;> contradiction
  | join connective left right ihLeft ihRight =>
    obtain ⟨tag, args, made, given, arguments⟩ := Filter.presents_iff_madeOf.mp presents
    obtain ⟨args', made', rfl | ⟨_, children⟩⟩ := restyled.exists_madeOf given made
    · exact Filter.presents_iff_madeOf.mpr ⟨tag, _, made', given, arguments⟩
    · cases arguments with
      | join presentsLeft presentsRight =>
        obtain _ | ⟨restyledLeft, _ | ⟨restyledRight, _ | _⟩⟩ := children
        exact Filter.presents_iff_madeOf.mpr ⟨tag, _, made', given,
          .join (ihLeft restyledLeft presentsLeft) (ihRight restyledRight presentsRight)⟩
  | not inner ih =>
    obtain ⟨tag, args, made, given, arguments⟩ := Filter.presents_iff_madeOf.mp presents
    obtain ⟨args', made', rfl | ⟨_, children⟩⟩ := restyled.exists_madeOf given made
    · exact Filter.presents_iff_madeOf.mpr ⟨tag, _, made', given, arguments⟩
    · cases arguments with
      | not presentsInner =>
        obtain _ | ⟨restyledInner, _ | _⟩ := children
        exact Filter.presents_iff_madeOf.mpr ⟨tag, _, made', given,
          .not (ih restyledInner presentsInner)⟩

theorem symm {json json' : Json} (restyled : Restyled json json') : Restyled json' json := by
  induction json using Json.induct generalizing json' with
  | null | bool | number | string =>
    cases restyled with
    | refl => exact .refl _
    | outside _ made _ => contradiction
    | inside _ _ made _ _ => contradiction
  | array items ih =>
    cases restyled with
    | refl => exact .refl _
    | outside given made made' => exact .outside given made' made
    | inside given joins made made' children =>
      cases made with
      | array =>
        refine .inside given joins made' .array (flip_of_forall_mem ?_ children)
        exact fun arg member => ih arg (List.mem_cons_of_mem _ member)
  | object members ih =>
    cases restyled with
    | refl => exact .refl _
    | outside given made made' => exact .outside given made' made
    | inside given joins made made' children =>
      cases made with
      | object tagged soles =>
        refine .inside given joins made' (.object tagged soles) (flip_of_forall_mem ?_ children)
        intro arg member
        obtain ⟨field, _, sole⟩ := exists_of_forall₂ soles.flip member
        exact ih _ (Json.Sole.mem sole)

/-- Documents that differ in style only present the same filter. -/
theorem presents_iff {json json' : Json} {position : Position} {filter : Filter}
    (restyled : Restyled json json') :
    Presents position json filter ↔ Presents position json' filter :=
  ⟨restyled.presents, restyled.symm.presents⟩

end Restyled

end FilterQuery
