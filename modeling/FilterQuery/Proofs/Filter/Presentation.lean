import FilterQuery.Proofs.Filter.Slots
import FilterQuery.Proofs.Json.Grammar

/-!
Which documents present a filter. An object does by its member `op` and one member for each field of
the operator, whatever their order and whatever other members it has; an array does by the operator
and its fields in order. The document of a filter inside another one is decoded into the filter that
it presents, and into nothing if it presents none (`Filter.ofJson_eq_ok_iff`).
-/
namespace FilterQuery

open Json (Mismatch bind_eq_ok)

/-- Where a document stands: as the whole text, or inside the document of another filter. -/
inductive Position where
  | whole
  | inner

/-- A document gives an operator by its name, and inside another filter also by its index. -/
inductive Operator.GivenBy : Position → Json → Operator → Prop
  | name (position : Position) (operator : Operator) :
      GivenBy position (.string operator.name) operator
  | index {index : Nat} {operator : Operator} : all[index]? = some operator →
      GivenBy .inner (.number (.integer index)) operator

/-- Exactly one member has the name, and it has the value. -/
def Json.Sole (members : List (String × Json)) (name : String) (value : Json) : Prop :=
  members.filter (fun member => member.1 = name) = [(name, value)]

namespace Filter

/-- The documents of the fields of a filter, in the order of the fields. -/
inductive Arguments (Child : Json → Filter → Prop) : List Json → Filter → Prop
  | compare {relation : Relation} {key : String} {value : Value} {json : Json} :
      Value.ofJson json = .ok value →
      Arguments Child [.string key, json] (.leaf (.compare relation key value))
  | among {membership : Membership} {key : String} {values : List Value} {items : List Json} :
      List.Forall₂ (fun item value => Value.ofJson item = .ok value) items values →
      Arguments Child [.string key, .array items] (.leaf (.among membership key values))
  | join {connective : Connective} {left right : Filter} {leftJson rightJson : Json} :
      Child leftJson left → Child rightJson right →
      Arguments Child [leftJson, rightJson] (.join connective left right)
  | not {inner : Filter} {json : Json} : Child json inner → Arguments Child [json] (.not inner)

/-- The document presents the filter. -/
inductive Presents : Position → Json → Filter → Prop
  | object {position : Position} {members : List (String × Json)} {filter : Filter} {tag : Json}
      {args : List Json} :
      Json.Sole members Operator.tag tag → filter.operator.GivenBy position tag →
      List.Forall₂ (fun field arg => Json.Sole members field.name arg) filter.operator.fields args →
      Arguments (Presents .inner) args filter → Presents position (.object members) filter
  | array {position : Position} {filter : Filter} {tag : Json} {args : List Json} :
      filter.operator.GivenBy position tag → Arguments (Presents .inner) args filter →
      Presents position (.array (tag :: args)) filter

end Filter

namespace Operator

theorem ofName?_eq_some {name : String} {operator : Operator} :
    ofName? name = some operator ↔ name = operator.name := by
  constructor
  · intro found
    have named := List.find?_some found
    exact (of_decide_eq_true named).symm
  · rintro rfl
    rcases operator with ⟨⟨⟩⟩ | ⟨⟨⟩⟩ | ⟨⟨⟩⟩ | _ <;> rfl

theorem ofName_eq_ok {name : String} {operator : Operator} :
    ofName name = .ok operator ↔ name = operator.name := by
  rw [← ofName?_eq_some, ofName]
  cases ofName? name <;> simp

theorem ofJson_eq_ok {json : Json} {operator : Operator} :
    ofJson json = .ok operator ↔ operator.GivenBy .inner json := by
  constructor
  · intro decoded
    unfold ofJson at decoded
    split at decoded
    · obtain rfl := ofName_eq_ok.mp decoded
      exact .name .inner operator
    · rename_i index
      unfold ofIndex at decoded
      split at decoded <;> simp only [Except.ok.injEq, reduceCtorEq] at decoded
      obtain rfl := decoded
      exact .index ‹_›
    · contradiction
  · intro given
    cases given with
    | name => exact ofName_eq_ok.mpr rfl
    | @index index operator found =>
      change ofIndex index = .ok operator
      rw [ofIndex, found]

end Operator

theorem Json.sole_of_filter {members : List (String × Json)} {name : String}
    {member : String × Json} (named : members.filter (fun member => member.1 = name) = [member]) :
    Sole members name member.2 := by
  have found : member ∈ members.filter (fun member => member.1 = name) :=
    named ▸ List.mem_cons_self
  obtain rfl : member.1 = name := of_decide_eq_true (List.mem_filter.mp found).2
  exact named

theorem Json.Sole.mem {members : List (String × Json)} {name : String} {value : Json}
    (sole : Sole members name value) : (name, value) ∈ members :=
  List.mem_of_mem_filter (sole ▸ List.mem_cons_self)

theorem Json.sole_filter {members : List (String × Json)} {name other : String} {value : Json}
    (different : name ≠ other) :
    Sole (members.filter fun member => member.1 ≠ other) name value ↔
      Sole members name value := by
  rw [Sole, Sole, List.filter_filter]
  have same : ∀ member ∈ members,
      (decide (member.1 = name) && decide (member.1 ≠ other)) = decide (member.1 = name) := by
    intro member _
    by_cases named : member.1 = name <;> simp [named, different]
  rw [List.filter_congr same]

namespace Filter

/-- An object stands for the array of its operator's fields in order. -/
theorem ofMembers_eq_ok {operator : Operator} {members : List (String × Json)} {filter : Filter} :
    ofMembers operator (members.map fun member => (member.1, argument member.2)) = .ok filter ↔
      ∃ args,
        List.Forall₂ (fun field arg => Json.Sole members field.name arg) operator.fields args ∧
        ofItems operator (args.map argument) = .ok filter := by
  simp only [ofMembers, ofItems, bind_eq_ok, Fields.ofMembers_eq, Fields.foldlM_takeMember,
    Fields.ofItems_eq_ok, Fields.assemble_eq_ok, Fields.get_empty]
  constructor
  · rintro ⟨fields, taken, rfl, held⟩
    -- The filter was put together from its slots, so each of them was filled, by one member.
    have filled : ∀ field ∈ filter.operator.fields,
        ∃ json, Json.Sole members field.name json ∧ fields.Holds field json := by
      intro field own
      obtain ⟨content, found⟩ := held.get own
      have filled := taken field
      rw [found, Fields.named_of_mem own, taken_some] at filled
      obtain ⟨member, alone, read⟩ := filled
      exact ⟨member.2, Json.sole_of_filter alone, content, read, found⟩
    obtain ⟨args, related⟩ := exists_forall₂ filled
    refine ⟨args, related.imp fun _ _ both => both.1, fields,
      ⟨related.imp fun _ _ both => both.2, fun field foreign => ?_⟩, rfl, held⟩
    have empty := taken field
    rwa [Fields.named_of_not_mem foreign] at empty
  · rintro ⟨args, soles, fields, ⟨holds, others⟩, rfl, held⟩
    refine ⟨fields, fun field => ?_, rfl, held⟩
    by_cases own : field ∈ filter.operator.fields
    · obtain ⟨json, _, sole, content, read, found⟩ :=
        exists_of_forall₂ (soles.mp (fun _ _ sole holds => And.intro sole holds) holds) own
      rw [found, Fields.named_of_mem own, taken_some]
      exact ⟨_, sole, read⟩
    · rw [Fields.named_of_not_mem own]
      exact others field own

theorem ofItems_eq_ok {operator : Operator} {args : List Json} {filter : Filter} :
    ofItems operator (args.map argument) = .ok filter ↔
      filter.operator = operator ∧
        Arguments (fun json inner => ofJson json = .ok inner) args filter := by
  simp only [ofItems, bind_eq_ok, Fields.ofItems_eq_ok, Fields.assemble_eq_ok]
  constructor
  · rintro ⟨fields, ⟨holds, _⟩, rfl, held⟩
    refine ⟨rfl, ?_⟩
    rcases filter with ⟨_ | _⟩ | _ | _ <;>
      simp only [operator, Leaf.operator, Operator.fields, List.forall₂_cons_left_iff,
        List.forall₂_nil_left_iff] at holds
    · obtain ⟨first, _, key, ⟨second, _, value, rfl, rfl⟩, rfl⟩ := holds
      obtain rfl := Field.read_key.mp (key.read held.1)
      exact .compare (value.read held.2)
    · obtain ⟨first, _, key, ⟨second, _, values, rfl, rfl⟩, rfl⟩ := holds
      obtain rfl := Field.read_key.mp (key.read held.1)
      obtain ⟨items, rfl, read⟩ := Field.read_values.mp (values.read held.2)
      exact .among read
    · obtain ⟨first, _, left, ⟨second, _, right, rfl, rfl⟩, rfl⟩ := holds
      exact .join (left.read held.1) (right.read held.2)
    · obtain ⟨first, _, inner, rfl, rfl⟩ := holds
      exact .not (inner.read held)
  · rintro ⟨rfl, arguments⟩
    refine ⟨.ofFilter filter, ⟨?_, fun _ => Fields.get_ofFilter_of_not_mem⟩, rfl,
      Fields.ofFilter_holdParts filter⟩
    cases arguments with
    | compare read => exact .cons ⟨_, rfl, rfl⟩ (.cons ⟨_, read, rfl⟩ .nil)
    | among read => exact .cons ⟨_, rfl, rfl⟩ (.cons ⟨_, mapM_eq_ok.mpr read, rfl⟩ .nil)
    | join left right => exact .cons ⟨_, left, rfl⟩ (.cons ⟨_, right, rfl⟩ .nil)
    | not inner => exact .cons ⟨_, inner, rfl⟩ .nil

theorem Arguments.imp {P Q : Json → Filter → Prop} {args : List Json} {filter : Filter}
    (weaker : ∀ json ∈ args, ∀ inner, P json inner → Q json inner)
    (arguments : Arguments P args filter) : Arguments Q args filter := by
  cases arguments with
  | compare read => exact .compare read
  | among read => exact .among read
  | join left right => exact .join (weaker _ (by simp) _ left) (weaker _ (by simp) _ right)
  | not inner => exact .not (weaker _ (by simp) _ inner)

/-- One turn of the loop that takes the operator out of the members and keeps the others. -/
def pick {ε γ : Type} (read : Json → Except ε Operator) (duplicate : ε)
    (keep : String × Json → Except ε γ) (state : Option Operator × List γ)
    (member : String × Json) : Except ε (Option Operator × List γ) :=
  if member.1 = Operator.tag then
    if state.1.isSome then .error duplicate
    else do return (some (← read member.2), state.2)
  else do return (state.1, (← keep member) :: state.2)

/-- The operator fills its slot, and all other members are kept. -/
theorem foldlM_pick {ε γ : Type} {read : Json → Except ε Operator} {duplicate : ε}
    {keep : String × Json → Except ε γ} {members : List (String × Json)}
    {before after : Option Operator} {kept result : List γ} :
    members.foldlM (pick read duplicate keep) (before, kept) = .ok (after, result) ↔
      Taken read (members.filter fun member => member.1 = Operator.tag) before after ∧
        ∃ others, (members.filter fun member => member.1 ≠ Operator.tag).mapM keep = .ok others ∧
          result = others.reverse ++ kept := by
  induction members generalizing before kept with
  | nil =>
    simp only [List.foldlM_nil, pure, Except.pure, Except.ok.injEq, Prod.mk.injEq, List.filter_nil,
      List.mapM_nil, Taken, @eq_comm _ before, @eq_comm _ kept, exists_eq_left', List.reverse_nil,
      List.nil_append]
  | cons member members ih =>
    rw [List.foldlM_cons, pick]
    by_cases tagged : member.1 = Operator.tag
    · rw [if_pos tagged, List.filter_cons_of_pos (by simpa), taken_cons,
        List.filter_cons_of_neg (by simpa)]
      cases before with
      | some operator => simp [bind, Except.bind]
      | none =>
        cases read member.2 with
        | error failure => simp [bind, Except.bind]
        | ok operator => exact (@ih (some operator) kept).trans (by simp)
    · rw [if_neg tagged, List.filter_cons_of_neg (by simpa), List.filter_cons_of_pos (by simpa),
        List.mapM_cons]
      cases keep member with
      | error failure => simp [bind, Except.bind]
      | ok next =>
        refine (@ih before (next :: kept)).trans (and_congr_right fun _ => ?_)
        simp only [bind_eq_ok, pure, Except.pure, Except.ok.injEq]
        constructor
        · rintro ⟨others, read, rfl⟩
          exact ⟨_, ⟨next, rfl, others, read, rfl⟩, by simp⟩
        · rintro ⟨_, ⟨_, rfl, others, read, rfl⟩, rfl⟩
          exact ⟨others, read, by simp⟩

theorem splitOperator_eq_ok {members : List (String × Json)} {operator : Operator}
    {others : List (String × Argument)} :
    splitOperator (members.map fun member => (member.1, argument member.2)) =
        .ok (operator, others) ↔
      ∃ tag, Json.Sole members Operator.tag tag ∧ operator.GivenBy .inner tag ∧
        others = (members.filter fun member => member.1 ≠ Operator.tag).map
          fun member => (member.1, argument member.2) := by
  rw [splitOperator, List.foldlM_map, bind_eq_ok]
  change (∃ state, members.foldlM (pick Operator.ofJson (.duplicateMember Operator.tag)
    fun member => pure (member.1, argument member.2)) (none, []) = .ok state ∧ _) ↔ _
  simp only [Prod.exists, foldlM_pick, List.append_nil, List.mapM_pure]
  constructor
  · rintro ⟨picked, kept, ⟨taken, _, ⟨⟩, rfl⟩, found⟩
    cases picked with
    | none => contradiction
    | some operator =>
      obtain ⟨member, alone, read⟩ := taken_some.mp taken
      cases found
      exact ⟨member.2, Json.sole_of_filter alone, Operator.ofJson_eq_ok.mp read,
        List.reverse_reverse _⟩
  · rintro ⟨tag, alone, given, rfl⟩
    refine ⟨some operator, _,
      ⟨taken_some.mpr ⟨_, alone, Operator.ofJson_eq_ok.mpr given⟩, _, rfl, rfl⟩, ?_⟩
    dsimp only
    rw [List.reverse_reverse]
    rfl

/-- The documents of a filter's fields are what is decoded from them, if this is true of the filters
inside it. -/
theorem ofItems_eq_ok_iff {operator : Operator} {args : List Json} {filter : Filter}
    (children : ∀ arg ∈ args, ∀ inner, ofJson arg = .ok inner ↔ Presents .inner arg inner) :
    ofItems operator (args.map argument) = .ok filter ↔
      filter.operator = operator ∧ Arguments (Presents .inner) args filter := by
  rw [ofItems_eq_ok]
  exact and_congr_right fun _ => ⟨.imp fun arg member inner => (children arg member inner).mp,
    .imp fun arg member inner => (children arg member inner).mpr⟩

/-- An object presents what is decoded from its operator and its other members. -/
theorem presents_object_iff {position : Position} {members : List (String × Json)} {filter : Filter}
    (children : ∀ member ∈ members, ∀ inner,
      ofJson member.2 = .ok inner ↔ Presents .inner member.2 inner) :
    Presents position (.object members) filter ↔
      ∃ operator tag, Json.Sole members Operator.tag tag ∧ operator.GivenBy position tag ∧
        ofMembers operator ((members.filter fun member => member.1 ≠ Operator.tag).map
          fun member => (member.1, argument member.2)) = .ok filter := by
  have decoded {args : List Json} (soles : List.Forall₂
      (fun field arg => Json.Sole members field.name arg) filter.operator.fields args) :
      ∀ arg ∈ args, ∀ inner, ofJson arg = .ok inner ↔ Presents .inner arg inner := by
    intro arg member
    obtain ⟨field, _, sole⟩ := exists_of_forall₂ soles.flip member
    exact children _ (Json.Sole.mem sole)
  simp only [ofMembers_eq_ok, Json.sole_filter (Field.name_ne_tag _)]
  constructor
  · intro presents
    cases presents with
    | object tagged given soles arguments =>
      exact ⟨_, _, tagged, given, _, soles,
        (ofItems_eq_ok_iff (decoded soles)).mpr ⟨rfl, arguments⟩⟩
  · rintro ⟨operator, tag, tagged, given, args, soles, decodes⟩
    obtain rfl := (ofItems_eq_ok.mp decodes).1
    exact .object tagged given soles ((ofItems_eq_ok_iff (decoded soles)).mp decodes).2

/-- An array presents what is decoded from its operator and its other items. -/
theorem presents_array_iff {position : Position} {items : List Json} {filter : Filter}
    (children : ∀ item ∈ items, ∀ inner, ofJson item = .ok inner ↔ Presents .inner item inner) :
    Presents position (.array items) filter ↔
      ∃ operator tag args, items = tag :: args ∧ operator.GivenBy position tag ∧
        ofItems operator (args.map argument) = .ok filter := by
  constructor
  · intro presents
    cases presents with
    | array given arguments =>
      exact ⟨_, _, _, rfl, given,
        (ofItems_eq_ok_iff fun arg member => children arg (List.mem_cons_of_mem _ member)).mpr
          ⟨rfl, arguments⟩⟩
  · rintro ⟨operator, tag, args, rfl, given, decodes⟩
    obtain ⟨rfl, arguments⟩ :=
      (ofItems_eq_ok_iff fun arg member => children arg (List.mem_cons_of_mem _ member)).mp decodes
    exact .array given arguments

/-- A document inside another filter is decoded into the filter that it presents. -/
theorem ofJson_eq_ok_iff {json : Json} {filter : Filter} :
    ofJson json = .ok filter ↔ Presents .inner json filter := by
  -- A member that is no field may hold anything, so the induction is on the document and not on the
  -- filter.
  induction json using Json.induct generalizing filter with
  | null | bool | number | string =>
    constructor
    · intro decoded
      simp [ofJson] at decoded
    · intro presents
      cases presents
  | array items ih =>
    rw [presents_array_iff fun item member inner => ih item member, ofJson]
    cases items with
    | nil => simp
    | cons first rest =>
      simp only [List.map_cons, bind_eq_ok, Operator.ofJson_eq_ok]
      constructor
      · rintro ⟨operator, given, decoded⟩
        exact ⟨operator, first, rest, rfl, given, decoded⟩
      · rintro ⟨operator, tag, args, same, given, decoded⟩
        cases same
        exact ⟨operator, given, decoded⟩
  | object members ih =>
    rw [presents_object_iff fun member found inner => ih member found, ofJson, bind_eq_ok]
    change (∃ _, splitOperator (members.map fun member =>
      (member.1, argument member.2)) = _ ∧ _) ↔ _
    simp only [Prod.exists, splitOperator_eq_ok]
    constructor
    · rintro ⟨operator, others, ⟨tag, tagged, given, rfl⟩, decoded⟩
      exact ⟨operator, tag, tagged, given, decoded⟩
    · rintro ⟨operator, tag, tagged, given, decoded⟩
      exact ⟨operator, _, ⟨tag, tagged, given, rfl⟩, decoded⟩

end Filter

end FilterQuery
