import FilterQuery.Filter.Reader
import FilterQuery.Proofs.Sequences

/-!
The fields of a filter as slots. The members of an object fill a slot when exactly one of them has
its name (`Fields.foldlM_takeMember`), the items of an array fill the slots of an operator one after
the other (`Fields.ofItems_eq_ok`), and a filter is put together when the slots of its operator are
filled (`Fields.assemble_eq_ok`).
-/
namespace FilterQuery

open Json (Mismatch bind_eq_ok)

/-- What the members of one name put into a slot: none leave it as it is, and one fills it if it is
empty. -/
def Taken {α ε : Type} (read : Json → Except ε α) (named : List (String × Json))
    (before after : Option α) : Prop :=
  match named with
  | [] => after = before
  | [member] => before = none ∧ ∃ content, read member.2 = .ok content ∧ after = some content
  | _ :: _ :: _ => False

theorem taken_cons {α ε : Type} {read : Json → Except ε α} {member : String × Json}
    {named : List (String × Json)} {before after : Option α} :
    Taken read (member :: named) before after ↔
      before = none ∧ ∃ content, read member.2 = .ok content ∧
        Taken read named (some content) after := by
  rcases named with _ | ⟨next, _ | ⟨third, rest⟩⟩ <;> simp [Taken]

theorem taken_some {α ε : Type} {read : Json → Except ε α} {named : List (String × Json)}
    {content : α} :
    Taken read named none (some content) ↔
      ∃ member, named = [member] ∧ read member.2 = .ok content := by
  rcases named with _ | ⟨member, _ | ⟨next, rest⟩⟩ <;> simp [Taken]

def Field.Content : Field → Type
  | key => String
  | value => Value
  | values => List Value
  | left | right | expr => Filter

/-- What a document is as the content of a field. -/
def Field.read : (field : Field) → Json → Except Mismatch field.Content
  | key, json => (Filter.argument json).text
  | value, json => Value.ofJson json
  | values, json => (Filter.argument json).scalars
  | left, json | right, json | expr, json => Filter.ofJson json

theorem Field.read_key {json : Json} {content : String} :
    key.read json = .ok content ↔ json = .string content := by
  change (Filter.argument json).text = .ok content ↔ _
  cases json <;> simp [Argument.text, Filter.argument]

theorem Field.read_values {json : Json} {content : List Value} :
    values.read json = .ok content ↔ ∃ items, json = .array items ∧
      List.Forall₂ (fun item value => Value.ofJson item = .ok value) items content := by
  change (Filter.argument json).scalars = .ok content ↔ _
  cases json <;> simp [Argument.scalars, Filter.argument, mapM_eq_ok]

theorem Field.ofName?_eq_some {name : String} {field : Field} :
    ofName? name = some field ↔ name = field.name := by
  constructor
  · intro found
    have named := List.find?_some found
    exact (of_decide_eq_true named).symm
  · rintro rfl
    cases field <;> rfl

theorem Field.name_inj {field other : Field} (same : field.name = other.name) : field = other :=
  Option.some.inj ((ofName?_eq_some.mpr rfl).symm.trans (ofName?_eq_some.mpr same))

theorem Field.name_ne_tag (field : Field) : field.name ≠ Operator.tag := by
  cases field <;> decide

namespace Fields

def get (fields : Fields) : (field : Field) → Option field.Content
  | .key => fields.key
  | .value => fields.value
  | .values => fields.values
  | .left => fields.left
  | .right => fields.right
  | .expr => fields.expr

def set (fields : Fields) : (field : Field) → field.Content → Fields
  | .key, content => { fields with key := some content }
  | .value, content => { fields with value := some content }
  | .values, content => { fields with values := some content }
  | .left, content => { fields with left := some content }
  | .right, content => { fields with right := some content }
  | .expr, content => { fields with expr := some content }

theorem get_empty (field : Field) : empty.get field = none := by
  cases field <;> rfl

theorem get_set_self (fields : Fields) (field : Field) (content : field.Content) :
    (fields.set field content).get field = some content := by
  cases field <;> rfl

theorem get_set_of_ne (fields : Fields) {field other : Field} (content : field.Content)
    (different : other ≠ field) : (fields.set field content).get other = fields.get other := by
  cases field <;> cases other <;> first | rfl | contradiction

theorem has_eq (fields : Fields) (field : Field) :
    fields.has field = (fields.get field).isSome := by
  cases field <;> rfl

theorem ext_get {fields fields' : Fields} (same : ∀ field, fields.get field = fields'.get field) :
    fields = fields' := by
  obtain ⟨key, value, values, left, right, expr⟩ := fields
  obtain ⟨key', value', values', left', right', expr'⟩ := fields'
  obtain rfl : key = key' := same .key
  obtain rfl : value = value' := same .value
  obtain rfl : values = values' := same .values
  obtain rfl : left = left' := same .left
  obtain rfl : right = right' := same .right
  obtain rfl : expr = expr' := same .expr
  rfl

theorem put_eq_ok {fields after : Fields} {field : Field} {json : Json} :
    fields.put field (Filter.argument json) = .ok after ↔
      ∃ content, field.read json = .ok content ∧ after = fields.set field content := by
  have put : fields.put field (Filter.argument json) =
      field.read json >>= fun content => .ok (fields.set field content) := by
    cases field <;> rfl
  simp only [put, bind_eq_ok, Except.ok.injEq, @eq_comm _ after]

/-- One turn of the loop over the members of an object. -/
def takeMember (operator : Operator) (fields : Fields) (member : String × Json) :
    Except Mismatch Fields :=
  match Field.ofName? member.1 with
  | none => .ok fields
  | some field =>
    if field ∉ operator.fields then .ok fields
    else if fields.has field then .error (.duplicateMember member.1)
    else fields.put field (Filter.argument member.2)

theorem ofMembers_eq (operator : Operator) (members : List (String × Json)) :
    ofMembers operator (members.map fun member => (member.1, Filter.argument member.2)) =
      members.foldlM (takeMember operator) empty := by
  rw [ofMembers, List.foldlM_map]
  rfl

theorem takeMember_of_field {operator : Operator} {fields next : Fields} {field : Field}
    {json : Json} (own : field ∈ operator.fields) :
    takeMember operator fields (field.name, json) = .ok next ↔
      fields.get field = none ∧
        ∃ content, field.read json = .ok content ∧ next = fields.set field content := by
  rw [takeMember, Field.ofName?_eq_some.mpr rfl]
  dsimp only
  rw [if_neg (not_not_intro own), has_eq]
  cases fields.get field with
  | none => simp [put_eq_ok]
  | some content => simp

theorem takeMember_of_other {operator : Operator} {name : String}
    (other : ∀ field ∈ operator.fields, name ≠ field.name) (json : Json) (fields : Fields) :
    takeMember operator fields (name, json) = .ok fields := by
  unfold takeMember
  split
  · rfl
  · rename_i field named
    exact if_pos fun own => other field own (Field.ofName?_eq_some.mp named)

/-- The members named like a field, if it is one of the operator. -/
def named (operator : Operator) (field : Field) (members : List (String × Json)) :
    List (String × Json) :=
  members.filter fun member => field ∈ operator.fields ∧ member.1 = field.name

theorem named_of_mem {operator : Operator} {field : Field} (own : field ∈ operator.fields)
    (members : List (String × Json)) :
    named operator field members = members.filter fun member => member.1 = field.name := by
  simp only [named, own, true_and]

theorem named_of_not_mem {operator : Operator} {field : Field} (foreign : field ∉ operator.fields)
    (members : List (String × Json)) : named operator field members = [] :=
  List.filter_eq_nil_iff.mpr (by simp [foreign])

theorem named_cons_self {operator : Operator} {field : Field} (own : field ∈ operator.fields)
    (json : Json) (members : List (String × Json)) :
    named operator field ((field.name, json) :: members) =
      (field.name, json) :: named operator field members :=
  List.filter_cons_of_pos (by simp [own])

theorem named_cons_of_ne {operator : Operator} {field : Field} {name : String}
    (other : field ∈ operator.fields → name ≠ field.name) (json : Json)
    (members : List (String × Json)) :
    named operator field ((name, json) :: members) = named operator field members :=
  List.filter_cons_of_neg (by simpa using other)

/-- The members named like a field of the operator fill its slot, and the others do nothing. -/
theorem foldlM_takeMember {operator : Operator} {members : List (String × Json)}
    {before after : Fields} :
    members.foldlM (takeMember operator) before = .ok after ↔
      ∀ field, Taken field.read (named operator field members) (before.get field)
        (after.get field) := by
  induction members generalizing before with
  | nil =>
    constructor
    · intro same
      cases same
      exact fun _ => rfl
    · intro same
      exact congrArg Except.ok (ext_get fun field => (same field).symm)
  | cons member members ih =>
    obtain ⟨name, json⟩ := member
    rw [List.foldlM_cons, bind_eq_ok]
    by_cases known : ∃ field ∈ operator.fields, name = field.name
    · obtain ⟨field, own, rfl⟩ := known
      have others (other : Field) (different : other ≠ field) :
          named operator other ((field.name, json) :: members) = named operator other members :=
        named_cons_of_ne (fun _ same => different (Field.name_inj same).symm) json members
      simp only [takeMember_of_field own, ih]
      -- The member fills the slot of its field; every other slot is as the rest of the members see
      -- it.
      constructor
      · rintro ⟨_, ⟨vacant, content, read, rfl⟩, taken⟩ other
        by_cases same : other = field
        · subst same
          rw [named_cons_self own, taken_cons]
          exact ⟨vacant, content, read, get_set_self before other content ▸ taken other⟩
        · rw [others other same]
          exact get_set_of_ne before content same ▸ taken other
      · intro taken
        have head := taken field
        rw [named_cons_self own, taken_cons] at head
        obtain ⟨vacant, content, read, rest⟩ := head
        refine ⟨_, ⟨vacant, content, read, rfl⟩, fun other => ?_⟩
        by_cases same : other = field
        · subst same
          rwa [get_set_self]
        · rw [get_set_of_ne before content same, ← others other same]
          exact taken other
    · have unknown : ∀ field ∈ operator.fields, name ≠ field.name :=
        fun field own same => known ⟨field, own, same⟩
      simp only [takeMember_of_other unknown, Except.ok.injEq, exists_eq_left', ih,
        named_cons_of_ne (unknown _)]

/-- The content of the document has been found for the field. -/
def Holds (fields : Fields) (field : Field) (json : Json) : Prop :=
  ∃ content, field.read json = .ok content ∧ fields.get field = some content

theorem Holds.read {fields : Fields} {field : Field} {json : Json} {content : field.Content}
    (holds : fields.Holds field json) (found : fields.get field = some content) :
    field.read json = .ok content := by
  obtain ⟨content', read, found'⟩ := holds
  obtain rfl := Option.some.inj (found'.symm.trans found)
  exact read

theorem fill_eq_ok {operator : Operator} {items : List Argument} {slots : List Field}
    {args : List Json} {before after : Fields} (distinct : slots.Nodup) :
    ofItems.fill operator items before slots (args.map Filter.argument) = .ok after ↔
      List.Forall₂ after.Holds slots args ∧
        ∀ field ∉ slots, after.get field = before.get field := by
  -- The rest of the slots keep what the first one holds, because no field has two slots.
  induction slots generalizing args before with
  | nil =>
    cases args with
    | nil =>
      rw [List.map_nil, ofItems.fill, Except.ok.injEq]
      exact ⟨fun same => ⟨.nil, fun _ _ => same ▸ rfl⟩,
        fun same => ext_get fun field => (same.2 field List.not_mem_nil).symm⟩
    | cons json args => simp [ofItems.fill]
  | cons slot slots ih =>
    cases args with
    | nil => simp [ofItems.fill]
    | cons json args =>
      obtain ⟨fresh, distinct⟩ := List.nodup_cons.mp distinct
      rw [List.map_cons, ofItems.fill, bind_eq_ok]
      simp only [put_eq_ok, ih distinct, List.forall₂_cons]
      constructor
      · rintro ⟨_, ⟨content, read, rfl⟩, holds, kept⟩
        have found := (kept slot fresh).trans (get_set_self before slot content)
        refine ⟨⟨⟨content, read, found⟩, holds⟩, fun field absent => ?_⟩
        obtain ⟨other, absent⟩ := not_or.mp (mt List.mem_cons.mpr absent)
        exact (kept field absent).trans (get_set_of_ne before content other)
      · rintro ⟨⟨⟨content, read, found⟩, holds⟩, kept⟩
        refine ⟨_, ⟨content, read, rfl⟩, holds, fun field absent => ?_⟩
        by_cases same : field = slot
        · subst same
          rw [found, get_set_self]
        · rw [get_set_of_ne before content same]
          exact kept field (by simp [same, absent])

theorem ofItems_eq_ok {operator : Operator} {args : List Json} {fields : Fields} :
    ofItems operator (args.map Filter.argument) = .ok fields ↔
      List.Forall₂ fields.Holds operator.fields args ∧
        ∀ field ∉ operator.fields, fields.get field = none := by
  have distinct : operator.fields.Nodup := by cases operator <;> simp [Operator.fields]
  simp only [ofItems, fill_eq_ok distinct, get_empty]

/-- The slots hold the parts of the filter. -/
def HoldParts (fields : Fields) : Filter → Prop
  | .leaf (.compare _ key value) => fields.key = some key ∧ fields.value = some value
  | .leaf (.among _ key values) => fields.key = some key ∧ fields.values = some values
  | .join _ left right => fields.left = some left ∧ fields.right = some right
  | .not inner => fields.expr = some inner

theorem required_eq_ok {α : Type} {field : Field} {slot : Option α} {content : α} :
    required field slot = .ok content ↔ slot = some content := by
  cases slot <;> simp [required]

/-- A filter is put together from the slots of its operator. -/
theorem assemble_eq_ok {fields : Fields} {operator : Operator} {filter : Filter} :
    fields.assemble operator = .ok filter ↔
      filter.operator = operator ∧ fields.HoldParts filter := by
  constructor
  · intro assembled
    cases operator with
    | relation relation | membership membership | connective connective =>
      simp only [assemble, bind_eq_ok, required_eq_ok] at assembled
      obtain ⟨first, firstHeld, second, secondHeld, same⟩ := assembled
      cases same
      exact ⟨rfl, firstHeld, secondHeld⟩
    | negation =>
      simp only [assemble, bind_eq_ok, required_eq_ok] at assembled
      obtain ⟨inner, held, same⟩ := assembled
      cases same
      exact ⟨rfl, held⟩
  · rintro ⟨rfl, held⟩
    rcases filter with ⟨_ | _⟩ | _ | _ <;>
      simp only [Filter.operator, Leaf.operator, assemble, bind_eq_ok, required_eq_ok]
    case leaf.compare | leaf.among | join => exact ⟨_, held.1, _, held.2, rfl⟩
    case not => exact ⟨_, held, rfl⟩

theorem HoldParts.get {fields : Fields} {filter : Filter} (held : fields.HoldParts filter)
    {field : Field} (own : field ∈ filter.operator.fields) :
    ∃ content, fields.get field = some content := by
  rcases filter with ⟨_ | _⟩ | _ | _ <;>
    simp only [Filter.operator, Leaf.operator, Operator.fields, List.mem_cons, List.not_mem_nil,
      or_false] at own
  case leaf.compare | leaf.among | join =>
    rcases own with rfl | rfl
    · exact ⟨_, held.1⟩
    · exact ⟨_, held.2⟩
  case not =>
    subst own
    exact ⟨_, held⟩

/-- The parts of a filter in the slots of its operator, and nothing in the others. -/
def ofFilter : Filter → Fields
  | .leaf (.compare _ key value) => { empty with key := some key, value := some value }
  | .leaf (.among _ key values) => { empty with key := some key, values := some values }
  | .join _ left right => { empty with left := some left, right := some right }
  | .not inner => { empty with expr := some inner }

theorem ofFilter_holdParts (filter : Filter) : (ofFilter filter).HoldParts filter := by
  rcases filter with ⟨_ | _⟩ | _ | _
  exacts [⟨rfl, rfl⟩, ⟨rfl, rfl⟩, ⟨rfl, rfl⟩, rfl]

theorem get_ofFilter_of_not_mem {filter : Filter} {field : Field}
    (foreign : field ∉ filter.operator.fields) : (ofFilter filter).get field = none := by
  rcases filter with ⟨_ | _⟩ | _ | _ <;> cases field <;>
    first | rfl | exact absurd (by simp [Filter.operator, Leaf.operator, Operator.fields]) foreign

end Fields

end FilterQuery
