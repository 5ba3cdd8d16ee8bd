import FilterQuery.Filter.Json
import FilterQuery.Metadata.Json
import FilterQuery.Proofs.Filter.Decoding
import FilterQuery.Proofs.Json.Acceptance

/-!
Filters sent as JSON text. The text of a filter holds a document that presents the filter, whatever
its strings and integers are; a float has to survive its own text (`Filter.exists_presents`). So the
filter comes back, or the rule that it breaks does, as long as it is not nested too deep for a
document; if it is, its text is refused as malformed (`Filter.ofText_toText`).
-/
namespace FilterQuery

open Json (Failure Reader mapError_eq_ok)

namespace Value

/-- The value, if it is a float, is what is read from its own text. -/
def FloatSurvives : Value → Prop
  | float x => ofText (float x).toJson.toText = .ok (float x)
  | bool _ | int _ | string _ => True

theorem ofNumber_toInt (n : Int64) : ofNumber (.integer n.toInt) = int n := by
  rw [ofNumber, if_pos ⟨n.minValue_le_toInt, n.toInt_le⟩, Int64.ofInt_toInt]

/-- The other value is what is read from the text of the value; only a float may be read as another
one. -/
def ReadsAs : Value → Value → Prop
  | float x, read => ofText (float x).toJson.toText = .ok read
  | bool b, read => read = bool b
  | int n, read => read = int n
  | string s, read => read = string s

theorem FloatSurvives.readsAs {value : Value} (survives : value.FloatSurvives) :
    value.ReadsAs value := by
  cases value with
  | bool | int | string => rfl
  | float => exact survives

/-- The text of a value holds a scalar that is decoded into what is read from it. -/
theorem exists_standsIn {value read : Value} (reads : value.ReadsAs read) :
    ∃ json, json.StandsIn value.toJson.text ∧ json.nesting = 0 ∧ ofJson json = .ok read := by
  cases value with
  | bool b =>
    cases reads
    exact ⟨_, Json.standsIn_bool_text b, rfl, rfl⟩
  | int n =>
    cases reads
    exact ⟨_, Json.standsIn_integer_text n, rfl, congrArg _ (ofNumber_toInt n)⟩
  | string s =>
    cases reads
    exact ⟨_, Json.standsIn_string_text s, rfl, rfl⟩
  | float x =>
    obtain ⟨json, read, decoded⟩ := Reader.readAll_check_eq_ok.mp reads
    rw [mapError_eq_ok] at decoded
    obtain ⟨stands, _⟩ := Json.ofText_eq_ok.mp read
    rw [Json.toText, String.toList_ofList] at stands
    refine ⟨json, stands, ?_, decoded⟩
    cases json with
    | array | object => simp [ofJson] at decoded
    | null | bool | number | string => rfl

/-- The texts of several values hold scalars that are decoded, one by one, into what is read. -/
theorem exists_standsIn_items {values : List Value} {f : Value → Value}
    (reads : ∀ value ∈ values, value.ReadsAs (f value)) :
    ∃ items,
      List.Forall₂ (fun printed item => Json.StandsIn item printed.text) (values.map toJson) items ∧
      Json.nestingItems items = 0 ∧
      List.Forall₂ (fun item read => ofJson item = .ok read) items (values.map f) := by
  obtain ⟨items, related⟩ := exists_forall₂ fun value member => exists_standsIn (reads value member)
  refine ⟨items, ?_, ?_, ?_⟩
  · exact List.forall₂_map_left_iff.mpr (related.imp fun _ _ holds => holds.1)
  · refine Nat.eq_zero_of_le_zero (Json.nestingItems_le.mpr fun item member => ?_)
    obtain ⟨value, _, _, flat, _⟩ := exists_of_forall₂ related.flip member
    exact Nat.le_of_eq flat
  · exact List.forall₂_map_right_iff.mpr (related.imp fun _ _ holds => holds.2.2).flip

end Value

namespace Filter

/-- How deep the arrays and objects of a filter's document are nested. -/
def nesting : Filter → Nat
  | leaf (.compare _ _ _) => 1
  | leaf (.among _ _ _) => 2
  | join _ left right => 1 + max left.nesting right.nesting
  | not inner => 1 + inner.nesting

/-- Every float in the filter is what is read from its own text. -/
def FloatsSurvive : Filter → Prop
  | leaf (.compare _ _ value) => value.FloatSurvives
  | leaf (.among _ _ values) => ∀ value ∈ values, value.FloatSurvives
  | join _ left right => left.FloatsSurvive ∧ right.FloatsSurvive
  | not inner => inner.FloatsSurvive

/-- Every value in the filter has the property. -/
def AllValues (P : Value → Prop) : Filter → Prop
  | leaf (.compare _ _ value) => P value
  | leaf (.among _ _ values) => ∀ value ∈ values, P value
  | join _ left right => left.AllValues P ∧ right.AllValues P
  | not inner => inner.AllValues P

/-- The filter with its values replaced. -/
def mapValues (f : Value → Value) : Filter → Filter
  | leaf (.compare relation key value) => leaf (.compare relation key (f value))
  | leaf (.among membership key values) => leaf (.among membership key (values.map f))
  | join connective left right => join connective (left.mapValues f) (right.mapValues f)
  | not inner => not (inner.mapValues f)

theorem mapValues_id (filter : Filter) : filter.mapValues id = filter := by
  induction filter with
  | leaf leaf => cases leaf <;> simp [mapValues]
  | join connective left right ihLeft ihRight => rw [mapValues, ihLeft, ihRight]
  | not inner ih => rw [mapValues, ih]

theorem FloatsSurvive.allValues {filter : Filter} (floats : filter.FloatsSurvive) :
    filter.AllValues fun value => value.ReadsAs value := by
  induction filter with
  | leaf leaf =>
    cases leaf with
    | compare relation key value => exact Value.FloatSurvives.readsAs floats
    | among membership key values =>
      exact fun value member => Value.FloatSurvives.readsAs (floats value member)
  | join connective left right ihLeft ihRight => exact ⟨ihLeft floats.1, ihRight floats.2⟩
  | not inner ih => exact ih floats

/-- The tagged object of a filter's operator and fields presents it. -/
theorem presents_tagged {filter : Filter} {args : List Json} (position : Position)
    (arguments : Arguments (Presents .inner) args filter) :
    Presents position (tagged filter.operator (filter.operator.fields.zip args)) filter := by
  have given := Operator.GivenBy.name position filter.operator
  cases arguments with
  | compare read => exact .object rfl given (.cons rfl (.cons rfl .nil)) (.compare read)
  | among read => exact .object rfl given (.cons rfl (.cons rfl .nil)) (.among read)
  | join left right => exact .object rfl given (.cons rfl (.cons rfl .nil)) (.join left right)
  | not inner => exact .object rfl given (.cons rfl .nil) (.not inner)

theorem operator_mapValues (f : Value → Value) (filter : Filter) :
    (filter.mapValues f).operator = filter.operator := by
  cases filter with
  | leaf leaf => cases leaf <;> rfl
  | join | not => rfl

theorem presents_mapValues {filter : Filter} {f : Value → Value} {args : List Json}
    (arguments : Arguments (Presents .inner) args (filter.mapValues f)) :
    Presents .inner (tagged filter.operator (filter.operator.fields.zip args))
      (filter.mapValues f) := by
  rw [← operator_mapValues f filter]
  exact presents_tagged .inner arguments

theorem tagged_zip (operator : Operator) (args : List Json) :
    tagged operator (operator.fields.zip args) =
      .object ((Operator.tag :: operator.fields.map Field.name).zip
        (.string operator.name :: args)) := by
  rw [tagged, List.zip_cons_cons, List.zip_map_left]
  rfl

theorem standsIn_tagged_text {operator : Operator} {args documents : List Json}
    (each : List.Forall₂ (fun arg document => document.StandsIn arg.text) args documents) :
    (tagged operator (operator.fields.zip documents)).StandsIn
      (tagged operator (operator.fields.zip args)).text := by
  rw [tagged_zip, tagged_zip]
  exact Json.standsIn_object_text _ (.cons (Json.standsIn_string_text operator.name) each)

theorem nesting_tagged {operator : Operator} {args : List Json}
    (complete : operator.fields.length = args.length) :
    (tagged operator (operator.fields.zip args)).nesting = 1 + Json.nestingItems args := by
  have lengths : (Operator.tag :: operator.fields.map Field.name).length =
      (Json.string operator.name :: args).length := by
    rw [List.length_cons, List.length_cons, List.length_map, complete]
  rw [tagged_zip, Json.nesting_object_zip lengths, Json.nestingItems, Json.nesting, Nat.zero_max]

/-- The text of a filter holds a document that presents the filter of what is read from the texts of
its values. -/
theorem exists_presents_mapValues {filter : Filter} {f : Value → Value}
    (reads : filter.AllValues fun value => value.ReadsAs (f value)) :
    ∃ args, (tagged filter.operator (filter.operator.fields.zip args)).StandsIn filter.toJson.text ∧
      (tagged filter.operator (filter.operator.fields.zip args)).nesting = filter.nesting ∧
      Arguments (Presents .inner) args (filter.mapValues f) := by
  -- A filter inside is presented by the document in its own text, so what its text holds, how deep
  -- this is nested and what it presents are proved together.
  induction filter with
  | leaf leaf =>
    cases leaf with
    | compare relation key value =>
      obtain ⟨json, stands, flat, read⟩ := Value.exists_standsIn reads
      refine ⟨[.string key, json],
        standsIn_tagged_text (.cons (Json.standsIn_string_text key) (.cons stands .nil)), ?_,
        .compare read⟩
      rw [nesting_tagged rfl]
      simp only [Json.nestingItems, Json.nesting, flat, nesting, Nat.max_self]
    | among membership key values =>
      obtain ⟨items, each, flat, read⟩ := Value.exists_standsIn_items reads
      refine ⟨[.string key, .array items], standsIn_tagged_text
        (.cons (Json.standsIn_string_text key) (.cons (Json.standsIn_array_text each) .nil)), ?_,
        .among read⟩
      rw [nesting_tagged rfl]
      simp only [Json.nestingItems, Json.nesting, flat, nesting, Nat.add_zero, Nat.zero_max,
        Nat.max_zero]
  | join connective left right ihLeft ihRight =>
    obtain ⟨leftArgs, standsLeft, nestingLeft, argumentsLeft⟩ := ihLeft reads.1
    obtain ⟨rightArgs, standsRight, nestingRight, argumentsRight⟩ := ihRight reads.2
    refine ⟨_, standsIn_tagged_text (.cons standsLeft (.cons standsRight .nil)), ?_,
      .join (presents_mapValues argumentsLeft) (presents_mapValues argumentsRight)⟩
    rw [nesting_tagged rfl]
    simp only [Json.nestingItems, nestingLeft, nestingRight, nesting, Nat.max_zero]
  | not inner ih =>
    obtain ⟨args, stands, nestingInner, arguments⟩ := ih reads
    refine ⟨_, standsIn_tagged_text (.cons stands .nil), ?_,
      .not (presents_mapValues arguments)⟩
    rw [nesting_tagged rfl]
    simp only [Json.nestingItems, nestingInner, nesting, Nat.max_zero]

/-- The text of a filter holds a document that presents it. -/
theorem exists_presents {filter : Filter} (floats : filter.FloatsSurvive) :
    ∃ args, (tagged filter.operator (filter.operator.fields.zip args)).StandsIn filter.toJson.text ∧
      (tagged filter.operator (filter.operator.fields.zip args)).nesting = filter.nesting ∧
      Arguments (Presents .inner) args filter := by
  obtain ⟨args, stands, nesting, arguments⟩ := exists_presents_mapValues (f := id) floats.allValues
  rw [mapValues_id] at arguments
  exact ⟨args, stands, nesting, arguments⟩

/-- An object whose operator is fine but whose other members are nested too deep is malformed. -/
theorem ofDocument_of_deep {operator : Operator} {members : List (String × Json)}
    (untagged : ∀ member ∈ members, member.1 ≠ Operator.tag)
    (deep : Json.maxDepth <
      (Json.object ((Operator.tag, .string operator.name) :: members)).nesting) :
    ofDocument (.object ((Operator.tag, .string operator.name) :: members)) =
      .error .malformed := by
  have someDeep : ¬ ∀ member ∈ members, member.2.nesting ≤ Json.maxDepth - 1 := by
    intro shallow
    refine Nat.not_le.mpr deep ((Json.nesting_object_le _ (Json.maxDepth - 1)).mpr ?_)
    exact List.forall_mem_cons.mpr ⟨Nat.zero_le _, shallow⟩
  have named : Operator.ofNamed (.string operator.name) = .ok operator :=
    Operator.ofNamed_eq_ok.mpr (.name .whole operator)
  have first : takeMember (none, []) (Operator.tag, .string operator.name) =
      .ok (some operator, []) := by
    rw [takeMember, pick, if_pos rfl, named]
    rfl
  have step (member : String × Json) (found : member ∈ members) (taken : List (String × Json)) :
      takeMember (some operator, taken) member =
        (do return (some operator,
          ← Reader.within (Json.maxDepth - 1) member.2 (member :: taken))) := by
    rw [takeMember, pick, if_neg (untagged member found), Reader.bind_within, Reader.bind_within]
  have folded : members.foldlM takeMember (some operator, []) = .error .malformed := by
    rw [foldlM_of_part (fun taken => (some operator, taken)) step,
      Reader.foldlM_within (Json.maxDepth - 1) (fun member : String × Json => member.2),
      if_neg someDeep]
    rfl
  rw [ofDocument, List.foldlM_cons, first]
  dsimp only [bind, Except.bind]
  rw [folded]

theorem ofDocument_tagged_of_deep {operator : Operator} {fields : List (Field × Json)}
    (deep : Json.maxDepth < (tagged operator fields).nesting) :
    ofDocument (tagged operator fields) = .error .malformed := by
  refine ofDocument_of_deep (fun member found => ?_) deep
  obtain ⟨entry, _, rfl⟩ := List.mem_map.mp found
  exact entry.1.name_ne_tag

/-- A document that is an object is read as a filter whether or not there may be none. -/
theorem decodeOptional_eq {members : List (String × Json)} {text : String}
    (stands : (Json.object members).StandsIn text.toList) :
    decodeOptional text = (do return some (← decode text)) := by
  rw [decode_eq stands]
  obtain ⟨before, written, after, blank, writtenAs, blankAfter, same⟩ := stands
  have reads := (reads_reader writtenAs).map some
  refine Reader.readAll_of_reads ?_ blank blankAfter same
  cases writtenAs with
  | object enclosed => exact Reader.reads_byFirst_of_reads rfl rfl reads

/-- A filter that is not nested too deep comes back from its text if it is valid, and if it is not,
the rule that it breaks does; a filter that is nested too deep is refused. -/
theorem ofText_toText {filter : Filter} (floats : filter.FloatsSurvive) :
    (filter.nesting ≤ Json.maxDepth →
      (filter.validate = .ok () →
        ofText filter.toText = .ok filter ∧ ofTextOptional filter.toText = .ok (some filter)) ∧
      ∀ violation, filter.validate = .error violation →
        ofText filter.toText = .error (.invalid violation) ∧
          ofTextOptional filter.toText = .error (.invalid violation)) ∧
    (Json.maxDepth < filter.nesting → ∃ failure, failure.category = "syntax" ∧
      ofText filter.toText = .error (.json failure) ∧
        ofTextOptional filter.toText = .error (.json failure)) := by
  obtain ⟨args, stands, nesting, arguments⟩ := exists_presents floats
  rw [← String.toList_ofList (l := filter.toJson.text)] at stands
  have optional : decodeOptional filter.toText = (do return some (← decode filter.toText)) :=
    decodeOptional_eq stands
  constructor
  · intro shallow
    have decoded : decode filter.toText = .ok filter := by
      refine (decode_eq stands).trans (ofDocument_eq_ok.mpr ⟨?_, presents_tagged .whole arguments⟩)
      rwa [nesting]
    have read : ofText filter.toText = checked filter := by
      rw [ofText, decoded]
      rfl
    have readOptional : ofTextOptional filter.toText = (do return some (← checked filter)) := by
      rw [ofTextOptional, optional, decoded]
      rfl
    rw [read, readOptional, checked]
    constructor
    · intro valid
      rw [valid]
      exact ⟨rfl, rfl⟩
    · intro violation broken
      rw [broken]
      exact ⟨rfl, rfl⟩
  · intro deep
    have refused : decode filter.toText = .error .malformed :=
      (decode_eq stands).trans (ofDocument_tagged_of_deep (nesting ▸ deep))
    simp only [ofText, ofTextOptional, optional, refused]
    exact ⟨.malformed, rfl, rfl, rfl⟩

/-- The least integer and a float keep their kinds, and a quote and a line break are escaped. -/
theorem ofText_toText_of_mixed_values :
    FloatsSurvive
        (.isIn "\"\n" [.int (-9223372036854775808), .float (.ofBits 0x3FF8000000000000)]) ∧
      nesting (.isIn "\"\n" [.int (-9223372036854775808), .float (.ofBits 0x3FF8000000000000)]) ≤
        Json.maxDepth ∧
      ofText (toText (.isIn "\"\n"
          [.int (-9223372036854775808), .float (.ofBits 0x3FF8000000000000)])) =
        .ok (.isIn "\"\n" [.int (-9223372036854775808), .float (.ofBits 0x3FF8000000000000)]) := by
  have float : (Value.float (.ofBits 0x3FF8000000000000)).FloatSurvives := by
    rw [Value.FloatSurvives]
    decide +kernel
  have floats : FloatsSurvive
      (.isIn "\"\n" [.int (-9223372036854775808), .float (.ofBits 0x3FF8000000000000)]) :=
    List.forall_mem_cons.mpr ⟨trivial, List.forall_mem_singleton.mpr float⟩
  have shallow : nesting
      (.isIn "\"\n" [.int (-9223372036854775808), .float (.ofBits 0x3FF8000000000000)]) ≤
        Json.maxDepth := by decide
  exact ⟨floats, shallow, (((ofText_toText floats).1 shallow).1 rfl).1⟩

end Filter

end FilterQuery
