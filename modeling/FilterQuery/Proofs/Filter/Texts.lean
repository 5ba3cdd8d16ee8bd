import FilterQuery.Proofs.Filter.Decoding
import FilterQuery.Proofs.Json.Acceptance

/-!
Texts of filters. A text is decoded into a filter exactly if a document that presents the filter
stands in it (`Filter.decode_eq_ok`). Where `null` may stand for no filter, only the texts that start
like it are read in another way (`Filter.decodeOptional_eq_of_other`), so the two ways to read a
filter give the same filters and blame a text for the same reasons.
-/
namespace FilterQuery

open Json (Failure Reader Spaces)

namespace Json.Reader

variable {α β : Type}

theorem run_byFirst_append {choose : Char → Except Failure (Reader α)} {spaces : List Char}
    (blank : Spaces spaces) (input : List Char) :
    (byFirst choose).run (spaces ++ input) = (byFirst choose).run input := by
  simp only [byFirst, skipSpaces_append blank]

theorem readAll_map (reader : Reader α) (f : α → β) (text : String) :
    (reader.map f).readAll text = (reader.readAll text).map f := by
  rw [readAll, readAll, run_map]
  cases reader.run text.toList with
  | error failure => rfl
  | ok read =>
    dsimp only [Except.map]
    split <;> rfl

end Json.Reader

theorem Operator.consumes_reader : Operator.reader.Consumes Json.WrittenAs := by
  refine Reader.consumes_byFirst fun chosen run => ?_
  split at chosen <;> cases chosen
  case isTrue quote =>
    subst quote
    obtain ⟨s, read, _⟩ := Reader.run_check_eq_ok.mp run
    obtain ⟨spelling, spelled, rfl⟩ := Reader.run_string_eq_ok.mp read
    exact ⟨.string s, _, .string spelled, by simp⟩
  case isFalse => exact absurd run Reader.not_run_refuse

namespace Filter

theorem consumes_membersReader_step (state : Option Operator × List (String × Json))
    (name : String) (reader : Reader (Option Operator × List (String × Json)))
    (chosen : membersReader.step state name = .ok reader) : reader.Consumes Json.WrittenAs := by
  rw [membersReader.step] at chosen
  split at chosen
  · split at chosen <;> cases chosen
    exact Operator.consumes_reader.map _
  · cases chosen
    exact (Reader.consumes_value _).map _

theorem consumes_itemsReader_step (state : Option (Operator × List Json)) :
    (itemsReader.step state).Consumes Json.WrittenAs := by
  cases state with
  | none => exact Operator.consumes_reader.map _
  | some taken => exact (Reader.consumes_value _).map _

/-- What is taken from the front of a text as a filter writes a document. -/
theorem consumes_reader : reader.Consumes Json.WrittenAs := by
  refine Reader.consumes_byFirst fun chosen run => ?_
  split at chosen
  case isTrue opening =>
    cases chosen
    subst opening
    obtain ⟨members, read, _⟩ := Reader.run_check_eq_ok.mp run
    exact Reader.exists_writtenAs_of_object consumes_membersReader_step read
  split at chosen
  case isTrue opening =>
    cases chosen
    subst opening
    obtain ⟨items, read, _⟩ := Reader.run_check_eq_ok.mp run
    exact Reader.exists_writtenAs_of_array consumes_itemsReader_step read
  cases chosen
  exact absurd run Reader.not_run_refuse

/-- A document that presents the filter stands in the text, and is not nested too deep. -/
def StandsIn (filter : Filter) (text : List Char) : Prop :=
  ∃ json : Json, json.StandsIn text ∧ json.nesting ≤ Json.maxDepth ∧ Presents .whole json filter

/-- A text is decoded into the filter that stands in it. -/
theorem decode_eq_ok {text : String} {filter : Filter} :
    decode text = .ok filter ↔ filter.StandsIn text.toList := by
  constructor
  · intro decoded
    obtain ⟨json, stands⟩ := Reader.exists_standsIn consumes_reader decoded
    rw [decode_eq stands, ofDocument_eq_ok] at decoded
    exact ⟨json, stands, decoded⟩
  · rintro ⟨json, stands, presents⟩
    rw [decode_eq stands, ofDocument_eq_ok]
    exact presents

/-- The text is `null`, with white space around it. -/
def NullStandsIn (text : List Char) : Prop :=
  ∃ before after, Spaces before ∧ Spaces after ∧ text = before ++ ['n', 'u', 'l', 'l'] ++ after

theorem run_optionalReader_eq_ok_none {input rest : List Char} :
    optionalReader.run input = .ok (none, rest) ↔
      ∃ before, Spaces before ∧ input = before ++ ['n', 'u', 'l', 'l'] ++ rest := by
  have only {first : Char} {other : Reader (Option Filter)} {tail : List Char}
      (chosen : (if first = 'n' then .ok (.word ['n', 'u', 'l', 'l'] none)
        else .ok (reader.map some)) = (.ok other : Except Failure (Reader (Option Filter))))
      (run : other.run (first :: tail) = .ok (none, rest)) : first = 'n' := by
    split at chosen
    case isTrue isN => exact isN
    cases chosen
    obtain ⟨_, _, impossible⟩ := Reader.run_map_eq_ok.mp run
    cases impossible
  rw [optionalReader, Reader.run_byFirst_eq_ok_of_only rfl (if_pos rfl) only]
  simp only [Reader.run_word_eq_ok, true_and]
  constructor
  · rintro ⟨before, tail, blank, rfl, rfl⟩
    exact ⟨before, blank, by simp⟩
  · rintro ⟨before, blank, rfl⟩
    exact ⟨before, _, blank, by simp, rfl⟩

/-- No filter is decoded exactly where the text is `null`. -/
theorem decodeOptional_eq_ok_none {text : String} :
    decodeOptional text = .ok none ↔ NullStandsIn text.toList := by
  simp only [decodeOptional, Reader.readAll_eq_ok, run_optionalReader_eq_ok_none]
  constructor
  · rintro ⟨after, ⟨before, blank, same⟩, blankAfter⟩
    exact ⟨before, after, blank, blankAfter, same⟩
  · rintro ⟨before, after, blank, blankAfter, same⟩
    exact ⟨after, ⟨before, blank, same⟩, blankAfter⟩

/-- Unless the text starts like `null`, that there may be no filter makes no difference. -/
theorem decodeOptional_eq_of_other {text : String}
    (other : (Json.skipSpaces text.toList).head? ≠ some 'n') :
    decodeOptional text = (decode text).map some := by
  have run : optionalReader.run text.toList = (reader.map some).run text.toList := by
    obtain ⟨spaces, blank, same⟩ := Json.exists_spaces text.toList
    cases first : Json.skipSpaces text.toList with
    | nil =>
      simp only [optionalReader, reader, Reader.map, Reader.check, Reader.byFirst, first]
    | cons c tail =>
      rw [first] at same other
      have notN : c ≠ 'n' := fun isN => other (congrArg some isN)
      rw [same, Reader.run_map, optionalReader, Reader.run_byFirst_append blank, reader,
        Reader.run_byFirst_append blank, ← reader, ← Reader.run_map]
      simp only [Reader.byFirst, Json.skipSpaces_cons (Json.visible_of_skipSpaces first),
        if_neg notN]
  rw [decodeOptional, decode, ← Reader.readAll_map, Reader.readAll, Reader.readAll, run]

/-- A text that starts like `null` is decoded into no filter, whether there may be none or not. -/
theorem decode_ne_ok {text : String} (isN : (Json.skipSpaces text.toList).head? = some 'n')
    (filter : Filter) : decode text ≠ .ok filter ∧ decodeOptional text ≠ .ok (some filter) := by
  obtain ⟨spaces, blank, same⟩ := Json.exists_spaces text.toList
  obtain ⟨tail, first⟩ := List.head?_eq_some_iff.mp isN
  rw [first] at same
  constructor
  · intro decoded
    obtain ⟨rest, run, _⟩ := Reader.readAll_eq_ok.mp decoded
    rw [same, reader, Reader.run_byFirst blank rfl] at run
    exact Reader.not_run_refuse run
  · intro decoded
    obtain ⟨rest, run, _⟩ := Reader.readAll_eq_ok.mp decoded
    rw [same, optionalReader, Reader.run_byFirst blank rfl] at run
    obtain ⟨impossible, _⟩ := Reader.run_word_eq_ok.mp run
    cases impossible

theorem checked_eq_ok {filter filter' : Filter} :
    checked filter = .ok filter' ↔ filter.validate = .ok () ∧ filter = filter' := by
  rw [checked]
  cases filter.validate <;> simp [Except.mapError, bind, Except.bind, pure, Except.pure]

theorem checked_eq_error {filter : Filter} {error : ReadError} :
    checked filter = .error error ↔
      ∃ violation, filter.validate = .error violation ∧ error = .invalid violation := by
  rw [checked]
  cases filter.validate <;> simp [Except.mapError, bind, Except.bind, pure, Except.pure, eq_comm]

theorem ofText_eq_ok {text : String} {filter : Filter} :
    ofText text = .ok filter ↔ filter.StandsIn text.toList ∧ filter.validate = .ok () := by
  rw [← decode_eq_ok, ofText]
  cases decode text with
  | error failure => simp [Except.mapError, bind, Except.bind]
  | ok decoded =>
    refine checked_eq_ok.trans ?_
    rw [Except.ok.injEq, and_comm]
    exact and_congr_right fun same => by rw [same]

theorem ofText_eq_invalid {text : String} {violation : Violation} :
    ofText text = .error (.invalid violation) ↔
      ∃ filter : Filter, filter.StandsIn text.toList ∧ filter.validate = .error violation := by
  simp only [← decode_eq_ok, ofText]
  cases decode text with
  | error failure => simp [Except.mapError, bind, Except.bind]
  | ok decoded =>
    refine checked_eq_error.trans ?_
    simp only [ReadError.invalid.injEq, exists_eq_right', Except.ok.injEq, exists_eq_left']

theorem ofTextOptional_eq_ok_none {text : String} :
    ofTextOptional text = .ok none ↔ NullStandsIn text.toList := by
  rw [← decodeOptional_eq_ok_none, ofTextOptional]
  rcases decodeOptional text with failure | _ | decoded
  · simp [Except.mapError, bind, Except.bind]
  · exact iff_of_true rfl rfl
  · dsimp only [Except.mapError, bind, Except.bind]
    cases checked decoded <;> simp [pure, Except.pure]

theorem ofTextOptional_eq_of_other {text : String}
    (other : (Json.skipSpaces text.toList).head? ≠ some 'n') :
    ofTextOptional text = (ofText text).map some := by
  rw [ofTextOptional, decodeOptional_eq_of_other other, ofText]
  cases decode text <;> rfl

/-- What starts like `null` is refused as a text of a filter; where there may be none, it is `null`
or refused. -/
theorem refused_of_null_start {text : String}
    (isN : (Json.skipSpaces text.toList).head? = some 'n') :
    (∃ failure, ofText text = .error (.json failure)) ∧
      (ofTextOptional text = .ok none ∨ ∃ failure, ofTextOptional text = .error (.json failure)) := by
  have refused := decode_ne_ok isN
  rw [ofText, ofTextOptional]
  constructor
  · cases decoded : decode text with
    | error failure => exact ⟨failure, rfl⟩
    | ok filter => exact absurd decoded (refused filter).1
  · rcases decoded : decodeOptional text with failure | _ | filter
    · exact .inr ⟨failure, rfl⟩
    · exact .inl rfl
    · exact absurd decoded (refused filter).2

theorem ofTextOptional_eq_ok_some {text : String} {filter : Filter} :
    ofTextOptional text = .ok (some filter) ↔ ofText text = .ok filter := by
  by_cases isN : (Json.skipSpaces text.toList).head? = some 'n'
  · obtain ⟨⟨_, strict⟩, optional | ⟨_, optional⟩⟩ := refused_of_null_start isN <;>
      simp [strict, optional]
  · rw [ofTextOptional_eq_of_other isN]
    cases ofText text <;> simp [Except.map]

theorem ofTextOptional_eq_invalid {text : String} {violation : Violation} :
    ofTextOptional text = .error (.invalid violation) ↔
      ofText text = .error (.invalid violation) := by
  by_cases isN : (Json.skipSpaces text.toList).head? = some 'n'
  · obtain ⟨⟨_, strict⟩, optional | ⟨_, optional⟩⟩ := refused_of_null_start isN <;>
      simp [strict, optional]
  · rw [ofTextOptional_eq_of_other isN]
    cases ofText text <;> simp [Except.map]

/-- The two ways to read a filter, with and without `null` for none, give the same filters. These
are valid, and stand in the text. A broken rule is reported only of a filter that stands in the text,
so any other fault of the text is reported before it. Only what starts like `null` is refused
differently. -/
theorem ofText_agrees_with_ofTextOptional (text : String) :
    (∀ filter, ofText text = .ok filter ↔ ofTextOptional text = .ok (some filter)) ∧
      (ofTextOptional text = .ok none ↔ NullStandsIn text.toList) ∧
      ((Json.skipSpaces text.toList).head? ≠ some 'n' →
        ∀ error, ofText text = .error error ↔ ofTextOptional text = .error error) ∧
      (∀ filter, ofText text = .ok filter ↔
        filter.StandsIn text.toList ∧ filter.validate = .ok ()) ∧
      (∀ violation, (ofText text = .error (.invalid violation) ↔
          ∃ filter : Filter, filter.StandsIn text.toList ∧ filter.validate = .error violation) ∧
        (ofTextOptional text = .error (.invalid violation) ↔
          ∃ filter : Filter, filter.StandsIn text.toList ∧ filter.validate = .error violation)) ∧
      ∀ failure, (decode text = .error failure → ofText text = .error (.json failure)) ∧
        (decodeOptional text = .error failure → ofTextOptional text = .error (.json failure)) := by
  refine ⟨fun _ => ofTextOptional_eq_ok_some.symm, ofTextOptional_eq_ok_none, fun other error => ?_,
    fun _ => ofText_eq_ok, fun violation => ⟨ofText_eq_invalid, ?_⟩,
    fun failure => ⟨fun refused => ?_, fun refused => ?_⟩⟩
  · rw [ofTextOptional_eq_of_other other]
    cases ofText text <;> simp [Except.map]
  · exact ofTextOptional_eq_invalid.trans ofText_eq_invalid
  · rw [ofText, refused]
    rfl
  · rw [ofTextOptional, refused]
    rfl

/-- A filter without values is blamed for this either way, `null` is no filter where there may be
none, and a text that ends too early is refused as such, either way. -/
theorem ofText_agrees_on_three :
    let text := "\x7b\"op\":\"in\",\"key\":\"tag\",\"values\":[]\x7d"
    (Json.skipSpaces text.toList).head? ≠ some 'n' ∧
      ofText text = .error (.invalid (.emptyValues "tag")) ∧
      ofTextOptional text = .error (.invalid (.emptyValues "tag")) ∧
      ofTextOptional " null\n" = .ok none ∧
      decode "" = .error .ended ∧ ofText "" = .error (.json .ended) ∧
      decodeOptional "" = .error .ended ∧ ofTextOptional "" = .error (.json .ended) := by
  intro text
  let members : List (String × Json) :=
    [("op", .string "in"), ("key", .string "tag"), ("values", .array [])]
  have written : (Json.object members).StandsIn (Json.object members).text :=
    Json.standsIn_object_text ["op", "key", "values"]
      (.cons (Json.standsIn_string_text "in") (.cons (Json.standsIn_string_text "tag")
        (.cons (Json.standsIn_array_text .nil) .nil)))
  have presents : Presents .whole (.object members) (.isIn "tag" []) :=
    .object rfl (.name .whole (.membership .isIn)) (.cons rfl (.cons rfl .nil)) (.among .nil)
  have same : (Json.object members).text = text.toList := by decide
  have stands : (Filter.isIn "tag" []).StandsIn text.toList :=
    ⟨_, same ▸ written, by decide, presents⟩
  have other : (Json.skipSpaces text.toList).head? ≠ some 'n' := by decide
  obtain ⟨_, _, alike, _, blamed, _⟩ := ofText_agrees_with_ofTextOptional text
  have invalid := (blamed (.emptyValues "tag")).1.mpr ⟨_, stands, rfl⟩
  obtain ⟨_, null, _, _, _, _⟩ := ofText_agrees_with_ofTextOptional " null\n"
  obtain ⟨_, _, _, _, _, refused⟩ := ofText_agrees_with_ofTextOptional ""
  refine ⟨other, invalid, (alike other _).mp invalid, ?_, rfl, (refused .ended).1 rfl, rfl,
    (refused .ended).2 rfl⟩
  exact null.mpr ⟨[' '], ['\n'], by simp [Spaces, Json.isSpace], by simp [Spaces, Json.isSpace], rfl⟩

end Filter

end FilterQuery
