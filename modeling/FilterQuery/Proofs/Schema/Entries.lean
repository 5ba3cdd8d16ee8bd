import FilterQuery.Proofs.Json.Soundness
import FilterQuery.Proofs.SortedMap
import FilterQuery.Schema.Json
import Mathlib.Data.List.Forall2

/-!
Which texts are schemas. A text lists entries when it is an object whose members name the types of
the entries, in order. Exactly the texts that list entries are decoded, and the schema is what the
entries come to when they are written one after the other (`Schema.ofText_eq_ok_iff`).
-/
namespace FilterQuery

open Json (Failure Reader Spaces Spelling Enclosed Listed MemberText)

/-- The document names the type: by its JSON name, or as an object whose only member has this name
and the value `null`. -/
inductive FieldType.NamedBy : Json → FieldType → Prop
  | name (type : FieldType) : NamedBy (.string type.jsonName) type
  | tagged (type : FieldType) : NamedBy (.object [(type.jsonName, .null)]) type

/-- The member registers the field of the entry with its type. -/
def Schema.Registers (member : String × Json) (entry : String × FieldType) : Prop :=
  member.1 = entry.1 ∧ FieldType.NamedBy member.2 entry.2

/-- The text is an object whose members register the entries, in order. -/
def Schema.Lists (text : String) (entries : List (String × FieldType)) : Prop :=
  ∃ members, (Json.object members).StandsIn text.toList ∧
    List.Forall₂ Schema.Registers members entries

namespace FieldType

theorem ofJsonName?_eq_some {name : String} {type : FieldType} :
    ofJsonName? name = some type ↔ name = type.jsonName := by
  unfold ofJsonName?
  constructor
  · intro some
    have same := List.find?_some some
    rw [decide_eq_true_eq] at same
    exact same.symm
  · rintro rfl
    cases type <;> decide

theorem ofJsonName_eq_ok {name : String} {type : FieldType} :
    ofJsonName name = .ok type ↔ name = type.jsonName := by
  rw [← ofJsonName?_eq_some]
  unfold ofJsonName
  cases ofJsonName? name <;> simp

theorem run_nameReader_eq_ok {input rest : List Char} {type : FieldType} :
    nameReader.run ('"' :: input) = .ok (type, rest) ↔
      ∃ spelling, Spelling type.jsonName.toList spelling ∧ input = spelling ++ '"' :: rest := by
  unfold nameReader
  rw [Reader.run_check_eq_ok]
  simp only [Json.mapError_eq_ok, ofJsonName_eq_ok, Reader.run_string_eq_ok]
  constructor
  · rintro ⟨name, ⟨spelling, spelled, rfl⟩, rfl⟩
    exact ⟨spelling, spelled, rfl⟩
  · rintro ⟨spelling, spelled, rfl⟩
    exact ⟨_, ⟨spelling, spelled, rfl⟩, rfl⟩

/-- What stands between the braces of an object whose only member is `null`. -/
theorem enclosed_null_iff {name : String} {text : List Char} :
    Enclosed (MemberText Json.WrittenAs) [(name, .null)] text ↔
      ∃ first spelling second third last, Spaces first ∧ Spelling name.toList spelling ∧
        Spaces second ∧ Spaces third ∧ Spaces last ∧
        text = first ++ ('"' :: spelling ++ '"' :: second ++ ':' :: third ++
          ['n', 'u', 'l', 'l']) ++ last := by
  constructor
  · intro enclosed
    cases enclosed with
    | listed listed =>
      cases listed with
      | last blankFirst member blankLast =>
        cases member with
        | mk spelled blankSecond blankThird written =>
          cases written
          exact ⟨_, _, _, _, _, blankFirst, spelled, blankSecond, blankThird, blankLast, rfl⟩
      | cons _ _ _ more => cases more
  · rintro ⟨first, spelling, second, third, last, blankFirst, spelled, blankSecond, blankThird,
      blankLast, rfl⟩
    exact .listed (.last blankFirst (.mk spelled blankSecond blankThird .null) blankLast)

theorem run_quotedName_eq_ok {input rest : List Char} {type : FieldType} :
    (Reader.byFirst fun first =>
        if first = '"' then .ok nameReader else .error .malformed).run input = .ok (type, rest) ↔
      ∃ spaces spelling, Spaces spaces ∧ Spelling type.jsonName.toList spelling ∧
        input = spaces ++ '"' :: (spelling ++ '"' :: rest) := by
  rw [Reader.run_byFirst_eq_ok_of_only rfl (if_pos rfl) fun chosen _ =>
    Reader.first_eq_of_ite chosen]
  simp only [run_nameReader_eq_ok]
  constructor
  · rintro ⟨spaces, tail, blank, rfl, spelling, spelled, rfl⟩
    exact ⟨spaces, spelling, blank, spelled, rfl⟩
  · rintro ⟨spaces, spelling, blank, spelled, rfl⟩
    exact ⟨spaces, _, blank, rfl, spelling, spelled, rfl⟩

theorem run_unit_eq_ok {input rest : List Char} :
    (Reader.byFirst fun first =>
        if first = 'n' then .ok (.word ['n', 'u', 'l', 'l'] ()) else .ok (.refuse "unit")).run input =
        .ok ((), rest) ↔
      ∃ spaces, Spaces spaces ∧ input = spaces ++ 'n' :: (['u', 'l', 'l'] ++ rest) := by
  rw [Reader.run_byFirst_eq_ok_of_only rfl (if_pos rfl)]
  · simp only [Reader.run_word_eq_ok, true_and]
    constructor
    · rintro ⟨spaces, tail, blank, rfl, rfl⟩
      exact ⟨spaces, blank, rfl⟩
    · rintro ⟨spaces, blank, rfl⟩
      exact ⟨spaces, _, blank, rfl, rfl⟩
  · intro first other tail chosen run
    split at chosen
    · assumption
    · obtain rfl := Except.ok.inj chosen
      exact absurd run Reader.not_run_refuse

theorem run_taggedReader_eq_ok {input rest : List Char} {type : FieldType} :
    taggedReader.run ('\x7b' :: input) = .ok (type, rest) ↔
      ∃ text, Enclosed (MemberText Json.WrittenAs) [(type.jsonName, .null)] text ∧
        input = text ++ '\x7d' :: rest := by
  rw [taggedReader]
  constructor
  · intro run
    obtain ⟨_, afterBrace, opened, run⟩ := Reader.run_andThen_eq_ok.mp run
    obtain ⟨_, rfl⟩ := Prod.mk.inj (Except.ok.inj opened)
    obtain ⟨named, afterName, name, run⟩ := Reader.run_andThen_eq_ok.mp run
    obtain ⟨_, afterColon, colon, run⟩ := Reader.run_andThen_eq_ok.mp run
    obtain ⟨_, afterUnit, unit, run⟩ := Reader.run_andThen_eq_ok.mp run
    obtain ⟨_, closed, rfl⟩ := Reader.run_map_eq_ok.mp run
    obtain ⟨first, spelling, blankFirst, spelled, rfl⟩ := run_quotedName_eq_ok.mp name
    obtain ⟨second, blankSecond, rfl⟩ := (Reader.run_symbol_eq_ok rfl).mp colon
    obtain ⟨third, blankThird, rfl⟩ := run_unit_eq_ok.mp unit
    obtain ⟨last, blankLast, rfl⟩ := (Reader.run_symbol_eq_ok rfl).mp closed
    refine ⟨_, enclosed_null_iff.mpr ⟨first, spelling, second, third, last, blankFirst, spelled,
      blankSecond, blankThird, blankLast, rfl⟩, by simp⟩
  · rintro ⟨text, enclosed, rfl⟩
    obtain ⟨first, spelling, second, third, last, blankFirst, spelled, blankSecond, blankThird,
      blankLast, rfl⟩ := enclosed_null_iff.mp enclosed
    refine Reader.run_andThen_eq_ok.mpr ⟨(), _, rfl, ?_⟩
    refine Reader.run_andThen_eq_ok.mpr ⟨type, _,
      run_quotedName_eq_ok.mpr ⟨first, spelling, blankFirst, spelled, by simp; rfl⟩, ?_⟩
    refine Reader.run_andThen_eq_ok.mpr ⟨(), _,
      (Reader.run_symbol_eq_ok rfl).mpr ⟨second, blankSecond, rfl⟩, ?_⟩
    refine Reader.run_andThen_eq_ok.mpr ⟨(), _,
      run_unit_eq_ok.mpr ⟨third, blankThird, rfl⟩, ?_⟩
    exact Reader.run_map_eq_ok.mpr ⟨(),
      (Reader.run_symbol_eq_ok rfl).mpr ⟨last, blankLast, rfl⟩, rfl⟩

/-- The reader of types takes a document that names the type. -/
theorem run_reader_eq_ok {input rest : List Char} {type : FieldType} :
    reader.run input = .ok (type, rest) ↔
      ∃ json spaces written, NamedBy json type ∧ Spaces spaces ∧ json.WrittenAs written ∧
        input = spaces ++ written ++ rest := by
  unfold reader
  rw [Reader.run_byFirst_eq_ok]
  constructor
  · rintro ⟨spaces, c, tail, chosen, blank, _, rfl, same, run⟩
    by_cases quote : c = '"'
    · subst quote
      obtain rfl := Except.ok.inj same
      obtain ⟨spelling, spelled, rfl⟩ := run_nameReader_eq_ok.mp run
      exact ⟨_, spaces, _, .name type, blank, .string spelled, by simp⟩
    rw [if_neg quote] at same
    by_cases brace : c = '\x7b'
    · subst brace
      obtain rfl := Except.ok.inj same
      obtain ⟨text, enclosed, rfl⟩ := run_taggedReader_eq_ok.mp run
      exact ⟨_, spaces, _, .tagged type, blank, .object enclosed, by simp⟩
    rw [if_neg brace] at same
    contradiction
  · rintro ⟨json, spaces, written, named, blank, writtenAs, rfl⟩
    cases named with
    | name =>
      cases writtenAs with
      | string spelled =>
        exact ⟨spaces, '"', _, nameReader, blank, rfl, by simp, rfl,
          run_nameReader_eq_ok.mpr ⟨_, spelled, rfl⟩⟩
    | tagged =>
      cases writtenAs with
      | object enclosed =>
        exact ⟨spaces, '\x7b', _, taggedReader, blank, rfl, by simp, rfl,
          run_taggedReader_eq_ok.mpr ⟨_, enclosed, rfl⟩⟩

end FieldType

namespace Schema

/-- The text of a member that registers the entry. -/
def EntryText (entry : String × FieldType) (text : List Char) : Prop :=
  ∃ member, Registers member entry ∧ MemberText Json.WrittenAs member text

/-- The reader of the members of a schema. -/
def memberReader (schema : Schema) : Reader Schema :=
  Reader.member fun name => .ok (FieldType.reader.map (schema.insert name))

theorem takes_memberReader (schema : Schema) :
    (memberReader schema).Takes EntryText fun entry => schema.insert entry.1 entry.2 := by
  intro input result rest run
  obtain ⟨name, reader, spaces, spelling, before, tail, blank, spelled, blankBefore, chosen, run,
    rfl⟩ := Reader.exists_of_run_member run
  obtain rfl := Except.ok.inj chosen
  obtain ⟨type, read, rfl⟩ := Reader.run_map_eq_ok.mp run
  obtain ⟨json, after, written, named, blankAfter, writtenAs, rfl⟩ :=
    FieldType.run_reader_eq_ok.mp read
  exact ⟨(name, type), spaces, _, blank,
    ⟨(name, json), ⟨rfl, named⟩, .mk spelled blankBefore blankAfter writtenAs⟩, by simp, rfl⟩

theorem reads_memberReader (schema : Schema) {entry : String × FieldType} {text : List Char}
    (written : EntryText entry text) :
    (memberReader schema).Reads text (.ok (schema.insert entry.1 entry.2)) := by
  obtain ⟨⟨name, json⟩, ⟨same, named⟩, member⟩ := written
  subst same
  refine Reader.reads_member ?_ member
  intro written writtenAs spaces rest blank _
  exact Reader.run_map_eq_ok.mpr ⟨entry.2,
    FieldType.run_reader_eq_ok.mpr ⟨json, spaces, written, named, blank, writtenAs, rfl⟩, rfl⟩

theorem run_object_eq_ok {input rest : List Char} {schema : Schema} :
    (Reader.bracketed '\x7d' memberReader .empty).run ('\x7b' :: input) = .ok (schema, rest) ↔
      ∃ entries text, Enclosed EntryText entries text ∧ input = text ++ '\x7d' :: rest ∧
        schema = SortedMap.ofList entries := by
  constructor
  · exact Reader.exists_enclosed_of_bracketed takes_memberReader
  · rintro ⟨entries, text, enclosed, rfl, rfl⟩
    have starts : ∀ entry ∈ entries, ∀ text, EntryText entry text → Json.Starts '\x7d' text := by
      rintro entry _ text ⟨member, _, written⟩
      exact written.starts (.inr rfl)
    have run := Reader.run_bracketed (.inr rfl) starts
      (fun entry _ text written schema => reads_memberReader schema written) enclosed '\x7b' .empty
      rest
    rw [List.cons_append, List.append_assoc, List.singleton_append] at run
    rw [run]
    have folded : entries.foldlM (m := Except Failure)
        (fun schema entry => .ok (SortedMap.insert schema entry.1 entry.2)) SortedMap.empty =
          .ok (SortedMap.ofList entries) := List.foldlM_pure
    rw [folded]
    rfl

theorem run_reader_eq_ok {input rest : List Char} {schema : Schema} :
    reader.run input = .ok (schema, rest) ↔
      ∃ entries spaces text, Spaces spaces ∧ Enclosed EntryText entries text ∧
        input = spaces ++ '\x7b' :: (text ++ '\x7d' :: rest) ∧
        schema = SortedMap.ofList entries := by
  unfold reader Reader.objectOnly
  rw [Reader.run_byFirst_eq_ok_of_only rfl (congrArg _ (if_pos rfl))]
  · constructor
    · rintro ⟨spaces, tail, blank, rfl, run⟩
      obtain ⟨entries, text, enclosed, rfl, same⟩ := run_object_eq_ok.mp run
      exact ⟨entries, spaces, text, blank, enclosed, rfl, same⟩
    · rintro ⟨entries, spaces, text, blank, enclosed, rfl, same⟩
      exact ⟨spaces, _, blank, rfl, run_object_eq_ok.mpr ⟨entries, text, enclosed, rfl, same⟩⟩
  · intro first other tail chosen run
    obtain rfl := Except.ok.inj chosen
    by_contra notBrace
    rw [if_neg notBrace] at run
    exact Reader.not_run_refuse run

theorem lists_iff {text : String} {entries : List (String × FieldType)} :
    Lists text entries ↔
      ∃ before inside after, Spaces before ∧ Enclosed EntryText entries inside ∧ Spaces after ∧
        text.toList = before ++ '\x7b' :: (inside ++ '\x7d' :: after) := by
  have related := @Json.enclosed_iff_exists_forall₂ _ _ EntryText (MemberText Json.WrittenAs)
    Registers (fun _ _ => Iff.rfl) entries
  constructor
  · rintro ⟨members, ⟨before, written, after, blank, writtenAs, blankAfter, same⟩, registers⟩
    cases writtenAs with
    | object enclosed =>
      exact ⟨before, _, after, blank, related.mpr ⟨members, registers, enclosed⟩, blankAfter,
        by simpa using same⟩
  · rintro ⟨before, inside, after, blank, enclosed, blankAfter, same⟩
    obtain ⟨members, registers, enclosed⟩ := related.mp enclosed
    exact ⟨members, ⟨before, _, after, blank, .object enclosed, blankAfter, by simpa using same⟩,
      registers⟩

/-- Exactly the texts that list entries are read as a schema, and the last entry for a field counts.
-/
theorem ofText_eq_ok_iff {text : String} {schema : Schema} :
    ofText text = .ok schema ↔
      ∃ entries, Lists text entries ∧ schema = SortedMap.ofList entries := by
  unfold ofText
  simp only [Reader.readAll_eq_ok, run_reader_eq_ok, lists_iff]
  constructor
  · rintro ⟨after, ⟨entries, before, inside, blank, enclosed, same, rfl⟩, blankAfter⟩
    exact ⟨entries, ⟨before, inside, after, blank, enclosed, blankAfter, same⟩, rfl⟩
  · rintro ⟨entries, ⟨before, inside, after, blank, enclosed, blankAfter, same⟩, rfl⟩
    exact ⟨after, ⟨entries, before, inside, blank, enclosed, same, rfl⟩, blankAfter⟩

end Schema

end FilterQuery
