import FilterQuery.Proofs.Schema.Entries
import FilterQuery.Proofs.Value.Rereading

/-!
Schemas and metadata sent as JSON text. The text of a schema lists its own entries, whatever its
fields are called, so the schema comes back. The text of metadata lists its own entries when each
value is read back as what it is; a float that is infinite or not a number is written as `null`,
which is no value, so a text with one is refused (`maps_survive_json`).
-/
namespace FilterQuery

open Json (Reader)

namespace Schema

/-- An object that is printed from entries lists them, also if a field occurs twice. -/
theorem lists_object (entries : List (String × FieldType)) :
    Lists (Json.object (entries.map fun entry => (entry.1, .string entry.2.jsonName))).toText
      entries := by
  have each : ∀ entry ∈ entries, ∃ document : Json,
      document.StandsIn (Json.string entry.2.jsonName).text ∧
        FieldType.NamedBy document entry.2 := by
    intro entry _
    exact ⟨_, Json.standsIn_string_text entry.2.jsonName, .name entry.2⟩
  obtain ⟨members, stands, related⟩ := Json.exists_standsIn_object
    (fun type : FieldType => .string type.jsonName)
    (fun type document => FieldType.NamedBy document type) each
  exact ⟨members, stands, related.flip⟩

/-- A schema comes back from its text. -/
theorem ofText_own_text (schema : Schema) : ofText schema.toText = .ok schema :=
  ofText_eq_ok_iff.mpr
    ⟨schema.entries, lists_object schema.entries, (SortedMap.ofList_entries schema).symm⟩

theorem toText_injective {schema other : Schema} (same : schema.toText = other.toText) :
    schema = other := by
  have back := ofText_own_text schema
  rw [same, ofText_own_text other] at back
  exact (Except.ok.inj back).symm

end Schema

namespace Metadata

/-- Metadata comes back from its text if each of its values does from its own. -/
theorem ofText_own_text {metadata : Metadata}
    (survive : ∀ entry ∈ metadata.entries, entry.2.FloatSurvives) :
    ofText metadata.toText = .ok metadata := by
  have reads : ∀ entry ∈ metadata.entries, entry.2.ReadsAs (id entry.2) := by
    intro entry member
    exact (survive entry member).readsAs
  have same : (metadata.entries.map fun entry => (entry.1, id entry.2)) = metadata.entries :=
    List.map_id metadata.entries
  rw [ofText_toText_mapEntries reads, same, SortedMap.ofList_entries]

/-- A document that is not nested stands in the text of any value, and if the value has no text in
JSON, this is `null`. -/
theorem exists_standsIn_flat (value : Value) :
    ∃ json : Json, json.StandsIn value.toJson.text ∧ json.nesting = 0 ∧
      (¬ value.HasText → json = .null) := by
  by_cases written : value.HasText
  · obtain ⟨json, stands, flat, _⟩ := Value.exists_standsIn (Value.readsAs_reread written)
    exact ⟨json, stands, flat, fun absent => absurd written absent⟩
  · have null : value.toJson = .null := by
      cases value with
      | bool | int | string => exact absurd trivial written
      | float x =>
        cases x with
        | nan | infinite => rfl
        | finite => exact absurd trivial written
    exact ⟨.null, null ▸ Json.standsIn_null_text, rfl, fun _ => rfl⟩

/-- A member that is not nested is refused only for not being a scalar. -/
theorem takeMember_of_flat (metadata : Metadata) {member : String × Json}
    (flat : member.2.nesting = 0) :
    takeMember metadata member = .error (.mismatch .notScalar) ∨
      member.2 ≠ .null ∧ ∃ next, takeMember metadata member = .ok next := by
  have inside : Reader.within (Json.maxDepth - 1) member.2 member.2 = .ok member.2 :=
    Reader.within_eq_ok.mpr ⟨flat ▸ Nat.zero_le _, rfl⟩
  unfold takeMember
  rw [inside]
  obtain ⟨name, json⟩ := member
  cases json with
  | null | array | object => exact .inl rfl
  | bool | number | string => exact .inr ⟨nofun, _, rfl⟩

/-- Members with a `null` among them are refused, whatever stands before it. -/
theorem foldlM_takeMember_of_null {members : List (String × Json)}
    (flat : ∀ member ∈ members, member.2.nesting = 0) (null : ∃ member ∈ members, member.2 = .null)
    (metadata : Metadata) :
    members.foldlM takeMember metadata = .error (.mismatch .notScalar) := by
  induction members generalizing metadata with
  | nil =>
    obtain ⟨_, member, _⟩ := null
    exact absurd member List.not_mem_nil
  | cons member members ih =>
    obtain ⟨flatFirst, flatRest⟩ := List.forall_mem_cons.mp flat
    rw [List.foldlM_cons]
    rcases takeMember_of_flat metadata flatFirst with refused | ⟨value, next, taken⟩
    · rw [refused]
      rfl
    · have later : ∃ member ∈ members, member.2 = .null := by
        obtain ⟨other, found, isNull⟩ := null
        rcases List.mem_cons.mp found with rfl | found
        · exact absurd isNull value
        · exact ⟨other, found, isNull⟩
      rw [taken]
      exact ih flatRest later next

/-- Metadata with a value that has no text in JSON does not come back as metadata. -/
theorem ofText_toText_of_not_hasText {metadata : Metadata}
    (lost : ∃ entry ∈ metadata.entries, ¬ entry.2.HasText) :
    ofText metadata.toText = .error (.mismatch .notScalar) := by
  obtain ⟨members, stands, related⟩ := Json.exists_standsIn_object Value.toJson
    (fun value document => document.nesting = 0 ∧ (¬ value.HasText → document = .null))
    fun entry (_ : entry ∈ metadata.entries) => exists_standsIn_flat entry.2
  have flat : ∀ member ∈ members, member.2.nesting = 0 := by
    intro member found
    obtain ⟨_, _, _, flat, _⟩ := exists_of_forall₂ related.flip found
    exact flat
  have null : ∃ member ∈ members, member.2 = .null := by
    obtain ⟨entry, found, absent⟩ := lost
    obtain ⟨member, found, _, _, isNull⟩ := exists_of_forall₂ related found
    exact ⟨member, found, isNull absent⟩
  exact (ofText_of_standsIn stands).trans (foldlM_takeMember_of_null flat null .empty)

end Metadata

/-- A schema comes back from its text, so schemas with the same text are the same. Metadata comes
back if its floats do on their own; if one of them is infinite or not a number, the text is refused
for its data, whatever the other floats are read as. -/
theorem maps_survive_json :
    (∀ schema : Schema, Schema.ofText schema.toText = .ok schema) ∧
    (∀ schema other : Schema, schema.toText = other.toText → schema = other) ∧
    (∀ metadata : Metadata, (∀ entry ∈ metadata.entries, entry.2.FloatSurvives) →
      Metadata.ofText metadata.toText = .ok metadata) ∧
    ∀ metadata : Metadata, (∃ entry ∈ metadata.entries, ¬ entry.2.HasText) →
      ∃ failure, Metadata.ofText metadata.toText = .error failure ∧
        failure = .mismatch .notScalar ∧ failure.category = "data" := by
  refine ⟨Schema.ofText_own_text, ?_, ?_, ?_⟩
  · intro schema other same
    exact Schema.toText_injective same
  · intro metadata survive
    exact Metadata.ofText_own_text survive
  · intro metadata lost
    exact ⟨_, Metadata.ofText_toText_of_not_hasText lost, rfl, rfl⟩

/-- A key that is empty and one that has to be escaped do no harm, two ways of writing one schema
have one text, and a float that is not a number is found after a value that is read. -/
theorem maps_survive_json_with_awkward_keys :
    let schema : Schema := SortedMap.ofList [("\"\n", .text), ("", .numeric)]
    let other : Schema := SortedMap.ofList [("", .tag), ("", .numeric), ("\"\n", .text)]
    let kept : Metadata := SortedMap.ofList
      [("\"\n", .float (.ofBits 0x3FF8000000000000)), ("", .string "\\"), ("é", .int (-7))]
    let lost : Metadata := SortedMap.ofList [("size", .int 1), ("weight", .float .nan)]
    Schema.ofText schema.toText = .ok schema ∧ schema.toText = other.toText ∧ schema = other ∧
      Metadata.ofText kept.toText = .ok kept ∧
      ∃ failure, Metadata.ofText lost.toText = .error failure ∧
        failure = .mismatch .notScalar ∧ failure.category = "data" := by
  intro schema other kept lost
  obtain ⟨returns, oneText, survives, refused⟩ := maps_survive_json
  have alike : schema.toText = other.toText := by decide +kernel
  have half : (Value.float (.ofBits 0x3FF8000000000000)).FloatSurvives := by
    rw [Value.FloatSurvives]
    decide +kernel
  have entries : kept.entries =
      [("", .string "\\"), ("\"\n", .float (.ofBits 0x3FF8000000000000)), ("é", .int (-7))] := by
    decide +kernel
  have survive : ∀ entry ∈ kept.entries, entry.2.FloatSurvives := by
    rw [entries]
    simp only [List.forall_mem_cons]
    exact ⟨trivial, half, trivial, List.forall_mem_nil _⟩
  have last : ("weight", Value.float .nan) ∈ lost.entries := by decide +kernel
  exact ⟨returns schema, alike, oneText schema other alike, survives kept survive,
    refused lost ⟨_, last, not_false⟩⟩

end FilterQuery
