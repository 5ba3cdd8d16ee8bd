import FilterQuery.Proofs.Cli.Runs
import FilterQuery.Proofs.Metadata.Transport
import FilterQuery.Proofs.Text.Encoding

/-!
Schemas and metadata as what has been written. However a map comes about, the pairs written so far
determine it (`SortedMap.BuiltBy.eq_ofList`), and it remembers the last pair of each key and nothing
else (`SortedMap.remembers_ofList`). Loading a schema with declared fields is one such way
(`maps_remember_last_writes`).
-/
namespace FilterQuery

namespace SortedMap

/-- How a map comes about: it starts out empty, from a list of pairs or from a text that lists
pairs, and then keys are written, with or without an answer. The list holds all pairs that have been
written, in order. -/
inductive BuiltBy {α : Type} (lists : String → List (String × α) → Prop)
    (decode : String → Except Json.Failure (SortedMap α)) :
    List (String × α) → SortedMap α → Prop
  | new : BuiltBy lists decode [] empty
  | collected (pairs : List (String × α)) : BuiltBy lists decode pairs (collect pairs)
  | decoded {text : String} {pairs : List (String × α)} {map : SortedMap α} :
      lists text pairs → decode text = .ok map → BuiltBy lists decode pairs map
  | replaced {writes : List (String × α)} {map : SortedMap α} (key : String) (value : α) :
      BuiltBy lists decode writes map →
      BuiltBy lists decode (writes ++ [(key, value)]) (map.replace key value).2
  | inserted {writes : List (String × α)} {map : SortedMap α} (key : String) (value : α) :
      BuiltBy lists decode writes map →
      BuiltBy lists decode (writes ++ [(key, value)]) (map.insert key value)

variable {α : Type} {lists : String → List (String × α) → Prop}
  {decode : String → Except Json.Failure (SortedMap α)} {writes : List (String × α)}
  {map : SortedMap α} {key : String} {value : α}

theorem BuiltBy.insertAll (built : BuiltBy lists decode writes map) (pairs : List (String × α)) :
    BuiltBy lists decode (writes ++ pairs) (map.insertAll pairs) := by
  induction pairs generalizing writes map with
  | nil => rwa [List.append_nil]
  | cons pair pairs ih =>
    -- The first pair is the last of what has been written when the others follow.
    obtain ⟨key, value⟩ := pair
    have next := ih (built.inserted key value)
    rwa [List.append_assoc] at next

/-- A map is determined by what has been written. -/
theorem BuiltBy.eq_ofList (built : BuiltBy lists decode writes map)
    (decodes : ∀ text pairs, lists text pairs → decode text = .ok (collect pairs)) :
    map = ofList writes := by
  induction built with
  | new => rfl
  | collected pairs => exact collect_eq pairs
  | @decoded text pairs map listed read =>
    rw [decodes text pairs listed, collect_eq] at read
    exact (Except.ok.inj read).symm
  | replaced key value _ ih => rw [replace_snd, ih, ofList_concat]
  | inserted key value _ ih => rw [ih, ofList_concat]

/-- What a map tells is what the last write of each key says: its look-ups, the answers of further
writes and what these leave alone, the entries in the order of the bytes of their keys, and how many
they are. -/
structure Remembers (writes : List (String × α)) (map : SortedMap α) : Prop where
  present : ∀ key value, map.get? key = some value ↔ LastWritten writes key value
  absent : ∀ key, map.get? key = none ↔ key ∉ writes.map Prod.fst
  contains : ∀ key, map.contains key = true ↔ ∃ value, map.get? key = some value
  answer : ∀ key value, (map.replace key value).1 = map.get? key
  write : ∀ key value other, (map.replace key value).2.get? other =
    if other = key then some value else map.get? other
  quietly : ∀ key value, map.insert key value = (map.replace key value).2
  listed : ∀ key value, (key, value) ∈ map.entries ↔ map.get? key = some value
  once : ∀ key, map.contains key = true → (map.entries.map Prod.fst).count key = 1
  ascending : map.entries.Pairwise fun a b =>
    Text.Utf8.encode a.1.toList < Text.Utf8.encode b.1.toList
  size : map.size = (writes.map Prod.fst).dedup.length
  isEmpty : map.isEmpty = true ↔ map.size = 0

theorem contains_eq_true : map.contains key = true ↔ ∃ value, map.get? key = some value :=
  Option.isSome_iff_exists

theorem get?_replace (map : SortedMap α) (key other : String) (value : α) :
    (map.replace key value).2.get? other = if other = key then some value else map.get? other := by
  rw [replace_snd, get?_insert]
  by_cases same : other = key
  · rw [if_pos same, if_pos same.symm]
  · rw [if_neg same, if_neg (Ne.symm same)]

theorem count_keys (present : map.contains key = true) :
    (map.entries.map Prod.fst).count key = 1 := by
  have member : key ∈ map.entries.map Prod.fst := mem_keys.mpr (contains_eq_true.mp present)
  exact List.count_eq_one_of_mem map.nodup_keys member

/-- The order of the keys is that of their bytes. -/
theorem ascending_bytes (map : SortedMap α) : map.entries.Pairwise fun a b =>
    Text.Utf8.encode a.1.toList < Text.Utf8.encode b.1.toList := by
  refine map.ascending.imp ?_
  intro a b before
  exact Text.Utf8.encode_lt_encode.mpr before

theorem remembers_ofList (writes : List (String × α)) : Remembers writes (ofList writes) where
  present _ _ := get?_ofList_eq_some
  absent _ := get?_ofList_eq_none
  contains _ := contains_eq_true
  answer := replace_fst _
  write key value other := get?_replace _ key other value
  quietly key value := (replace_snd _ key value).symm
  listed _ _ := get?_eq_some.symm
  once _ := count_keys
  ascending := ascending_bytes _
  size := size_ofList writes
  isEmpty := by rw [isEmpty, SortedMap.size, List.isEmpty_iff, List.length_eq_zero_iff]

theorem BuiltBy.remembers (built : BuiltBy lists decode writes map)
    (decodes : ∀ text pairs, lists text pairs → decode text = .ok (collect pairs)) :
    map.Remembers writes :=
  built.eq_ofList decodes ▸ remembers_ofList writes

end SortedMap

def Schema.Built : List (String × FieldType) → Schema → Prop := SortedMap.BuiltBy Lists ofText

def Metadata.Built : List (String × Value) → Metadata → Prop := SortedMap.BuiltBy Lists ofText

theorem Schema.ofText_of_lists {text : String} {entries : List (String × FieldType)}
    (lists : Lists text entries) : ofText text = .ok (SortedMap.collect entries) :=
  ofText_eq_ok_iff.mpr ⟨entries, lists, SortedMap.collect_eq entries⟩

theorem Metadata.ofText_of_lists {text : String} {entries : List (String × Value)}
    (lists : Lists text entries) : ofText text = .ok (SortedMap.collect entries) :=
  ofText_eq_ok_iff.mpr ⟨entries, lists, SortedMap.collect_eq entries⟩

/-- A schema that is loaded has the entries of its file, if there is one, and then the declared
fields written into it. -/
theorem Cli.exists_built {disk : Disk} {path : Option String}
    {entries : List (String × FieldType)} (load : SchemaLoad disk path (.ok entries))
    (declarations : List (String × FieldType)) :
    ∃ schema, loadSchema disk path declarations = .ok schema ∧
      Schema.Built (entries ++ declarations) schema := by
  refine ⟨_, loadSchema_of_schemaLoad load declarations, ?_⟩
  refine SortedMap.BuiltBy.insertAll ?_ declarations
  cases load with
  | absent => exact .new
  | listed read lists =>
    rw [← SortedMap.collect_eq]
    exact .decoded lists (Schema.ofText_of_lists lists)

/-- Schemas and metadata remember the last write of each key, however they come about, and are equal
exactly if they answer alike for every key. A text with a repeated key, a list of its pairs and its
pairs one by one come to the same map, and so do the entries of a file with declared fields over
them. -/
theorem maps_remember_last_writes :
    (∀ writes schema, Schema.Built writes schema → schema.Remembers writes) ∧
    (∀ writes metadata, Metadata.Built writes metadata → metadata.Remembers writes) ∧
    (∀ a b : Schema, a = b ↔ ∀ key, a.get? key = b.get? key) ∧
    (∀ a b : Metadata, a.same b = true ↔
      ∀ key, Option.Rel (fun x y => x.same y = true) (a.get? key) (b.get? key)) ∧
    (∀ text entries, Schema.Lists text entries →
      Schema.ofText text = .ok (SortedMap.collect entries)) ∧
    (∀ text entries, Metadata.Lists text entries →
      Metadata.ofText text = .ok (SortedMap.collect entries)) ∧
    (∀ {α : Type} (pairs : List (String × α)), SortedMap.collect pairs =
      pairs.foldl (fun map pair => (map.replace pair.1 pair.2).2) SortedMap.empty) ∧
    ∀ disk path entries declarations, Cli.SchemaLoad disk path (.ok entries) →
      ∃ schema, Cli.loadSchema disk path declarations = .ok schema ∧
        Schema.Built (entries ++ declarations) schema := by
  refine ⟨?_, ?_, ?_, ?_, ?_, ?_, ?_, ?_⟩
  · intro writes schema built
    exact built.remembers fun _ _ => Schema.ofText_of_lists
  · intro writes metadata built
    exact built.remembers fun _ _ => Metadata.ofText_of_lists
  · intro a b
    exact ⟨fun same key => same ▸ rfl, SortedMap.ext_get?⟩
  · intro a b
    exact SortedMap.agrees_eq_true
  · intro text entries lists
    exact Schema.ofText_of_lists lists
  · intro text entries lists
    exact Metadata.ofText_of_lists lists
  · intro α pairs
    simp only [SortedMap.replace_snd]
    exact SortedMap.collect_eq pairs
  · intro disk path entries declarations load
    exact Cli.exists_built load declarations

/-- A file has a field twice, and another field of it is declared once more; a key of metadata is
written after a list with a repeated key. -/
theorem maps_remember_last_writes_of_repeated_keys :
    let text := "\x7b\"price\":\"tag\",\"title\":\"text\",\"price\":\"numeric\"\x7d"
    let entries : List (String × FieldType) :=
      [("price", .tag), ("title", .text), ("price", .numeric)]
    let disk : Disk := fun _ => .ok [.chunk (Text.Utf8.encode text.toList)]
    let pairs : List (String × Value) := [("b", .int 2), ("a", .int 1), ("b", .bool true)]
    let metadata : Metadata := ((SortedMap.collect pairs).replace "a" (.string "")).2
    let source := "\x7b\"b\":2,\"a\":1,\"b\":true\x7d"
    Schema.ofText text = .ok (SortedMap.collect entries) ∧
      Metadata.ofText source = .ok (SortedMap.collect pairs) ∧
      metadata.get? "b" = some (.bool true) ∧ metadata.size = 2 ∧
      ∃ schema, Cli.loadSchema disk (some "schema.json") [("title", .geo)] = .ok schema ∧
        schema.get? "price" = some .numeric ∧ (schema.replace "title" .tag).1 = some .geo := by
  intro text entries disk pairs metadata source
  obtain ⟨schemas, documents, _, _, decoded, decodedPairs, _, loaded⟩ := maps_remember_last_writes
  have lists : Schema.Lists text entries := by
    have printed := Schema.lists_object entries
    have same : (Json.object (entries.map fun entry =>
        (entry.1, .string entry.2.jsonName))).toText = text := by decide +kernel
    rwa [same] at printed
  have listsPairs : Metadata.Lists source pairs := by
    have reads : ∀ entry ∈ pairs, entry.2.ReadsAs (id entry.2) := by
      intro entry member
      simp only [pairs, List.mem_cons, List.not_mem_nil, or_false] at member
      rcases member with rfl | rfl | rfl <;> rfl
    have printed := Metadata.lists_object reads
    have same : (Json.object (pairs.map fun entry => (entry.1, entry.2.toJson))).toText =
        source := by decide +kernel
    rwa [same] at printed
  have built : Metadata.Built (pairs ++ [("a", .string "")]) metadata := by
    show SortedMap.BuiltBy Metadata.Lists Metadata.ofText _ _
    exact .replaced "a" (.string "") (.collected pairs)
  have remembers := documents _ metadata built
  have read : disk.readText "schema.json" = .ok text := by decide +kernel
  obtain ⟨schema, load, built⟩ :=
    loaded disk (some "schema.json") entries [("title", .geo)] (.listed read lists)
  have remembersFields := schemas _ schema built
  refine ⟨decoded text entries lists, decodedPairs source pairs listsPairs, ?_, remembers.size,
    schema, load, ?_, ?_⟩
  · exact (remembers.present "b" _).mpr ⟨[("b", .int 2), ("a", .int 1)], _, rfl, by decide⟩
  · exact (remembersFields.present "price" _).mpr
      ⟨[("price", .tag), ("title", .text)], _, rfl, by decide⟩
  · rw [remembersFields.answer]
    exact (remembersFields.present "title" _).mpr ⟨entries, [], rfl, by decide⟩

end FilterQuery
