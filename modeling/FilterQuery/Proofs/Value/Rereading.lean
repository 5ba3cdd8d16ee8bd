import FilterQuery.Filter.Evaluation
import FilterQuery.Proofs.Filter.Transport
import FilterQuery.Proofs.Json.Rereading
import FilterQuery.Proofs.Metadata.Entries

/-!
Values that are read back. A finite float comes back from its own text with its sign, close to what
it was, and as what it was if its digits and their power of ten are floats. In a filter or in
metadata every value comes back as it does on its own, and nothing else changes
(`Value.floats_reread_nearby`); so a document may be lost to a filter that has been sent as text
(`Value.float_reread_as_next`).
-/
namespace FilterQuery

open Json (Reader)

namespace Value

/-- JSON has a text for the value: it is not a float that is infinite or not a number. -/
def HasText : Value → Prop
  | float (.finite _ _) => True
  | float .nan | float (.infinite _) => False
  | bool _ | int _ | string _ => True

/-- What is read from the text of the value, if it is a float. -/
def reread : Value → Value
  | float x => (ofText (float x).toJson.toText).toOption.getD (float x)
  | value => value

/-- The text of a numeral is read as its value, and refused if it has none. -/
theorem ofText_of_numeral {numeral : Json.Numeral} {text : String}
    (written : numeral.WrittenAs text.toList) :
    ofText text = numeral.value?.elim (.error .malformed) fun number => .ok (ofNumber number) := by
  have reads := (Reader.reads_value_of_numeral Json.maxDepth written).check fun json =>
    (ofJson json).mapError .mismatch
  refine (Reader.readAll_of_reads reads Json.spaces_nil Json.spaces_nil
    (List.append_nil _).symm).trans ?_
  cases numeral.value? <;> rfl

/-- What is read from the digits of a float is the float of its text. -/
theorem ofText_float {magnitude read : Magnitude} (negative : Bool)
    (found : (Decimal.shortest .even magnitude).asRead.read? = some read) :
    ofText (float (.finite negative magnitude)).toJson.toText =
      .ok (float (.finite negative read)) := by
  have small : (Decimal.shortest .even magnitude).coefficient < 2 ^ (64 : Nat) :=
    Nat.lt_of_le_of_lt (Decimal.coefficient_shortest_le .even magnitude) (by decide)
  obtain ⟨numeral, written, value⟩ := Json.Numeral.writes_jsonText negative
    (fun zero => Decimal.exponent_shortest_of_zero zero) small
  rw [Decimal.float?_eq, found, Option.map_some] at value
  rw [← String.toList_ofList (l := _ ++ _)] at written
  refine (ofText_of_numeral written).trans ?_
  rw [value]
  rfl

theorem reread_float {magnitude read : Magnitude} (negative : Bool)
    (found : (Decimal.shortest .even magnitude).asRead.read? = some read) :
    (float (.finite negative magnitude)).reread = float (.finite negative read) := by
  rw [reread, ofText_float negative found]
  rfl

/-- A value is read from its text as what `reread` says. -/
theorem readsAs_reread {value : Value} (written : value.HasText) : value.ReadsAs value.reread := by
  cases value with
  | bool | int | string => rfl
  | float x =>
    cases x with
    | nan | infinite => exact absurd written not_false
    | finite negative magnitude =>
      obtain ⟨read, found, _⟩ := Decimal.exists_read?_shortest magnitude
      rw [reread_float negative found]
      exact ofText_float negative found

end Value

namespace Metadata

/-- An object that is printed from entries lists what is read from the texts of their values. -/
theorem lists_object {entries : List (String × Value)} {f : Value → Value}
    (reads : ∀ entry ∈ entries, entry.2.ReadsAs (f entry.2)) :
    Lists (Json.object (entries.map fun entry => (entry.1, entry.2.toJson))).toText
      (entries.map fun entry => (entry.1, f entry.2)) := by
  obtain ⟨members, stands, related⟩ := Json.exists_standsIn_object Value.toJson
    (fun value document => document.nesting = 0 ∧ Value.ofJson document = .ok (f value))
    fun entry member => Value.exists_standsIn (reads entry member)
  refine ⟨members, stands, ?_⟩
  rw [List.forall₂_map_right_iff]
  refine related.flip.imp ?_
  rintro entry member ⟨named, _, read⟩
  exact ⟨named, read⟩

/-- Metadata comes back from its text entry by entry. -/
theorem ofText_toText_mapEntries {metadata : Metadata} {f : Value → Value}
    (reads : ∀ entry ∈ metadata.entries, entry.2.ReadsAs (f entry.2)) :
    ofText metadata.toText =
      .ok (SortedMap.ofList (metadata.entries.map fun entry => (entry.1, f entry.2))) :=
  ofText_eq_ok_iff.mpr ⟨_, lists_object reads, rfl⟩

end Metadata

namespace Filter

theorem AllValues.imp {P Q : Value → Prop} (imp : ∀ value, P value → Q value) {filter : Filter}
    (all : filter.AllValues P) : filter.AllValues Q := by
  induction filter with
  | leaf leaf =>
    cases leaf with
    | compare relation key value => exact imp value all
    | among membership key values => exact fun value member => imp value (all value member)
  | join connective left right ihLeft ihRight => exact ⟨ihLeft all.1, ihRight all.2⟩
  | not inner ih => exact ih all

/-- A filter comes back from its text value by value. -/
theorem ofText_toText_mapValues {filter : Filter} {f : Value → Value}
    (reads : filter.AllValues fun value => value.ReadsAs (f value))
    (shallow : filter.nesting ≤ Json.maxDepth) :
    ofText filter.toText = checked (filter.mapValues f) := by
  obtain ⟨args, stands, nesting, arguments⟩ := exists_presents_mapValues reads
  rw [← String.toList_ofList (l := filter.toJson.text)] at stands
  have decoded : decode filter.toText = .ok (filter.mapValues f) := by
    refine (decode_eq stands).trans (ofDocument_eq_ok.mpr ⟨nesting ▸ shallow, ?_⟩)
    rw [← operator_mapValues f filter]
    exact presents_tagged .whole arguments
  rw [ofText, decoded]
  rfl

end Filter

namespace Value

/-- A finite float is read back with its sign from what its digits and their power of ten come to,
so it comes back exactly if this is its magnitude: always if the digits that are read and their
power of ten are floats, and otherwise up to one part in 2^50, or one unit. Filters and metadata are
read back value by value. -/
theorem floats_reread_nearby (negative : Bool) (magnitude : Magnitude) :
    (∃ read : Magnitude, (Decimal.shortest .even magnitude).asRead.read? = some read ∧
      ofText (float (.finite negative magnitude)).toJson.toText =
          .ok (float (.finite negative read)) ∧
        (float (.finite negative magnitude)).reread = float (.finite negative read) ∧
        |(read.units : ℚ) - magnitude.units| ≤ 1 + magnitude.units / 2 ^ 50 ∧
        ((Decimal.shortest .even magnitude).asRead.Plain → read = magnitude)) ∧
    (∀ filter : Filter, filter.AllValues HasText → filter.nesting ≤ Json.maxDepth →
      Filter.ofText filter.toText = Filter.checked (filter.mapValues reread)) ∧
    ∀ metadata : Metadata, (∀ entry ∈ metadata.entries, entry.2.HasText) →
      Metadata.ofText metadata.toText =
        .ok (SortedMap.ofList (metadata.entries.map fun entry => (entry.1, entry.2.reread))) := by
  refine ⟨?_, fun filter written shallow => ?_, fun metadata written => ?_⟩
  · obtain ⟨read, found, near⟩ := Decimal.exists_read?_shortest magnitude
    refine ⟨read, found, ofText_float negative found, reread_float negative found, near, ?_⟩
    intro plain
    have exact := Decimal.read?_of_plain plain (Decimal.readsBack_asRead magnitude)
    exact Option.some_inj.mp (found.symm.trans exact)
  · exact Filter.ofText_toText_mapValues (written.imp fun _ => readsAs_reread) shallow
  · exact Metadata.ofText_toText_mapEntries fun entry member => readsAs_reread (written entry member)

/-- 9.5 is read from 95 in tenths, so it comes back, in a list of a filter and in metadata. -/
theorem floats_reread_nearby_of_few_digits :
    let x : Value := float (.ofBits 0x4023000000000000)
    let filter := Filter.isIn "rating" [int 1, x]
    let metadata : Metadata := SortedMap.ofList [("rating", x), ("size", int 1)]
    x.toJson.toText = "9.5" ∧ ofText x.toJson.toText = .ok x ∧
      Filter.ofText filter.toText = .ok filter ∧ Metadata.ofText metadata.toText = .ok metadata := by
  intro x filter metadata
  have units : Binary64.ofBits 0x4023000000000000 =
      .finite false ⟨19 * 2 ^ (1073 : Nat), by decide +kernel⟩ := by decide +kernel
  have plain : (Decimal.shortest .even ⟨19 * 2 ^ (1073 : Nat), by decide +kernel⟩).asRead.Plain := by
    decide +kernel
  obtain ⟨⟨read, _, found, reread, _, exact⟩, ofFilters, ofMetadata⟩ :=
    floats_reread_nearby false ⟨19 * 2 ^ (1073 : Nat), by decide +kernel⟩
  rw [exact plain, ← units] at found reread
  have back : ofText x.toJson.toText = .ok x := found
  have same : x.reread = x := reread
  have written : x.HasText := by
    change HasText (float (.ofBits 0x4023000000000000))
    rw [units]
    trivial
  refine ⟨by decide +kernel, back, ?_, ?_⟩
  · have all : filter.AllValues HasText :=
      List.forall_mem_cons.mpr ⟨trivial, List.forall_mem_singleton.mpr written⟩
    have mapped : filter.mapValues Value.reread = filter := by
      change Filter.isIn "rating" [int 1, x.reread] = Filter.isIn "rating" [int 1, x]
      rw [same]
    rw [ofFilters filter all (by decide), mapped]
    rfl
  · have entries : metadata.entries = [("rating", x), ("size", int 1)] := by decide +kernel
    rw [ofMetadata metadata, entries]
    · change Except.ok (SortedMap.ofList [("rating", x.reread), ("size", int 1)]) = _
      rw [same]
    · rw [entries]
      exact List.forall_mem_cons.mpr ⟨written, List.forall_mem_singleton.mpr trivial⟩

/-- Between 2^52 and 2^53 the text of a float ends in `.0`, so it is read in tenths, which may be no
float: the float is read as the next one, and an entry with it is lost to a filter for it. -/
theorem float_reread_as_next :
    let x : Value := float (.ofBits 0x433C6BF526340001)
    let next : Value := float (.ofBits 0x433C6BF526340002)
    let metadata : Metadata := SortedMap.ofList [("size", x)]
    x.toJson.toText = "8000000000000001.0" ∧ ofText x.toJson.toText = .ok next ∧ next ≠ x ∧
      Filter.ofText (Filter.eq "size" x).toText = .ok (Filter.eq "size" next) ∧
      (Filter.eq "size" x).accepts metadata = true ∧
      (Filter.eq "size" next).accepts metadata = false := by
  decide +kernel

end Value

end FilterQuery
