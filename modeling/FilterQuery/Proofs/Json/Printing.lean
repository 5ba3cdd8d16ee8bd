import FilterQuery.Json.Printer
import FilterQuery.Proofs.Json.Documents
import FilterQuery.Proofs.Sequences
import Mathlib.Data.List.Forall2

/-!
The printer writes what the grammar allows. A string stands in its text, an integer of 64 bits in
its own, and an array or object in its text whatever documents stand in the texts of the items or
members (`standsIn_array_text`, `standsIn_object_text`).
-/
namespace FilterQuery.Json

theorem WrittenAs.standsIn {json : Json} {written : List Char}
    (writtenAs : json.WrittenAs written) : json.StandsIn written :=
  ⟨[], written, [], spaces_nil, writtenAs, spaces_nil, (List.append_nil _).symm⟩

theorem standsIn_null_text : null.StandsIn null.text := WrittenAs.null.standsIn

theorem standsIn_bool_text (value : Bool) : (bool value).StandsIn (bool value).text := by
  cases value with
  | false => exact WrittenAs.false.standsIn
  | true => exact WrittenAs.true.standsIn

theorem standsIn_string_text (s : String) : (string s).StandsIn (string s).text :=
  (WrittenAs.string (spelling_flatMap_escapeChar s.toList)).standsIn

theorem standsIn_integer_text (n : Int64) :
    (number (.integer n.toInt)).StandsIn (number (.integer n.toInt)).text :=
  (WrittenAs.number (Numeral.writtenAs_intText n.toInt) (Numeral.value?_ofInt n)).standsIn

/-- The text holds what is written, with white space around it. -/
def Padded {α : Type} (W : α → List Char → Prop) (text : List Char) (item : α) : Prop :=
  ∃ before written after, Spaces before ∧ W item written ∧ Spaces after ∧
    text = before ++ written ++ after

/-- Texts with commas between them may stand between brackets. -/
theorem enclosed_intercalate {α : Type} {W : α → List Char → Prop} {texts : List (List Char)}
    {items : List α} (padded : List.Forall₂ (Padded W) texts items) :
    Enclosed W items ([','].intercalate texts) := by
  cases padded with
  | nil => exact .empty spaces_nil
  | @cons text item texts items first rest =>
    refine .listed ?_
    induction rest generalizing text item with
    | nil =>
      obtain ⟨before, written, after, blank, writtenAs, blankAfter, rfl⟩ := first
      rw [List.intercalate_singleton]
      exact .last blank writtenAs blankAfter
    | cons next _ ih =>
      obtain ⟨before, written, after, blank, writtenAs, blankAfter, rfl⟩ := first
      rw [List.intercalate_cons_cons, List.append_assoc, List.singleton_append]
      exact .cons blank writtenAs blankAfter (ih next)

theorem itemsText_eq (items : List Json) :
    itemsText items = [','].intercalate (items.map text) := by
  induction items with
  | nil => rfl
  | cons item items ih =>
    cases items with
    | nil => exact (List.append_nil _).symm
    | cons next rest =>
      rw [itemsText, ih]
      simp only [List.map_cons, List.intercalate_cons_cons, List.append_assoc,
        List.singleton_append]

def memberText (member : String × Json) : List Char := stringText member.1 ++ ':' :: member.2.text

theorem membersText_eq (members : List (String × Json)) :
    membersText members = [','].intercalate (members.map memberText) := by
  induction members with
  | nil => rfl
  | cons member members ih =>
    cases members with
    | nil => exact (List.append_nil _).symm
    | cons next rest =>
      rw [membersText, ih]
      simp only [List.map_cons, List.intercalate_cons_cons, List.append_assoc,
        List.singleton_append, memberText]

/-- Documents stand in the text of an array when each of them stands in the text of its item. -/
theorem standsIn_array_text {items documents : List Json}
    (each : List.Forall₂ (fun item document => document.StandsIn item.text) items documents) :
    (array documents).StandsIn (array items).text := by
  refine (WrittenAs.array ?_).standsIn
  rw [itemsText_eq]
  exact enclosed_intercalate (List.forall₂_map_left_iff.mpr each)

/-- Members stand in the text of an object when their values stand in the texts of the values. -/
theorem standsIn_object_text (names : List String) {items documents : List Json}
    (each : List.Forall₂ (fun item document => document.StandsIn item.text) items documents) :
    (object (names.zip documents)).StandsIn (object (names.zip items)).text := by
  refine (WrittenAs.object ?_).standsIn
  rw [membersText_eq]
  refine enclosed_intercalate (List.forall₂_map_left_iff.mpr ?_)
  induction each generalizing names with
  | nil => simp
  | cons first _ ih =>
    cases names with
    | nil => exact .nil
    | cons name names =>
      refine .cons ?_ (ih names)
      obtain ⟨before, written, after, blank, writtenAs, blankAfter, same⟩ := first
      refine ⟨[], _, after, spaces_nil,
        .mk (spelling_flatMap_escapeChar name.toList) spaces_nil blank writtenAs, blankAfter, ?_⟩
      simp only [memberText, stringText, same, List.nil_append, List.append_assoc, List.cons_append]

/-- The text of an object that is printed from entries holds an object with the same names, when a
document stands in the text of each of their values. -/
theorem exists_standsIn_object {α : Type} (print : α → Json) (R : α → Json → Prop)
    {entries : List (String × α)} (each : ∀ entry ∈ entries,
      ∃ document, document.StandsIn (print entry.2).text ∧ R entry.2 document) :
    ∃ members,
      (object members).StandsIn
        (object (entries.map fun entry => (entry.1, print entry.2))).toText.toList ∧
      List.Forall₂ (fun entry member => member.1 = entry.1 ∧ R entry.2 member.2)
        entries members := by
  obtain ⟨documents, related⟩ := exists_forall₂ each
  have stands := standsIn_object_text (entries.map Prod.fst)
    (List.forall₂_map_left_iff.mpr (related.imp fun _ _ holds => holds.1))
  rw [List.zip_map', ← String.toList_ofList (l := text _)] at stands
  refine ⟨_, stands, ?_⟩
  clear stands each
  induction related with
  | nil => exact .nil
  | cons first _ ih => exact .cons ⟨rfl, first.2⟩ ih

theorem nesting_object_zip {names : List String} {items : List Json}
    (complete : names.length = items.length) :
    (object (names.zip items)).nesting = 1 + nestingItems items := by
  rw [nesting]
  congr 1
  induction names generalizing items with
  | nil =>
    cases items with
    | nil => rfl
    | cons item items => contradiction
  | cons name names ih =>
    cases items with
    | nil => contradiction
    | cons item items =>
      rw [List.zip_cons_cons, nestingMembers, nestingItems, ih (Nat.succ.inj complete)]

end FilterQuery.Json
