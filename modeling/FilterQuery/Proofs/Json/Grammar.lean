import FilterQuery.Json.Document

/-!
The grammar of JSON texts. It says which characters write a string, a number or a document, and
which texts hold a document with white space around it. A number has to be in range; how deep arrays
and objects are nested is not limited.
-/
namespace FilterQuery.Json

/-- White space of JSON, possibly none. -/
def Spaces (text : List Char) : Prop := ∀ c ∈ text, isSpace c = true

/-- What may stand after a backslash for a character: a letter, the four digits of its code point,
or the digits of the two surrogates that make up a code point above U+FFFF. -/
inductive Escapes : Char → List Char → Prop
  | letter {c letter : Char} : escaped? letter = some c → Escapes c [letter]
  | unit {c a b d e : Char} : hexUnit? a b d e = some c.toNat → Escapes c ['u', a, b, d, e]
  | pair {c a b d e a' b' d' e' : Char} {high low : Nat} : hexUnit? a b d e = some (0xD800 + high) →
      high < 0x400 → hexUnit? a' b' d' e' = some (0xDC00 + low) → low < 0x400 →
      c.toNat = 0x10000 + high * 0x400 + low →
      Escapes c ['u', a, b, d, e, '\\', 'u', a', b', d', e']

/-- What may stand between two quotes for characters: each of them is plain or escaped. -/
inductive Spelling : List Char → List Char → Prop
  | nil : Spelling [] []
  | plain {c : Char} {cs text : List Char} : c ≠ '"' → c ≠ '\\' → 0x20 ≤ c.toNat →
      Spelling cs text → Spelling (c :: cs) (c :: text)
  | escape {c : Char} {cs code text : List Char} : Escapes c code → Spelling cs text →
      Spelling (c :: cs) ('\\' :: code ++ text)

namespace Numeral

/-- Decimal digits, at least one. -/
def Digits (text : List Char) : Prop := text ≠ [] ∧ ∀ c ∈ text, c.isDigit = true

/-- The text of a fraction: nothing, or digits behind a point. -/
inductive FractionText : Option (List Nat) → List Char → Prop
  | absent : FractionText none []
  | present {digits : List Char} : Digits digits →
      FractionText (some (digits.map digitValue)) ('.' :: digits)

/-- The text of an exponent: nothing, or digits behind a letter and possibly a sign. -/
inductive ExponentText : Option Int → List Char → Prop
  | absent : ExponentText none []
  | unsigned {letter : Char} {digits : List Char} : letter = 'e' ∨ letter = 'E' → Digits digits →
      ExponentText (some (ofDigits (digits.map digitValue))) (letter :: digits)
  | plus {letter : Char} {digits : List Char} : letter = 'e' ∨ letter = 'E' → Digits digits →
      ExponentText (some (ofDigits (digits.map digitValue))) (letter :: '+' :: digits)
  | minus {letter : Char} {digits : List Char} : letter = 'e' ∨ letter = 'E' → Digits digits →
      ExponentText (some (-ofDigits (digits.map digitValue))) (letter :: '-' :: digits)

/-- The text of a numeral. Its whole part has no zero before another digit. -/
inductive WrittenAs : Numeral → List Char → Prop
  | mk {negative : Bool} {whole fraction exponent : List Char} {fractionDigits : Option (List Nat)}
      {power : Option Int} : Digits whole → (whole.head? = some '0' → whole = ['0']) →
      FractionText fractionDigits fraction → ExponentText power exponent →
      WrittenAs ⟨negative, whole.map digitValue, fractionDigits, power⟩
        (signText negative ++ whole ++ fraction ++ exponent)

end Numeral

/-- The texts of items, at least one, with commas between them. -/
inductive Listed {α : Type} (WrittenAs : α → List Char → Prop) : List α → List Char → Prop
  | last {item : α} {before text after : List Char} : Spaces before → WrittenAs item text →
      Spaces after → Listed WrittenAs [item] (before ++ text ++ after)
  | cons {item : α} {items : List α} {before text after rest : List Char} : Spaces before →
      WrittenAs item text → Spaces after → Listed WrittenAs items rest →
      Listed WrittenAs (item :: items) (before ++ text ++ after ++ ',' :: rest)

/-- What may stand between two brackets for items. -/
inductive Enclosed {α : Type} (WrittenAs : α → List Char → Prop) : List α → List Char → Prop
  | empty {text : List Char} : Spaces text → Enclosed WrittenAs [] text
  | listed {items : List α} {text : List Char} : Listed WrittenAs items text →
      Enclosed WrittenAs items text

/-- The text of a member: its name, a colon and its value. -/
inductive MemberText (WrittenAs : Json → List Char → Prop) : String × Json → List Char → Prop
  | mk {name : String} {json : Json} {spelling before after text : List Char} :
      Spelling name.toList spelling → Spaces before → Spaces after → WrittenAs json text →
      MemberText WrittenAs (name, json)
        ('"' :: spelling ++ '"' :: before ++ ':' :: after ++ text)

/-- The characters that write a document, without white space around it. -/
inductive WrittenAs : Json → List Char → Prop
  | null : WrittenAs .null ['n', 'u', 'l', 'l']
  | true : WrittenAs (.bool true) ['t', 'r', 'u', 'e']
  | false : WrittenAs (.bool false) ['f', 'a', 'l', 's', 'e']
  | number {numeral : Numeral} {number : Number} {text : List Char} : numeral.WrittenAs text →
      numeral.value? = some number → WrittenAs (.number number) text
  | string {s : String} {spelling : List Char} : Spelling s.toList spelling →
      WrittenAs (.string s) ('"' :: spelling ++ ['"'])
  | array {items : List Json} {text : List Char} : Enclosed WrittenAs items text →
      WrittenAs (.array items) ('[' :: text ++ [']'])
  | object {members : List (String × Json)} {text : List Char} :
      Enclosed (MemberText WrittenAs) members text →
      WrittenAs (.object members) ('\x7b' :: text ++ ['\x7d'])

/-- The text holds the document, with white space around it. -/
def StandsIn (json : Json) (text : List Char) : Prop :=
  ∃ before written after, Spaces before ∧ json.WrittenAs written ∧ Spaces after ∧
    text = before ++ written ++ after

mutual

/-- How deep arrays and objects are nested. -/
def nesting : Json → Nat
  | .null | .bool _ | .number _ | .string _ => 0
  | .array items => 1 + nestingItems items
  | .object members => 1 + nestingMembers members

/-- The deepest nesting of the items. -/
def nestingItems : List Json → Nat
  | [] => 0
  | item :: items => max (nesting item) (nestingItems items)

/-- The deepest nesting of the values of the members. -/
def nestingMembers : List (String × Json) → Nat
  | [] => 0
  | (_, value) :: members => max (nesting value) (nestingMembers members)

end

theorem nestingItems_le {items : List Json} {depth : Nat} :
    nestingItems items ≤ depth ↔ ∀ item ∈ items, item.nesting ≤ depth := by
  induction items with
  | nil => simp [nestingItems]
  | cons item items ih => rw [nestingItems, Nat.max_le, ih, List.forall_mem_cons]

theorem nestingMembers_le {members : List (String × Json)} {depth : Nat} :
    nestingMembers members ≤ depth ↔ ∀ member ∈ members, member.2.nesting ≤ depth := by
  induction members with
  | nil => simp [nestingMembers]
  | cons member members ih => rw [nestingMembers, Nat.max_le, ih, List.forall_mem_cons]

theorem nesting_array_le (items : List Json) (depth : Nat) :
    (array items).nesting ≤ depth + 1 ↔ ∀ item ∈ items, item.nesting ≤ depth := by
  rw [nesting, Nat.add_comm 1, Nat.add_le_add_iff_right, nestingItems_le]

theorem nesting_object_le (members : List (String × Json)) (depth : Nat) :
    (object members).nesting ≤ depth + 1 ↔ ∀ member ∈ members, member.2.nesting ≤ depth := by
  rw [nesting, Nat.add_comm 1, Nat.add_le_add_iff_right, nestingMembers_le]

/-- A property of all documents is proved of scalars, and of arrays and objects from what they hold.
-/
@[elab_as_elim]
theorem induct {motive : Json → Prop} (null : motive .null) (bool : ∀ value, motive (.bool value))
    (number : ∀ value, motive (.number value)) (string : ∀ value, motive (.string value))
    (array : ∀ items, (∀ item ∈ items, motive item) → motive (.array items))
    (object : ∀ members, (∀ member ∈ members, motive member.2) → motive (.object members))
    (json : Json) : motive json := by
  cases json with
  | null => exact null
  | bool value => exact bool value
  | number value => exact number value
  | string value => exact string value
  | array items =>
    exact array items fun item _ => induct null bool number string array object item
  | object members =>
    exact object members fun member _ => induct null bool number string array object member.2
termination_by sizeOf json
decreasing_by
  · have smaller := List.sizeOf_lt_of_mem ‹item ∈ items›
    simp only [Json.array.sizeOf_spec]
    omega
  · have smaller := List.sizeOf_lt_of_mem ‹member ∈ members›
    obtain ⟨name, value⟩ := member
    simp only [Json.object.sizeOf_spec, Prod.mk.sizeOf_spec] at smaller ⊢
    omega

end FilterQuery.Json
