import FilterQuery.Proofs.Cli.CommandLines
import FilterQuery.Proofs.Schema.Entries
import FilterQuery.Proofs.Sequences
import FilterQuery.Proofs.Text.Trimming

/-!
Declarations of fields. An argument declares a field exactly if it is the name, an equals sign and
the type with white space around both; the name has no equals sign, so the first one separates, and
the letters of the type are capital or small ASCII letters (`FieldType.ofName?_eq_some`). Any other
argument is refused for the first thing that is wrong with it (`Cli.parseField_follows_grammar`).
-/
namespace FilterQuery

open Text (isBlank trim Blank Trimmed Surrounds)

/-- The letter is the capital one or the small one that belongs to it. -/
def CaseOf (capital letter : Char) : Prop := letter = capital ∨ letter.toNat = capital.toNat + 32

def IsCapital (c : Char) : Prop := 65 ≤ c.toNat ∧ c.toNat ≤ 90

instance (c : Char) : Decidable (IsCapital c) := inferInstanceAs (Decidable (_ ∧ _))

theorem toNat_toLower (c : Char) :
    c.toLower.toNat = if IsCapital c then c.toNat + 32 else c.toNat := by
  have bounds : (c.val ≥ 'A'.val ∧ c.val ≤ 'Z'.val) ↔ IsCapital c := Iff.rfl
  unfold Char.toLower
  by_cases capital : IsCapital c
  · rw [dif_pos (bounds.mpr capital), if_pos capital]
    obtain ⟨_, most⟩ := capital
    show (c.val + 32).toNat = c.val.toNat + 32
    rw [UInt32.toNat_add, Nat.mod_eq_of_lt]
    · rfl
    · have small : c.val.toNat ≤ 90 := most
      show c.val.toNat + 32 < 2 ^ 32
      omega
  · rw [dif_neg (mt bounds.mp capital), if_neg capital]

theorem toLower_eq_iff {capital letter : Char} (isCapital : IsCapital capital) :
    letter.toLower = capital.toLower ↔ CaseOf capital letter := by
  rw [CaseOf, ← Char.toNat_inj, ← Char.toNat_inj, toNat_toLower, toNat_toLower, if_pos isCapital]
  obtain ⟨least, most⟩ := isCapital
  by_cases large : IsCapital letter
  · -- A capital letter is no small one, because all small letters come after all capital ones.
    rw [if_pos large]
    obtain ⟨least', most'⟩ := large
    omega
  · rw [if_neg large]
    rw [IsCapital] at large
    omega

theorem map_toLower_eq_iff {capitals letters : List Char} (all : ∀ c ∈ capitals, IsCapital c) :
    letters.map Char.toLower = capitals.map Char.toLower ↔
      List.Forall₂ CaseOf capitals letters := by
  induction capitals generalizing letters with
  | nil => rw [List.map_nil, List.map_eq_nil_iff, List.forall₂_nil_left_iff]
  | cons capital capitals ih =>
    obtain ⟨first, others⟩ := List.forall_mem_cons.mp all
    cases letters with
    | nil => simp
    | cons letter letters =>
      rw [List.map_cons, List.map_cons, List.cons.injEq, toLower_eq_iff first, ih others,
        List.forall₂_cons]

namespace FieldType

/-- The text is the display name of the type, each letter capital or small. -/
def SpelledAs (type : FieldType) (text : List Char) : Prop :=
  List.Forall₂ CaseOf type.name.toList text

theorem isCapital_of_mem_name (type : FieldType) : ∀ c ∈ type.name.toList, IsCapital c := by
  have capitals : (type.name.toList.all fun c => decide (IsCapital c)) = true := by
    cases type <;> rfl
  intro c member
  exact of_decide_eq_true (List.all_eq_true.mp capitals c member)

theorem toList_jsonName (type : FieldType) :
    type.jsonName.toList = type.name.toList.map Char.toLower := by
  cases type <;> decide

/-- Exactly the spellings of its display name are taken for a type. -/
theorem ofName?_eq_some {name : String} {type : FieldType} :
    ofName? name = some type ↔ type.SpelledAs name.toList := by
  have lower : name.toLower.toList = name.toList.map Char.toLower := String.toList_map
  rw [ofName?, ofJsonName?_eq_some, ← String.toList_inj, lower, toList_jsonName,
    map_toLower_eq_iff type.isCapital_of_mem_name, SpelledAs]

theorem SpelledAs.not_isBlank {type : FieldType} {text : List Char} (spelled : type.SpelledAs text)
    {c : Char} (member : c ∈ text) : isBlank c = false := by
  obtain ⟨capital, inName, same⟩ := exists_of_forall₂ spelled.flip member
  obtain ⟨least, most⟩ := type.isCapital_of_mem_name capital inName
  have letter : (65 ≤ c.toNat ∧ c.toNat ≤ 90) ∨ (97 ≤ c.toNat ∧ c.toNat ≤ 122) := by
    rcases same with rfl | same
    · exact .inl ⟨least, most⟩
    · omega
  simp only [isBlank, Bool.or_eq_false_iff, Bool.and_eq_false_iff, decide_eq_false_iff_not,
    beq_eq_false_iff_ne]
  omega

theorem SpelledAs.trimmed {type : FieldType} {text : List Char} (spelled : type.SpelledAs text) :
    Trimmed text where
  starts _ first := spelled.not_isBlank (List.mem_of_head? first)
  ends _ last := spelled.not_isBlank (List.mem_of_getLast? last)

end FieldType

namespace Cli

/-- A field can be declared by this name. -/
structure Nameable (name : List Char) : Prop extends Trimmed name where
  some : name ≠ []
  noEquals : '=' ∉ name

/-- What an argument that should declare a field comes to: the name and the type of the field, or
what is said of the argument. -/
inductive Declaration (argument : String) : Except String (String × FieldType) → Prop
  | noSeparator : '=' ∉ argument.toList →
      Declaration argument (.error ("expected NAME=TYPE, got '" ++ argument ++ "'"))
  | emptyName {before after : List Char} : argument.toList = before ++ '=' :: after →
      Blank before → Declaration argument (.error ("empty field name in '" ++ argument ++ "'"))
  | unknownType {before word after : List Char} : argument.toList = before ++ '=' :: after →
      '=' ∉ before → ¬ Blank before → Trimmed word → Surrounds word after →
      (∀ type : FieldType, ¬ type.SpelledAs word) →
      Declaration argument (.error ("unknown field type '" ++ String.ofList word ++ "'"))
  | declared {before after spelling : List Char} {name : String} {type : FieldType} :
      argument.toList = before ++ '=' :: after → Nameable name.toList →
      Surrounds name.toList before → type.SpelledAs spelling → Surrounds spelling after →
      Declaration argument (.ok (name, type))

variable {argument name : String} {before after : List Char} {type : FieldType}

theorem equals_notMem_of_blank (blank : Blank before) : '=' ∉ before := by
  intro member
  exact absurd (blank '=' member) (by decide)

theorem equals_notMem_of_surrounds {word : List Char} (noEquals : '=' ∉ word)
    (surrounds : Surrounds word before) : '=' ∉ before := by
  obtain ⟨blank, blankAfter⟩ := surrounds
  simp only [List.mem_append, not_or]
  exact ⟨⟨equals_notMem_of_blank blank, noEquals⟩, equals_notMem_of_blank blankAfter⟩

theorem Nameable.not_blank (nameable : Nameable name.toList)
    (surrounds : Surrounds name.toList before) : ¬ Blank before := by
  intro blank
  have nothing := Text.trim_eq_nil.mpr blank
  rw [Text.trim_eq_iff.mpr ⟨nameable.toTrimmed, surrounds⟩] at nothing
  exact nameable.some nothing

theorem parseField_of_notMem (noEquals : '=' ∉ argument.toList) :
    parseField argument = .error (.noSeparator argument) := by
  simp only [parseField, splitAtEquals_of_notMem noEquals]

/-- What stands before the first equals sign is the name, and the type is behind it. -/
theorem parseField_of_split (split : argument.toList = before ++ '=' :: after)
    (noEquals : '=' ∉ before) : parseField argument =
      if trim before = [] then .error (.emptyName argument)
      else (FieldType.ofName? (String.ofList (trim after))).elim
        (.error (.unknownType (String.ofList (trim after))))
        fun type => .ok (String.ofList (trim before), type) := by
  unfold parseField
  rw [split, splitAtEquals_append noEquals]
  dsimp only
  cases FieldType.ofName? (String.ofList (trim after)) <;> rfl

theorem declaration_parseField (argument : String) :
    Declaration argument ((parseField argument).mapError FieldRefusal.message) := by
  by_cases separated : '=' ∈ argument.toList
  · obtain ⟨before, after, split, noEquals⟩ := List.eq_append_cons_of_mem separated
    rw [parseField_of_split split noEquals]
    by_cases blank : Blank before
    · rw [if_pos (Text.trim_eq_nil.mpr blank)]
      exact .emptyName split blank
    · rw [if_neg (mt Text.trim_eq_nil.mp blank)]
      cases named : FieldType.ofName? (String.ofList (trim after)) with
      | none =>
        refine .unknownType split noEquals blank (Text.trimmed_trim after)
          (Text.surrounds_trim after) ?_
        intro type spelled
        rw [← String.toList_ofList (l := trim after), ← FieldType.ofName?_eq_some, named] at spelled
        cases spelled
      | some type =>
        have spelled := FieldType.ofName?_eq_some.mp named
        rw [String.toList_ofList] at spelled
        have nameable : Nameable (String.ofList (trim before)).toList := by
          rw [String.toList_ofList]
          refine ⟨Text.trimmed_trim before, mt Text.trim_eq_nil.mp blank, ?_⟩
          exact fun member => noEquals ((Text.surrounds_trim before).subset member)
        refine .declared split nameable ?_ spelled (Text.surrounds_trim after)
        rw [String.toList_ofList]
        exact Text.surrounds_trim before
  · rw [parseField_of_notMem separated]
    exact .noSeparator separated

/-- An argument comes to nothing else than what is read from it. -/
theorem Declaration.eq {result : Except String (String × FieldType)}
    (declaration : Declaration argument result) :
    (parseField argument).mapError FieldRefusal.message = result := by
  cases declaration with
  | noSeparator noEquals =>
    rw [parseField_of_notMem noEquals]
    rfl
  | emptyName split blank =>
    rw [parseField_of_split split (equals_notMem_of_blank blank),
      if_pos (Text.trim_eq_nil.mpr blank)]
    rfl
  | @unknownType before word after split noEquals notBlank trimmed surrounds unknown =>
    have whole : trim after = word := Text.trim_eq_iff.mpr ⟨trimmed, surrounds⟩
    have named : FieldType.ofName? (String.ofList word) = none := by
      rw [Option.eq_none_iff_forall_ne_some]
      intro type named
      rw [FieldType.ofName?_eq_some, String.toList_ofList] at named
      exact unknown type named
    rw [parseField_of_split split noEquals, if_neg (mt Text.trim_eq_nil.mp notBlank), whole, named]
    rfl
  | @declared before after spelling name type split nameable surrounds spelled surroundsType =>
    have notBlank := nameable.not_blank surrounds
    -- Neither the name nor white space has an equals sign, so this one is the first.
    have noEquals := equals_notMem_of_surrounds nameable.noEquals surrounds
    have whole : trim before = name.toList :=
      Text.trim_eq_iff.mpr ⟨nameable.toTrimmed, surrounds⟩
    have typeName : trim after = spelling :=
      Text.trim_eq_iff.mpr ⟨spelled.trimmed, surroundsType⟩
    have named : FieldType.ofName? (String.ofList spelling) = some type := by
      rw [FieldType.ofName?_eq_some, String.toList_ofList]
      exact spelled
    rw [parseField_of_split split noEquals, if_neg (mt Text.trim_eq_nil.mp notBlank), typeName,
      named, whole, String.ofList_toList]
    rfl

/-- An argument declares a field exactly if it is a name, an equals sign and a spelling of a type
with white space around both. Of what may be wrong with it, that there is no equals sign is said
first, then that there is no name, and last that the type is unknown. -/
theorem parseField_follows_grammar :
    (∀ argument result, (parseField argument).mapError FieldRefusal.message = result ↔
      Declaration argument result) ∧
    ∀ argument name type, parseField argument = .ok (name, type) →
      name.toList ≠ [] ∧ '=' ∉ name.toList ∧ Trimmed name.toList := by
  constructor
  · intro argument result
    constructor
    · rintro rfl
      exact declaration_parseField argument
    · intro declaration
      exact declaration.eq
  · intro argument name type accepted
    have declaration := declaration_parseField argument
    rw [accepted] at declaration
    cases declaration with
    | declared _ nameable _ _ _ => exact ⟨nameable.some, nameable.noEquals, nameable.toTrimmed⟩

/-- White space beyond ASCII is dropped and small letters mix with capitals, but a dotless i is no
spelling of an i, and a second equals sign belongs to the type. -/
theorem parseField_follows_grammar_beyond_ascii :
    parseField "\u3000unit price\u00a0=\tNumEric\u2028" = .ok ("unit price", .numeric) ∧
      ("unit price".toList ≠ [] ∧ '=' ∉ "unit price".toList ∧ Trimmed "unit price".toList) ∧
      Declaration "price=numer\u0131c" (.error "unknown field type 'numer\u0131c'") ∧
      Declaration "a= b=tag" (.error "unknown field type 'b=tag'") ∧
      Declaration "\u3000=b" (.error "empty field name in '\u3000=b'") := by
  obtain ⟨grammar, names⟩ := parseField_follows_grammar
  have accepted :
      parseField "\u3000unit price\u00a0=\tNumEric\u2028" = .ok ("unit price", .numeric) := by
    decide +kernel
  refine ⟨accepted, names _ _ _ accepted, ?_, ?_, ?_⟩
  · exact (grammar _ _).mp (by decide +kernel)
  · exact (grammar _ _).mp (by decide +kernel)
  · exact (grammar _ _).mp (by decide +kernel)

end Cli

end FilterQuery
