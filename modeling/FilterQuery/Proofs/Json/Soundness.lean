import FilterQuery.Proofs.Json.Documents
import Mathlib.Data.List.Forall2

/-!
What readers accept. A word, a string, a separator or a sequence that is taken from the front of a
text is one that the grammar lets stand there (`exists_spelling_of_run_string`,
`exists_enclosed_of_bracketed`). Together with the reading of well-formed texts this says exactly
which texts are read, and as what.
-/
namespace FilterQuery.Json

theorem exists_spaces (input : List Char) :
    ∃ spaces, Spaces spaces ∧ input = spaces ++ skipSpaces input :=
  ⟨input.takeWhile isSpace, fun _ => List.mem_takeWhile_imp, List.takeWhile_append_dropWhile.symm⟩

theorem visible_of_skipSpaces {c : Char} {input tail : List Char}
    (first : skipSpaces input = c :: tail) : isSpace c = false := by
  have visible := List.head?_dropWhile_not isSpace input
  rwa [← skipSpaces, first] at visible

theorem dropWord_eq_ok {word input rest : List Char} :
    dropWord word input = .ok rest ↔ input = word ++ rest := by
  fun_induction dropWord word input with
  | case1 input => simp
  | case2 => simp
  | case3 c word input ih => simp [ih]
  | case4 w word c input differs => simp [Ne.symm differs]

theorem hexValue?_lt {c : Char} {n : Nat} (value : hexValue? c = some n) : n < 16 := by
  have below {high : Char} (upto : c ≤ high) : c.toNat ≤ high.toNat :=
    UInt32.le_iff_toNat_le.mp upto
  unfold hexValue? at value
  by_cases digit : c.isDigit = true
  · rw [if_pos digit] at value
    have bound : c.toNat ≤ 57 := (Char.isDigit_iff_toNat.mp digit).2
    have same : c.toNat - 48 = n := Option.some.inj value
    omega
  rw [if_neg digit] at value
  by_cases small : 'a' ≤ c ∧ c ≤ 'f'
  · rw [if_pos small] at value
    have bound : c.toNat ≤ 102 := below small.2
    have same : c.toNat - 97 + 10 = n := Option.some.inj value
    omega
  rw [if_neg small] at value
  by_cases capital : 'A' ≤ c ∧ c ≤ 'F'
  · rw [if_pos capital] at value
    have bound : c.toNat ≤ 70 := below capital.2
    have same : c.toNat - 65 + 10 = n := Option.some.inj value
    omega
  rw [if_neg capital] at value
  contradiction

theorem hexUnit?_lt {a b d e : Char} {unit : Nat} (value : hexUnit? a b d e = some unit) :
    unit < 0x10000 := by
  simp only [hexUnit?, Option.bind_eq_bind, Option.bind_eq_some_iff] at value
  obtain ⟨first, isFirst, second, isSecond, third, isThird, fourth, isFourth, same⟩ := value
  have := hexValue?_lt isFirst
  have := hexValue?_lt isSecond
  have := hexValue?_lt isThird
  have := hexValue?_lt isFourth
  have := Option.some.inj same
  omega

theorem exists_hexUnit?_of_readUnit {input rest : List Char} {unit : Nat}
    (read : readUnit input = .ok (unit, rest)) :
    ∃ a b d e, input = a :: b :: d :: e :: rest ∧ hexUnit? a b d e = some unit := by
  unfold readUnit at read
  split at read
  · rename_i a b d e tail
    split at read <;> try contradiction
    rename_i found
    cases read
    exact ⟨a, b, d, e, rfl, found⟩
  · split at read <;> contradiction

theorem toNat_ofNat_of_valid {n : Nat} (valid : n.isValidChar) : (Char.ofNat n).toNat = n := by
  unfold Char.ofNat
  rw [dif_pos valid]
  rfl

/-- A unit that is no surrogate is a character of its own. -/
theorem toNat_ofNat_of_unit {unit : Nat} (bound : unit < 0x10000)
    (notLow : isLowSurrogate unit = false) (notHigh : isHighSurrogate unit = false) :
    (Char.ofNat unit).toNat = unit := by
  apply toNat_ofNat_of_valid
  simp only [isLowSurrogate, isHighSurrogate, Bool.and_eq_false_iff, decide_eq_false_iff_not]
    at notLow notHigh
  by_cases below : unit < 0xD800
  · exact .inl below
  · exact .inr (by omega)

theorem isHighSurrogate_iff {unit : Nat} :
    isHighSurrogate unit = true ↔ ∃ high, unit = 0xD800 + high ∧ high < 0x400 := by
  simp only [isHighSurrogate, Bool.and_eq_true, decide_eq_true_eq]
  constructor
  · rintro ⟨above, below⟩
    exact ⟨unit - 0xD800, by omega, by omega⟩
  · rintro ⟨high, rfl, bound⟩
    omega

theorem isLowSurrogate_iff {unit : Nat} :
    isLowSurrogate unit = true ↔ ∃ low, unit = 0xDC00 + low ∧ low < 0x400 := by
  simp only [isLowSurrogate, Bool.and_eq_true, decide_eq_true_eq]
  constructor
  · rintro ⟨above, below⟩
    exact ⟨unit - 0xDC00, by omega, by omega⟩
  · rintro ⟨low, rfl, bound⟩
    omega

theorem toNat_pairedChar {high low : Nat} (highBound : high < 0x400) (lowBound : low < 0x400) :
    (pairedChar (0xD800 + high) (0xDC00 + low)).toNat = 0x10000 + high * 0x400 + low := by
  have code : (0xD800 + high - 0xD800) * 0x400 + (0xDC00 + low - 0xDC00) + 0x10000 =
      0x10000 + high * 0x400 + low := by omega
  rw [pairedChar, code]
  exact toNat_ofNat_of_valid (.inr (by omega))

theorem exists_escapes_of_readUnitEscape {input rest : List Char} {c : Char}
    (read : readUnitEscape input = .ok (c, rest)) :
    ∃ code, Escapes c ('u' :: code) ∧ input = code ++ rest := by
  unfold readUnitEscape at read
  split at read <;> try contradiction
  rename_i unit tail first
  obtain ⟨a, b, d, e, rfl, digits⟩ := exists_hexUnit?_of_readUnit first
  split at read <;> try contradiction
  rename_i notLow
  split at read
  · rename_i isHigh
    split at read <;> try contradiction
    rename_i tail' word
    obtain rfl := dropWord_eq_ok.mp word
    split at read <;> try contradiction
    rename_i low tail'' second
    obtain ⟨a', b', d', e', rfl, digits'⟩ := exists_hexUnit?_of_readUnit second
    split at read <;> try contradiction
    rename_i isLow
    obtain ⟨rfl, rfl⟩ := Prod.mk.inj (Except.ok.inj read)
    obtain ⟨high, rfl, highBound⟩ := isHighSurrogate_iff.mp isHigh
    obtain ⟨low, rfl, lowBound⟩ := isLowSurrogate_iff.mp isLow
    exact ⟨[a, b, d, e, '\\', 'u', a', b', d', e'],
      .pair digits highBound digits' lowBound (toNat_pairedChar highBound lowBound), rfl⟩
  · rename_i notHigh
    obtain ⟨rfl, rfl⟩ := Prod.mk.inj (Except.ok.inj read)
    have code := toNat_ofNat_of_unit (hexUnit?_lt digits) (Bool.eq_false_iff.mpr notLow)
      (Bool.eq_false_iff.mpr notHigh)
    exact ⟨[a, b, d, e], .unit (code.symm ▸ digits), rfl⟩

theorem exists_escapes_of_readEscape {input rest : List Char} {c : Char}
    (read : readEscape input = .ok (c, rest)) : ∃ code, Escapes c code ∧ input = code ++ rest := by
  cases input with
  | nil => contradiction
  | cons first tail =>
    rw [readEscape] at read
    by_cases unit : first = 'u'
    · rw [if_pos unit] at read
      obtain ⟨code, escapes, same⟩ := exists_escapes_of_readUnitEscape read
      exact ⟨'u' :: code, escapes, by rw [unit, same, List.cons_append]⟩
    · rw [if_neg unit] at read
      split at read <;> try contradiction
      rename_i character stands
      obtain ⟨rfl, rfl⟩ := Prod.mk.inj (Except.ok.inj read)
      exact ⟨[first], .letter stands, rfl⟩

/-- What is read up to a quote stands there for the characters. -/
theorem exists_spelling_of_readStringBody {before input rest : List Char} {s : String}
    (read : readStringBody before input = .ok (s, rest)) :
    ∃ cs text, Spelling cs text ∧ input = text ++ '"' :: rest ∧
      s.toList = before.reverse ++ cs := by
  fun_induction readStringBody before input with
  | case1 => contradiction
  | case2 before tail =>
    obtain ⟨rfl, rfl⟩ := Prod.mk.inj (Except.ok.inj read)
    exact ⟨[], [], .nil, rfl, by simp⟩
  | case3 => contradiction
  | case4 before tail c left escape notQuote ih =>
    obtain ⟨code, escapes, rfl⟩ := exists_escapes_of_readEscape escape
    obtain ⟨cs, text, spelled, rfl, same⟩ := ih read
    refine ⟨c :: cs, '\\' :: code ++ text, .escape escapes spelled, by simp, ?_⟩
    rw [same, List.reverse_cons, List.append_assoc, List.singleton_append]
  | case5 => contradiction
  | case6 before c tail notQuote notBackslash printable ih =>
    obtain ⟨cs, text, spelled, rfl, same⟩ := ih read
    refine ⟨c :: cs, c :: text, .plain notQuote notBackslash (Nat.not_lt.mp printable) spelled,
      rfl, ?_⟩
    rw [same, List.reverse_cons, List.append_assoc, List.singleton_append]

theorem Reader.exists_spelling_of_run_string {c : Char} {input rest : List Char} {s : String}
    (run : string.run (c :: input) = .ok (s, rest)) :
    ∃ spelling, Spelling s.toList spelling ∧ input = spelling ++ '"' :: rest := by
  obtain ⟨cs, text, spelled, same, characters⟩ := exists_spelling_of_readStringBody run
  rw [List.reverse_nil, List.nil_append] at characters
  exact ⟨text, characters ▸ spelled, same⟩

theorem exists_spaces_of_readSeparator {closing : Char} {input rest : List Char} {more : Bool}
    (read : readSeparator closing input = .ok (more, rest)) :
    ∃ spaces, Spaces spaces ∧
      input = spaces ++ (if more = true then ',' else closing) :: rest := by
  obtain ⟨spaces, blank, same⟩ := exists_spaces input
  refine ⟨spaces, blank, same.trans (congrArg _ ?_)⟩
  unfold readSeparator at read
  split at read <;> try contradiction
  rename_i c tail text
  rw [text]
  by_cases comma : c = ','
  · rw [if_pos comma] at read
    obtain ⟨rfl, rfl⟩ := Prod.mk.inj (Except.ok.inj read)
    rw [if_pos rfl, comma]
  · rw [if_neg comma] at read
    split at read <;> try contradiction
    rename_i closes
    obtain ⟨rfl, rfl⟩ := Prod.mk.inj (Except.ok.inj read)
    rw [if_neg Bool.false_ne_true, closes]

theorem Listed.after_spaces {α : Type} {W : α → List Char → Prop} {items : List α}
    {spaces text : List Char} (listed : Listed W items text) (blank : Spaces spaces) :
    Listed W items (spaces ++ text) := by
  cases listed with
  | last blankBefore written blankAfter =>
    rw [← List.append_assoc, ← List.append_assoc]
    exact .last (blank.append blankBefore) written blankAfter
  | cons blankBefore written blankAfter more =>
    rw [← List.append_assoc, ← List.append_assoc, ← List.append_assoc]
    exact .cons (blank.append blankBefore) written blankAfter more

/-- Sequences of items of one kind are the sequences of the items of another kind that go with them.
-/
theorem listed_iff_exists_forall₂ {α β : Type} {W : α → List Char → Prop}
    {V : β → List Char → Prop} {R : β → α → Prop}
    (written : ∀ item text, W item text ↔ ∃ other, R other item ∧ V other text) {items : List α}
    {text : List Char} :
    Listed W items text ↔ ∃ others, List.Forall₂ R others items ∧ Listed V others text := by
  constructor
  · intro listed
    induction listed with
    | last blank isItem blankAfter =>
      obtain ⟨other, related, isOther⟩ := (written _ _).mp isItem
      exact ⟨[other], .cons related .nil, .last blank isOther blankAfter⟩
    | cons blank isItem blankAfter _ ih =>
      obtain ⟨other, related, isOther⟩ := (written _ _).mp isItem
      obtain ⟨others, rest, listed⟩ := ih
      exact ⟨other :: others, .cons related rest, .cons blank isOther blankAfter listed⟩
  · rintro ⟨others, related, listed⟩
    induction listed generalizing items with
    | last blank isOther blankAfter =>
      cases related with
      | cons first rest =>
        cases rest
        exact .last blank ((written _ _).mpr ⟨_, first, isOther⟩) blankAfter
    | cons blank isOther blankAfter _ ih =>
      cases related with
      | cons first rest =>
        exact .cons blank ((written _ _).mpr ⟨_, first, isOther⟩) blankAfter (ih rest)

theorem enclosed_iff_exists_forall₂ {α β : Type} {W : α → List Char → Prop}
    {V : β → List Char → Prop} {R : β → α → Prop}
    (written : ∀ item text, W item text ↔ ∃ other, R other item ∧ V other text) {items : List α}
    {text : List Char} :
    Enclosed W items text ↔ ∃ others, List.Forall₂ R others items ∧ Enclosed V others text := by
  constructor
  · intro enclosed
    cases enclosed with
    | empty blank => exact ⟨[], .nil, .empty blank⟩
    | listed listed =>
      obtain ⟨others, related, listed⟩ := (listed_iff_exists_forall₂ written).mp listed
      exact ⟨others, related, .listed listed⟩
  · rintro ⟨others, related, enclosed⟩
    cases enclosed with
    | empty blank =>
      cases related
      exact .empty blank
    | listed listed =>
      exact .listed ((listed_iff_exists_forall₂ written).mpr ⟨others, related, listed⟩)

namespace Reader

variable {α β σ : Type} {W : α → List Char → Prop} {step : σ → Reader σ} {f : σ → α → σ}
  {input rest : List Char}

/-- The reader takes from the front of a text what may stand there for some item, with white space
before it, and goes on as the item says. -/
def Takes (W : α → List Char → Prop) (reader : Reader σ) (next : α → σ) : Prop :=
  ∀ {input result rest}, reader.run input = .ok (result, rest) →
    ∃ item spaces written, Spaces spaces ∧ W item written ∧ input = spaces ++ written ++ rest ∧
      result = next item

theorem exists_listed_of_items {closing : Char} {state result : σ}
    (takes : ∀ state, (step state).Takes W (f state))
    (read : items closing step state input = .ok (result, rest)) :
    ∃ entries text, Listed W entries text ∧ input = text ++ closing :: rest ∧
      result = entries.foldl f state := by
  fun_induction items closing step state input with
  | case1 => contradiction
  | case2 => contradiction
  | case3 state input next left first tail separated ih =>
    obtain ⟨item, before, written, blank, isItem, rfl, rfl⟩ := takes state first
    obtain ⟨after, blankAfter, rfl⟩ := exists_spaces_of_readSeparator separated
    obtain ⟨entries, text, listed, rfl, same⟩ := ih read
    exact ⟨item :: entries, _, .cons blank isItem blankAfter listed, by simp, same⟩
  | case4 state input next left first tail separated =>
    obtain ⟨item, before, written, blank, isItem, rfl, rfl⟩ := takes state first
    obtain ⟨after, blankAfter, rfl⟩ := exists_spaces_of_readSeparator separated
    obtain ⟨rfl, rfl⟩ := Prod.mk.inj (Except.ok.inj read)
    exact ⟨[item], _, .last blank isItem blankAfter, by simp, rfl⟩

/-- What is read between two brackets is a sequence of items. -/
theorem exists_enclosed_of_bracketed {opening closing : Char} {state result : σ}
    (takes : ∀ state, (step state).Takes W (f state))
    (run : (bracketed closing step state).run (opening :: input) = .ok (result, rest)) :
    ∃ entries text, Enclosed W entries text ∧ input = text ++ closing :: rest ∧
      result = entries.foldl f state := by
  obtain ⟨spaces, blank, same⟩ := exists_spaces input
  change bracketedItems closing step state (opening :: input) = _ at run
  rw [bracketedItems] at run
  split at run <;> try contradiction
  rename_i c tail text
  rw [text] at same
  split at run
  · rename_i closes
    obtain ⟨rfl, rfl⟩ := Prod.mk.inj (Except.ok.inj run)
    exact ⟨[], spaces, .empty blank, closes ▸ same, rfl⟩
  · obtain ⟨entries, inside, listed, cut, folded⟩ := exists_listed_of_items takes run
    refine ⟨entries, spaces ++ inside, .listed (listed.after_spaces blank), ?_, folded⟩
    rw [same, cut, List.append_assoc]

theorem run_check_eq_ok {reader : Reader α} {g : α → Except Failure β} {result : β} :
    (reader.check g).run input = .ok (result, rest) ↔
      ∃ value, reader.run input = .ok (value, rest) ∧ g value = .ok result := by
  simp only [check]
  cases reader.run input with
  | error failure => simp
  | ok read =>
    cases taken : g read.1 with
    | error failure =>
      simp only [taken, reduceCtorEq, false_iff]
      rintro ⟨value, same, other⟩
      rw [Except.ok.inj same] at taken
      rw [taken] at other
      contradiction
    | ok value =>
      simp only [taken, Except.ok.injEq, Prod.mk.injEq]
      constructor
      · rintro ⟨rfl, rfl⟩
        exact ⟨read.1, rfl, taken⟩
      · rintro ⟨other, rfl, same⟩
        exact ⟨Except.ok.inj (taken.symm.trans same), rfl⟩

theorem run_map_eq_ok {reader : Reader α} {g : α → β} {result : β} :
    (reader.map g).run input = .ok (result, rest) ↔
      ∃ value, reader.run input = .ok (value, rest) ∧ g value = result := by
  unfold map
  rw [run_check_eq_ok]
  simp only [Except.ok.injEq]

theorem run_andThen_eq_ok {reader : Reader α} {next : α → Reader β} {result : β} :
    (reader.andThen next).run input = .ok (result, rest) ↔
      ∃ value between, reader.run input = .ok (value, between) ∧
        (next value).run between = .ok (result, rest) := by
  simp only [andThen]
  cases reader.run input with
  | error failure => simp
  | ok read =>
    constructor
    · intro run
      exact ⟨read.1, read.2, rfl, run⟩
    · rintro ⟨value, between, same, run⟩
      cases same
      exact run

theorem run_byFirst_eq_ok {choose : Char → Except Failure (Reader α)} {value : α} :
    (byFirst choose).run input = .ok (value, rest) ↔
      ∃ spaces c tail reader, Spaces spaces ∧ isSpace c = false ∧ input = spaces ++ c :: tail ∧
        choose c = .ok reader ∧ reader.run (c :: tail) = .ok (value, rest) := by
  constructor
  · intro run
    obtain ⟨spaces, blank, same⟩ := exists_spaces input
    simp only [byFirst] at run
    split at run <;> try contradiction
    rename_i c tail skipped
    split at run <;> try contradiction
    rename_i reader chosen
    exact ⟨spaces, c, tail, reader, blank, visible_of_skipSpaces skipped, skipped ▸ same, chosen, run⟩
  · rintro ⟨spaces, c, tail, reader, blank, visible, rfl, chosen, run⟩
    rw [run_byFirst blank visible, chosen]
    exact run

/-- Where only one first character leads to a value, the reader is the one for this character. -/
theorem run_byFirst_eq_ok_of_only {choose : Char → Except Failure (Reader α)} {value : α} {c : Char}
    {reader : Reader α} (visible : isSpace c = false) (chosen : choose c = .ok reader)
    (only : ∀ {first other tail}, choose first = .ok other →
      other.run (first :: tail) = .ok (value, rest) → first = c) :
    (byFirst choose).run input = .ok (value, rest) ↔
      ∃ spaces tail, Spaces spaces ∧ input = spaces ++ c :: tail ∧
        reader.run (c :: tail) = .ok (value, rest) := by
  rw [run_byFirst_eq_ok]
  constructor
  · rintro ⟨spaces, first, tail, other, blank, _, rfl, same, run⟩
    obtain rfl := only same run
    obtain rfl := Except.ok.inj (chosen.symm.trans same)
    exact ⟨spaces, tail, blank, rfl, run⟩
  · rintro ⟨spaces, tail, blank, rfl, run⟩
    exact ⟨spaces, c, tail, reader, blank, visible, rfl, chosen, run⟩

theorem first_eq_of_ite {c first : Char} {reader other : Reader α} {failure : Failure}
    (chosen : (if first = c then .ok reader else .error failure) = Except.ok other) : first = c := by
  split at chosen
  · assumption
  · contradiction

theorem run_symbol_eq_ok {c : Char} (visible : isSpace c = false) :
    (symbol c).run input = .ok ((), rest) ↔
      ∃ spaces, Spaces spaces ∧ input = spaces ++ c :: rest := by
  unfold symbol
  rw [run_byFirst_eq_ok_of_only visible (if_pos rfl) fun chosen _ => first_eq_of_ite chosen]
  constructor
  · rintro ⟨spaces, tail, blank, rfl, run⟩
    obtain ⟨_, rfl⟩ := Prod.mk.inj (Except.ok.inj run)
    exact ⟨spaces, blank, rfl⟩
  · rintro ⟨spaces, blank, rfl⟩
    exact ⟨spaces, rest, blank, rfl, rfl⟩

theorem not_run_refuse {expected : String} {value : α} :
    (refuse expected).run input ≠ .ok (value, rest) := by
  unfold refuse
  intro run
  obtain ⟨found, _, refused⟩ := run_check_eq_ok.mp run
  contradiction

theorem run_word_eq_ok {c : Char} {letters : List Char} {value result : α} :
    (word (c :: letters) value).run (c :: input) = .ok (result, rest) ↔
      result = value ∧ input = letters ++ rest := by
  simp only [word, List.drop_succ_cons, List.drop_zero, ← dropWord_eq_ok]
  cases dropWord letters input with
  | error failure => simp
  | ok left => simp [eq_comm]

theorem run_string_eq_ok {s : String} :
    string.run ('"' :: input) = .ok (s, rest) ↔
      ∃ spelling, Spelling s.toList spelling ∧ input = spelling ++ '"' :: rest := by
  constructor
  · exact exists_spelling_of_run_string
  · rintro ⟨spelling, spelled, rfl⟩
    exact run_string spelled rest

theorem readAll_eq_ok {reader : Reader α} {text : String} {value : α} :
    reader.readAll text = .ok value ↔
      ∃ after, reader.run text.toList = .ok (value, after) ∧ Spaces after := by
  unfold readAll
  cases reader.run text.toList with
  | error failure => simp
  | ok read =>
    have blank : skipSpaces read.2 = [] ↔ Spaces read.2 := List.dropWhile_eq_nil_iff
    simp only [Except.ok.injEq, Prod.ext_iff]
    constructor
    · intro same
      split at same
      · exact ⟨read.2, ⟨Except.ok.inj same, rfl⟩, blank.mp ‹_›⟩
      · contradiction
    · rintro ⟨after, ⟨rfl, rfl⟩, spaces⟩
      exact if_pos (blank.mpr spaces)

theorem readAll_check_eq_ok {reader : Reader α} {g : α → Except Failure β} {text : String}
    {result : β} :
    (reader.check g).readAll text = .ok result ↔
      ∃ value, reader.readAll text = .ok value ∧ g value = .ok result := by
  simp only [readAll_eq_ok, run_check_eq_ok]
  constructor
  · rintro ⟨after, ⟨value, read, checked⟩, blank⟩
    exact ⟨value, ⟨after, read, blank⟩, checked⟩
  · rintro ⟨value, ⟨after, read, blank⟩, checked⟩
    exact ⟨after, ⟨value, read, checked⟩, blank⟩

/-- A member is taken by the reader that its name chooses. -/
theorem exists_of_run_member {step : String → Except Failure (Reader σ)} {result : σ}
    (run : (member step).run input = .ok (result, rest)) :
    ∃ name reader spaces spelling before tail, Spaces spaces ∧ Spelling name.toList spelling ∧
      Spaces before ∧ step name = .ok reader ∧ reader.run tail = .ok (result, rest) ∧
      input = spaces ++ ('"' :: spelling ++ '"' :: before ++ ':' :: tail) := by
  obtain ⟨spaces, blank, same⟩ := exists_spaces input
  simp only [member] at run
  split at run <;> try contradiction
  rename_i c afterFirst skipped
  split at run <;> try contradiction
  rename_i quote
  obtain rfl := Decidable.not_not.mp quote
  split at run <;> try contradiction
  rename_i name afterName named
  obtain ⟨spelling, spelled, rfl⟩ := exists_spelling_of_run_string named
  split at run <;> try contradiction
  rename_i reader chosen
  split at run <;> try contradiction
  rename_i tail dropped
  obtain ⟨before, blankBefore, split⟩ := exists_spaces afterName
  rw [dropWord_eq_ok.mp dropped] at split
  refine ⟨name, reader, spaces, spelling, before, tail, blank, spelled, blankBefore, chosen, run, ?_⟩
  rw [same, skipped, split]
  simp

end Reader

end FilterQuery.Json
