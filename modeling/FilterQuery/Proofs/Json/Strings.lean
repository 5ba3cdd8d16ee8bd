import FilterQuery.Json.Printer
import FilterQuery.Proofs.Json.Grammar

/-!
JSON strings, read and written. Whatever the grammar lets stand for characters is read as them
(`readStringBody_of_spelling`), and the text that is written for characters stands for them
(`spelling_flatMap_escapeChar`).
-/
namespace FilterQuery.Json

theorem readUnit_of_hexUnit? {a b d e : Char} {unit : Nat} (digits : hexUnit? a b d e = some unit)
    (rest : List Char) : readUnit (a :: b :: d :: e :: rest) = .ok (unit, rest) := by
  simp only [readUnit, digits]

/-- No character is half of a surrogate pair. -/
theorem not_surrogate (c : Char) :
    isLowSurrogate c.toNat = false ∧ isHighSurrogate c.toNat = false := by
  -- Characters are scalar values, so there are none from U+D800 to U+DFFF.
  have range : c.toNat < 0xD800 ∨ 0xDFFF < c.toNat := by
    rcases c.valid with below | above
    · exact .inl below
    · exact .inr above.1
  simp only [isLowSurrogate, isHighSurrogate, Bool.and_eq_false_iff, decide_eq_false_iff_not]
  omega

theorem readUnitEscape_of_unit {a b d e c : Char} (digits : hexUnit? a b d e = some c.toNat)
    (rest : List Char) : readUnitEscape (a :: b :: d :: e :: rest) = .ok (c, rest) := by
  obtain ⟨notLow, notHigh⟩ := not_surrogate c
  simp only [readUnitEscape, readUnit_of_hexUnit? digits, notLow, notHigh, Char.ofNat_toNat]
  rfl

theorem readUnitEscape_of_pair {a b d e a' b' d' e' c : Char} {high low : Nat}
    (first : hexUnit? a b d e = some (0xD800 + high)) (highBound : high < 0x400)
    (second : hexUnit? a' b' d' e' = some (0xDC00 + low)) (lowBound : low < 0x400)
    (code : c.toNat = 0x10000 + high * 0x400 + low) (rest : List Char) :
    readUnitEscape (a :: b :: d :: e :: '\\' :: 'u' :: a' :: b' :: d' :: e' :: rest) =
      .ok (c, rest) := by
  have notLow : isLowSurrogate (0xD800 + high) = false := by
    simp only [isLowSurrogate, Bool.and_eq_false_iff, decide_eq_false_iff_not]
    omega
  have isHigh : isHighSurrogate (0xD800 + high) = true := by
    simp only [isHighSurrogate, Bool.and_eq_true, decide_eq_true_eq]
    omega
  have isLow : isLowSurrogate (0xDC00 + low) = true := by
    simp only [isLowSurrogate, Bool.and_eq_true, decide_eq_true_eq]
    omega
  have paired : pairedChar (0xD800 + high) (0xDC00 + low) = c := by
    rw [pairedChar, Nat.add_sub_cancel_left, Nat.add_sub_cancel_left, ← Char.ofNat_toNat c, code]
    congr 1
    omega
  simp only [readUnitEscape, readUnit_of_hexUnit? first, notLow, isHigh, dropWord, if_true,
    readUnit_of_hexUnit? second, isLow, paired]
  rfl

theorem readEscape_of_escapes {c : Char} {code : List Char} (escapes : Escapes c code)
    (rest : List Char) : readEscape (code ++ rest) = .ok (c, rest) := by
  cases escapes with
  | @letter letter stands =>
    have notUnit : letter ≠ 'u' := by
      rintro rfl
      cases stands
    rw [List.singleton_append, readEscape, if_neg notUnit, stands]
  | unit digits => exact readUnitEscape_of_unit digits rest
  | pair first highBound second lowBound code =>
    exact readUnitEscape_of_pair first highBound second lowBound code rest

theorem readStringBody_quote (before rest : List Char) :
    readStringBody before ('"' :: rest) = .ok (String.ofList before.reverse, rest) := by
  rw [readStringBody, if_pos rfl]

theorem readStringBody_plain {c : Char} (notQuote : c ≠ '"') (notBackslash : c ≠ '\\')
    (printable : 0x20 ≤ c.toNat) (before rest : List Char) :
    readStringBody before (c :: rest) = readStringBody (c :: before) rest := by
  rw [readStringBody, if_neg notQuote, if_neg notBackslash, if_neg (Nat.not_lt.mpr printable)]

theorem readStringBody_escape {c : Char} {rest left : List Char}
    (read : readEscape rest = .ok (c, left)) (before : List Char) :
    readStringBody before ('\\' :: rest) = readStringBody (c :: before) left := by
  rw [readStringBody, if_neg (by decide), if_pos rfl]
  split
  case h_1 failed =>
    rw [read] at failed
    cases failed
  case h_2 read' =>
    rw [read] at read'
    cases read'
    rfl

/-- What stands for characters up to a quote is read as these characters. -/
theorem readStringBody_of_spelling {cs text : List Char} (spelled : Spelling cs text)
    (before rest : List Char) :
    readStringBody before (text ++ '"' :: rest) =
      .ok (String.ofList (before.reverse ++ cs), rest) := by
  induction spelled generalizing before with
  | nil => rw [List.nil_append, readStringBody_quote, List.append_nil]
  | plain notQuote notBackslash printable _ ih =>
    rw [List.cons_append, readStringBody_plain notQuote notBackslash printable, ih,
      List.reverse_cons, List.append_assoc]
    rfl
  | escape escapes _ ih =>
    rw [List.cons_append, List.cons_append, List.append_assoc,
      readStringBody_escape (readEscape_of_escapes escapes _), ih, List.reverse_cons,
      List.append_assoc]
    rfl

theorem Reader.run_string {s : String} {spelling : List Char} (spelled : Spelling s.toList spelling)
    (rest : List Char) : string.run ('"' :: spelling ++ '"' :: rest) = .ok (s, rest) := by
  have read := readStringBody_of_spelling spelled [] rest
  rw [List.reverse_nil, List.nil_append, String.ofList_toList] at read
  exact read

theorem hexUnit?_hexDigit {n : Nat} (control : n < 0x20) :
    hexUnit? '0' '0' (hexDigit (n / 16)) (hexDigit n) = some n := by
  revert n
  decide

/-- The characters that are written as a backslash and a letter. -/
def lettered : List Char := ['"', '\\', '\x08', '\t', '\n', '\x0c', '\r']

theorem escapeChar_of_notMem {c : Char} (notMem : c ∉ lettered) :
    escapeChar c =
      if c.toNat < 0x20 then ['\\', 'u', '0', '0', hexDigit (c.toNat / 16), hexDigit c.toNat]
      else [c] := by
  simp only [lettered, List.mem_cons, not_or] at notMem
  simp only [escapeChar, notMem, if_false]

/-- One character as it is written, before what stands for other characters. -/
theorem spelling_cons_escapeChar (c : Char) {cs text : List Char} (spelled : Spelling cs text) :
    Spelling (c :: cs) (escapeChar c ++ text) := by
  by_cases member : c ∈ lettered
  · simp only [lettered, List.mem_cons, List.not_mem_nil, or_false] at member
    rcases member with rfl | rfl | rfl | rfl | rfl | rfl | rfl <;>
      exact .escape (.letter rfl) spelled
  · rw [escapeChar_of_notMem member]
    by_cases control : c.toNat < 0x20
    · rw [if_pos control]
      exact .escape (.unit (hexUnit?_hexDigit control)) spelled
    · rw [if_neg control]
      refine .plain ?_ ?_ (Nat.not_lt.mp control) spelled
      · rintro rfl
        exact member (by decide)
      · rintro rfl
        exact member (by decide)

/-- The text that is written between the quotes of a string stands for its characters. -/
theorem spelling_flatMap_escapeChar (cs : List Char) : Spelling cs (cs.flatMap escapeChar) := by
  induction cs with
  | nil => exact .nil
  | cons c cs ih =>
    rw [List.flatMap_cons]
    exact spelling_cons_escapeChar c ih

end FilterQuery.Json
