import Mathlib.Tactic.SplitIfs
import FilterQuery.Text.Utf8

/-!
Encoding as UTF-8. Encoded text is decoded as the text, whatever bytes follow it
(`Utf8.units_encode_append`). The order of encoded texts, byte by byte, is the order of the texts by
code point (`Utf8.encode_lt_encode`).
-/
namespace FilterQuery.Text.Utf8

def encode (text : List Char) : List UInt8 := text.flatMap String.utf8EncodeChar

theorem encode_cons (c : Char) (text : List Char) :
    encode (c :: text) = String.utf8EncodeChar c ++ encode text := rfl

theorem encode_append (a b : List Char) : encode (a ++ b) = encode a ++ encode b :=
  List.flatMap_append

/-- The bytes of a text are those that core gives it. -/
theorem encode_toList (s : String) : encode s.toList = s.toUTF8.data.toList := by
  simp [encode, String.toUTF8, ← String.utf8Encode_toList, List.utf8Encode]

theorem toNat_ofNat_of_lt {n : Nat} (small : n < 256) : (UInt8.ofNat n).toNat = n := by
  rw [UInt8.toNat_ofNat']
  exact Nat.mod_eq_of_lt small

theorem ofNat_lt_ofNat {m n : Nat} (small : m < 256) (small' : n < 256) :
    UInt8.ofNat m < UInt8.ofNat n ↔ m < n := by
  rw [UInt8.lt_iff_toNat_lt, toNat_ofNat_of_lt small, toNat_ofNat_of_lt small']

theorem ofNat_eq_ofNat {m n : Nat} (small : m < 256) (small' : n < 256) :
    UInt8.ofNat m = UInt8.ofNat n ↔ m = n := by
  rw [← UInt8.toNat_inj, toNat_ofNat_of_lt small, toNat_ofNat_of_lt small']

theorem valid_code (c : Char) :
    c.val.toNat < 0xD800 ∨ 0xE000 ≤ c.val.toNat ∧ c.val.toNat < 0x110000 := by
  rcases c.valid with below | ⟨above, below⟩
  · exact .inl below
  · exact .inr ⟨above, below⟩

/-- A byte below 0x80 is a character of its own. -/
theorem toNat_of_mem_utf8EncodeChar {c : Char} {byte : UInt8} (small : byte.toNat < 0x80)
    (member : byte ∈ String.utf8EncodeChar c) : c.toNat = byte.toNat := by
  have bound := valid_code c
  unfold Char.toNat
  unfold String.utf8EncodeChar at member
  generalize c.val.toNat = n at *
  simp only at member
  split_ifs at member
  all_goals
    simp (disch := omega) only [List.mem_cons, List.not_mem_nil, or_false, ← UInt8.toNat_inj,
      toNat_ofNat_of_lt] at member
    omega

theorem exists_char_of_mem_encode {text : List Char} {byte : UInt8} (small : byte.toNat < 0x80)
    (member : byte ∈ encode text) : ∃ c ∈ text, c.toNat = byte.toNat := by
  obtain ⟨c, isChar, member⟩ := List.mem_flatMap.mp member
  exact ⟨c, isChar, toNat_of_mem_utf8EncodeChar small member⟩

-- A code point is written in steps of six bits, and taken apart in the same steps.
theorem div_4096 (n : Nat) : n / 4096 = n / 64 / 64 := by omega

theorem div_262144 (n : Nat) : n / 262144 = n / 64 / 64 / 64 := by omega

/-- A character of a smaller code point has smaller bytes, and no bytes after them matter. -/
theorem utf8EncodeChar_append_lt {c d : Char} (less : c < d) (s t : List UInt8) :
    String.utf8EncodeChar c ++ s < String.utf8EncodeChar d ++ t := by
  have less : c.val.toNat < d.val.toNat := less
  have bound := valid_code d
  unfold String.utf8EncodeChar
  simp only [div_4096, div_262144]
  generalize c.val.toNat = m at *
  generalize d.val.toNat = n at *
  split_ifs
  all_goals
    simp (disch := omega) only [List.cons_append, List.nil_append, List.cons_lt_cons_iff,
      ofNat_lt_ofNat, ofNat_eq_ofNat]
  all_goals omega

theorem encode_lt_encode_of_lt {a b : List Char} (less : a < b) : encode a < encode b := by
  induction a generalizing b with
  | nil =>
    cases b with
    | nil => exact absurd less (List.lt_irrefl _)
    | cons d b =>
      obtain ⟨byte, rest, bytes⟩ := List.exists_cons_of_ne_nil (String.utf8EncodeChar_ne_nil (c := d))
      rw [encode_cons, bytes]
      exact List.nil_lt_cons _ _
  | cons c a ih =>
    cases b with
    | nil => exact absurd less (List.not_lt_nil _)
    | cons d b =>
      rw [encode_cons, encode_cons]
      rcases List.cons_lt_cons_iff.mp less with first | ⟨rfl, rest⟩
      · exact utf8EncodeChar_append_lt first _ _
      · exact List.append_left_lt (ih rest)

/-- Texts are ordered as their bytes are. -/
theorem encode_lt_encode {a b : List Char} : encode a < encode b ↔ a < b := by
  refine ⟨fun less => Decidable.byContradiction fun notLess => ?_, encode_lt_encode_of_lt⟩
  rcases List.le_iff_lt_or_eq.mp (List.not_lt.mp notLess) with greater | rfl
  · exact List.lt_irrefl _ (List.lt_trans less (encode_lt_encode_of_lt greater))
  · exact List.lt_irrefl _ less

theorem contains_ofNat {range : ByteRange} {n : Nat} (small : n < 256) :
    range.contains (UInt8.ofNat n) = true ↔ range.first.toNat ≤ n ∧ n ≤ range.last.toNat := by
  rw [ByteRange.contains, Bool.and_eq_true, decide_eq_true_eq, decide_eq_true_eq,
    UInt8.le_iff_toNat_le, UInt8.le_iff_toNat_le, toNat_ofNat_of_lt small]

theorem contains_tail {low : Nat} (small : low < 64) :
    tail.contains (UInt8.ofNat (low + 0x80)) = true := by
  rw [contains_ofNat (by omega), tail]
  simp only [UInt8.reduceToNat]
  omega

/-- A byte in its range contributes six bits. -/
theorem follow_ofNat {range : ByteRange} {low : Nat} (small : low < 64)
    (inRange : range.contains (UInt8.ofNat (low + 0x80)) = true) (bits : Nat)
    (ranges : List ByteRange) (rest : List UInt8) :
    follow bits (range :: ranges) (UInt8.ofNat (low + 0x80) :: rest) =
      follow (bits * 64 + low) ranges rest := by
  have six : (UInt8.ofNat (low + 0x80)).toNat % 64 = low := by
    rw [toNat_ofNat_of_lt (by omega)]
    omega
  rw [follow, if_pos inRange, six]

theorem announced_one {n : Nat} (small : n < 0x80) : announced (UInt8.ofNat n) = some (n, []) := by
  have value : (UInt8.ofNat n).toNat = n := toNat_ofNat_of_lt (by omega)
  unfold announced
  simp only [UInt8.lt_iff_toNat_lt, value, UInt8.reduceToNat]
  rw [if_pos small]

theorem announced_two {n : Nat} (least : 2 ≤ n) (small : n < 0x20) :
    announced (UInt8.ofNat (n + 0xC0)) = some (n, [tail]) := by
  have value : (UInt8.ofNat (n + 0xC0)).toNat = n + 0xC0 := toNat_ofNat_of_lt (by omega)
  unfold announced
  simp only [UInt8.lt_iff_toNat_lt, value, UInt8.reduceToNat]
  rw [if_neg (by omega), if_neg (by omega), if_pos (by omega), Nat.add_sub_cancel]

/-- What the first of three bytes announces leaves room for every character of three bytes. -/
theorem announced_three {n : Nat} (small : n < 0x10) :
    ∃ range, announced (UInt8.ofNat (n + 0xE0)) = some (n, [range, tail]) ∧
      ∀ low, low < 64 → (n = 0 → 0x20 ≤ low) → (n = 13 → low < 0x20) →
        range.contains (UInt8.ofNat (low + 0x80)) = true := by
  have value : (UInt8.ofNat (n + 0xE0)).toNat = n + 0xE0 := toNat_ofNat_of_lt (by omega)
  unfold announced
  simp only [UInt8.lt_iff_toNat_lt, ← UInt8.toNat_inj, value, UInt8.reduceToNat]
  rw [if_neg (by omega), if_neg (by omega), if_neg (by omega)]
  by_cases least : n = 0
  · subst least
    refine ⟨_, rfl, fun low _ above _ => ?_⟩
    rw [contains_ofNat (by omega)]
    simp only [UInt8.reduceToNat]
    omega
  by_cases surrogates : n = 13
  · subst surrogates
    refine ⟨_, rfl, fun low _ _ below => ?_⟩
    rw [contains_ofNat (by omega)]
    simp only [UInt8.reduceToNat]
    omega
  rw [if_neg (by omega), if_neg (by omega), if_pos (by omega), Nat.add_sub_cancel]
  exact ⟨tail, rfl, fun low bound _ _ => contains_tail bound⟩

/-- What the first of four bytes announces leaves room for every character of four bytes. -/
theorem announced_four {n : Nat} (small : n ≤ 4) :
    ∃ range, announced (UInt8.ofNat (n + 0xF0)) = some (n, [range, tail, tail]) ∧
      ∀ low, low < 64 → (n = 0 → 0x10 ≤ low) → (n = 4 → low < 0x10) →
        range.contains (UInt8.ofNat (low + 0x80)) = true := by
  have value : (UInt8.ofNat (n + 0xF0)).toNat = n + 0xF0 := toNat_ofNat_of_lt (by omega)
  unfold announced
  simp only [UInt8.lt_iff_toNat_lt, ← UInt8.toNat_inj, value, UInt8.reduceToNat]
  rw [if_neg (by omega), if_neg (by omega), if_neg (by omega), if_neg (by omega),
    if_neg (by omega), if_neg (by omega)]
  by_cases least : n = 0
  · subst least
    refine ⟨_, rfl, fun low _ above _ => ?_⟩
    rw [contains_ofNat (by omega)]
    simp only [UInt8.reduceToNat]
    omega
  by_cases greatest : n = 4
  · subst greatest
    refine ⟨_, rfl, fun low _ _ below => ?_⟩
    rw [contains_ofNat (by omega)]
    simp only [UInt8.reduceToNat]
    omega
  rw [if_neg (by omega), if_pos (by omega), Nat.add_sub_cancel]
  exact ⟨tail, rfl, fun low bound _ _ => contains_tail bound⟩

theorem units_of_announced {byte : UInt8} {bits : Nat} {ranges : List ByteRange}
    (announces : announced byte = some (bits, ranges)) {rest after : List UInt8} {c : Char}
    (followed : follow bits ranges rest = (some c, after)) :
    units (byte :: rest) = some c :: units after := by
  rw [units, announces]
  dsimp only
  rw [followed]

/-- The bytes of a character are one unit. -/
theorem units_utf8EncodeChar_append (c : Char) (bytes : List UInt8) :
    units (String.utf8EncodeChar c ++ bytes) = some c :: units bytes := by
  have valid := valid_code c
  have same : Char.ofNat c.val.toNat = c := Char.ofNat_toNat c
  unfold String.utf8EncodeChar
  simp only [div_4096, div_262144]
  generalize c.val.toNat = n at *
  split_ifs
  all_goals simp only [List.cons_append, List.nil_append]
  · refine units_of_announced (announced_one (by omega)) ?_
    rw [follow, same]
  · refine units_of_announced (announced_two (by omega) (by omega)) ?_
    have code : n / 64 % 32 * 64 + n % 64 = n := by omega
    rw [follow_ofNat (by omega) (contains_tail (by omega)), follow, code, same]
  · obtain ⟨range, announces, contains⟩ := announced_three (n := n / 64 / 64 % 16) (by omega)
    refine units_of_announced announces ?_
    have code : (n / 64 / 64 % 16 * 64 + n / 64 % 64) * 64 + n % 64 = n := by omega
    rw [follow_ofNat (by omega) (contains _ (by omega) (by omega) (by omega)),
      follow_ofNat (by omega) (contains_tail (by omega)), follow, code, same]
  · obtain ⟨range, announces, contains⟩ := announced_four (n := n / 64 / 64 / 64 % 8) (by omega)
    refine units_of_announced announces ?_
    have code : ((n / 64 / 64 / 64 % 8 * 64 + n / 64 / 64 % 64) * 64 + n / 64 % 64) * 64 + n % 64 =
        n := by omega
    rw [follow_ofNat (by omega) (contains _ (by omega) (by omega) (by omega)),
      follow_ofNat (by omega) (contains_tail (by omega)),
      follow_ofNat (by omega) (contains_tail (by omega)), follow, code, same]

theorem units_encode_append (text : List Char) (bytes : List UInt8) :
    units (encode text ++ bytes) = text.map some ++ units bytes := by
  induction text with
  | nil => rfl
  | cons c text ih =>
    rw [encode_cons, List.append_assoc, units_utf8EncodeChar_append, ih]
    rfl

/-- Encoded text is decoded as the text. -/
theorem decodeLossy_encode (text : List Char) : decodeLossy (encode text) = text := by
  have whole := units_encode_append text []
  rw [List.append_nil, units, List.append_nil] at whole
  rw [decodeLossy, whole, List.map_map]
  exact List.map_id text

end FilterQuery.Text.Utf8
