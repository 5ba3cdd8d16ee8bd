import FilterQuery.Number.Magnitude
import FilterQuery.Text.Utf8

/-!
ASCII in UTF-8. A character of several bytes has a code point above ASCII, and a broken piece is
replaced by one above it, so an ASCII character in decoded text comes from its own byte.
-/
namespace FilterQuery.Text.Utf8

/-- The bytes that follow only add to the bits that are announced. -/
theorem exists_code_of_follow {bits : Nat} {ranges : List ByteRange} {bytes : List UInt8} {c : Char}
    (read : (follow bits ranges bytes).1 = some c) :
    ∃ code, c = Char.ofNat code ∧ bits * 64 ^ ranges.length ≤ code := by
  fun_induction follow bits ranges bytes with
  | case1 bits bytes =>
    refine ⟨bits, (Option.some.inj read).symm, ?_⟩
    simp
  | case2 => contradiction
  | case3 bits range ranges byte rest _ ih =>
    obtain ⟨code, same, least⟩ := ih read
    refine ⟨code, same, ?_⟩
    have grows : bits * 64 ≤ bits * 64 + byte.toNat % 64 := Nat.le_add_right _ _
    calc bits * 64 ^ (range :: ranges).length
        = bits * 64 * 64 ^ ranges.length := by
          rw [List.length_cons, Nat.pow_succ, Nat.mul_assoc, Nat.mul_comm 64]
      _ ≤ (bits * 64 + byte.toNat % 64) * 64 ^ ranges.length := Nat.mul_le_mul_right _ grows
      _ ≤ code := least
  | case4 => contradiction

/-- The narrow second ranges see to it that no character is longer than it has to be. -/
theorem le_of_announced {byte next : UInt8} {bits : Nat} {range : ByteRange}
    {ranges : List ByteRange} (announces : announced byte = some (bits, range :: ranges))
    (inRange : range.contains next = true) :
    0x80 ≤ (bits * 64 + next.toNat % 64) * 64 ^ ranges.length := by
  revert announces
  fun_cases announced byte
  all_goals
    simp only [Option.some.injEq, Prod.mk.injEq, List.cons.injEq, reduceCtorEq, and_false,
      false_implies]
  all_goals
    rintro ⟨rfl, rfl, rfl⟩
    simp only [ByteRange.contains, tail, Bool.and_eq_true, decide_eq_true_eq, UInt8.le_iff_toNat_le,
      UInt8.lt_iff_toNat_lt, ← UInt8.toNat_inj, UInt8.reduceToNat, List.length_cons,
      List.length_nil, Nat.pow_zero, Nat.zero_add, Nat.reducePow] at *
    omega

/-- A character of several bytes is no ASCII character. -/
theorem ascii_lt_of_follow {byte : UInt8} {bits : Nat} {range : ByteRange} {ranges : List ByteRange}
    {bytes : List UInt8} {c : Char} (announces : announced byte = some (bits, range :: ranges))
    (read : (follow bits (range :: ranges) bytes).1 = some c) : c = '\x00' ∨ 0x80 ≤ c.toNat := by
  cases bytes with
  | nil => contradiction
  | cons next rest =>
    rw [follow] at read
    by_cases inRange : range.contains next = true
    · rw [if_pos inRange] at read
      obtain ⟨code, rfl, least⟩ := exists_code_of_follow read
      have above := Nat.le_trans (le_of_announced announces inRange) least
      by_cases valid : code.isValidChar
      · right
        rw [Char.ofNat, dif_pos valid]
        exact above
      · left
        rw [Char.ofNat, dif_neg valid]
        rfl
    · rw [if_neg inRange] at read
      contradiction

theorem follow_suffix (bits : Nat) (ranges : List ByteRange) (bytes : List UInt8) :
    (follow bits ranges bytes).2 <:+ bytes := by
  fun_induction follow bits ranges bytes with
  | case1 => exact List.suffix_rfl
  | case2 => exact List.suffix_rfl
  | case3 _ _ _ byte rest _ ih => exact ih.trans (List.suffix_cons byte rest)
  | case4 => exact List.suffix_rfl

theorem announced_alone {byte : UInt8} {bits : Nat} (announces : announced byte = some (bits, [])) :
    bits = byte.toNat ∧ byte.toNat < 0x80 := by
  revert announces
  fun_cases announced byte with
  | case1 ascii =>
    intro announces
    obtain ⟨rfl, _⟩ := Prod.mk.inj (Option.some.inj announces)
    exact ⟨rfl, UInt8.lt_iff_toNat_lt.mp ascii⟩
  | case2 | case3 | case4 | case5 | case6 | case7 | case8 | case9 | case10 => simp

/-- An ASCII character other than NUL is decoded from its own byte. -/
theorem exists_byte_of_mem_units {bytes : List UInt8} {c : Char} (ascii : c.toNat < 0x80)
    (notNull : c ≠ '\x00') (member : some c ∈ units bytes) :
    ∃ byte ∈ bytes, byte.toNat = c.toNat := by
  fun_induction units bytes with
  | case1 => cases member
  | case2 byte rest _ ih =>
    rcases List.mem_cons.mp member with first | later
    · cases first
    · obtain ⟨found, isByte, same⟩ := ih later
      exact ⟨found, List.mem_cons_of_mem _ isByte, same⟩
  | case3 byte rest bits ranges announces ih =>
    rcases List.mem_cons.mp member with first | later
    · cases ranges with
      | nil =>
        obtain ⟨rfl, small⟩ := announced_alone announces
        have same : c = Char.ofNat byte.toNat := Option.some.inj first
        have valid : byte.toNat.isValidChar := .inl (by omega)
        refine ⟨byte, List.mem_cons_self, ?_⟩
        rw [same, Char.ofNat, dif_pos valid]
        rfl
      | cons range ranges =>
        have other := ascii_lt_of_follow announces first.symm
        rcases other with null | above
        · exact absurd null notNull
        · omega
    · obtain ⟨found, isByte, same⟩ := ih later
      have inRest : found ∈ rest := (follow_suffix bits ranges rest).subset isByte
      exact ⟨found, List.mem_cons_of_mem _ inRest, same⟩

theorem exists_byte_of_mem_decodeLossy {bytes : List UInt8} {c : Char} (ascii : c.toNat < 0x80)
    (notNull : c ≠ '\x00') (member : c ∈ decodeLossy bytes) :
    ∃ byte ∈ bytes, byte.toNat = c.toNat := by
  obtain ⟨unit, isUnit, same⟩ := List.mem_map.mp member
  cases unit with
  | some d =>
    obtain rfl : d = c := same
    exact exists_byte_of_mem_units ascii notNull isUnit
  | none =>
    obtain rfl : '\uFFFD' = c := same
    exact absurd ascii (by decide)

end FilterQuery.Text.Utf8
