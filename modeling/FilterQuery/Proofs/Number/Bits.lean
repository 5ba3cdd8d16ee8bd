import FilterQuery.Number.Binary64
import FilterQuery.Proofs.Number.Rounding

/-!
Interchange bits of finite floats. A magnitude and its two fields determine each other
(`magnitudeBits_ofFields`, `exists_ofFields`), so a finite float has exactly one pattern of bits
(`ofBits_eq_finite_iff`), the two zeros included.
-/
namespace FilterQuery.Binary64

open Magnitude (spareBits)

theorem spareBits_of_leading {m : Nat} (leading : 2 ^ (52 : Nat) ≤ m) (small : m < 2 ^ (53 : Nat))
    (s : Nat) : spareBits (m * 2 ^ s) = s := by
  have power := Nat.two_pow_pos s
  have bits : (m * 2 ^ s).log2 = 52 + s := by
    rw [Nat.log2_eq_iff (Nat.mul_pos (by omega) power).ne', Nat.pow_add,
      Nat.add_right_comm, Nat.pow_add]
    exact ⟨Nat.mul_le_mul_right _ leading, Nat.mul_lt_mul_of_pos_right small power⟩
  rw [spareBits, bits, Nat.add_sub_cancel_left]

theorem spareBits_of_small {m : Nat} (small : m < 2 ^ (53 : Nat)) : spareBits m = 0 :=
  Nat.le_zero.mp (Magnitude.spareBits_le small)

theorem magnitudeBits_ofFields (exponent : Fin 2047) (fraction : Fin (2 ^ (52 : Nat))) :
    magnitudeBits (ofFields exponent fraction) = exponent.val * 2 ^ (52 : Nat) + fraction.val := by
  have few := fraction.isLt
  rw [magnitudeBits, ofFields]
  by_cases subnormal : exponent.val = 0
  · rw [if_pos subnormal, subnormal]
    dsimp only
    rw [Nat.pow_zero, Nat.mul_one, spareBits_of_small (by omega), Nat.pow_zero, Nat.div_one]
  · rw [if_neg subnormal]
    dsimp only
    rw [spareBits_of_leading (by omega) (by omega), Nat.mul_div_cancel _ (Nat.two_pow_pos _)]
    omega

/-- A magnitude from 2^-1022 on is 53 bits and a power of two. -/
theorem exists_significand {magnitude : Magnitude} (normal : 2 ^ (52 : Nat) ≤ magnitude.units) :
    ∃ m s, magnitude.units = m * 2 ^ s ∧ 2 ^ (52 : Nat) ≤ m ∧ m < 2 ^ (53 : Nat) ∧ s < 2046 := by
  have nonzero : magnitude.units ≠ 0 := by omega
  have leading : 52 + spareBits magnitude.units = magnitude.units.log2 :=
    Nat.add_sub_of_le ((Nat.le_log2 nonzero).mpr normal)
  have lower := Nat.log2_self_le nonzero
  have upper := Magnitude.lt_two_pow_spareBits magnitude.units
  have below : magnitude.units < Magnitude.limit := magnitude.representable.1
  obtain ⟨m, multiple⟩ := magnitude.precise_units
  rw [← leading] at lower
  generalize spareBits magnitude.units = s at lower upper multiple
  have range : 52 + s < Magnitude.width := by
    unfold Magnitude.limit at below
    exact (Nat.pow_lt_pow_iff_right Nat.one_lt_two).mp (Nat.lt_of_le_of_lt lower below)
  rw [multiple, Nat.mul_comm] at lower upper ⊢
  rw [Nat.pow_add] at lower upper
  refine ⟨m, s, rfl, Nat.le_of_mul_le_mul_right lower (Nat.two_pow_pos s),
    Nat.lt_of_mul_lt_mul_right upper, ?_⟩
  unfold Magnitude.width at range
  omega

theorem exists_ofFields (magnitude : Magnitude) :
    ∃ exponent fraction, ofFields exponent fraction = magnitude := by
  rcases Nat.lt_or_ge magnitude.units (2 ^ (52 : Nat)) with subnormal | normal
  · refine ⟨⟨0, by decide⟩, ⟨magnitude.units, subnormal⟩, Magnitude.ext_units ?_⟩
    rw [ofFields, if_pos rfl]
    dsimp only
    rw [Nat.pow_zero, Nat.mul_one]
  · obtain ⟨m, s, same, leading, small, range⟩ := exists_significand normal
    refine ⟨⟨s + 1, by omega⟩, ⟨m - 2 ^ (52 : Nat), by omega⟩, Magnitude.ext_units ?_⟩
    rw [ofFields, if_neg (Nat.succ_ne_zero s), same]
    dsimp only
    rw [Nat.add_sub_of_le leading, Nat.add_sub_cancel]

/-- The bits of a finite float are its sign and its two fields. -/
theorem toNat_toBits (negative : Bool) (exponent : Fin 2047) (fraction : Fin (2 ^ (52 : Nat))) :
    (toBits (.finite negative (ofFields exponent fraction))).toNat =
      signBit negative + (exponent.val * 2 ^ (52 : Nat) + fraction.val) := by
  have few := fraction.isLt
  have most := exponent.isLt
  have sign : signBit negative ≤ 2 ^ (63 : Nat) := by cases negative <;> decide
  rw [toBits, magnitudeBits_ofFields, UInt64.toNat_ofNat_of_lt']
  rw [UInt64.size]
  omega

/-- Bits whose exponent field is not the largest are those of a finite float. -/
theorem ofBits_of_toNat_eq {bits : UInt64} {negative : Bool} {exponent : Fin 2047}
    {fraction : Fin (2 ^ (52 : Nat))} (same : bits.toNat =
      signBit negative + (exponent.val * 2 ^ (52 : Nat) + fraction.val)) :
    ofBits bits = .finite negative (ofFields exponent fraction) := by
  have few := fraction.isLt
  have most := exponent.isLt
  have parts : (decide (2 ^ (63 : Nat) ≤ bits.toNat) = negative ∧
      bits.toNat / 2 ^ (52 : Nat) % 2 ^ (11 : Nat) = exponent.val) ∧
        bits.toNat % 2 ^ (52 : Nat) = fraction.val := by
    cases negative with
    | false =>
      rw [decide_eq_false_iff_not]
      rw [signBit, if_neg (by decide)] at same
      omega
    | true =>
      rw [decide_eq_true_iff]
      rw [signBit, if_pos rfl] at same
      omega
  obtain ⟨⟨sign, field⟩, rest⟩ := parts
  unfold ofBits
  dsimp only
  rw [dif_pos (field ▸ most), sign]
  congr 2
  · exact Fin.ext field
  · exact Fin.ext rest

theorem ofBits_toBits (negative : Bool) (magnitude : Magnitude) :
    ofBits (toBits (.finite negative magnitude)) = .finite negative magnitude := by
  obtain ⟨exponent, fraction, rfl⟩ := exists_ofFields magnitude
  exact ofBits_of_toNat_eq (toNat_toBits negative exponent fraction)

theorem toBits_ofBits {bits : UInt64} {negative : Bool} {magnitude : Magnitude}
    (known : ofBits bits = .finite negative magnitude) :
    toBits (.finite negative magnitude) = bits := by
  have size := bits.toNat_lt
  unfold ofBits at known
  dsimp only at known
  split at known
  case isTrue small =>
    cases known
    rw [← UInt64.toNat_inj, toNat_toBits]
    dsimp only
    by_cases negative : 2 ^ (63 : Nat) ≤ bits.toNat
    · rw [decide_eq_true negative, signBit, if_pos rfl]
      omega
    · rw [decide_eq_false negative, signBit, if_neg (by decide)]
      omega
  case isFalse =>
    split at known <;> cases known

/-- A finite float has one pattern of bits. -/
theorem ofBits_eq_finite_iff {bits : UInt64} {negative : Bool} {magnitude : Magnitude} :
    ofBits bits = .finite negative magnitude ↔ bits = toBits (.finite negative magnitude) :=
  ⟨fun known => (toBits_ofBits known).symm, fun same => same ▸ ofBits_toBits negative magnitude⟩

end FilterQuery.Binary64
