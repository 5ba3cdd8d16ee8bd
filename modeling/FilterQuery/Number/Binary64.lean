import FilterQuery.Number.Magnitude

/-!
Binary64 numbers: finite ones with a sign and a magnitude, the two infinities, and one value for
everything that is not a number. Both zeros exist and are equal in the numeric order; what is not a
number is not even equal to itself.
-/
namespace FilterQuery

inductive Binary64 where
  | nan
  | infinite (negative : Bool)
  | finite (negative : Bool) (magnitude : Magnitude)
  deriving DecidableEq

namespace Binary64

/-- The magnitude with the given exponent and fraction fields. -/
def ofFields (exponent : Fin 2047) (fraction : Fin (2 ^ (52 : Nat))) : Magnitude :=
  if exponent.val = 0 then
    ⟨fraction.val * 2 ^ (0 : Nat), representable fraction.val 0 (by omega) (by omega)⟩
  else
    ⟨(2 ^ (52 : Nat) + fraction.val) * 2 ^ (exponent.val - 1),
      representable (2 ^ (52 : Nat) + fraction.val) (exponent.val - 1) (by omega) (by omega)⟩
where
  representable (m s : Nat) (significand : m < 2 ^ (53 : Nat)) (scale : s ≤ 2045) :
      Magnitude.Representable (m * 2 ^ s) := by
    refine Magnitude.representable_mul (Nat.le_of_lt significand) ?_
    calc m * 2 ^ s < 2 ^ (53 : Nat) * 2 ^ s :=
          Nat.mul_lt_mul_of_pos_right significand (Nat.two_pow_pos s)
      _ = 2 ^ (53 + s) := (Nat.pow_add 2 53 s).symm
      _ ≤ Magnitude.limit := Magnitude.two_pow_le_limit (by unfold Magnitude.width; omega)

/-- The number with the given interchange bits: a sign bit, an exponent field of 11 bits and a
fraction field of 52 bits. -/
def ofBits (bits : UInt64) : Binary64 :=
  let negative := 2 ^ (63 : Nat) ≤ bits.toNat
  let exponent := bits.toNat / 2 ^ (52 : Nat) % 2 ^ (11 : Nat)
  let fraction : Fin (2 ^ (52 : Nat)) := ⟨bits.toNat % 2 ^ (52 : Nat), Nat.mod_lt _ (by decide)⟩
  if small : exponent < 2047 then finite negative (ofFields ⟨exponent, small⟩ fraction)
  else if fraction.val = 0 then infinite negative
  else nan

/-- The exponent and fraction fields of a magnitude, as one number. -/
def magnitudeBits (magnitude : Magnitude) : Nat :=
  let spare := Magnitude.spareBits magnitude.units
  spare * 2 ^ (52 : Nat) + magnitude.units / 2 ^ spare

def signBit (negative : Bool) : Nat := if negative then 2 ^ (63 : Nat) else 0

/-- The interchange bits; all that is not a number has the quiet pattern with no payload. -/
def toBits : Binary64 → UInt64
  | nan => 0x7FF8000000000000
  | infinite negative => UInt64.ofNat (signBit negative + 2047 * 2 ^ (52 : Nat))
  | finite negative magnitude => UInt64.ofNat (signBit negative + magnitudeBits magnitude)

/-- The value as a signed count of units, where an infinity stands just past the largest magnitude.
-/
def toUnits? : Binary64 → Option Int
  | nan => none
  | infinite negative => some (signed negative Magnitude.limit)
  | finite negative magnitude => some (signed negative magnitude.units)
where
  signed (negative : Bool) (units : Nat) : Int := if negative then -units else units

/-- The numeric order; none when either side is not a number. -/
def compare? (a b : Binary64) : Option Ordering := do
  return compare (← a.toUnits?) (← b.toUnits?)

/-- The two numbers are equal in the numeric order. -/
def same (a b : Binary64) : Bool := a.compare? b = some .eq

/-- The number nearest to a signed fraction, an infinity beyond the largest magnitude. -/
def ofFraction (negative : Bool) (num den : Nat) : Binary64 :=
  (Magnitude.round? num den).elim (infinite negative) (finite negative)

/-- The number nearest to an integer; zero has the positive sign. -/
def ofInt (n : Int) : Binary64 := ofFraction (n < 0) n.natAbs 1

end Binary64

end FilterQuery
