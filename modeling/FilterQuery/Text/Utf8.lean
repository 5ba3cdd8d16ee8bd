/-!
UTF-8. Bytes are cut into units: a well-formed character, or a maximal piece that starts like a
character and then breaks off. Strict decoding refuses any broken piece; lossy decoding replaces
each of them by one U+FFFD, as the Unicode standard recommends.
-/
namespace FilterQuery.Text.Utf8

/-- The bytes allowed at one place of a character, both ends included. -/
structure ByteRange where
  first : UInt8
  last : UInt8

def ByteRange.contains (range : ByteRange) (byte : UInt8) : Bool :=
  range.first ≤ byte && byte ≤ range.last

/-- Any continuation byte. -/
def tail : ByteRange := ⟨0x80, 0xBF⟩

/-- What a first byte announces: the bits it contributes and the ranges of the bytes to follow. The
narrow second ranges rule out overlong forms, surrogates and code points above U+10FFFF. -/
def announced (byte : UInt8) : Option (Nat × List ByteRange) :=
  if byte < 0x80 then some (byte.toNat, [])
  else if byte < 0xC2 then none
  else if byte < 0xE0 then some (byte.toNat - 0xC0, [tail])
  else if byte = 0xE0 then some (0, [⟨0xA0, 0xBF⟩, tail])
  else if byte = 0xED then some (0xD, [⟨0x80, 0x9F⟩, tail])
  else if byte < 0xF0 then some (byte.toNat - 0xE0, [tail, tail])
  else if byte = 0xF0 then some (0, [⟨0x90, 0xBF⟩, tail, tail])
  else if byte < 0xF4 then some (byte.toNat - 0xF0, [tail, tail, tail])
  else if byte = 0xF4 then some (4, [⟨0x80, 0x8F⟩, tail, tail])
  else none

/-- Reads the announced bytes. A byte outside its range is left for the next unit. -/
def follow (bits : Nat) : List ByteRange → List UInt8 → Option Char × List UInt8
  | [], rest => (some (Char.ofNat bits), rest)
  | _ :: _, [] => (none, [])
  | range :: ranges, byte :: rest =>
    if range.contains byte then follow (bits * 64 + byte.toNat % 64) ranges rest
    else (none, byte :: rest)

theorem length_follow_le (bits : Nat) (ranges : List ByteRange) (bytes : List UInt8) :
    (follow bits ranges bytes).2.length ≤ bytes.length := by
  fun_induction follow bits ranges bytes with
  | case1 => exact Nat.le_refl _
  | case2 => exact Nat.le_refl _
  | case3 _ _ _ _ _ _ ih => exact Nat.le_succ_of_le ih
  | case4 => exact Nat.le_refl _

/-- The units of the bytes, in order: `none` for a piece that is no character. -/
def units : List UInt8 → List (Option Char)
  | [] => []
  | byte :: rest =>
    match announced byte with
    | none => none :: units rest
    | some (bits, ranges) =>
      (follow bits ranges rest).1 :: units (follow bits ranges rest).2
termination_by bytes => bytes.length
decreasing_by
  · simp
  · have := length_follow_le bits ranges rest
    simp only [List.length_cons]
    omega

/-- The characters of the bytes, one U+FFFD for each piece that is none. -/
def decodeLossy (bytes : List UInt8) : List Char := (units bytes).map (·.getD '\uFFFD')

/-- The characters of the bytes, if they are UTF-8 throughout. -/
def decode? (bytes : List UInt8) : Option (List Char) := (units bytes).mapM id

end FilterQuery.Text.Utf8
