/-!
White space in the sense of the Unicode property `White_Space`, and trimming by it. A trimmed text
has no white space at either end; everything between its first and last other character is kept.
-/
namespace FilterQuery.Text

/-- The characters with the Unicode property `White_Space`. -/
def isBlank (c : Char) : Bool :=
  let n := c.toNat
  (0x9 ≤ n && n ≤ 0xD) || n == 0x20 || n == 0x85 || n == 0xA0 || n == 0x1680 ||
    (0x2000 ≤ n && n ≤ 0x200A) || n == 0x2028 || n == 0x2029 || n == 0x202F || n == 0x205F ||
    n == 0x3000

/-- The text from its first character that is not white space. -/
def trimStart (text : List Char) : List Char := text.dropWhile isBlank

/-- The text up to its last character that is not white space. -/
def trimEnd (text : List Char) : List Char := (text.reverse.dropWhile isBlank).reverse

/-- The text without the white space at its two ends. -/
def trim (text : List Char) : List Char := trimEnd (trimStart text)

/-- Every character that core counts as white space has the property. -/
theorem isBlank_of_isWhitespace {c : Char} (h : c.isWhitespace = true) : isBlank c = true := by
  simp only [Char.isWhitespace, Bool.or_eq_true, decide_eq_true_eq] at h
  rcases h with ((rfl | rfl) | rfl) | rfl <;> decide

end FilterQuery.Text
