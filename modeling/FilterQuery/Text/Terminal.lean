/-!
Text for a terminal. Some characters are orders to a terminal and not text: a control character by
itself, or a control sequence, which an escape character starts. The plain text of a text leaves
them out and keeps every other character in its place; a text without them is its own plain text.
-/
namespace FilterQuery.Text.Terminal

/-- White space that moves the cursor and is kept as text. -/
def isLayout (c : Char) : Bool := c == '\t' || c == '\n' || c == '\x0c' || c == '\r'

def isText (c : Char) : Bool := isLayout c || (0x20 ≤ c.toNat && c.toNat ≠ 0x7F)

/-- The code of the character lies between the two, both included. -/
def isWithin (first last : Nat) (c : Char) : Bool := first ≤ c.toNat && c.toNat ≤ last

/-- How far a control sequence has been read. -/
inductive Sequence where
  /-- Outside of any sequence. -/
  | outside
  /-- After the escape character. -/
  | escape
  /-- In an escape sequence with intermediate characters. -/
  | intermediate
  /-- In a control sequence proper, up to its final character. -/
  | control
  /-- In a command to the operating system, up to the bell. -/
  | command
  /-- At the start of a string for a device. -/
  | device
  /-- In the parameters of a string for a device. -/
  | deviceParameters
  /-- In the intermediate characters of a string for a device. -/
  | deviceIntermediate
  /-- In a string, up to its terminator. -/
  | body
  deriving DecidableEq

namespace Sequence

/-- The byte that ends a string occurs in the UTF-8 form of the character. -/
def isTerminator (c : Char) : Bool := (String.utf8EncodeChar c).contains 0x9C

/-- Layout white space in these places is text, and interrupts the sequence. -/
def yields : Sequence → Bool
  | escape | intermediate | control => true
  | _ => false

/-- The sequence that a character after the escape character opens. -/
def opened (c : Char) : Sequence :=
  if c = '[' then control
  else if c = ']' then command
  else if c = 'P' then device
  else if c = 'X' ∨ c = '^' ∨ c = '_' then body
  else if isWithin 0x20 0x2F c then intermediate
  else if isWithin 0x30 0x7E c then outside
  else escape

/-- The place after one more character. An escape character starts a sequence everywhere, and the
two cancelling characters end one everywhere; a character without a meaning changes nothing. -/
def next (sequence : Sequence) (c : Char) : Sequence :=
  if c = '\x1b' then escape
  else if c = '\x18' ∨ c = '\x1a' then outside
  else
    match sequence with
    | outside => outside
    | escape => opened c
    | intermediate => if isWithin 0x30 0x7E c then outside else intermediate
    | control => if isWithin 0x40 0x7E c then outside else control
    | command => if c = '\x07' then outside else command
    | device =>
      if isWithin 0x40 0x7E c ∨ c = ':' then body
      else if isWithin 0x20 0x2F c then deviceIntermediate
      else if isWithin 0x30 0x3F c then deviceParameters
      else device
    | deviceParameters =>
      if isWithin 0x3C 0x7E c ∨ c = ':' then body
      else if isWithin 0x20 0x2F c then deviceIntermediate
      else deviceParameters
    | deviceIntermediate => if isWithin 0x30 0x7E c then body else deviceIntermediate
    | body => if isTerminator c then outside else body

end Sequence

/-- The text among the characters. An interrupted sequence lets text through until a control
character resumes it; a character beyond ASCII ends it. -/
def textFrom (sequence : Sequence) (interrupted : Bool) : List Char → List Char
  | [] => []
  | c :: rest =>
    if sequence = .outside ∨ interrupted then
      if isText c then
        c :: textFrom (if c.toNat < 0x80 then sequence else .outside) interrupted rest
      else textFrom (sequence.next c) false rest
    else if sequence.yields && isLayout c then c :: textFrom sequence true rest
    else textFrom (sequence.next c) false rest

/-- The text without control characters and control sequences. -/
def plain (text : String) : String := String.ofList (textFrom .outside false text.toList)

/-- The plain text has its characters from the text, in their order. -/
theorem textFrom_sublist (sequence : Sequence) (interrupted : Bool) (text : List Char) :
    (textFrom sequence interrupted text).Sublist text := by
  fun_induction textFrom sequence interrupted text with
  | case1 => exact .slnil
  | case2 _ _ _ _ _ _ ih => exact ih.cons_cons _
  | case3 _ _ _ _ _ _ ih => exact ih.cons _
  | case4 _ _ _ _ _ _ ih => exact ih.cons_cons _
  | case5 _ _ _ _ _ _ ih => exact ih.cons _

/-- Layout white space is text. -/
theorem isText_of_isLayout {c : Char} (h : isLayout c = true) : isText c = true := by
  simp [isText, h]

/-- Nothing but text is left. -/
theorem isText_of_mem_textFrom {sequence : Sequence} {interrupted : Bool} {text : List Char}
    {c : Char} (h : c ∈ textFrom sequence interrupted text) : isText c = true := by
  fun_induction textFrom sequence interrupted text with
  | case1 => exact absurd h List.not_mem_nil
  | case2 _ _ _ _ _ shown ih =>
    rcases List.mem_cons.1 h with rfl | h
    · exact shown
    · exact ih h
  | case3 _ _ _ _ _ _ ih => exact ih h
  | case4 _ _ _ _ _ layout ih =>
    rcases List.mem_cons.1 h with rfl | h
    · exact isText_of_isLayout (Bool.and_eq_true_iff.1 layout).2
    · exact ih h
  | case5 _ _ _ _ _ _ ih => exact ih h

/-- Outside of any sequence, characters that are all text stay as they are. -/
theorem textFrom_outside {text : List Char} (h : ∀ c ∈ text, isText c = true) :
    textFrom .outside false text = text := by
  induction text with
  | nil => rfl
  | cons c rest ih =>
    simp [textFrom, h c List.mem_cons_self, ih fun d mem => h d (List.mem_cons_of_mem c mem)]

/-- A text without control characters is its own plain text. -/
theorem plain_eq_self {text : String} (h : ∀ c ∈ text.toList, isText c = true) :
    plain text = text := by
  rw [plain, textFrom_outside h, String.ofList_toList]

end FilterQuery.Text.Terminal
