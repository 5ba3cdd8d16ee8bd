import FilterQuery.Stream.Read
import FilterQuery.Text.Blank
import FilterQuery.Text.Utf8

/-!
Lines and blocks of an event stream. A line gives its content: without one leading `data:`, and
without white space at its ends. The contents of the lines between two blank lines make a block, and
its payload is gathered line by line, with a line feed before every content but the first; as long
as nothing is gathered, an empty content is like none.
-/
namespace FilterQuery.Stream

/-- The byte that may stand before the end of a line. -/
def carriageReturn : UInt8 := 0x0D

/-- The label that the lines of an event carry. -/
def dataLabel : List Char := ['d', 'a', 't', 'a', ':']

/-- The bytes without one byte of this value at their end. -/
def dropEnd (byte : UInt8) (bytes : List UInt8) : List UInt8 :=
  if bytes.getLast? = some byte then bytes.dropLast else bytes

/-- The text of a line, without the line feed at its end and a carriage return before it. -/
def lineText (bytes : List UInt8) : List Char :=
  Text.Utf8.decodeLossy (dropEnd carriageReturn (dropEnd lineFeed bytes))

/-- What a line contributes to its block. -/
def lineContent (line : List Char) : List Char :=
  Text.trim (if dataLabel.isPrefixOf line then line.drop dataLabel.length else line)

/-- The payload of an open block, as far as it is gathered. -/
structure Block where
  data : String
  deriving DecidableEq

namespace Block

def empty : Block := ⟨""⟩

/-- The block with one more content. -/
def add (block : Block) (content : String) : Block :=
  if block.data = "" then ⟨content⟩ else ⟨block.data ++ "\n" ++ content⟩

/-- The payload of the block, unless nothing was gathered. -/
def payload? (block : Block) : Option String :=
  if block.data = "" then none else some block.data

/-- Takes a line. A blank one closes the block and gives its payload. -/
def push (block : Block) (line : List Char) : Block × Option String :=
  if line = [] then (empty, block.payload?)
  else (block.add (String.ofList (lineContent line)), none)

end Block

end FilterQuery.Stream
