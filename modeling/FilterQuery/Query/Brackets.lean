namespace FilterQuery

/-- What stands before and after the body of a predicate. -/
structure Brackets where
  opening : String
  closing : String
  deriving DecidableEq

namespace Brackets

/-- Around the values of a tag. -/
def tag : Brackets := ⟨"\x7b", "\x7d"⟩

/-- Around an exact phrase. -/
def phrase : Brackets := ⟨"\"", "\""⟩

/-- Around a choice of phrases. -/
def choice : Brackets := ⟨"(", ")"⟩

/-- Around the two ends of a numeric interval. -/
def interval : Brackets := ⟨"[", "]"⟩

def wrap (brackets : Brackets) (body : String) : String :=
  brackets.opening ++ body ++ brackets.closing

/-- Two texts in brackets, with one space between them. -/
def wrapPair (brackets : Brackets) (lower upper : String) : String :=
  brackets.wrap (lower ++ " " ++ upper)

end Brackets

end FilterQuery
