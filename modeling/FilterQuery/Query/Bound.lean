import FilterQuery.Value

namespace FilterQuery

/-- One end of a numeric interval. -/
inductive Bound where
  | value (value : Value) (exclusive : Bool)
  | positiveInfinity
  | negativeInfinity

namespace Bound

def inclusive (value : Value) : Bound := .value value false

def exclusive (value : Value) : Bound := .value value true

/-- The end as it stands in a query: a parenthesis before it excludes it. -/
def text : Bound → String
  | value v true => "(" ++ v.queryText
  | value v false => v.queryText
  | positiveInfinity => "inf"
  | negativeInfinity => "-inf"

/-- The two ends are of one kind and hold the same value. -/
def same : Bound → Bound → Bool
  | value v exclusive, value v' exclusive' => v.same v' && exclusive = exclusive'
  | positiveInfinity, positiveInfinity => true
  | negativeInfinity, negativeInfinity => true
  | _, _ => false

end Bound

end FilterQuery
