import FilterQuery.SortedMap
import FilterQuery.Value

namespace FilterQuery

/-- The values of a document, one for each key. -/
abbrev Metadata := SortedMap Value

namespace Metadata

/-- The two documents have the same keys with the same values. -/
def same (a b : Metadata) : Bool := a.agrees Value.same b

end Metadata

end FilterQuery
