import FilterQuery.Disk
import FilterQuery.Schema.Json

namespace FilterQuery.Schema

/-- Why a schema is not loaded: its file cannot be read, or holds no schema. -/
inductive LoadError where
  | unreadable (path : String) (failure : FileFailure)
  | json (failure : Json.Failure)
  deriving DecidableEq

/-- What is said of a file that cannot be read. -/
def unreadableMessage (path : String) (failure : FileFailure) : String :=
  "failed to read '" ++ path ++ "': " ++ failure.reason

def load (disk : Disk) (path : String) : Except LoadError Schema := do
  let text ← (disk.readText path).mapError (.unreadable path)
  (ofText text).mapError .json

end FilterQuery.Schema
