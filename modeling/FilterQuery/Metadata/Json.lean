import FilterQuery.Json.Document
import FilterQuery.Json.Printer
import FilterQuery.Metadata
import FilterQuery.Value.Json

namespace FilterQuery

open Json (Failure Reader)

/-- Reads a value in a text where so many levels of nesting are left. -/
def Value.reader (depth : Nat) : Reader Value :=
  (Reader.value depth).check fun json => (Value.ofJson json).mapError .mismatch

def Value.ofText (text : String) : Except Failure Value :=
  (Value.reader Json.maxDepth).readAll text

namespace Metadata

def reader : Reader Metadata :=
  .objectOnly (fun (metadata : Metadata) name =>
    .ok ((Value.reader (Json.maxDepth - 1)).map (metadata.insert name))) .empty

def ofText (text : String) : Except Failure Metadata := reader.readAll text

def toJson (metadata : Metadata) : Json :=
  .object (metadata.entries.map fun (name, value) => (name, value.toJson))

def toText (metadata : Metadata) : String := metadata.toJson.toText

end Metadata

end FilterQuery
