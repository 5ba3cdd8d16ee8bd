import FilterQuery.Json.Document
import FilterQuery.Json.Printer
import FilterQuery.Schema

/-!
Schemas as JSON objects, one member for each field. A type is written by its name; an object whose
only member has that name and the value `null` is read too. Of two members for one field the later
one counts.
-/
namespace FilterQuery

open Json (Failure Reader)

namespace FieldType

def ofJsonName (name : String) : Except Json.Mismatch FieldType :=
  match ofJsonName? name with
  | some type => .ok type
  | none => .error (.unknownName name (all.map jsonName))

/-- Reads the name of a type; its opening quote has been seen. -/
def nameReader : Reader FieldType :=
  Reader.string.check fun name => (ofJsonName name).mapError .mismatch

/-- Reads an object whose only member is named for a type; its opening brace has been seen. Anything
but a quote in the place of the name is an error of syntax, also where a value begins with it. -/
def taggedReader : Reader FieldType :=
  let name : Reader FieldType := .byFirst fun first =>
    if first = '"' then .ok nameReader else .error .malformed
  let unit : Reader Unit := .byFirst fun first =>
    if first = 'n' then .ok (.word ['n', 'u', 'l', 'l'] ()) else .ok (.refuse "unit")
  (Reader.single ()).andThen fun _ => name.andThen fun type =>
    (Reader.symbol ':').andThen fun _ => unit.andThen fun _ =>
      (Reader.symbol '\x7d').map fun _ => type

def reader : Reader FieldType :=
  .byFirst fun first =>
    if first = '"' then .ok nameReader
    else if first = '\x7b' then .ok taggedReader
    else .error .malformed

end FieldType

namespace Schema

def reader : Reader Schema :=
  .objectOnly (fun (schema : Schema) name => .ok (FieldType.reader.map (schema.insert name))) .empty

def ofText (text : String) : Except Failure Schema := reader.readAll text

def toJson (schema : Schema) : Json :=
  .object (schema.entries.map fun (name, type) => (name, .string type.jsonName))

def toText (schema : Schema) : String := schema.toJson.toText

end Schema

end FilterQuery
