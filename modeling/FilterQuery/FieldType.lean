/-!
The types a search index declares for its fields. Each has a display name in capitals and a JSON
name in small letters; from a command line either spelling is accepted, in any mixture.
-/
namespace FilterQuery

/-- How an index stores a field and which predicates it can answer. -/
inductive FieldType where
  | numeric
  | tag
  | text
  | geo
  | vector
  deriving DecidableEq

namespace FieldType

def all : List FieldType := [numeric, tag, text, geo, vector]

def name : FieldType → String
  | numeric => "NUMERIC"
  | tag => "TAG"
  | text => "TEXT"
  | geo => "GEO"
  | vector => "VECTOR"

/-- The name in a JSON schema. -/
def jsonName : FieldType → String
  | numeric => "numeric"
  | tag => "tag"
  | text => "text"
  | geo => "geo"
  | vector => "vector"

/-- The name in a diagnostic. -/
def label : FieldType → String
  | numeric => "Numeric"
  | tag => "Tag"
  | text => "Text"
  | geo => "Geo"
  | vector => "Vector"

def ofJsonName? (name : String) : Option FieldType := all.find? fun type => type.jsonName = name

/-- The type with this name, without regard to the case of ASCII letters. -/
def ofName? (name : String) : Option FieldType := ofJsonName? name.toLower

/-- What is said of a name that no type has. -/
def unknownMessage (name : String) : String := "unknown field type '" ++ name ++ "'"

end FieldType

end FilterQuery
