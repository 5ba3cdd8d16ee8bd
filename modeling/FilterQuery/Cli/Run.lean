import FilterQuery.Cli.Arguments
import FilterQuery.Filter.Evaluation
import FilterQuery.Filter.Reader
import FilterQuery.Metadata.Json
import FilterQuery.Query.Rendering
import FilterQuery.Schema.Load
import FilterQuery.Stream.Transcript

/-!
Running a command. Files are read in the order in which they are needed, each decoded before the
next one is read, and the first step that fails decides the error; nothing is printed then.
-/
namespace FilterQuery.Cli

/-- The step of a command that failed. -/
inductive Fault where
  | fileRead (failure : FileFailure)
  | json (failure : Json.Failure)
  | invalid (violation : Violation)
  | compile (refusal : Refusal)
  | stream (failure : FileFailure)
  deriving DecidableEq

/-- Names with values, in braces. -/
def record (name : String) (fields : List (String × String)) : String :=
  name ++ " \x7b " ++
    String.intercalate ", " (fields.map fun (field, value) => field ++ ": " ++ value) ++ " \x7d"

def violationText : Violation → String
  | .emptyKey => "EmptyKey"
  | .emptyValues key => record "EmptyValues" [("key", Text.quoted key)]

def refusalText : Refusal → String
  | .unsupportedKind operator =>
    record "UnsupportedFilterKind" [("kind", Text.quoted operator.name)]
  | .unsupportedType key type predicate =>
    record "UnsupportedFieldType"
      [("key", Text.quoted key), ("field_type", type.label), ("operator", predicate.label)]

def Fault.debugText : Fault → String
  | fileRead failure => "FileRead(" ++ failure.debugText ++ ")"
  | json _ => "Model(Json)"
  | invalid violation => "Model(" ++ violationText violation ++ ")"
  | compile refusal => "Compile(" ++ refusalText refusal ++ ")"
  | stream failure => "Stream(Io(" ++ failure.debugText ++ "))"

/-- What a command prints, and the notes it leaves in the log. -/
structure Output where
  text : String
  notes : List String
  deriving DecidableEq

def Output.line (text : String) : Output := ⟨text ++ "\n", []⟩

/-- How a run ends. -/
inductive Report where
  | success (output : Output)
  | usage (error : UsageError)
  | failure (fault : Fault)
  deriving DecidableEq

def Report.exitCode : Report → Nat
  | success _ => 0
  | failure _ => 1
  | usage _ => 2

def Report.text : Report → String
  | success output => output.text
  | usage _ | failure _ => ""

def loadFilter (disk : Disk) (path : String) : Except Fault (Option Filter) := do
  let text ← (disk.readText path).mapError .fileRead
  (Filter.ofTextOptional text).mapError fun
    | .json failure => .json failure
    | .invalid violation => .invalid violation

/-- The schema in a file, if one is named, with the declared fields written over it in order. -/
def loadSchema (disk : Disk) (path : Option String) (fields : List (String × FieldType)) :
    Except Fault Schema := do
  let schema ←
    match path with
    | none => pure SortedMap.empty
    | some path => (Schema.load disk path).mapError fun
      | .unreadable _ failure => .fileRead failure
      | .json failure => .json failure
  return fields.foldl (fun (schema : Schema) (name, type) => schema.insert name type) schema

def loadMetadata (disk : Disk) (path : String) : Except Fault Metadata := do
  let text ← (disk.readText path).mapError .fileRead
  (Metadata.ofText text).mapError .json

def loadEvents (disk : Disk) (path : String) : Except Fault (List Stream.Event) := do
  let transcript := Stream.parseAsync (← (disk path).mapError .fileRead)
  match transcript.outcome with
  | .failed failure => .error (.stream failure)
  | .done | .exhausted => return transcript.events

def validityNote : Option Filter → String
  | some filter =>
    "Filter is valid: " ++ toString filter.depth ++ " node(s) deep, keys [" ++
      String.intercalate ", " (filter.keys.map Text.quoted) ++ "]"
  | none => "Filter is empty and matches every document"

/-- One line of JSON text for each event. -/
def eventLines (events : List Stream.Event) : String :=
  String.intercalate "\n" (events.map Stream.Event.toText)

/-- Prints the lines of the events, unless their text is empty. -/
def eventOutput (events : List Stream.Event) : Output :=
  if eventLines events = "" then ⟨"", []⟩ else .line (eventLines events)

def versionText : String := "rqf 0.1.0"

/-- Does what a command says. The page that help prints is written by the parser of arguments, and is
left out. -/
def Command.execute (disk : Disk) : Command → Except Fault Output
  | compile filter schema fields => do
    let filter ← loadFilter disk filter
    let schema ← loadSchema disk schema fields
    return .line (← (Query.compile schema filter).mapError .compile)
  | validate filter => do
    let filter ← loadFilter disk filter
    return ⟨"ok\n", [validityNote filter]⟩
  | evaluate filter metadata => do
    let filter ← loadFilter disk filter
    let metadata ← loadMetadata disk metadata
    return .line (if Filter.acceptsOptional metadata filter then "true" else "false")
  | events input => return eventOutput (← loadEvents disk input)
  | version => return .line versionText
  | help => return ⟨"", []⟩

def run (disk : Disk) (arguments : List String) : Report :=
  match Command.ofArguments arguments with
  | .error error => .usage error
  | .ok command =>
    match command.execute disk with
    | .error fault => .failure fault
    | .ok output => .success output

end FilterQuery.Cli
