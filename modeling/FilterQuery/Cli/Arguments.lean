import FilterQuery.FieldType
import FilterQuery.Text.Blank
import FilterQuery.Text.Terminal

/-!
Command lines. A command is followed by its options in any order; each option takes one value, as
the next argument or behind an equals sign. A value behind an equals sign is looked at on the spot;
one in an argument of its own when the next option starts, or at the end, so its refusal is reported
unless something that is no option comes first. In the place of a command the version of the program
can be asked for, and in the place of a command or of an option help; what follows is not looked at
then. The word `help` is a command as well, which takes at most the name of a command to explain.
-/
namespace FilterQuery.Cli

/-- Why a declaration of a field is refused. -/
inductive FieldRefusal where
  | noSeparator (argument : String)
  | emptyName (argument : String)
  | unknownType (name : String)
  deriving DecidableEq

def FieldRefusal.message : FieldRefusal → String
  | noSeparator argument => "expected NAME=TYPE, got '" ++ argument ++ "'"
  | emptyName argument => "empty field name in '" ++ argument ++ "'"
  | unknownType name => FieldType.unknownMessage name

/-- A text cut at its first equals sign. -/
def splitAtEquals (text : List Char) : Option (List Char × List Char) :=
  match text.dropWhile (· ≠ '=') with
  | [] => none
  | _ :: rest => some (text.takeWhile (· ≠ '='), rest)

/-- Reads a declaration `NAME=TYPE`; white space around the name and around the type is ignored. -/
def parseField (argument : String) : Except FieldRefusal (String × FieldType) :=
  match splitAtEquals argument.toList with
  | none => .error (.noSeparator argument)
  | some (before, after) =>
    let name := Text.trim before
    let typeName := String.ofList (Text.trim after)
    if name = [] then .error (.emptyName argument)
    else
      match FieldType.ofName? typeName with
      | none => .error (.unknownType typeName)
      | some type => .ok (String.ofList name, type)

inductive Flag where
  | filter
  | schema
  | field
  | metadata
  | input
  deriving DecidableEq

/-- The name of an option, after its two dashes. -/
def Flag.name : Flag → String
  | filter => "filter"
  | schema => "schema"
  | field => "field"
  | metadata => "metadata"
  | input => "input"

inductive Action where
  | compile
  | validate
  | evaluate
  | events
  deriving DecidableEq

namespace Action

def all : List Action := [compile, validate, evaluate, events]

def name : Action → String
  | compile => "compile"
  | validate => "validate"
  | evaluate => "matches"
  | events => "sse"

def flags : Action → List Flag
  | compile => [.filter, .schema, .field]
  | validate => [.filter]
  | evaluate => [.filter, .metadata]
  | events => [.input]

end Action

/-- What is wrong with a command line: a refused field, or anything else. -/
inductive UsageError where
  | field (refusal : FieldRefusal)
  | other
  deriving DecidableEq

/-- The text of an error, where the program has one of its own. It quotes the argument, and is plain
text: control sequences in the argument do not reach the terminal. -/
def UsageError.message? : UsageError → Option String
  | field refusal => some (Text.Terminal.plain refusal.message)
  | other => none

/-- The values of the options so far; a field may be declared more than once. -/
structure Options where
  filter : Option String
  schema : Option String
  metadata : Option String
  input : Option String
  fields : List (String × FieldType)

namespace Options

def empty : Options := ⟨none, none, none, none, []⟩

/-- A value for an option that takes only one. -/
def once (old : Option String) (value : String) : Except UsageError (Option String) :=
  match old with
  | none => .ok (some value)
  | some _ => .error .other

/-- Takes the value of an option. -/
def put (options : Options) (flag : Flag) (value : String) : Except UsageError Options :=
  match flag with
  | .filter => return { options with filter := ← once options.filter value }
  | .schema => return { options with schema := ← once options.schema value }
  | .metadata => return { options with metadata := ← once options.metadata value }
  | .input => return { options with input := ← once options.input value }
  | .field => do
    let field ← (parseField value).mapError .field
    return { options with fields := options.fields ++ [field] }

/-- Takes the open option, which must have got its value. -/
def settle (options : Options) : Option (Flag × Option String) → Except UsageError Options
  | none => .ok options
  | some (_, none) => .error .other
  | some (flag, some value) => options.put flag value

def required : Option String → Except UsageError String
  | some value => .ok value
  | none => .error .other

end Options

/-- An argument that starts an option: its name, and the value behind an equals sign. -/
def splitOption (argument : List Char) : Option (List Char × Option String) :=
  match argument with
  | '-' :: '-' :: rest =>
    match splitAtEquals rest with
    | none => some (rest, none)
    | some (name, value) => some (name, some (String.ofList value))
  | _ => none

/-- The argument is a request, which takes no value: its long name, or its short name with anything
behind it. -/
def isRequest (long short argument : String) : Bool :=
  argument = long || short.toList.isPrefixOf argument.toList

def asksHelp (argument : String) : Bool := isRequest "--help" "-h" argument

def asksVersion (argument : String) : Bool := isRequest "--version" "-V" argument

/-- Reads the arguments after the command; there are no options if help is asked for. An open option
is one whose value stands in an argument of its own, found or yet to come. -/
def readOptions (flags : List Flag) (options : Options) (open? : Option (Flag × Option String)) :
    List String → Except UsageError (Option Options)
  | [] => do return some (← options.settle open?)
  | argument :: rest =>
    if argument = "--" then
      if rest = [] then return some (← options.settle open?) else .error .other
    else if asksHelp argument then do
      let _ ← options.settle open?
      return none
    else
      match splitOption argument.toList with
      | some (name, value) =>
        match flags.find? fun flag => flag.name.toList = name with
        | none => .error .other
        | some flag => do
          let options ← options.settle open?
          match value with
          | none => readOptions flags options (some (flag, none)) rest
          | some value => readOptions flags (← options.put flag value) none rest
      | none =>
        if argument.toList.head? = some '-' ∧ argument ≠ "-" then .error .other
        else
          match open? with
          | some (flag, none) => readOptions flags options (some (flag, some argument)) rest
          | some (_, some _) | none => .error .other

inductive Command where
  | compile (filter : String) (schema : Option String) (fields : List (String × FieldType))
  | validate (filter : String)
  | evaluate (filter metadata : String)
  | events (input : String)
  | version
  | help
  deriving DecidableEq

namespace Command

def ofOptions (action : Action) (options : Options) : Except UsageError Command :=
  match action with
  | .compile => return compile (← Options.required options.filter) options.schema options.fields
  | .validate => return validate (← Options.required options.filter)
  | .evaluate =>
    return evaluate (← Options.required options.filter) (← Options.required options.metadata)
  | .events => return events (← Options.required options.input)

/-- The command of an action, whose options are none if help is asked for. -/
def ofReading (action : Action) : Option Options → Except UsageError Command
  | none => .ok help
  | some options => ofOptions action options

/-- The words after `help`: the name of what is to be explained, if there is one. -/
def namesPage : List String → Bool
  | [] => true
  | [word] => word = "help" || Action.all.any fun action => action.name = word
  | _ :: _ :: _ => false

def ofArguments : List String → Except UsageError Command
  | [] => .error .other
  | word :: rest =>
    if asksVersion word then .ok version
    else if asksHelp word then .ok help
    else if word = "help" then
      if namesPage rest then .ok help else .error .other
    else
      match Action.all.find? fun action => action.name = word with
      | none => .error .other
      | some action => do ofReading action (← readOptions action.flags .empty none rest)

/-- The files that a command may read. -/
def paths : Command → List String
  | compile filter schema _ => filter :: schema.toList
  | validate filter => [filter]
  | evaluate filter metadata => [filter, metadata]
  | events input => [input]
  | version | help => []

end Command

end FilterQuery.Cli
