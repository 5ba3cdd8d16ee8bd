import FilterQuery.Query.Rendering

/-!
The renderer at work. A predicate is written only when its field is known to take it; a group or a
negation is opened before its parts are written, and closed after them. A refusal ends the step that
meets it and the steps around it. The renderer can go on with another step then: what was written
stays written.
-/
namespace FilterQuery

/-- What a step does to a renderer. After a refusal, the renderer is as the step left it. -/
abbrev Writing := EStateM Refusal Renderer Unit

namespace Renderer

def push (text : String) : Writing :=
  modify fun renderer => { renderer with query := renderer.query ++ text }

def emitField (key body : String) : Writing := do
  push "@"
  push key
  push ":"
  push body

/-- Passes a predicate that a field of the type can take. -/
def require (key : String) (type : FieldType) (predicate : PredicateClass) : Writing :=
  match type.require key predicate with
  | .ok _ => pure ()
  | .error refusal => throw refusal

def emitEqual (key : String) (value : Value) : Writing := do
  let type := (← get).schema.equalityType key
  require key type .equality
  match type.equalityBody? value with
  | some body => emitField key body
  | none => throw (.unsupportedType key type .equality)

def emitRange (key : String) (lower upper : Bound) : Writing := do
  let type := (← get).schema.rangeType key
  require key type .range
  emitField key (FieldType.rangeBody lower upper)

def emitIn (key : String) (values : List Value) : Writing := do
  let type := (← get).schema.equalityType key
  require key type .membership
  match type.membershipBody? values with
  | some body => emitField key body
  | none => throw (.unsupportedType key type .membership)

def emitNegated (inner : Writing) : Writing := do
  push "("
  push "-"
  inner
  push ")"

/-- Writes a group of two steps with a delimiter between them. -/
def emitGroup (left : Writing) (delimiter : String) (right : Writing) : Writing := do
  push "("
  left
  push delimiter
  right
  push ")"

end Renderer

open Renderer (emitEqual emitRange emitIn emitNegated emitGroup)

def Leaf.write : Leaf → Writing
  | compare .eq key value => emitEqual key value
  | compare .notEq key value => emitNegated (emitEqual key value)
  | compare .gt key value => emitRange key (.exclusive value) .positiveInfinity
  | compare .gte key value => emitRange key (.inclusive value) .positiveInfinity
  | compare .lt key value => emitRange key .negativeInfinity (.exclusive value)
  | compare .lte key value => emitRange key .negativeInfinity (.inclusive value)
  | compare .contains _ _ => throw (.unsupportedKind (.relation .contains))
  | among .isIn key values => emitIn key values
  | among .notIn key values => emitNegated (emitIn key values)

/-- Writes a filter, from left to right. -/
def Filter.write : Filter → Writing
  | leaf l => l.write
  | join connective left right => emitGroup left.write connective.delimiter right.write
  | not inner => emitNegated inner.write

/-- A step that a renderer can be told to do. -/
inductive Step where
  | equal (key : String) (value : Value)
  | range (key : String) (lower upper : Bound)
  | isIn (key : String) (values : List Value)
  | negated (inner : List Step)
  | group (left : Filter) (delimiter : String) (right : Filter)
  | whole (filter : Filter)

mutual

def Step.write : Step → Writing
  | equal key value => emitEqual key value
  | range key lower upper => emitRange key lower upper
  | isIn key values => emitIn key values
  | negated inner => emitNegated (writeAll inner)
  | group left delimiter right => emitGroup left.write delimiter right.write
  | whole filter => filter.write

/-- What the renderer does in several steps, up to the first refusal. -/
def Step.writeAll : List Step → Writing
  | [] => pure ()
  | step :: steps => do
    step.write
    writeAll steps

end

namespace Renderer

/-- The refusal of a step, if there is one, and the renderer after it. -/
def take (renderer : Renderer) (step : Step) : Option Refusal × Renderer :=
  match step.write.run renderer with
  | .ok _ next => (none, next)
  | .error refusal next => (some refusal, next)

/-- The renderer after several steps, each of which is taken whatever became of the ones before. -/
def takeAll (renderer : Renderer) (steps : List Step) : Renderer :=
  steps.foldl (fun renderer step => (renderer.take step).2) renderer

end Renderer

end FilterQuery
