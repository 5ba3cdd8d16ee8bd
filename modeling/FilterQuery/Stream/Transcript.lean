import FilterQuery.Json.Printer
import FilterQuery.Stream.Block
import FilterQuery.Stream.Read

/-!
Event streams. The lines of a source are taken one by one; a blank line closes a block, and every
payload becomes an event, up to the payload that marks the end of the stream. A listener is called
for each event and then once more: when the stream is closed, or when a read has failed, in which
case the open line and the open block are dropped.
-/
namespace FilterQuery.Stream

structure Event where
  data : String
  deriving DecidableEq

def Event.toJson (event : Event) : Json := .object [("data", .string event.data)]

def Event.toText (event : Event) : String := event.toJson.toText

/-- The payload that ends a stream. -/
def doneMarker : String := "[DONE]"

/-- A call of the listener. -/
inductive Call (ε : Type) where
  | event (event : Event)
  | error (error : ε)
  | close
  deriving DecidableEq

/-- How a stream ended: with the marker, at the end of the input, or with a failed read. -/
inductive Outcome (ε : Type) where
  | done
  | exhausted
  | failed (error : ε)
  deriving DecidableEq

/-- The calls of the listener, in order, and how the stream ended. -/
structure Transcript (ε : Type) where
  calls : List (Call ε)
  outcome : Outcome ε
  deriving DecidableEq

variable {ε : Type}

/-- The transcript with calls before its own. -/
def Transcript.after (calls : List (Call ε)) (transcript : Transcript ε) : Transcript ε :=
  { transcript with calls := calls ++ transcript.calls }

def Transcript.events (transcript : Transcript ε) : List Event :=
  transcript.calls.filterMap fun
    | .event event => some event
    | .error _ | .close => none

/-- The event with this payload, unless the payload ends the stream. -/
def Event.ofPayload? (payload : String) : Option Event :=
  if payload = doneMarker then none else some ⟨payload⟩

namespace Block

/-- What happens at the end of the input, where the open block is closed. -/
def finish (block : Block) : Transcript ε :=
  match block.payload? with
  | none => ⟨[.close], .exhausted⟩
  | some payload =>
    match Event.ofPayload? payload with
    | none => ⟨[.close], .done⟩
    | some event => ⟨[.event event, .close], .exhausted⟩

/-- Takes line after line from a source, up to the end of the input, the marker, or a failure. A
failed read drops the open block. -/
def run (retried : ε → Bool) (block : Block) (reads : List (Read ε)) : Transcript ε :=
  match _taken : readLine retried reads with
  | .error error => ⟨[.error error], .failed error⟩
  | .ok (line, rest) =>
    if _ended : line = [] then block.finish
    else
      match block.push (lineText line) with
      | (next, none) => next.run retried rest
      | (next, some payload) =>
        match Event.ofPayload? payload with
        | none => ⟨[.close], .done⟩
        | some event => (next.run retried rest).after [.event event]
termination_by byteCount reads
decreasing_by
  · exact byteCount_lt_of_readLine _taken _ended
  · exact byteCount_lt_of_readLine _taken _ended

end Block

/-- Parses a source from its beginning. -/
def parseWith (retried : ε → Bool) (reads : List (Read ε)) : Transcript ε :=
  Block.empty.run retried reads

/-- Parses a source that blocks: an interrupted read is tried again. -/
def parse (reads : List (Read ReadFailure)) : Transcript ReadFailure :=
  parseWith ReadFailure.interrupted reads

/-- Parses a source that does not block: every failed read ends the stream, an interrupted one as
well. -/
def parseAsync (reads : List (Read ε)) : Transcript ε :=
  parseWith (fun _ => false) reads

/-- The events of a source, if no read fails. -/
def collect (reads : List (Read ReadFailure)) : Except ReadFailure (List Event) :=
  let transcript := parse reads
  match transcript.outcome with
  | .failed error => .error error
  | .done | .exhausted => .ok transcript.events

end FilterQuery.Stream
