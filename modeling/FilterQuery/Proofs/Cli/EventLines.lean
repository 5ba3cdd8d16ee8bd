import FilterQuery.Proofs.Cli.CommandLines
import FilterQuery.Proofs.Json.Printing
import FilterQuery.Proofs.Stream.Endings

/-!
The printed events of a stream. No line feed stands in the text of an event, whatever its payload
is, so the lines of the output are the texts of the events, and each of them can be read back
(`events_printed_line_by_line`).
-/
namespace FilterQuery

namespace Json

theorem lineFeed_notMem_escapeChar (c : Char) : '\n' ∉ escapeChar c := by
  by_cases letter : c ∈ lettered
  · revert letter
    revert c
    unfold lettered
    simp only [List.forall_mem_cons, List.not_mem_nil, false_implies, implies_true, and_true]
    decide
  · rw [escapeChar_of_notMem letter]
    by_cases control : c.toNat < 0x20
    · rw [if_pos control]
      have plain : ∀ n < 16, Nat.digitChar n ≠ '\n' := by decide
      have high := plain (c.toNat / 16 % 16) (Nat.mod_lt _ (by decide))
      have low := plain (c.toNat % 16) (Nat.mod_lt _ (by decide))
      simp [hexDigit, high.symm, low.symm]
    · rw [if_neg control]
      rintro member
      obtain rfl := List.mem_singleton.mp member
      exact control (by decide)

theorem lineFeed_notMem_stringText (s : String) : '\n' ∉ stringText s := by
  have inside : '\n' ∉ s.toList.flatMap escapeChar := by
    intro member
    obtain ⟨c, _, escaped⟩ := List.mem_flatMap.mp member
    exact lineFeed_notMem_escapeChar c escaped
  simp [stringText, inside]

end Json

namespace Stream.Event

theorem toList_toText (event : Event) :
    event.toText.toList =
      '\x7b' :: (Json.stringText "data" ++ ':' :: Json.stringText event.data) ++ ['\x7d'] := by
  rw [toText, toJson, Json.toText, String.toList_ofList, Json.text, Json.membersText, Json.text]

theorem lineFeed_notMem_toText (event : Event) : '\n' ∉ event.toText.toList := by
  have name := Json.lineFeed_notMem_stringText "data"
  have payload := Json.lineFeed_notMem_stringText event.data
  rw [toList_toText]
  simp [name, payload]

/-- The text of an event holds the object of the event, and is read as it. -/
theorem read_toText (event : Event) :
    Json.ofText event.toText = .ok (.object [("data", .string event.data)]) := by
  have stands : (Json.object [("data", .string event.data)]).StandsIn event.toText.toList := by
    have payload := Json.standsIn_string_text event.data
    have whole := Json.standsIn_object_text ["data"] (.cons payload .nil)
    rw [toText, Json.toText, String.toList_ofList]
    exact whole
  have shallow : (Json.object [("data", .string event.data)]).nesting ≤ Json.maxDepth := by
    rw [Json.maxDepth, Json.nesting_object_le]
    simp [Json.nesting]
  rw [Json.ofText_of_standsIn stands, Json.Reader.within, if_pos shallow]

end Stream.Event

namespace Cli

open FilterQuery.Stream
  (Event Read closedPayloads doneMarker eventsOf lineText linesOf parseAsync payloadsOf)

/-- The lines of a text, without the line feeds between them. The empty text has none. -/
def printedLines (text : String) : List String :=
  if text = "" then [] else (text.toList.splitOn '\n').map String.ofList

/-- The line is JSON for an object with one member, which holds the payload of the event. -/
def Encodes (line : String) (event : Event) : Prop :=
  Json.ofText line = .ok (.object [("data", .string event.data)])

theorem Encodes.unique {line : String} {event other : Event} (encodes : Encodes line event)
    (encodesOther : Encodes line other) : event = other := by
  have same := encodes.symm.trans encodesOther
  simp only [Except.ok.injEq, Json.object.injEq, List.cons.injEq, Prod.mk.injEq, Json.string.injEq,
    true_and, and_true] at same
  cases event
  cases other
  congr

theorem toList_eventLines (events : List Event) :
    (eventLines events).toList = ['\n'].intercalate (events.map fun event => event.toText.toList) := by
  rw [eventLines, String.toList_intercalate, List.map_map]
  rfl

theorem eventLines_eq_empty {events : List Event} : eventLines events = "" ↔ events = [] := by
  constructor
  · intro empty
    have text := toList_eventLines events
    rw [empty] at text
    cases events with
    | nil => rfl
    | cons event events =>
      rw [List.map_cons, Event.toList_toText] at text
      cases events with
      | nil => simp at text
      | cons next events => simp [List.intercalate_cons_cons] at text
  · rintro rfl
    rfl

theorem printedLines_eventLines (events : List Event) :
    printedLines (eventLines events) = events.map Event.toText := by
  unfold printedLines
  by_cases none : events = []
  · rw [if_pos (eventLines_eq_empty.mpr none), none]
    rfl
  · rw [if_neg fun empty => none (eventLines_eq_empty.mp empty), toList_eventLines,
      List.splitOn_intercalate]
    · rw [List.map_map]
      exact List.map_congr_left fun event _ => String.ofList_toList
    · intro text member
      obtain ⟨event, _, rfl⟩ := List.mem_map.mp member
      exact event.lineFeed_notMem_toText
    · intro noText
      exact none (List.map_eq_nil_iff.mp noText)

theorem encodes_eventLines (events : List Event) :
    List.Forall₂ Encodes (printedLines (eventLines events)) events := by
  rw [printedLines_eventLines, List.forall₂_map_left_iff, List.forall₂_same]
  intro event _
  exact event.read_toText

theorem eventLines_injective : Function.Injective eventLines := by
  intro events others same
  have encoded := encodes_eventLines events
  have encodedOthers := encodes_eventLines others
  rw [same] at encoded
  generalize printedLines (eventLines others) = lines at encoded encodedOthers
  clear same
  induction encoded generalizing others with
  | nil =>
    cases encodedOthers
    rfl
  | cons first _ ih =>
    cases encodedOthers with
    | cons firstOther restOther => rw [first.unique firstOther, ih restOther]

/-- The events of a file: the payloads of its lines before the first one that marks the end. -/
def eventsIn (bytes : List UInt8) : List Event :=
  eventsOf (payloadsOf ((linesOf bytes).map lineText))

theorem loadEvents_of_opened {disk : Disk} {path : String} {reads : List (Read FileFailure)}
    (opened : disk path = .ok reads) :
    loadEvents disk path =
      match (parseAsync reads).outcome with
      | .failed failure => .error (.stream failure)
      | .done | .exhausted => .ok (parseAsync reads).events := by
  rw [loadEvents, opened]
  rfl

theorem run_events {input : String} {arguments : List String}
    (spelled : (Request.events input).SpelledBy arguments) (disk : Disk) :
    run disk arguments =
      match loadEvents disk input with
      | .error fault => .failure fault
      | .ok events => .success (eventOutput events) := by
  rw [run, ofArguments_of_spelledBy spelled]
  simp only [Request.command, Command.execute]
  cases loadEvents disk input <;> rfl

/-- The text of the lines is empty only without an event, for a line holds at least its braces. -/
theorem text_eventOutput (events : List Event) :
    (eventOutput events).text = if events = [] then "" else eventLines events ++ "\n" := by
  unfold eventOutput
  by_cases none : events = []
  · rw [if_pos (eventLines_eq_empty.mpr none), if_pos none]
  · rw [if_neg fun empty => none (eventLines_eq_empty.mp empty), if_neg none]
    rfl

namespace Report

/-- The run prints a line for each of the events, and nothing at all without any. -/
def PrintsEvents (report : Report) (events : List Event) : Prop :=
  report.exitCode = 0 ∧ (report.text = "" ↔ events = []) ∧
    (events ≠ [] → report.text = eventLines events ++ "\n")

/-- The run is an error, and prints nothing. -/
def FailsSilently (report : Report) : Prop := report.text = "" ∧ report.exitCode ≠ 0

theorem printsEvents_eventOutput (events : List Event) :
    (success (eventOutput events)).PrintsEvents events := by
  refine ⟨rfl, ?_, fun some => (text_eventOutput events).trans (if_neg some)⟩
  rw [text, text_eventOutput]
  constructor
  · intro empty
    by_contra some
    rw [if_neg some] at empty
    have line := congrArg String.toList empty
    simp at line
  · exact fun none => if_pos none

theorem failsSilently_failure (fault : Fault) : (failure fault).FailsSilently :=
  ⟨rfl, Nat.one_ne_zero⟩

end Report

section

variable {input : String} {arguments : List String}

/-- Nothing is printed before the stream has ended, so a failed read leaves no line of the events
that were delivered before it. -/
theorem run_of_opened (spelled : (Request.events input).SpelledBy arguments) {disk : Disk}
    {reads : List (Read FileFailure)} (opened : disk input = .ok reads) :
    match (parseAsync reads).outcome with
    | .failed _ => (run disk arguments).FailsSilently
    | .done | .exhausted => (run disk arguments).PrintsEvents (parseAsync reads).events := by
  rw [run_events spelled, loadEvents_of_opened opened]
  cases (parseAsync reads).outcome with
  | failed failure => exact Report.failsSilently_failure _
  | done => exact Report.printsEvents_eventOutput _
  | exhausted => exact Report.printsEvents_eventOutput _

theorem events_parseAsync_chunks {ε : Type} (chunks : List (List UInt8)) :
    (parseAsync (chunks.map .chunk : List (Read ε))).events = eventsIn chunks.flatten := by
  rw [parseAsync, Stream.parseWith_of_end]
  exact Stream.events_deliver _ rfl

/-- A file that is read to its end prints the events that it delivers. -/
theorem printsEvents_of_chunks (spelled : (Request.events input).SpelledBy arguments) {disk : Disk}
    {chunks : List (List UInt8)} (opened : disk input = .ok (chunks.map .chunk)) :
    (run disk arguments).PrintsEvents (eventsIn chunks.flatten) := by
  have printed := run_of_opened spelled opened
  rw [events_parseAsync_chunks, parseAsync, Stream.parseWith_of_end,
    Stream.outcome_deliver] at printed
  by_cases marked : doneMarker ∈ payloadsOf ((linesOf chunks.flatten).map lineText)
  · rw [if_pos marked] at printed
    exact printed
  · rw [if_neg marked] at printed
    exact printed

/-- A read that fails makes the whole run fail, unless the end of the stream was marked before. -/
theorem run_of_failure (spelled : (Request.events input).SpelledBy arguments) {disk : Disk}
    {chunks : List (List UInt8)} {failure : FileFailure} {later : List (Read FileFailure)}
    (opened : disk input = .ok (chunks.map .chunk ++ .failure failure :: later)) :
    if doneMarker ∈ closedPayloads chunks.flatten then
      (run disk arguments).PrintsEvents (eventsOf (closedPayloads chunks.flatten))
    else (run disk arguments).FailsSilently := by
  have printed := run_of_opened spelled opened
  rw [parseAsync, Stream.parseWith_of_failure chunks rfl later, Stream.outcome_deliver,
    Stream.events_deliver _ rfl] at printed
  by_cases marked : doneMarker ∈ closedPayloads chunks.flatten
  · rw [if_pos marked] at printed ⊢
    exact printed
  · rw [if_neg marked] at printed ⊢
    exact printed

/-- Whatever the payloads of events are, each event has one line of the output, which holds nothing
but the event, so no other events have the same output. A file prints the events that its stream
delivers in this way, with a line feed at the end, and nothing if there is none. A file that cannot
be opened prints nothing and is an error. So is one with a read that fails, whatever was delivered
before, unless the end of the stream was marked by then. -/
theorem events_printed_line_by_line (spelled : (Request.events input).SpelledBy arguments)
    (disk : Disk) :
    (∀ events, List.Forall₂ Encodes (printedLines (eventLines events)) events) ∧
      Function.Injective eventLines ∧
      match disk input with
      | .error _ => (run disk arguments).FailsSilently
      | .ok reads =>
        (match (parseAsync reads).outcome with
          | .failed _ => (run disk arguments).FailsSilently
          | .done | .exhausted => (run disk arguments).PrintsEvents (parseAsync reads).events) ∧
        (∀ chunks : List (List UInt8), reads = chunks.map .chunk →
          (parseAsync reads).events = eventsIn chunks.flatten ∧
            (run disk arguments).PrintsEvents (eventsIn chunks.flatten)) ∧
        ∀ (chunks : List (List UInt8)) failure later,
          reads = chunks.map .chunk ++ .failure failure :: later →
            if doneMarker ∈ closedPayloads chunks.flatten then
              (run disk arguments).PrintsEvents (eventsOf (closedPayloads chunks.flatten))
            else (run disk arguments).FailsSilently := by
  refine ⟨encodes_eventLines, eventLines_injective, ?_⟩
  cases found : disk input with
  | error failure =>
    rw [run_events spelled, loadEvents, found]
    exact Report.failsSilently_failure _
  | ok reads =>
    refine ⟨run_of_opened spelled found, ?_, ?_⟩
    · rintro chunks rfl
      exact ⟨events_parseAsync_chunks chunks, printsEvents_of_chunks spelled found⟩
    · rintro chunks failure later rfl
      exact run_of_failure spelled found

end

/-- A payload of two lines, with a quote in it, takes one line of the output. It is not printed when
a read fails after it was delivered, but it is when the marker was met before the failure. -/
theorem events_printed_of_two_lines :
    let broken : Read FileFailure := .failure (.system 5 "Uncategorized" "Input/output error")
    let chunks := ["data: \"a\nda".toUTF8.toList, "ta: b\n\n".toUTF8.toList]
    let marked := chunks ++ ["data: [DONE]\n\n".toUTF8.toList]
    let text := "\x7b\"data\":\"\\\"a\\nb\"\x7d\n"
    let report (reads : List (Read FileFailure)) := run (fun _ => .ok reads) ["sse", "--input=s"]
    (Request.events "s").SpelledBy ["sse", "--input=s"] ∧
      ((report (chunks.map .chunk)).exitCode = 0 ∧ (report (chunks.map .chunk)).text = text) ∧
      ((parseAsync (chunks.map .chunk ++ [broken])).events = [⟨"\"a\nb"⟩] ∧
        (report (chunks.map .chunk ++ [broken])).FailsSilently) ∧
      (report (marked.map .chunk ++ [broken])).text = text := by
  intro broken chunks marked text report
  have spelled : (Request.events "s").SpelledBy ["sse", "--input=s"] := by
    refine ⟨[(.input, "s")], ["--input=s"], rfl, .cons .joined .nil, ?_⟩
    intro flag
    cases flag <;> rfl
  have events : eventsIn chunks.flatten = [⟨"\"a\nb"⟩] := by decide +kernel
  have lines : eventLines [⟨"\"a\nb"⟩] ++ "\n" = text := by decide +kernel
  refine ⟨spelled, ?_, ⟨by decide +kernel, ?_⟩, ?_⟩
  · obtain ⟨_, _, _, ended, _⟩ :=
      events_printed_line_by_line spelled fun _ => .ok (chunks.map .chunk)
    obtain ⟨_, success, _, printed⟩ := ended chunks rfl
    rw [events, lines] at printed
    exact ⟨success, printed (by simp)⟩
  · obtain ⟨_, _, _, _, failed⟩ :=
      events_printed_line_by_line spelled fun _ => .ok (chunks.map .chunk ++ [broken])
    have silent := failed chunks _ [] rfl
    rwa [if_neg (by decide +kernel)] at silent
  · obtain ⟨_, _, _, _, failed⟩ :=
      events_printed_line_by_line spelled fun _ => .ok (marked.map .chunk ++ [broken])
    have closed := failed marked _ [] rfl
    have delivered : eventsOf (closedPayloads marked.flatten) = [⟨"\"a\nb"⟩] := by decide +kernel
    rw [if_pos (by decide +kernel), delivered] at closed
    obtain ⟨_, _, printed⟩ := closed
    rw [lines] at printed
    exact printed (by simp)

end Cli

end FilterQuery
