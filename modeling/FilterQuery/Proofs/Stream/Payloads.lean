import FilterQuery.Proofs.Stream.Lines

/-!
Payloads of a text. The longest runs of lines that are not blank are its blocks, and every block
gives its payload, unless that is empty. A source delivers the payloads of its text up to the one
that ends the stream (`parse_delivers_payloads`).
-/
namespace FilterQuery.Stream

variable {ε : Type}

/-- The blocks of lines: the longest runs of lines that are not blank. -/
def blocksOf (lines : List (List Char)) : List (List (List Char)) :=
  (lines.splitOnP List.isEmpty).filter (· ≠ [])

/-- The contents from the first one on that is not empty, with line feeds between them. -/
def gather (contents : List String) : String :=
  "\n".intercalate (contents.dropWhile (· = ""))

def payloadOf (block : List (List Char)) : String :=
  gather (block.map fun line => String.ofList (lineContent line))

/-- The payloads of lines, without the empty ones. -/
def payloadsOf (lines : List (List Char)) : List String :=
  ((blocksOf lines).map payloadOf).filter (· ≠ "")

/-- Between two blank lines in a row there is nothing to deliver. -/
theorem payloads_of_runs (runs : List (List (List Char))) :
    ((runs.filter (· ≠ [])).map payloadOf).filter (· ≠ "") =
      (runs.map payloadOf).filter (· ≠ "") := by
  induction runs with
  | nil => rfl
  | cons run runs ih =>
    cases run with
    | nil => exact ih
    | cons line lines =>
      rw [List.filter_cons_of_pos (by simp), List.map_cons, List.map_cons, List.filter_cons,
        List.filter_cons, ih]

theorem intercalate_ne_empty {separator first : String} (rest : List String) (some : first ≠ "") :
    separator.intercalate (first :: rest) ≠ "" := by
  cases rest with
  | nil =>
    rw [String.intercalate_singleton]
    exact some
  | cons second rest =>
    rw [String.intercalate_cons_cons]
    intro empty
    rw [String.append_eq_empty_iff, String.append_eq_empty_iff] at empty
    exact some empty.1.1

/-- Nothing is gathered exactly when all contents are empty. -/
theorem gather_eq_empty {contents : List String} :
    gather contents = "" ↔ contents.dropWhile (· = "") = [] := by
  unfold gather
  constructor
  · intro empty
    cases kept : contents.dropWhile (· = "") with
    | nil => rfl
    | cons first rest =>
      have head := List.head?_dropWhile_not (fun content : String => decide (content = "")) contents
      rw [kept] at head empty
      exact absurd empty (intercalate_ne_empty rest (by simpa using head))
  · intro none
    rw [none]
    rfl

/-- One more content: it goes on a line of its own, unless nothing is gathered before it. -/
theorem gather_append_singleton (contents : List String) (content : String) :
    gather (contents ++ [content]) =
      if gather contents = "" then content else gather contents ++ "\n" ++ content := by
  by_cases none : contents.dropWhile (· = "") = []
  · rw [if_pos (gather_eq_empty.mpr none), gather, List.dropWhile_append, none]
    by_cases empty : content = ""
    · subst empty
      rfl
    · rw [if_pos List.isEmpty_nil, List.dropWhile_cons_of_neg (by simpa using empty),
        String.intercalate_singleton]
  · rw [if_neg (mt gather_eq_empty.mp none), gather, List.dropWhile_append,
      if_neg (by simpa using none), String.intercalate_append_of_ne_nil none (by simp),
      String.intercalate_singleton]
    rfl

namespace Block

/-- A block that has taken lines takes one more. -/
theorem add_payloadOf (lines : List (List Char)) (line : List Char) :
    (Block.mk (payloadOf lines)).add (String.ofList (lineContent line)) =
      Block.mk (payloadOf (lines ++ [line])) := by
  rw [payloadOf, payloadOf, List.map_append, List.map_singleton, gather_append_singleton, add]
  split <;> rfl

/-- The payloads that lines make a block give, and the block that they leave open. -/
def pushAll (block : Block) : List (List Char) → List String × Block
  | [] => ([], block)
  | line :: lines =>
    let (next, payload?) := block.push line
    let (payloads, last) := next.pushAll lines
    (payload?.toList ++ payloads, last)

/-- The payloads of all blocks, also of the one that is left open. -/
def payloads (block : Block) (lines : List (List Char)) : List String :=
  (block.pushAll lines).1 ++ (block.pushAll lines).2.payload?.toList

theorem payloads_cons (block : Block) (line : List Char) (lines : List (List Char)) :
    block.payloads (line :: lines) =
      (block.push line).2.toList ++ (block.push line).1.payloads lines := by
  rw [payloads, payloads, pushAll, List.append_assoc]

theorem toList_payload? (block : Block) : block.payload?.toList = [block.data].filter (· ≠ "") := by
  rw [payload?]
  by_cases empty : block.data = ""
  · rw [if_pos empty, empty]
    rfl
  · rw [if_neg empty, List.filter_cons_of_pos (by simpa using empty)]
    rfl

/-- The block holds the payload of the lines since the last blank one. -/
theorem payloads_of_open (taken lines : List (List Char)) :
    (Block.mk (payloadOf taken)).payloads lines =
      ((lines.splitOnPPrepend List.isEmpty taken.reverse).map payloadOf).filter (· ≠ "") := by
  induction lines generalizing taken with
  | nil =>
    rw [List.splitOnPPrepend_nil, List.reverse_reverse]
    exact toList_payload? _
  | cons line lines ih =>
    rw [payloads_cons, push]
    by_cases blank : line = []
    · subst blank
      rw [if_pos rfl, List.splitOnPPrepend_cons_pos rfl, List.reverse_reverse, List.map_cons,
        ← List.singleton_append, List.filter_append, toList_payload?]
      exact congrArg _ (ih [])
    · rw [if_neg blank, List.splitOnPPrepend_cons_neg (by simpa using blank), add_payloadOf, ih,
        List.reverse_concat]
      rfl

theorem payloads_empty (lines : List (List Char)) : empty.payloads lines = payloadsOf lines := by
  rw [payloadsOf, blocksOf, payloads_of_runs]
  exact payloads_of_open [] lines

end Block

/-- Delivers payloads, up to the one that ends the stream; without it, the transcript goes on. -/
def deliver (ending : Transcript ε) : List String → Transcript ε
  | [] => ending
  | payload :: payloads =>
    match Event.ofPayload? payload with
    | none => ⟨[.close], .done⟩
    | some event => (deliver ending payloads).after [.event event]

/-- The events of the payloads before the one that ends the stream. -/
def eventsOf (payloads : List String) : List Event :=
  (payloads.takeWhile (· ≠ doneMarker)).map Event.mk

theorem deliver_append (ending : Transcript ε) (before after : List String) :
    deliver ending (before ++ after) = deliver (deliver ending after) before := by
  induction before with
  | nil => rfl
  | cons payload before ih => rw [List.cons_append, deliver, deliver, ih]

theorem deliver_eq (ending : Transcript ε) (payloads : List String) :
    deliver ending payloads =
      (if doneMarker ∈ payloads then ⟨[.close], .done⟩ else ending).after
        ((eventsOf payloads).map .event) := by
  induction payloads with
  | nil => rfl
  | cons payload payloads ih =>
    rw [deliver, Event.ofPayload?, eventsOf]
    by_cases marked : payload = doneMarker
    · rw [if_pos marked, if_pos (List.mem_cons.mpr (.inl marked.symm)),
        List.takeWhile_cons_of_neg (by simpa using marked)]
      rfl
    · have later : doneMarker ∈ payload :: payloads ↔ doneMarker ∈ payloads := by
        rw [List.mem_cons, or_iff_right (Ne.symm marked)]
      rw [if_neg marked, List.takeWhile_cons_of_pos (by simpa using marked), ih]
      simp only [later]
      rfl

namespace Block

theorem finish_eq_deliver (block : Block) :
    block.finish = deliver (⟨[.close], .exhausted⟩ : Transcript ε) block.payload?.toList := by
  rw [finish]
  cases block.payload? with
  | none => rfl
  | some payload =>
    dsimp only [Option.toList]
    rw [deliver]
    cases Event.ofPayload? payload <;> rfl

/-- What follows the last line: the end of the input, or a failure, which drops the open block. -/
def ending (block : Block) : Option ε → Transcript ε
  | none => block.finish
  | some error => ⟨[.error error], .failed error⟩

/-- Lines deliver the payloads of the blocks that they close. -/
theorem runLines_eq_deliver (block : Block) (failure? : Option ε) (lines : List (List UInt8)) :
    block.runLines failure? lines =
      deliver ((block.pushAll (lines.map lineText)).2.ending failure?)
        (block.pushAll (lines.map lineText)).1 := by
  induction lines generalizing block with
  | nil => cases failure? <;> rfl
  | cons line lines ih =>
    rw [runLines, List.map_cons, pushAll]
    obtain ⟨next, payload?⟩ := block.push (lineText line)
    cases payload? with
    | none => exact ih next
    | some payload =>
      dsimp only [Option.toList]
      rw [List.singleton_append, deliver]
      cases Event.ofPayload? payload with
      | none => rfl
      | some event => exact congrArg (Transcript.after [.event event]) (ih next)

/-- Up to the end of the input, lines deliver all their payloads. -/
theorem runLines_of_empty (lines : List (List UInt8)) :
    empty.runLines none lines =
      deliver (⟨[.close], .exhausted⟩ : Transcript ε) (payloadsOf (lines.map lineText)) := by
  rw [runLines_eq_deliver, ending, finish_eq_deliver, ← deliver_append, ← payloads_empty, payloads]

end Block

/-- Up to the end of the input, bytes deliver the payloads of all blocks. -/
theorem parseWith_of_end (retried : ε → Bool) (chunks : List (List UInt8)) :
    parseWith retried (chunks.map .chunk) =
      deliver ⟨[.close], .exhausted⟩ (payloadsOf ((linesOf chunks.flatten).map lineText)) := by
  rw [← List.append_nil (chunks.map Read.chunk), parseWith, Block.run_eq_runLines,
    Contents.ofReads_chunks, Contents.ofReads, Contents.after, List.append_nil, Contents.lines,
    Block.runLines_of_empty]

/-- A stream that is read to its end is closed once, and done if the marker is there. -/
theorem deliver_close (payloads : List String) :
    deliver (⟨[.close], .exhausted⟩ : Transcript ε) payloads =
      ⟨(eventsOf payloads).map .event ++ [.close],
        if doneMarker ∈ payloads then .done else .exhausted⟩ := by
  rw [deliver_eq]
  split <;> rfl

theorem Transcript.events_of_map (events : List Event) (outcome : Outcome ε) :
    Transcript.events ⟨events.map .event ++ [.close], outcome⟩ = events := by
  rw [Transcript.events, List.filterMap_append, List.filterMap_map]
  exact (List.append_nil _).trans List.filterMap_some

/-- The calls for bytes that are read until the input ends: the payloads of their text before the
first one that marks the end of the stream, in order and each once, and then the stream is closed.
Whether it is done depends on the marker alone; the same events are collected. -/
theorem parse_delivers_payloads (chunks : List (List UInt8)) :
    let payloads := payloadsOf ((linesOf chunks.flatten).map lineText)
    parse (chunks.map .chunk) =
        ⟨(eventsOf payloads).map .event ++ [.close],
          if doneMarker ∈ payloads then .done else .exhausted⟩ ∧
      collect (chunks.map .chunk) = .ok (eventsOf payloads) := by
  intro payloads
  have parsed : parse (chunks.map .chunk) =
      ⟨(eventsOf payloads).map .event ++ [.close],
        if doneMarker ∈ payloads then .done else .exhausted⟩ :=
    (parseWith_of_end _ chunks).trans (deliver_close payloads)
  refine ⟨parsed, ?_⟩
  rw [collect, parsed, Transcript.events_of_map]
  by_cases marked : doneMarker ∈ payloads
  · rw [if_pos marked]
  · rw [if_neg marked]

end FilterQuery.Stream
