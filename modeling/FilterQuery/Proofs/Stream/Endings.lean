import FilterQuery.Proofs.Stream.Payloads

/-!
Endings of a stream. Every run calls the listener for events and then once more, as its outcome says
(`parse_calls_and_outcome`). What a failed read leaves delivered are the payloads of the blocks that
a blank line has closed before it; no later read can change them.
-/
namespace FilterQuery.Stream

variable {ε : Type}

/-- The lines of the bytes that have ended. -/
def closedLines (bytes : List UInt8) : List (List UInt8) :=
  (linesOf bytes).filter fun line => line.getLast? = some lineFeed

/-- The blocks of lines that a blank line closes: all but the run that is left open. -/
def closedBlocksOf (lines : List (List Char)) : List (List (List Char)) :=
  (lines.splitOnP List.isEmpty).dropLast.filter (· ≠ [])

/-- The payloads of the blocks that are closed within the bytes, without the empty ones. -/
def closedPayloads (bytes : List UInt8) : List String :=
  ((closedBlocksOf ((closedLines bytes).map lineText)).map payloadOf).filter (· ≠ "")

theorem closedLines_append_cons {before : List UInt8} (after : List UInt8)
    (notMem : lineFeed ∉ before) :
    closedLines (before ++ lineFeed :: after) = (before ++ [lineFeed]) :: closedLines after := by
  rw [closedLines, linesOf_append_cons after notMem, List.filter_cons_of_pos (by simp)]
  rfl

theorem closedLines_of_notMem {bytes : List UInt8} (notMem : lineFeed ∉ bytes) :
    closedLines bytes = [] := by
  refine List.filter_eq_nil_iff.mpr ?_
  intro line isLine ended
  rw [decide_eq_true_eq] at ended
  exact notMem (mem_of_mem_linesOf isLine (List.mem_of_getLast? ended))

/-- Lines that have ended stay the same, whatever bytes follow. -/
theorem exists_linesOf_append (bytes more : List UInt8) :
    ∃ others, linesOf (bytes ++ more) = closedLines bytes ++ others := by
  by_cases member : lineFeed ∈ bytes
  · obtain ⟨before, after, cut, notMem⟩ := List.eq_append_cons_of_mem member
    obtain ⟨others, split⟩ := exists_linesOf_append after more
    refine ⟨others, ?_⟩
    rw [cut, List.append_assoc, List.cons_append, linesOf_append_cons _ notMem, split,
      closedLines_append_cons _ notMem, List.cons_append]
  · exact ⟨linesOf (bytes ++ more), by rw [closedLines_of_notMem member, List.nil_append]⟩
termination_by bytes.length
decreasing_by
  rw [cut, List.length_append, List.length_cons]
  omega

/-- A source whose bytes start with these has their ended lines first. -/
theorem Contents.exists_lines_after (bytes : List UInt8) (contents : Contents ε) :
    ∃ others, (contents.after bytes).lines = closedLines bytes ++ others := by
  obtain ⟨others, split⟩ := exists_linesOf_append bytes contents.bytes
  unfold Contents.lines Contents.after
  dsimp only
  cases contents.failure? with
  | none => exact ⟨others, split⟩
  | some error =>
    refine ⟨others.filter fun line => line.getLast? = some lineFeed, ?_⟩
    dsimp only
    rw [split, List.filter_append, closedLines, List.filter_filter]
    simp only [Bool.and_self]

namespace Block

theorem pushAll_cons (block : Block) (line : List Char) (lines : List (List Char)) :
    block.pushAll (line :: lines) =
      ((block.push line).2.toList ++ ((block.push line).1.pushAll lines).1,
        ((block.push line).1.pushAll lines).2) := rfl

theorem pushAll_append (block : Block) (before after : List (List Char)) :
    block.pushAll (before ++ after) =
      ((block.pushAll before).1 ++ ((block.pushAll before).2.pushAll after).1,
        ((block.pushAll before).2.pushAll after).2) := by
  induction before generalizing block with
  | nil => rfl
  | cons line before ih =>
    rw [List.cons_append, pushAll_cons, pushAll_cons, ih]
    simp only [List.append_assoc]

/-- What is given while lines are taken are the payloads of the runs before the open one. -/
theorem pushAll_of_open (taken lines : List (List Char)) :
    ((Block.mk (payloadOf taken)).pushAll lines).1 =
      ((lines.splitOnPPrepend List.isEmpty taken.reverse).dropLast.map payloadOf).filter
        (· ≠ "") := by
  induction lines generalizing taken with
  | nil => rfl
  | cons line lines ih =>
    rw [pushAll_cons, push]
    by_cases blank : line = []
    · subst blank
      have more : lines.splitOnP List.isEmpty ≠ [] := List.splitOnP_ne_nil _ _
      rw [if_pos rfl, List.splitOnPPrepend_cons_pos rfl, List.reverse_reverse,
        List.dropLast_cons_of_ne_nil more, List.map_cons, ← List.singleton_append,
        List.filter_append, toList_payload?]
      exact congrArg _ (ih [])
    · rw [if_neg blank, List.splitOnPPrepend_cons_neg (by simpa using blank), add_payloadOf]
      dsimp only [Option.toList]
      rw [List.nil_append, ih, List.reverse_concat]

theorem pushAll_empty (bytes : List UInt8) :
    (empty.pushAll ((closedLines bytes).map lineText)).1 = closedPayloads bytes := by
  rw [closedPayloads, closedBlocksOf, payloads_of_runs]
  exact pushAll_of_open [] _

end Block

def Outcome.lastCall : Outcome ε → Call ε
  | done | exhausted => .close
  | failed error => .error error

section

variable {retried : ε → Bool}

/-- However a source goes on after some bytes, what their closed blocks hold is delivered first. -/
theorem exists_parseWith_eq_deliver (chunks : List (List UInt8)) (continuation : List (Read ε)) :
    ∃ ending, parseWith retried (chunks.map .chunk ++ continuation) =
      deliver ending (closedPayloads chunks.flatten) := by
  rw [parseWith, Block.run_eq_runLines, Contents.ofReads_chunks, Block.runLines_eq_deliver]
  obtain ⟨others, split⟩ := Contents.exists_lines_after chunks.flatten
    (Contents.ofReads retried continuation)
  rw [split, List.map_append, Block.pushAll_append, deliver_append, Block.pushAll_empty]
  exact ⟨_, rfl⟩

/-- Bytes and then a failed read deliver the payloads of the closed blocks and nothing else,
whatever the source would give later. -/
theorem parseWith_of_failure (chunks : List (List UInt8)) {error : ε}
    (lasting : retried error = false) (later : List (Read ε)) :
    parseWith retried (chunks.map .chunk ++ .failure error :: later) =
      deliver ⟨[.error error], .failed error⟩ (closedPayloads chunks.flatten) := by
  have contents : Contents.ofReads retried (.failure error :: later) = ⟨[], some error⟩ := by
    rw [Contents.ofReads, if_neg (by simp [lasting])]
  rw [parseWith, Block.run_eq_runLines, Contents.ofReads_chunks, contents,
    Block.runLines_eq_deliver, ← Block.pushAll_empty, Contents.after, List.append_nil]
  rfl

end

/-- The last call is the one that the outcome asks for, also after payloads were delivered. -/
theorem calls_deliver {ending : Transcript ε} (payloads : List String)
    (ends : ending.calls = [ending.outcome.lastCall]) :
    (deliver ending payloads).calls =
      (eventsOf payloads).map .event ++ [(deliver ending payloads).outcome.lastCall] := by
  rw [deliver_eq, Transcript.after]
  by_cases marked : doneMarker ∈ payloads
  · rw [if_pos marked]
    rfl
  · rw [if_neg marked, ends]

/-- No event has the marker for its payload, nor a payload that was not delivered. -/
theorem data_of_mem_eventsOf {payloads : List String} {event : Event}
    (member : event ∈ eventsOf payloads) : event.data ∈ payloads ∧ event.data ≠ doneMarker := by
  obtain ⟨payload, taken, rfl⟩ := List.mem_map.mp member
  exact ⟨List.takeWhile_subset _ taken, by simpa using List.mem_takeWhile_imp taken⟩

/-- With the marker among the payloads, what would follow them does not matter. -/
theorem deliver_of_mem {payloads : List String} (marked : doneMarker ∈ payloads)
    (ending : Transcript ε) :
    deliver ending payloads = ⟨(eventsOf payloads).map .event ++ [.close], .done⟩ := by
  rw [deliver_eq, if_pos marked]
  rfl

theorem eventsOf_of_notMem {payloads : List String} (unmarked : doneMarker ∉ payloads) :
    eventsOf payloads = payloads.map Event.mk := by
  rw [eventsOf, List.takeWhile_eq_self_iff.mpr]
  intro payload member
  exact decide_eq_true fun marked : payload = doneMarker => unmarked (marked ▸ member)

theorem Transcript.events_after (events : List Event) (transcript : Transcript ε) :
    (transcript.after (events.map .event)).events = events ++ transcript.events := by
  rw [Transcript.after, Transcript.events, List.filterMap_append, List.filterMap_map]
  exact congrArg (· ++ _) List.filterMap_some

theorem events_deliver {ending : Transcript ε} (payloads : List String)
    (silent : ending.events = []) : (deliver ending payloads).events = eventsOf payloads := by
  rw [deliver_eq, Transcript.events_after]
  by_cases marked : doneMarker ∈ payloads
  · rw [if_pos marked]
    exact List.append_nil _
  · rw [if_neg marked, silent, List.append_nil]

/-- The events of the payloads come first in every run that delivers them. -/
theorem prefix_events_deliver (payloads : List String) (ending : Transcript ε) :
    eventsOf payloads <+: (deliver ending payloads).events := by
  rw [deliver_eq, Transcript.events_after]
  exact List.prefix_append _ _

/-- A marker among the payloads makes a run done, whatever its ending is. -/
theorem outcome_deliver (payloads : List String) (ending : Transcript ε) :
    (deliver ending payloads).outcome =
      if doneMarker ∈ payloads then .done else ending.outcome := by
  rw [deliver_eq, Transcript.after]
  split <;> rfl

section

variable {retried : ε → Bool} (chunks : List (List UInt8)) {failure? : Option ε}

theorem empty_notMem_closedPayloads (bytes : List UInt8) : "" ∉ closedPayloads bytes := by
  simp [closedPayloads]

/-- Up to the end of the input or a failed read, a run delivers payloads, none of them empty, and
its ending is one call. -/
theorem exists_parseWith_of_ending (lasting : ∀ error ∈ failure?, retried error = false) :
    ∃ (ending : Transcript ε) (delivered : List String),
      parseWith retried (chunks.map .chunk ++ failure?.toList.map .failure) =
          deliver ending delivered ∧
        ending.calls = [ending.outcome.lastCall] ∧ "" ∉ delivered := by
  cases failure? with
  | none =>
    refine ⟨⟨[.close], .exhausted⟩, payloadsOf ((linesOf chunks.flatten).map lineText), ?_, rfl, ?_⟩
    · rw [Option.toList, List.map_nil, List.append_nil]
      exact parseWith_of_end _ chunks
    · simp [payloadsOf]
  | some error =>
    exact ⟨_, _, parseWith_of_failure chunks (lasting error rfl) [], rfl,
      empty_notMem_closedPayloads chunks.flatten⟩

theorem exists_calls_parseWith (lasting : ∀ error ∈ failure?, retried error = false) :
    let transcript := parseWith retried (chunks.map .chunk ++ failure?.toList.map .failure)
    ∃ events : List Event,
      transcript.calls = events.map .event ++ [transcript.outcome.lastCall] ∧
        ∀ event ∈ events, event.data ≠ "" ∧ event.data ≠ doneMarker := by
  obtain ⟨ending, delivered, run, ends, notEmpty⟩ := exists_parseWith_of_ending chunks lasting
  rw [run]
  refine ⟨eventsOf delivered, calls_deliver delivered ends, ?_⟩
  intro event member
  obtain ⟨isDelivered, notMarker⟩ := data_of_mem_eventsOf member
  exact ⟨fun empty => notEmpty (empty ▸ isDelivered), notMarker⟩

/-- A run fails exactly with the read that fails, unless a closed block before it holds the
marker. -/
theorem outcome_parseWith_eq_failed_iff (lasting : ∀ error ∈ failure?, retried error = false)
    (error : ε) :
    (parseWith retried (chunks.map .chunk ++ failure?.toList.map .failure)).outcome =
        .failed error ↔
      failure? = some error ∧ doneMarker ∉ closedPayloads chunks.flatten := by
  cases failure? with
  | none =>
    rw [Option.toList, List.map_nil, List.append_nil, parseWith_of_end, outcome_deliver]
    split <;> simp
  | some actual =>
    rw [Option.toList, List.map_singleton, parseWith_of_failure chunks (lasting actual rfl),
      outcome_deliver]
    split <;> simp [*]

variable {chunks}

theorem events_parseWith_of_failure (unmarked : doneMarker ∉ closedPayloads chunks.flatten)
    {error : ε} (lasting : retried error = false) :
    (parseWith retried (chunks.map .chunk ++ [.failure error])).events =
      (closedPayloads chunks.flatten).map Event.mk := by
  rw [parseWith_of_failure chunks lasting, events_deliver _ rfl, eventsOf_of_notMem unmarked]

theorem prefix_events_parseWith (unmarked : doneMarker ∉ closedPayloads chunks.flatten)
    (continuation : List (Read ε)) :
    (closedPayloads chunks.flatten).map Event.mk <+:
      (parseWith retried (chunks.map .chunk ++ continuation)).events := by
  obtain ⟨ending, run⟩ := exists_parseWith_eq_deliver chunks continuation
  rw [run, ← eventsOf_of_notMem unmarked]
  exact prefix_events_deliver _ ending

theorem parseWith_of_marked (marked : doneMarker ∈ closedPayloads chunks.flatten)
    (continuation : List (Read ε)) :
    parseWith retried (chunks.map .chunk ++ continuation) =
      ⟨(eventsOf (closedPayloads chunks.flatten)).map .event ++ [.close], .done⟩ := by
  obtain ⟨ending, run⟩ := exists_parseWith_eq_deliver chunks continuation
  rw [run]
  exact deliver_of_mem marked ending

end

/-- The calls of a run are events, none of them empty or the marker, and one last call: the stream
is closed if the marker or the end of the input was met, and otherwise the failure is reported. A
run fails exactly if a read fails and no closed block before it holds the marker. What it has
delivered then are the payloads of the closed blocks, and they come first however the source goes on
instead. After a closed block with the marker, nothing that the source gives makes a difference. -/
theorem parse_calls_and_outcome (parser : List (Read ReadFailure) → Transcript ReadFailure)
    (either : parser = parse ∨ parser = parseAsync) (chunks : List (List UInt8))
    (failure? : Option ReadFailure) (lasting : ∀ failure ∈ failure?, failure.interrupted = false) :
    let transcript := parser (chunks.map .chunk ++ failure?.toList.map .failure)
    let payloads := closedPayloads chunks.flatten
    (∃ events : List Event,
        transcript.calls = events.map .event ++ [transcript.outcome.lastCall] ∧
          ∀ event ∈ events, event.data ≠ "" ∧ event.data ≠ doneMarker) ∧
      (∀ failure, transcript.outcome = .failed failure ↔
        failure? = some failure ∧ doneMarker ∉ payloads) ∧
      (∀ failure, transcript.outcome = .failed failure →
        transcript.events = payloads.map Event.mk ∧
          ∀ continuation,
            transcript.events <+: (parser (chunks.map .chunk ++ continuation)).events) ∧
      (doneMarker ∈ payloads → ∀ continuation,
        parser (chunks.map .chunk ++ continuation) =
          ⟨(eventsOf payloads).map .event ++ [.close], .done⟩) := by
  intro transcript payloads
  obtain ⟨retried, runs, ends⟩ : ∃ retried, parser = parseWith retried ∧
      ∀ failure : ReadFailure, failure.interrupted = false → retried failure = false := by
    rcases either with rfl | rfl
    · exact ⟨ReadFailure.interrupted, rfl, fun _ => id⟩
    · exact ⟨fun _ => false, rfl, fun _ _ => rfl⟩
  subst runs
  have lasting : ∀ failure ∈ failure?, retried failure = false :=
    fun failure fails => ends failure (lasting failure fails)
  have outcomes := outcome_parseWith_eq_failed_iff chunks lasting
  refine ⟨exists_calls_parseWith chunks lasting, outcomes, ?_, parseWith_of_marked⟩
  intro failure fails
  obtain ⟨rfl, unmarked⟩ := (outcomes failure).mp fails
  have delivered : transcript.events = payloads.map Event.mk :=
    events_parseWith_of_failure unmarked (lasting failure rfl)
  refine ⟨delivered, ?_⟩
  rw [delivered]
  exact prefix_events_parseWith unmarked

/-- Only the first of two blocks is closed when a read fails in the middle of a line, and it comes
first as well when the source goes on. A stream that is marked as done stays so. -/
theorem parse_calls_of_open_block :
    let chunks := ["data: a\r".toUTF8.toList, "\n\ndata: b\nda".toUTF8.toList]
    let failure : ReadFailure := ⟨false, "reset"⟩
    let continuation : List (Read ReadFailure) := [.chunk "ta:c\n\n".toUTF8.toList]
    let marked := ["data: [DONE]\n\nda".toUTF8.toList]
    (failure.interrupted = false ∧
      (parseAsync (chunks.map .chunk ++ [.failure failure])).outcome = .failed failure ∧
      (parseAsync (chunks.map .chunk ++ [.failure failure])).events = [⟨"a"⟩] ∧
      [⟨"a"⟩] <+: (parseAsync (chunks.map .chunk ++ continuation)).events) ∧
      doneMarker ∈ closedPayloads marked.flatten ∧
      parse (marked.map .chunk ++ [.failure failure]) = ⟨[.close], .done⟩ := by
  intro chunks failure continuation marked
  have lasting : ∀ other ∈ some failure, other.interrupted = false := by
    intro other same
    cases Option.mem_some_iff.mp same
    rfl
  have payloads : closedPayloads chunks.flatten = ["a"] := by decide +kernel
  have payloadsMarked : closedPayloads marked.flatten = [doneMarker] := by decide +kernel
  have unmarked : doneMarker ∉ closedPayloads chunks.flatten := by
    rw [payloads]
    decide
  obtain ⟨_, outcomes, closed, _⟩ :=
    parse_calls_and_outcome parseAsync (.inr rfl) chunks (some failure) lasting
  have failed := (outcomes failure).mpr ⟨rfl, unmarked⟩
  obtain ⟨events, first⟩ := closed failure failed
  have continued := first continuation
  rw [events, payloads] at continued
  rw [payloads] at events
  have isMarked : doneMarker ∈ closedPayloads marked.flatten := by
    rw [payloadsMarked]
    exact List.mem_singleton_self _
  obtain ⟨_, _, _, done⟩ :=
    parse_calls_and_outcome parse (.inl rfl) marked none (by simp)
  have closes := done isMarked [.failure failure]
  rw [payloadsMarked] at closes
  exact ⟨⟨rfl, failed, events, continued⟩, isMarked, closes⟩

end FilterQuery.Stream
