import FilterQuery.Proofs.Sequences
import FilterQuery.Proofs.Stream.Pieces
import FilterQuery.Proofs.Text.Encoding
import FilterQuery.Proofs.Text.Trimming

/-!
Events written as a stream. An event is written as one line for each of its pieces and then blank
lines; how a line ends, and what spaces and tabs are around the piece, is left open. The events that
a source can deliver are told by their pieces (`deliverable_iff`), and each of them comes back from
whatever lines it is written as (`parse_of_written`).
-/
namespace FilterQuery.Stream

open Text (Utf8.encode trim)

inductive Terminator : List UInt8 → Prop
  | feed : Terminator [lineFeed]
  | returnFeed : Terminator [carriageReturn, lineFeed]

/-- Spaces and tabs, possibly none. -/
def Padding (text : List Char) : Prop := ∀ c ∈ text, c = ' ' ∨ c = '\t'

/-- A line of an event: the label, and a piece with padding around it. -/
inductive PieceLine (piece : List Char) : List UInt8 → Prop
  | mk {before after : List Char} {terminator : List UInt8} : Padding before → Padding after →
      Terminator terminator →
      PieceLine piece (Utf8.encode (dataLabel ++ before ++ piece ++ after) ++ terminator)

/-- The pieces of an event, which line feeds separate. -/
def Event.pieces (event : Event) : List (List Char) := event.data.toList.splitOn '\n'

/-- The lines of an event: one for each piece, and then blank ones, at least one. -/
inductive Event.WrittenAs (event : Event) : List (List UInt8) → Prop
  | mk {lines blanks : List (List UInt8)} : List.Forall₂ PieceLine event.pieces lines →
      blanks ≠ [] → (∀ blank ∈ blanks, Terminator blank) → WrittenAs event (lines ++ blanks)

/-- The lines of events: blank ones, possibly none, and then those of each event. -/
inductive WrittenAs (events : List Event) : List (List UInt8) → Prop
  | mk {blanks : List (List UInt8)} {groups : List (List (List UInt8))} :
      (∀ blank ∈ blanks, Terminator blank) → List.Forall₂ Event.WrittenAs events groups →
      WrittenAs events (blanks ++ groups.flatten)

/-- The event does not end the stream, its pieces are trimmed, and the first one is not empty. -/
structure Event.Deliverable (event : Event) : Prop where
  unmarked : event.data ≠ doneMarker
  trimmed : ∀ piece ∈ event.pieces, trim piece = piece
  begins : ∀ piece ∈ event.pieces.head?, piece ≠ []

theorem Padding.blank {text : List Char} (padding : Padding text) : Text.Blank text := by
  intro c member
  rcases padding c member with rfl | rfl <;> rfl

/-- The line ends with its only line feed. -/
def Ended (line : List UInt8) : Prop := ∃ before, lineFeed ∉ before ∧ line = before ++ [lineFeed]

theorem linesOf_flatten_append {lines : List (List UInt8)} (ended : ∀ line ∈ lines, Ended line)
    (more : List UInt8) : linesOf (lines.flatten ++ more) = lines ++ linesOf more := by
  induction lines with
  | nil => rfl
  | cons line lines ih =>
    obtain ⟨⟨before, notMem, same⟩, others⟩ := List.forall_mem_cons.mp ended
    rw [List.flatten_cons, same, List.append_assoc, List.append_assoc, List.singleton_append,
      linesOf_append_cons _ notMem, ih others, List.cons_append]

theorem closedLines_flatten_append {lines : List (List UInt8)} (ended : ∀ line ∈ lines, Ended line)
    (more : List UInt8) : closedLines (lines.flatten ++ more) = lines ++ closedLines more := by
  have closed : lines.filter (fun line => line.getLast? = some lineFeed) = lines := by
    refine List.filter_eq_self.mpr fun line member => ?_
    obtain ⟨before, _, rfl⟩ := ended line member
    simp
  rw [closedLines, linesOf_flatten_append ended, List.filter_append, closed]
  rfl

theorem Terminator.ended {terminator : List UInt8} (ends : Terminator terminator) :
    Ended terminator := by
  cases ends with
  | feed => exact ⟨[], by simp, rfl⟩
  | returnFeed => exact ⟨[carriageReturn], by decide, rfl⟩

theorem dropEnd_concat (byte : UInt8) (bytes : List UInt8) :
    dropEnd byte (bytes ++ [byte]) = bytes := by
  rw [dropEnd, if_pos List.getLast?_concat, List.dropLast_concat]

theorem getLast?_encode_ne {text : List Char} (other : text.getLast? ≠ some '\r') :
    (Utf8.encode text).getLast? ≠ some carriageReturn := by
  intro last
  rcases List.eq_nil_or_concat' text with rfl | ⟨start, c, rfl⟩
  · cases last
  · rw [Text.Utf8.encode_append, Utf8.encode, Utf8.encode, List.flatMap_singleton,
      List.getLast?_append_of_ne_nil _ String.utf8EncodeChar_ne_nil] at last
    have same := Text.Utf8.toNat_of_mem_utf8EncodeChar (by decide) (List.mem_of_getLast? last)
    apply other
    rw [List.getLast?_concat, (@Char.toNat_inj c '\r').mp same]

/-- The text of a line is what is encoded before the end of the line. -/
theorem Terminator.lineText_encode_append {terminator : List UInt8} (ends : Terminator terminator)
    {text : List Char} (other : text.getLast? ≠ some '\r') :
    Stream.lineText (Utf8.encode text ++ terminator) = text := by
  have kept : dropEnd carriageReturn (Utf8.encode text) = Utf8.encode text :=
    if_neg (getLast?_encode_ne other)
  have cut : dropEnd carriageReturn (dropEnd lineFeed (Utf8.encode text ++ terminator)) =
      Utf8.encode text := by
    cases ends with
    | feed => rw [dropEnd_concat, kept]
    | returnFeed =>
      rw [List.append_cons, dropEnd_concat, dropEnd_concat]
  rw [Stream.lineText, cut, Text.Utf8.decodeLossy_encode]

theorem Terminator.lineText {terminator : List UInt8} (ends : Terminator terminator) :
    Stream.lineText terminator = [] :=
  @lineText_encode_append terminator ends [] (by simp)

theorem PieceLine.ended {piece : List Char} {line : List UInt8} (isLine : PieceLine piece line)
    (plain : '\n' ∉ piece) : Ended line := by
  obtain @⟨before, after, terminator, blank, blankAfter, ends⟩ := isLine
  have notMem : lineFeed ∉ Utf8.encode (dataLabel ++ before ++ piece ++ after) := by
    intro member
    obtain ⟨c, isChar, same⟩ := Text.Utf8.exists_char_of_mem_encode (by decide) member
    obtain rfl : c = '\n' := Char.toNat_inj.mp same
    simp only [List.mem_append] at isChar
    rcases isChar with ((inLabel | inBefore) | inPiece) | inAfter
    · exact absurd inLabel (by decide)
    · exact absurd (blank _ inBefore) (by decide)
    · exact plain inPiece
    · exact absurd (blankAfter _ inAfter) (by decide)
  obtain ⟨start, noFeed, rfl⟩ := ends.ended
  refine ⟨_, ?_, (List.append_assoc _ start [lineFeed]).symm⟩
  rw [List.mem_append, not_or]
  exact ⟨notMem, noFeed⟩

/-- The text of a piece's line is not blank, and the piece is its content. -/
theorem PieceLine.lineText {piece : List Char} {line : List UInt8} (isLine : PieceLine piece line)
    (trimmed : trim piece = piece) :
    Stream.lineText line ≠ [] ∧ lineContent (Stream.lineText line) = piece := by
  obtain @⟨before, after, terminator, blank, blankAfter, ends⟩ := isLine
  have other : (dataLabel ++ before ++ piece ++ after).getLast? ≠ some '\r' := by
    intro last
    simp only [List.getLast?_append, Option.or_eq_some_iff] at last
    rcases last with inAfter | ⟨_, inPiece | ⟨_, inBefore | ⟨_, inLabel⟩⟩⟩
    · exact absurd (blankAfter _ (List.mem_of_getLast? inAfter)) (by decide)
    · exact absurd ((Text.trim_eq_iff.mp trimmed).1.ends _ inPiece) (by decide)
    · exact absurd (blank _ (List.mem_of_getLast? inBefore)) (by decide)
    · exact absurd inLabel (by decide)
  have labelled : dataLabel.isPrefixOf (dataLabel ++ before ++ piece ++ after) = true := by
    simp only [List.isPrefixOf_iff_prefix, List.append_assoc, List.prefix_append]
  rw [ends.lineText_encode_append other]
  constructor
  · simp [dataLabel]
  · rw [lineContent, if_pos labelled]
    simp only [List.append_assoc, List.drop_left]
    rw [← List.append_assoc, Text.trim_append blank.blank blankAfter.blank, trimmed]

/-- The lines of pieces have the pieces for their contents, and none of them is blank. -/
theorem contents_of_pieceLines {pieces : List (List Char)} {lines : List (List UInt8)}
    (trimmed : ∀ piece ∈ pieces, trim piece = piece)
    (written : List.Forall₂ PieceLine pieces lines) :
    (lines.map lineText).map lineContent = pieces ∧ ∀ line ∈ lines.map lineText, line ≠ [] := by
  induction written with
  | nil => exact ⟨rfl, by simp⟩
  | cons isLine _ ih =>
    obtain ⟨first, others⟩ := List.forall_mem_cons.mp trimmed
    obtain ⟨some, content⟩ := isLine.lineText first
    obtain ⟨contents, all⟩ := ih others
    rw [List.map_cons, List.map_cons, content, contents]
    exact ⟨rfl, List.forall_mem_cons.mpr ⟨some, all⟩⟩

namespace Block

theorem pushAll_of_blank {lines : List (List UInt8)} (blank : ∀ line ∈ lines, Terminator line) :
    empty.pushAll (lines.map lineText) = ([], empty) := by
  induction lines with
  | nil => rfl
  | cons line lines ih =>
    obtain ⟨ends, others⟩ := List.forall_mem_cons.mp blank
    rw [List.map_cons, pushAll_cons, push, if_pos ends.lineText, ih others]
    rfl

theorem pushAll_of_not_blank {lines : List (List Char)} (some : ∀ line ∈ lines, line ≠ [])
    (taken : List (List Char)) :
    (Block.mk (payloadOf taken)).pushAll lines = ([], Block.mk (payloadOf (taken ++ lines))) := by
  induction lines generalizing taken with
  | nil => rw [List.append_nil, pushAll]
  | cons line lines ih =>
    obtain ⟨first, others⟩ := List.forall_mem_cons.mp some
    rw [pushAll_cons, push, if_neg first, add_payloadOf, ih others, ← List.append_cons]
    rfl

/-- The lines of pieces and then blank ones give one payload: the pieces with line feeds between
them. -/
theorem pushAll_of_pieceLines {first : List Char} {rest : List (List Char)}
    {lines blanks : List (List UInt8)} (trimmed : ∀ piece ∈ first :: rest, trim piece = piece)
    (begins : first ≠ []) (written : List.Forall₂ PieceLine (first :: rest) lines)
    (some : blanks ≠ []) (blank : ∀ line ∈ blanks, Terminator line) :
    empty.pushAll ((lines ++ blanks).map lineText) =
      ([String.ofList (['\n'].intercalate (first :: rest))], empty) := by
  obtain ⟨contents, notBlank⟩ := contents_of_pieceLines trimmed written
  have payload : payloadOf (lines.map lineText) =
      String.ofList (['\n'].intercalate (first :: rest)) := by
    rw [← String.toList_inj, toList_payloadOf, contents,
      List.dropWhile_cons_of_neg (by simpa using begins), String.toList_ofList]
  have notEmpty : payloadOf (lines.map lineText) ≠ "" := by
    intro nothing
    have gathered := congrArg String.toList (payload.symm.trans nothing)
    cases rest <;> simp [List.intercalate, begins] at gathered
  have taken : empty.pushAll (lines.map lineText) = ([], ⟨payloadOf (lines.map lineText)⟩) :=
    pushAll_of_not_blank notBlank []
  obtain ⟨line, blanks, rfl⟩ := List.exists_cons_of_ne_nil some
  obtain ⟨ends, others⟩ := List.forall_mem_cons.mp blank
  rw [List.map_append, pushAll_append, taken, List.map_cons, pushAll_cons, push,
    if_pos ends.lineText, payload?, if_neg notEmpty, pushAll_of_blank others, payload]
  rfl

end Block

theorem notMem_of_mem_splitOn {text piece : List Char} {separator : Char}
    (isPiece : piece ∈ text.splitOn separator) : separator ∉ piece := by
  induction text generalizing piece with
  | nil =>
    rw [List.splitOn_nil, List.mem_singleton] at isPiece
    simp [isPiece]
  | cons c text ih =>
    rw [List.splitOn_cons_eq_if_modifyHead] at isPiece
    split at isPiece
    case isTrue =>
      rcases List.mem_cons.mp isPiece with rfl | later
      · exact List.not_mem_nil
      · exact ih later
    case isFalse differs =>
      obtain ⟨first, rest, split⟩ := List.exists_cons_of_ne_nil (List.splitOn_ne_nil separator text)
      rw [split] at ih isPiece
      rcases List.mem_cons.mp isPiece with rfl | later
      · rw [List.mem_cons, not_or]
        exact ⟨fun same => differs (by simp [same]), ih List.mem_cons_self⟩
      · exact ih (List.mem_cons_of_mem _ later)

theorem ended_of_pieceLines {pieces : List (List Char)} {lines : List (List UInt8)}
    (plain : ∀ piece ∈ pieces, '\n' ∉ piece) (written : List.Forall₂ PieceLine pieces lines) :
    ∀ line ∈ lines, Ended line := by
  intro line member
  obtain ⟨piece, isPiece, isLine⟩ := exists_of_forall₂ written.flip member
  exact isLine.ended (plain piece isPiece)

namespace Event

theorem WrittenAs.ended {event : Event} {lines : List (List UInt8)}
    (written : event.WrittenAs lines) : ∀ line ∈ lines, Ended line := by
  obtain ⟨pieces, _, blank⟩ := written
  intro line member
  rcases List.mem_append.mp member with isPiece | isBlank
  · exact ended_of_pieceLines (fun _ => notMem_of_mem_splitOn) pieces line isPiece
  · exact (blank line isBlank).ended

/-- The lines of an event give this event, and leave nothing open. -/
theorem WrittenAs.pushAll {event : Event} {lines : List (List UInt8)}
    (deliverable : event.Deliverable) (written : event.WrittenAs lines) :
    Block.empty.pushAll (lines.map lineText) = ([event.data], Block.empty) := by
  obtain ⟨pieces, some, blank⟩ := written
  have whole : ['\n'].intercalate event.pieces = event.data.toList := List.intercalate_splitOn _
  obtain ⟨first, rest, split⟩ := List.exists_cons_of_ne_nil
    (List.splitOn_ne_nil '\n' event.data.toList)
  change event.pieces = _ at split
  have trimmed := deliverable.trimmed
  have begins := deliverable.begins
  rw [split] at whole trimmed begins pieces
  rw [Block.pushAll_of_pieceLines trimmed (begins first rfl) pieces some blank, whole,
    String.ofList_toList]

end Event

theorem WrittenAs.ended {events : List Event} {lines : List (List UInt8)}
    (written : WrittenAs events lines) : ∀ line ∈ lines, Ended line := by
  obtain ⟨blank, groups⟩ := written
  intro line member
  rcases List.mem_append.mp member with isBlank | inGroup
  · exact (blank line isBlank).ended
  · obtain ⟨group, isGroup, inGroup⟩ := List.mem_flatten.mp inGroup
    obtain ⟨event, _, isWritten⟩ := exists_of_forall₂ groups.flip isGroup
    exact isWritten.ended line inGroup

/-- The lines of events give these events, and leave nothing open. -/
theorem WrittenAs.pushAll {events : List Event} {lines : List (List UInt8)}
    (deliverable : ∀ event ∈ events, event.Deliverable) (written : WrittenAs events lines) :
    Block.empty.pushAll (lines.map lineText) = (events.map Event.data, Block.empty) := by
  obtain ⟨blank, groups⟩ := written
  rw [List.map_append, Block.pushAll_append, Block.pushAll_of_blank blank]
  induction groups with
  | nil => rfl
  | cons isWritten _ ih =>
    obtain ⟨first, others⟩ := List.forall_mem_cons.mp deliverable
    have rest := ih others
    simp only [List.nil_append, Prod.ext_iff] at rest
    rw [List.flatten_cons, List.map_append, Block.pushAll_append, isWritten.pushAll first]
    simp only [rest]
    rfl

theorem deliverable_of_mem_events {reads : List (Read ReadFailure)} {event : Event}
    (member : event ∈ (parse reads).events) : event.Deliverable := by
  have events : (parse reads).events = _ := Block.events_run ReadFailure.interrupted reads
  rw [events] at member
  obtain ⟨block, delivered, rfl⟩ := List.mem_map.mp member
  obtain ⟨some, plain⟩ := Contents.of_mem_delivered delivered
  have pieces : (Event.mk (payloadOf block)).pieces =
      (block.map lineContent).dropWhile (· = []) := splitOn_payloadOf plain some
  refine ⟨by simpa using List.mem_takeWhile_imp delivered, ?_, ?_⟩
  · rw [pieces]
    intro piece isPiece
    obtain ⟨line, _, rfl⟩ := List.mem_map.mp (List.dropWhile_subset _ isPiece)
    exact (Text.trimmed_trim _).trim_eq
  · rw [pieces]
    intro piece first
    have kept := List.head?_dropWhile_not (fun content : List Char => decide (content = []))
      (block.map lineContent)
    rw [Option.mem_def.mp first] at kept
    simpa using kept

/-! ## Written events are delivered -/

theorem map_mk_data (events : List Event) : (events.map Event.data).map Event.mk = events := by
  rw [List.map_map]
  exact List.map_id events

theorem eventsOf_append_marker {events : List Event}
    (deliverable : ∀ event ∈ events, event.Deliverable) (more : List String) :
    eventsOf (events.map Event.data ++ doneMarker :: more) = events := by
  have unmarked : ∀ payload ∈ events.map Event.data, decide (payload ≠ doneMarker) = true := by
    intro payload member
    obtain ⟨event, isEvent, rfl⟩ := List.mem_map.mp member
    exact decide_eq_true (deliverable event isEvent).unmarked
  rw [eventsOf, List.takeWhile_append_of_pos unmarked, List.takeWhile_cons_of_neg (by simp),
    List.append_nil, map_mk_data]

/-- Written events are delivered, and the stream ends with the input. -/
theorem parse_of_written {events : List Event} {lines : List (List UInt8)}
    (deliverable : ∀ event ∈ events, event.Deliverable) (written : WrittenAs events lines)
    {chunks : List (List UInt8)} (bytes : chunks.flatten = lines.flatten) :
    parse (chunks.map .chunk) = ⟨events.map .event ++ [.close], .exhausted⟩ := by
  have cut : linesOf chunks.flatten = lines := by
    have whole := linesOf_flatten_append written.ended []
    rw [List.append_nil] at whole
    exact (congrArg linesOf bytes).trans (whole.trans (List.append_nil lines))
  have payloads : payloadsOf (lines.map lineText) = events.map Event.data := by
    rw [← Block.payloads_empty, Block.payloads, written.pushAll deliverable]
    exact List.append_nil _
  have unmarked : doneMarker ∉ events.map Event.data := by
    intro member
    obtain ⟨event, isEvent, marked⟩ := List.mem_map.mp member
    exact (deliverable event isEvent).unmarked marked
  rw [parse, parseWith_of_end, cut, payloads, deliver_close, if_neg unmarked,
    eventsOf_of_notMem unmarked, map_mk_data]

/-- Written events and then the marker are delivered whatever follows, and the stream is done. -/
theorem parse_of_written_marker {events : List Event} {lines : List (List UInt8)}
    (deliverable : ∀ event ∈ events, event.Deliverable) (written : WrittenAs events lines)
    {line terminator : List UInt8} (isMarker : PieceLine doneMarker.toList line)
    (ends : Terminator terminator) {chunks : List (List UInt8)} {more : List UInt8}
    (bytes : chunks.flatten = lines.flatten ++ line ++ terminator ++ more)
    (continuation : List (Read ReadFailure)) :
    parse (chunks.map .chunk ++ continuation) = ⟨events.map .event ++ [.close], .done⟩ := by
  have marker : Block.empty.pushAll ([line, terminator].map lineText) =
      ([doneMarker], Block.empty) :=
    Block.pushAll_of_pieceLines (by decide) (by decide) (.cons isMarker .nil) (by simp)
      (by simpa using ends)
  have ended : ∀ l ∈ lines ++ [line, terminator], Ended l := by
    intro l member
    rcases List.mem_append.mp member with inLines | last
    · exact written.ended l inLines
    · simp only [List.mem_cons, List.not_mem_nil, or_false] at last
      rcases last with rfl | rfl
      · exact isMarker.ended (by decide)
      · exact ends.ended
  have cut := closedLines_flatten_append ended more
  -- What is closed after the marker is not delivered, so it does not matter what it is.
  obtain ⟨others, payloads⟩ : ∃ others,
      closedPayloads chunks.flatten = events.map Event.data ++ doneMarker :: others := by
    have whole : chunks.flatten = (lines ++ [line, terminator]).flatten ++ more := by
      rw [bytes, List.flatten_append, List.flatten_cons, List.flatten_singleton, ← List.append_assoc]
    rw [whole, ← Block.pushAll_empty, cut, List.map_append, List.map_append, Block.pushAll_append,
      Block.pushAll_append, written.pushAll deliverable, marker]
    exact ⟨_, List.append_assoc _ _ _⟩
  have marked : doneMarker ∈ closedPayloads chunks.flatten := by simp [payloads]
  rw [parse, parseWith_of_marked marked, payloads, eventsOf_append_marker deliverable]

/-- Events can be written. -/
theorem exists_writtenAs (events : List Event) : ∃ lines, WrittenAs events lines := by
  have pieceLine (piece : List Char) : ∃ line, PieceLine piece line :=
    ⟨_, @PieceLine.mk piece [] [] [lineFeed] (by simp [Padding]) (by simp [Padding]) .feed⟩
  have group (event : Event) : ∃ lines, event.WrittenAs lines := by
    obtain ⟨lines, pieces⟩ := exists_forall₂ fun piece (_ : piece ∈ event.pieces) => pieceLine piece
    exact ⟨_, .mk pieces (List.cons_ne_nil [lineFeed] []) (by simpa using .feed)⟩
  obtain ⟨groups, written⟩ := exists_forall₂ fun event (_ : event ∈ events) => group event
  exact ⟨_, @WrittenAs.mk events [] groups (by simp) written⟩

/-- The events that some source delivers are told by their pieces. -/
theorem deliverable_iff {event : Event} :
    event.Deliverable ↔ ∃ reads, event ∈ (parse reads).events := by
  constructor
  · intro deliverable
    obtain ⟨lines, written⟩ := exists_writtenAs [event]
    refine ⟨lines.map .chunk, ?_⟩
    rw [parse_of_written (by simpa using deliverable) written rfl, Transcript.events_of_map]
    exact List.mem_singleton_self event
  · rintro ⟨reads, member⟩
    exact deliverable_of_mem_events member

/-- What a source delivers is delivered again from every way to write it, however its bytes are cut
into reads; and so it is when the marker and anything else follow, though the stream is then done
and not at the end of its input. -/
theorem parse_of_written_events (reads : List (Read ReadFailure)) (lines : List (List UInt8))
    (written : WrittenAs (parse reads).events lines) (chunks : List (List UInt8)) :
    (chunks.flatten = lines.flatten →
      parse (chunks.map .chunk) =
        ⟨(parse reads).events.map .event ++ [.close], .exhausted⟩) ∧
      ∀ line terminator more continuation, PieceLine doneMarker.toList line →
        Terminator terminator → chunks.flatten = lines.flatten ++ line ++ terminator ++ more →
        parse (chunks.map .chunk ++ continuation) =
          ⟨(parse reads).events.map .event ++ [.close], .done⟩ := by
  have deliverable : ∀ event ∈ (parse reads).events, event.Deliverable :=
    fun _ => deliverable_of_mem_events
  exact ⟨parse_of_written deliverable written, fun _ _ _ continuation isMarker ends bytes =>
    parse_of_written_marker deliverable written isMarker ends bytes continuation⟩

/-- An event whose first piece looks like a label and whose last piece is empty, written with white
space and both ends of lines. -/
theorem parse_of_written_label :
    let reads : List (Read ReadFailure) := [.chunk "data:data: \ndata:\n\n".toUTF8.toList]
    let lines := ["\r\n", "data: \tdata:\r\n", "data: \n", "\n", "\r\n"].map (·.toUTF8.toList)
    let marked := lines ++ ["data: [DONE]\n", "\n", "data: x"].map (·.toUTF8.toList)
    let failure : ReadFailure := ⟨false, "reset"⟩
    (parse reads).events = [⟨"data:\n"⟩] ∧ WrittenAs (parse reads).events lines ∧
      parse (lines.map .chunk) = ⟨[.event ⟨"data:\n"⟩, .close], .exhausted⟩ ∧
      parse (marked.map .chunk ++ [.failure failure]) =
        ⟨[.event ⟨"data:\n"⟩, .close], .done⟩ := by
  intro reads lines marked failure
  have events : (parse reads).events = [⟨"data:\n"⟩] := by decide +kernel
  have isLine {piece before after terminator line : _} (blank : Padding before)
      (blankAfter : Padding after) (ends : Terminator terminator)
      (same : line = Utf8.encode (dataLabel ++ before ++ piece ++ after) ++ terminator) :
      PieceLine piece line := same ▸ .mk blank blankAfter ends
  have label : PieceLine "data:".toList "data: \tdata:\r\n".toUTF8.toList :=
    @isLine _ [' ', '\t'] [] _ _ (by simp [Padding]) (by simp [Padding]) .returnFeed
      (by decide +kernel)
  have empty : PieceLine [] "data: \n".toUTF8.toList :=
    @isLine _ [' '] [] _ _ (by simp [Padding]) (by simp [Padding]) .feed (by decide +kernel)
  have isMarker : PieceLine doneMarker.toList "data: [DONE]\n".toUTF8.toList :=
    @isLine _ [' '] [] _ _ (by simp [Padding]) (by simp [Padding]) .feed (by decide +kernel)
  have unix : Terminator "\n".toUTF8.toList := by
    rw [show "\n".toUTF8.toList = [lineFeed] by decide +kernel]
    exact .feed
  have dos : Terminator "\r\n".toUTF8.toList := by
    rw [show "\r\n".toUTF8.toList = [carriageReturn, lineFeed] by decide +kernel]
    exact .returnFeed
  have pieces : (Event.mk "data:\n").pieces = ["data:".toList, []] := by decide
  have pieceLines := List.Forall₂.cons label (.cons empty .nil)
  rw [← pieces] at pieceLines
  have blanks : ∀ line ∈ ["\n".toUTF8.toList, "\r\n".toUTF8.toList], Terminator line :=
    List.forall_mem_cons.mpr ⟨unix, List.forall_mem_singleton.mpr dos⟩
  have group := Event.WrittenAs.mk pieceLines (List.cons_ne_nil _ _) blanks
  have written : WrittenAs (parse reads).events lines := by
    rw [events]
    exact .mk (List.forall_mem_singleton.mpr dos) (.cons group .nil)
  obtain ⟨ended, _⟩ := parse_of_written_events reads lines written lines
  obtain ⟨_, done⟩ := parse_of_written_events reads lines written marked
  have again := ended rfl
  have stopped := done _ _ "data: x".toUTF8.toList [.failure failure] isMarker .feed (by decide +kernel)
  rw [events] at again stopped
  exact ⟨events, written, again, stopped⟩

end FilterQuery.Stream
