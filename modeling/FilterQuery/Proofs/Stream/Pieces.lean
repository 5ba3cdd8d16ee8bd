import FilterQuery.Proofs.Stream.Endings
import FilterQuery.Proofs.Text.Trimming
import FilterQuery.Proofs.Text.Utf8
import Mathlib.Data.List.Forall2

/-!
Pieces of an event. The contents of lines hold no line feed, so an event that is cut at its line
feeds gives back the contents of its block, from the first one on that is not empty
(`pieces_of_events`). Lines before that one leave no piece (`piece_lost_before_content`).
-/
namespace FilterQuery.Stream

variable {ε : Type}

theorem dropEnd_subset (byte : UInt8) (bytes : List UInt8) : dropEnd byte bytes ⊆ bytes := by
  unfold dropEnd
  split
  · exact List.dropLast_subset bytes
  · exact List.Subset.refl bytes

/-- In a line, nothing follows a line feed. -/
theorem eq_nil_of_mem_linesOf {bytes before after : List UInt8}
    (isLine : before ++ lineFeed :: after ∈ linesOf bytes) : after = [] := by
  have chain := List.isChain_of_mem_splitBy isLine
  obtain ⟨_, chain, _⟩ := List.isChain_append.mp chain
  cases after with
  | nil => rfl
  | cons byte after =>
    have differs : (lineFeed != lineFeed) = true := chain.rel
    simp at differs

theorem lineFeed_notMem_dropEnd {bytes line : List UInt8} (isLine : line ∈ linesOf bytes) :
    lineFeed ∉ dropEnd lineFeed line := by
  intro member
  unfold dropEnd at member
  by_cases ended : line.getLast? = some lineFeed
  · rw [if_pos ended] at member
    obtain ⟨before, after, split⟩ := List.append_of_mem member
    have whole : line = before ++ lineFeed :: (after ++ [lineFeed]) := by
      obtain ⟨start, rfl⟩ := List.getLast?_eq_some_iff.mp ended
      rw [List.dropLast_concat] at split
      simp [split]
    have empty := eq_nil_of_mem_linesOf (whole ▸ isLine)
    simp at empty
  · rw [if_neg ended] at member
    obtain ⟨before, after, rfl⟩ := List.append_of_mem member
    have empty := eq_nil_of_mem_linesOf isLine
    subst empty
    simp at ended

theorem lineFeed_notMem_lineText {bytes line : List UInt8} (isLine : line ∈ linesOf bytes) :
    '\n' ∉ lineText line := by
  intro member
  obtain ⟨byte, isByte, same⟩ :=
    Text.Utf8.exists_byte_of_mem_decodeLossy (by decide) (by decide) member
  have feed : byte = lineFeed := UInt8.toNat_inj.mp same
  subst feed
  exact lineFeed_notMem_dropEnd isLine (dropEnd_subset _ _ isByte)

theorem lineContent_subset (line : List Char) : lineContent line ⊆ line := by
  intro c member
  unfold lineContent at member
  have inside := (Text.surrounds_trim _).subset member
  split at inside
  · exact List.mem_of_mem_drop inside
  · exact inside

/-- A payload is made of the contents from the first one on that is not empty. -/
theorem toList_payloadOf (block : List (List Char)) :
    (payloadOf block).toList =
      ['\n'].intercalate ((block.map lineContent).dropWhile (· = [])) := by
  have contents : (block.map fun line => String.ofList (lineContent line)).dropWhile (· = "") =
      ((block.map lineContent).dropWhile (· = [])).map String.ofList := by
    have mapped : (block.map fun line => String.ofList (lineContent line)) =
        (block.map lineContent).map String.ofList := by
      rw [List.map_map]
      rfl
    rw [mapped, List.dropWhile_map]
    congr 2
    funext content
    simp
  unfold payloadOf gather
  rw [String.toList_intercalate, contents, List.map_map]
  congr 1
  simp [Function.comp_def]

/-- A payload that is not empty is cut at its line feeds into the contents that made it. -/
theorem splitOn_payloadOf {block : List (List Char)} (plain : ∀ line ∈ block, '\n' ∉ line)
    (some : payloadOf block ≠ "") :
    (payloadOf block).toList.splitOn '\n' = (block.map lineContent).dropWhile (· = []) := by
  rw [toList_payloadOf]
  apply List.splitOn_intercalate
  · intro content member
    obtain ⟨line, isLine, rfl⟩ := List.mem_map.mp (List.dropWhile_subset _ member)
    intro feed
    exact plain line isLine (lineContent_subset line feed)
  · intro none
    apply some
    rw [← String.toList_inj, toList_payloadOf, none]
    rfl

/-- The blocks of a source: a failure leaves only those that a blank line has closed. -/
def Contents.blocks (contents : Contents ε) : List (List (List Char)) :=
  let lines := contents.lines.map lineText
  match contents.failure? with
  | none => blocksOf lines
  | some _ => closedBlocksOf lines

/-- The blocks of a source that become events: those with a payload, up to the one that marks the
end of the stream. -/
def Contents.delivered (contents : Contents ε) : List (List (List Char)) :=
  (contents.blocks.filter fun block => payloadOf block ≠ "").takeWhile
    fun block => payloadOf block ≠ doneMarker

theorem Contents.mem_linesOf {contents : Contents ε} {line : List UInt8}
    (member : line ∈ contents.lines) : line ∈ linesOf contents.bytes := by
  unfold lines at member
  cases ends : contents.failure? with
  | none => simpa [ends] using member
  | some error =>
    simp only [ends] at member
    exact List.mem_of_mem_filter member

theorem eventsOf_payloads (blocks : List (List (List Char))) :
    eventsOf ((blocks.map payloadOf).filter (· ≠ "")) =
      ((blocks.filter fun block => payloadOf block ≠ "").takeWhile
        fun block => payloadOf block ≠ doneMarker).map fun block => ⟨payloadOf block⟩ := by
  unfold eventsOf
  rw [List.filter_map, List.takeWhile_map, List.map_map]
  rfl

/-- Every source delivers the payloads of its blocks. -/
theorem Block.events_run (retried : ε → Bool) (reads : List (Read ε)) :
    (empty.run retried reads).events =
      (Contents.ofReads retried reads).delivered.map fun block => ⟨payloadOf block⟩ := by
  rw [run_eq_runLines]
  generalize Contents.ofReads retried reads = contents
  unfold Contents.delivered Contents.blocks
  rw [← eventsOf_payloads]
  cases ends : contents.failure? with
  | none =>
    rw [runLines_of_empty, events_deliver _ rfl]
    rfl
  | some error =>
    rw [runLines_eq_deliver, events_deliver _ rfl]
    dsimp only
    rw [closedBlocksOf, payloads_of_runs]
    exact congrArg eventsOf (pushAll_of_open [] _)

theorem mem_of_mem_runs {lines taken block : List (List Char)} {line : List Char}
    (isBlock : block ∈ lines.splitOnPPrepend List.isEmpty taken) (member : line ∈ block) :
    line ∈ lines ∨ line ∈ taken := by
  induction lines generalizing taken with
  | nil =>
    rw [List.splitOnPPrepend_nil, List.mem_singleton] at isBlock
    subst isBlock
    exact .inr (List.mem_reverse.mp member)
  | cons next lines ih =>
    by_cases blank : next.isEmpty = true
    · rw [List.splitOnPPrepend_cons_pos blank] at isBlock
      rcases List.mem_cons.mp isBlock with rfl | later
      · exact .inr (List.mem_reverse.mp member)
      · rcases ih later with inLines | impossible
        · exact .inl (List.mem_cons_of_mem _ inLines)
        · cases impossible
    · rw [List.splitOnPPrepend_cons_neg (by simpa using blank)] at isBlock
      rcases ih isBlock with inLines | inTaken
      · exact .inl (List.mem_cons_of_mem _ inLines)
      · rcases List.mem_cons.mp inTaken with rfl | inTaken
        · exact .inl List.mem_cons_self
        · exact .inr inTaken

/-- A block that becomes an event has a payload, and lines without a line feed. -/
theorem Contents.of_mem_delivered {contents : Contents ε} {block : List (List Char)}
    (member : block ∈ contents.delivered) :
    payloadOf block ≠ "" ∧ ∀ line ∈ block, '\n' ∉ line := by
  have kept := List.mem_filter.mp (List.takeWhile_subset _ member)
  refine ⟨by simpa using kept.2, ?_⟩
  have isRun : block ∈ (contents.lines.map lineText).splitOnP List.isEmpty := by
    have isBlock := kept.1
    unfold blocks at isBlock
    cases ends : contents.failure? with
    | none =>
      simp only [ends] at isBlock
      exact List.mem_of_mem_filter isBlock
    | some error =>
      simp only [ends] at isBlock
      exact List.dropLast_subset _ (List.mem_of_mem_filter isBlock)
  intro line inBlock
  rcases mem_of_mem_runs isRun inBlock with isLine | impossible
  · obtain ⟨bytes, taken, rfl⟩ := List.mem_map.mp isLine
    exact lineFeed_notMem_lineText (Contents.mem_linesOf taken)
  · cases impossible

/-- Nothing is left out before a first content that is not empty, and the first content is left out
otherwise. -/
theorem dropWhile_contents_eq (contents : List (List Char)) :
    (contents.dropWhile (· = []) = contents ↔ ∀ content ∈ contents.head?, content ≠ []) ∧
      ((contents.dropWhile (· = [])).length = contents.length ↔
        ∀ content ∈ contents.head?, content ≠ []) := by
  have whole : contents.dropWhile (· = []) = contents ↔
      ∀ content ∈ contents.head?, content ≠ [] := by
    cases contents with
    | nil => simp
    | cons first rest =>
      by_cases empty : first = []
      · have shorter := (List.dropWhile_sublist (l := rest) fun content : List Char =>
          decide (content = [])).length_le
        rw [List.dropWhile_cons_of_pos (by simpa using empty)]
        constructor
        · intro same
          have lengths := congrArg List.length same
          rw [List.length_cons] at lengths
          omega
        · intro kept
          exact absurd empty (kept first rfl)
      · rw [List.dropWhile_cons_of_neg (by simpa using empty)]
        simp [empty]
  refine ⟨whole, ?_⟩
  rw [← whole]
  constructor
  · intro lengths
    exact (List.dropWhile_sublist _).eq_of_length lengths
  · intro same
    rw [same]

/-- Cut at its line feeds, the event gives back the contents of the lines of the block, in order and
one for one, from the first content on that is not empty. So it has a piece for every line exactly
if the first line of the block has a content. -/
def Event.GathersFrom (event : Event) (block : List (List Char)) : Prop :=
  let pieces := event.data.toList.splitOn '\n'
  pieces = (block.map lineContent).dropWhile (· = []) ∧
    (pieces = block.map lineContent ↔ ∀ line ∈ block.head?, lineContent line ≠ []) ∧
    (pieces.length = block.length ↔ ∀ line ∈ block.head?, lineContent line ≠ [])

theorem gathersFrom_events (retried : ε → Bool) (reads : List (Read ε)) :
    List.Forall₂ Event.GathersFrom (parseWith retried reads).events
      (Contents.ofReads retried reads).delivered := by
  rw [parseWith, Block.events_run, List.forall₂_map_left_iff, List.forall₂_same]
  intro block member
  obtain ⟨some, plain⟩ := Contents.of_mem_delivered member
  obtain ⟨whole, lengths⟩ := dropWhile_contents_eq (block.map lineContent)
  have first : (∀ content ∈ (block.map lineContent).head?, content ≠ []) ↔
      ∀ line ∈ block.head?, lineContent line ≠ [] := by
    cases block <;> simp
  rw [first] at whole lengths
  rw [List.length_map] at lengths
  unfold Event.GathersFrom
  dsimp only
  rw [splitOn_payloadOf plain some]
  exact ⟨rfl, whole, lengths⟩

/-- Every event gathers from one block, the first event from the first block that is delivered and
so on, with blocking and without it. -/
theorem pieces_of_events (reads : List (Read ReadFailure)) :
    List.Forall₂ Event.GathersFrom (parse reads).events
        (Contents.ofReads ReadFailure.interrupted reads).delivered ∧
      List.Forall₂ Event.GathersFrom (parseAsync reads).events
        (Contents.ofReads (fun _ => false) reads).delivered :=
  ⟨gathersFrom_events _ reads, gathersFrom_events _ reads⟩

/-- A line without content before a line with one is lost: its block has two lines, and the event
one piece. -/
theorem piece_lost_before_content :
    let reads : List (Read ReadFailure) := [.chunk "data:\ndata: a\n\n".toUTF8.toList]
    let block := ["data:".toList, "data: a".toList]
    (Contents.ofReads ReadFailure.interrupted reads).delivered = [block] ∧
      (parse reads).events = [⟨"a"⟩] ∧
      "a".toList.splitOn '\n' ≠ block.map lineContent ∧
      ("a".toList.splitOn '\n').length = 1 ∧ block.length = 2 := by
  decide +kernel

end FilterQuery.Stream
