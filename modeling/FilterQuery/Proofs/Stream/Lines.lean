import Mathlib.Data.List.SplitBy
import Mathlib.Data.List.TakeWhile
import FilterQuery.Stream.Transcript

/-!
Lines of a source. What a source comes to is its bytes, up to the end of the input or up to the
failure that ends it. The lines that are taken from the source are those of its bytes
(`run_eq_runLines`), so a transcript does not depend on how the bytes are cut into reads
(`parse_of_cut`).
-/
namespace FilterQuery.Stream

variable {ε : Type}

/-- The lines of the bytes: they are cut after every line feed. -/
def linesOf (bytes : List UInt8) : List (List UInt8) :=
  bytes.splitBy fun byte _ => byte != lineFeed

theorem isChain_line {before : List UInt8} (last : UInt8) (notMem : lineFeed ∉ before) :
    (before ++ [last]).IsChain fun byte _ => (byte != lineFeed) = true := by
  induction before with
  | nil => exact .singleton last
  | cons byte before ih =>
    have first : (byte != lineFeed) = true := by
      rw [bne_iff_ne]
      rintro rfl
      exact notMem List.mem_cons_self
    rw [List.cons_append, List.isChain_cons]
    exact ⟨fun _ _ => first, ih fun member => notMem (List.mem_cons_of_mem _ member)⟩

/-- A line feed ends the first line, and the other lines are those of the bytes after it. -/
theorem linesOf_append_cons {before : List UInt8} (after : List UInt8)
    (notMem : lineFeed ∉ before) :
    linesOf (before ++ lineFeed :: after) = (before ++ [lineFeed]) :: linesOf after := by
  have cut : ∀ x ∈ (before ++ [lineFeed]).getLast?, ∀ y ∈ after.head?, (x != lineFeed) = false := by
    intro x last y _
    rw [List.getLast?_concat, Option.mem_some_iff] at last
    subst last
    decide
  rw [List.append_cons, linesOf, List.splitBy_append cut,
    List.splitBy_of_isChain (by simp) (isChain_line lineFeed notMem)]
  rfl

/-- Without a line feed there is one line at most. -/
theorem linesOf_of_notMem {bytes : List UInt8} (some : bytes ≠ []) (notMem : lineFeed ∉ bytes) :
    linesOf bytes = [bytes] := by
  refine List.splitBy_of_isChain some ?_
  rw [← List.dropLast_concat_getLast some]
  exact isChain_line _ fun member => notMem (List.dropLast_subset bytes member)

theorem mem_of_mem_linesOf {bytes line : List UInt8} {byte : UInt8} (isLine : line ∈ linesOf bytes)
    (member : byte ∈ line) : byte ∈ bytes := by
  rw [← List.flatten_splitBy (fun byte _ => byte != lineFeed) bytes]
  exact List.mem_flatten_of_mem isLine member

theorem flatten_pieces {α : Type} (size : Nat) (items : List α) :
    (pieces size items).flatten = items := by
  fun_induction pieces size items with
  | case1 => rfl
  | case2 item items ih => rw [List.flatten_cons, ih, List.cons_append, List.take_append_drop]

/-- What a source comes to: its bytes, and the failure that ends it, if one does. -/
structure Contents (ε : Type) where
  bytes : List UInt8
  failure? : Option ε

namespace Contents

/-- The contents with bytes before their own. -/
def after (bytes : List UInt8) (contents : Contents ε) : Contents ε :=
  { contents with bytes := bytes ++ contents.bytes }

/-- The contents of reads: all bytes up to the first failure that is not retried. -/
def ofReads (retried : ε → Bool) : List (Read ε) → Contents ε
  | [] => ⟨[], none⟩
  | .failure error :: reads =>
    if retried error then ofReads retried reads else ⟨[], some error⟩
  | .chunk bytes :: reads => (ofReads retried reads).after bytes

theorem after_after (a b : List UInt8) (contents : Contents ε) :
    (contents.after b).after a = contents.after (a ++ b) := by
  rw [after, after, after, List.append_assoc]

theorem ofReads_chunks (retried : ε → Bool) (chunks : List (List UInt8)) (reads : List (Read ε)) :
    ofReads retried (chunks.map .chunk ++ reads) =
      (ofReads retried reads).after chunks.flatten := by
  induction chunks with
  | nil => rfl
  | cons bytes chunks ih =>
    rw [List.map_cons, List.cons_append, ofReads, ih, after_after, List.flatten_cons]

/-- A buffer cuts reads into smaller ones, and changes no byte. -/
theorem ofReads_buffered (retried : ε → Bool) (size : Nat) (reads : List (Read ε)) :
    ofReads retried (reads.flatMap (Read.buffered size)) = ofReads retried reads := by
  induction reads with
  | nil => rfl
  | cons read reads ih =>
    rw [List.flatMap_cons]
    cases read with
    | failure error =>
      rw [Read.buffered, List.singleton_append, ofReads, ofReads, ih]
    | chunk bytes => rw [Read.buffered, ofReads_chunks, flatten_pieces, ofReads, ih]

/-- Which failures are retried matters only for those that occur. -/
theorem ofReads_congr {retried retried' : ε → Bool} {reads : List (Read ε)}
    (same : ∀ error, .failure error ∈ reads → retried error = retried' error) :
    ofReads retried reads = ofReads retried' reads := by
  induction reads with
  | nil => rfl
  | cons read reads ih =>
    have ih := ih fun error later => same error (List.mem_cons_of_mem _ later)
    cases read with
    | failure error => rw [ofReads, ofReads, same error List.mem_cons_self, ih]
    | chunk bytes => rw [ofReads, ofReads, ih]

/-- The first line of the contents and what remains, or the failure that interrupts the line. -/
def takeLine (contents : Contents ε) : Except ε (List UInt8 × Contents ε) :=
  match contents.bytes.dropWhile (· != lineFeed), contents.failure? with
  | byte :: rest, failure? =>
    .ok (contents.bytes.takeWhile (· != lineFeed) ++ [byte], ⟨rest, failure?⟩)
  | [], none => .ok (contents.bytes, ⟨[], none⟩)
  | [], some error => .error error

theorem takeLine_after_of_open {bytes : List UInt8} (contents : Contents ε)
    (isOpen : bytes.dropWhile (· != lineFeed) = []) :
    (contents.after bytes).takeLine =
      contents.takeLine.map fun (line, rest) => (bytes ++ line, rest) := by
  have all : ∀ byte ∈ bytes, (byte != lineFeed) = true := List.dropWhile_eq_nil_iff.mp isOpen
  obtain ⟨more, failure?⟩ := contents
  unfold takeLine after
  dsimp only
  rw [List.dropWhile_append_of_pos all, List.takeWhile_append_of_pos all]
  cases more.dropWhile (· != lineFeed) with
  | nil => cases failure? <;> rfl
  | cons byte rest => simp [Except.map]

theorem takeLine_after_of_closed {bytes rest : List UInt8} {byte : UInt8} (contents : Contents ε)
    (closed : bytes.dropWhile (· != lineFeed) = byte :: rest) :
    (contents.after bytes).takeLine =
      .ok (bytes.takeWhile (· != lineFeed) ++ [byte], contents.after rest) := by
  have cut := congrArg List.length
    (List.takeWhile_append_dropWhile (p := (· != lineFeed)) (l := bytes))
  rw [closed, List.length_append, List.length_cons] at cut
  unfold takeLine after
  dsimp only
  rw [List.dropWhile_append, List.takeWhile_append, closed, if_neg (by simp), if_neg (by omega)]
  rfl

/-- Reading a line from a source is taking it from the contents of the source. -/
theorem takeLine_ofReads (retried : ε → Bool) (reads : List (Read ε)) :
    (ofReads retried reads).takeLine =
      (readLine retried reads).map fun (line, rest) => (line, ofReads retried rest) := by
  induction reads with
  | nil => rfl
  | cons read reads ih =>
    cases read with
    | failure error =>
      rw [ofReads, readLine]
      split
      · exact ih
      · rfl
    | chunk bytes =>
      rw [ofReads, readLine]
      split
      case h_1 isOpen =>
        rw [takeLine_after_of_open _ isOpen, ih]
        cases readLine retried reads <;> rfl
      case h_2 byte rest closed => exact takeLine_after_of_closed _ closed

/-- The lines that are taken from the contents. A failure leaves only those that have ended. -/
def lines (contents : Contents ε) : List (List UInt8) :=
  match contents.failure? with
  | none => linesOf contents.bytes
  | some _ => (linesOf contents.bytes).filter fun line => line.getLast? = some lineFeed

/-- The first line is the first of the lines. When there is none, the lines are over; this is a
failure exactly if a failure ends the contents. -/
theorem lines_of_takeLine (contents : Contents ε) :
    match contents.takeLine with
    | .error error => contents.failure? = some error ∧ contents.lines = []
    | .ok (line, rest) =>
      rest.failure? = contents.failure? ∧
        (line = [] → contents.failure? = none ∧ contents.lines = []) ∧
        (line ≠ [] → contents.lines = line :: rest.lines) := by
  obtain ⟨bytes, failure?⟩ := contents
  have cut := List.takeWhile_append_dropWhile (p := (· != lineFeed)) (l := bytes)
  have before : lineFeed ∉ bytes.takeWhile (· != lineFeed) := by
    intro member
    have other := List.mem_takeWhile_imp member
    simp at other
  unfold takeLine
  dsimp only
  cases found : bytes.dropWhile (· != lineFeed) with
  | cons byte rest =>
    have isFeed : byte = lineFeed := by
      have head := List.head?_dropWhile_not (· != lineFeed) bytes
      rw [found] at head
      simpa using head
    subst isFeed
    rw [found] at cut
    have split : linesOf bytes =
        (bytes.takeWhile (· != lineFeed) ++ [lineFeed]) :: linesOf rest := by
      rw [← linesOf_append_cons rest before, cut]
    refine ⟨rfl, fun empty => absurd empty (by simp), fun _ => ?_⟩
    cases failure? with
    | none => exact split
    | some error =>
      simp only [lines, split]
      rw [List.filter_cons_of_pos (by simp)]
  | nil =>
    rw [found, List.append_nil] at cut
    rw [cut] at before
    cases failure? with
    | none =>
      refine ⟨rfl, ?_, fun some => linesOf_of_notMem some before⟩
      rintro rfl
      exact ⟨rfl, rfl⟩
    | some error =>
      refine ⟨rfl, List.filter_eq_nil_iff.mpr ?_⟩
      intro line isLine ended
      rw [decide_eq_true_eq] at ended
      exact before (mem_of_mem_linesOf isLine (List.mem_of_getLast? ended))

end Contents

namespace Block

/-- Takes lines, after which the input ends or a read fails. -/
def runLines (block : Block) (failure? : Option ε) : List (List UInt8) → Transcript ε
  | [] =>
    match failure? with
    | none => block.finish
    | some error => ⟨[.error error], .failed error⟩
  | line :: lines =>
    match block.push (lineText line) with
    | (next, none) => next.runLines failure? lines
    | (next, some payload) =>
      match Event.ofPayload? payload with
      | none => ⟨[.close], .done⟩
      | some event => (next.runLines failure? lines).after [.event event]

/-- A run takes the lines of the contents of its source. -/
theorem run_eq_runLines (retried : ε → Bool) (block : Block) (reads : List (Read ε)) :
    block.run retried reads =
      block.runLines (Contents.ofReads retried reads).failure?
        (Contents.ofReads retried reads).lines := by
  have step (reads : List (Read ε)) := (Contents.ofReads retried reads).lines_of_takeLine
  simp only [Contents.takeLine_ofReads] at step
  fun_induction run retried block reads with
  | case1 block reads error taken =>
    have first := step reads
    rw [taken] at first
    rw [first.1, first.2, runLines]
  | case2 block reads rest taken =>
    have first := step reads
    rw [taken] at first
    rw [(first.2.1 rfl).1, (first.2.1 rfl).2, runLines]
  | case3 block reads line rest taken more next pushed ih =>
    have first := step reads
    rw [taken] at first
    rw [first.2.2 more, runLines, ← first.1, pushed]
    exact ih
  | case4 block reads line rest taken more next payload pushed marked =>
    have first := step reads
    rw [taken] at first
    rw [first.2.2 more, runLines, pushed]
    dsimp only
    rw [marked]
  | case5 block reads line rest taken more next payload pushed event unmarked ih =>
    have first := step reads
    rw [taken] at first
    rw [first.2.2 more, runLines, pushed]
    dsimp only
    rw [unmarked, ih, first.1]

end Block

/-- Sources with the same contents have the same runs. -/
theorem Block.run_congr {retried retried' : ε → Bool} {reads reads' : List (Read ε)} (block : Block)
    (same : Contents.ofReads retried reads = Contents.ofReads retried' reads') :
    block.run retried reads = block.run retried' reads' := by
  rw [run_eq_runLines, run_eq_runLines, same]

/-- The two ways to read differ only at an interrupted read. -/
theorem parseAsync_eq_parse {reads : List (Read ReadFailure)}
    (lasting : ∀ failure, .failure failure ∈ reads → failure.interrupted = false) :
    parseAsync reads = parse reads :=
  Block.empty.run_congr (Contents.ofReads_congr fun failure member => (lasting failure member).symm)

/-- However bytes are cut into reads, whatever the size of the buffer, and whether the input then
ends or a read fails: the calls, and how the run ends, are those of the run in which one read gives
all bytes. Without blocking they are the same ones as with it, unless the read that fails is
interrupted, which only a blocking source tries again. -/
theorem parse_of_cut (chunks : List (List UInt8)) (size : Nat) (failure? : Option ReadFailure) :
    let ending := failure?.toList.map Read.failure
    let reads := (chunks.map Read.chunk ++ ending).flatMap (Read.buffered size)
    let whole := Read.chunk chunks.flatten :: ending
    parse reads = parse whole ∧ parseAsync reads = parseAsync whole ∧
      ((∀ failure ∈ failure?, failure.interrupted = false) → parseAsync whole = parse whole) := by
  intro ending reads whole
  have contents (retried : ReadFailure → Bool) :
      Contents.ofReads retried reads = Contents.ofReads retried whole := by
    rw [Contents.ofReads_buffered, Contents.ofReads_chunks, Contents.ofReads]
  refine ⟨Block.empty.run_congr (contents _), Block.empty.run_congr (contents _), ?_⟩
  intro lasting
  apply parseAsync_eq_parse
  intro failure member
  simp only [whole, ending, List.mem_cons, reduceCtorEq, false_or, List.mem_map, Option.mem_toList,
    Read.failure.injEq, exists_eq_right] at member
  exact lasting failure member

/-- Cuts before a line feed, inside a label and inside a character, and then a failure: the events
before it are delivered. The same failure as an interruption ends only the run without blocking. -/
theorem parse_of_cut_everywhere :
    let chunks := ["da".toUTF8.toList, "ta: ".toUTF8.toList ++ [0xC3], 0xA9 :: "\r".toUTF8.toList,
      "\n\r\n".toUTF8.toList]
    let reset : ReadFailure := ⟨false, "reset"⟩
    let interrupted : ReadFailure := ⟨true, "interrupted"⟩
    let delivered : Call ReadFailure := .event ⟨"é"⟩
    parseAsync ((chunks.map Read.chunk ++ [Read.failure reset]).flatMap (Read.buffered 0)) =
        ⟨[delivered, .error reset], .failed reset⟩ ∧
      parseAsync ((chunks.map Read.chunk ++ [Read.failure interrupted]).flatMap (Read.buffered 2)) =
        ⟨[delivered, .error interrupted], .failed interrupted⟩ ∧
      parse ((chunks.map Read.chunk ++ [Read.failure interrupted]).flatMap (Read.buffered 2)) =
        ⟨[delivered, .close], .exhausted⟩ := by
  intro chunks reset interrupted delivered
  obtain ⟨_, cut, alike⟩ := parse_of_cut chunks 0 (some reset)
  obtain ⟨blocking, cutInterrupted, _⟩ := parse_of_cut chunks 2 (some interrupted)
  have lasting : ∀ failure ∈ some reset, failure.interrupted = false := by
    rintro failure ⟨⟩
    rfl
  refine ⟨(cut.trans (alike lasting)).trans ?_, cutInterrupted.trans ?_, blocking.trans ?_⟩
  all_goals decide +kernel

end FilterQuery.Stream
