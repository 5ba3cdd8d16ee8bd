/-!
Sources of bytes. A source gives chunks of bytes, one for each read, until the input ends; a read
may fail instead. A buffer of limited size makes several smaller reads of a large chunk. Lines are
taken from a source one by one, each from as many reads as it takes.
-/
namespace FilterQuery.Stream

/-- What one read gives. -/
inductive Read (ε : Type) where
  | chunk (bytes : List UInt8)
  | failure (error : ε)
  deriving DecidableEq

/-- The failure of a read. An interrupted read may be tried again. -/
structure ReadFailure where
  interrupted : Bool
  message : String
  deriving DecidableEq

/-- What is said of a failed read. -/
def ReadFailure.report (failure : ReadFailure) : String :=
  "Failed to read event stream: " ++ failure.message

/-- A list in pieces of `size + 1` items, the last piece possibly shorter. -/
def pieces {α : Type} (size : Nat) : List α → List (List α)
  | [] => []
  | x :: rest => (x :: rest.take size) :: pieces size (rest.drop size)
termination_by items => items.length
decreasing_by
  simp only [List.length_cons, List.length_drop]
  omega

/-- The reads that a buffer of `size + 1` bytes makes of one read. -/
def Read.buffered {ε : Type} (size : Nat) : Read ε → List (Read ε)
  | .chunk bytes => (pieces size bytes).map .chunk
  | .failure error => [.failure error]

/-- The byte that ends a line. -/
def lineFeed : UInt8 := 0x0A

variable {ε : Type}

/-- Takes the bytes up to the next line feed, with it, or up to the end of the input, and gives them
with the reads that are left. A failure that may be retried is passed over; any other one stands in
place of the line that it interrupts. -/
def readLine (retried : ε → Bool) : List (Read ε) → Except ε (List UInt8 × List (Read ε))
  | [] => .ok ([], [])
  | .failure error :: reads => if retried error then readLine retried reads else .error error
  | .chunk bytes :: reads =>
    match bytes.dropWhile (· != lineFeed) with
    | [] => (readLine retried reads).map fun (line, rest) => (bytes ++ line, rest)
    | byte :: after => .ok (bytes.takeWhile (· != lineFeed) ++ [byte], .chunk after :: reads)

/-- All bytes up to the end of the input, if no read fails. -/
def readToEnd : List (Read ε) → Except ε (List UInt8)
  | [] => .ok []
  | .failure error :: _ => .error error
  | .chunk bytes :: reads => (readToEnd reads).map (bytes ++ ·)

theorem readToEnd_append (chunks : List (List UInt8)) (reads : List (Read ε)) :
    readToEnd (chunks.map .chunk ++ reads) = (readToEnd reads).map (chunks.flatten ++ ·) := by
  induction chunks with
  | nil => cases read : readToEnd reads <;> simp [read, Except.map]
  | cons bytes chunks ih =>
    rw [List.map_cons, List.cons_append, readToEnd, ih]
    cases readToEnd reads <;> simp [Except.map]

def byteCount : List (Read ε) → Nat
  | [] => 0
  | .chunk bytes :: reads => bytes.length + byteCount reads
  | .failure _ :: reads => byteCount reads

/-- No byte is lost between a line and the reads that are left. -/
theorem byteCount_of_readLine {retried : ε → Bool} {reads rest : List (Read ε)}
    {line : List UInt8} (taken : readLine retried reads = .ok (line, rest)) :
    line.length + byteCount rest = byteCount reads := by
  induction reads generalizing line with
  | nil =>
    cases taken
    rfl
  | cons read reads ih =>
    cases read with
    | failure error =>
      rw [readLine] at taken
      split at taken
      · exact ih taken
      · cases taken
    | chunk bytes =>
      rw [readLine] at taken
      have cut := congrArg List.length
        (List.takeWhile_append_dropWhile (p := (· != lineFeed)) (l := bytes))
      split at taken
      case h_1 =>
        cases more : readLine retried reads with
        | error error =>
          rw [more] at taken
          cases taken
        | ok taken' =>
          rw [more] at taken
          cases taken
          rw [List.length_append, Nat.add_assoc, ih more, byteCount]
      case h_2 byte after found =>
        cases taken
        rw [found] at cut
        simp only [byteCount, List.length_append, List.length_cons, List.length_nil] at cut ⊢
        omega

theorem byteCount_lt_of_readLine {retried : ε → Bool} {reads rest : List (Read ε)}
    {line : List UInt8} (taken : readLine retried reads = .ok (line, rest)) (some : line ≠ []) :
    byteCount rest < byteCount reads := by
  have kept := byteCount_of_readLine taken
  have positive := List.length_pos_iff.mpr some
  omega

end FilterQuery.Stream
