import FilterQuery.Proofs.Json.Numerals
import FilterQuery.Proofs.Json.Strings

/-!
Reading documents. What a reader makes of a text does not depend on the white space before it or on
what follows it (`Reader.Reads`). A bracketed sequence is read item by item, so reading one is a
fold over its items (`Reader.run_bracketed`). A document whose text is well-formed is read as it is
written, up to the depth that is allowed (`Reader.reads_value`).
-/
namespace FilterQuery.Json

theorem spaces_nil : Spaces [] := fun _ member => absurd member List.not_mem_nil

theorem Spaces.append {spaces spaces' : List Char} (blank : Spaces spaces)
    (blank' : Spaces spaces') : Spaces (spaces ++ spaces') := by
  intro c member
  rcases List.mem_append.mp member with before | after
  · exact blank c before
  · exact blank' c after

theorem skipSpaces_append {spaces : List Char} (blank : Spaces spaces) (rest : List Char) :
    skipSpaces (spaces ++ rest) = skipSpaces rest :=
  List.dropWhile_append_of_pos blank

theorem skipSpaces_cons {c : Char} (visible : isSpace c = false) (rest : List Char) :
    skipSpaces (c :: rest) = c :: rest :=
  List.dropWhile_cons_of_neg (by simp [visible])

/-- White space is not taken for a part of a numeral. -/
theorem ends_append {spaces rest : List Char} (blank : Spaces spaces) (ends : Numeral.Ends rest) :
    Numeral.Ends (spaces ++ rest) := by
  cases spaces with
  | nil => exact ends
  | cons c spaces =>
    have space := blank c List.mem_cons_self
    refine Numeral.ends_cons ?_ _
    simp only [isSpace, Bool.or_eq_true, decide_eq_true_eq] at space
    rcases space with ((rfl | rfl) | rfl) | rfl <;> rfl

theorem readSeparator_comma (closing : Char) {spaces : List Char} (blank : Spaces spaces)
    (rest : List Char) : readSeparator closing (spaces ++ ',' :: rest) = .ok (true, rest) := by
  rw [readSeparator, skipSpaces_append blank, skipSpaces_cons rfl]
  rfl

/-- A bracket or brace that ends a sequence. -/
def Closes (closing : Char) : Prop := closing = ']' ∨ closing = '\x7d'

theorem Closes.visible {closing : Char} (closes : Closes closing) : isSpace closing = false := by
  rcases closes with rfl | rfl <;> rfl

theorem Closes.ends {closing : Char} (closes : Closes closing) (rest : List Char) :
    Numeral.Ends (closing :: rest) := by
  refine Numeral.ends_cons ?_ rest
  rcases closes with rfl | rfl <;> rfl

theorem readSeparator_closing {closing : Char} (closes : Closes closing) {spaces : List Char}
    (blank : Spaces spaces) (rest : List Char) :
    readSeparator closing (spaces ++ closing :: rest) = .ok (false, rest) := by
  have noComma : closing ≠ ',' := by rcases closes with rfl | rfl <;> decide
  rw [readSeparator, skipSpaces_append blank, skipSpaces_cons closes.visible]
  dsimp only
  rw [if_neg noComma, if_pos rfl]

/-- The text starts with a character that is neither white space nor ends the sequence. -/
def Starts (closing : Char) (text : List Char) : Prop :=
  ∃ c rest, text = c :: rest ∧ isSpace c = false ∧ c ≠ closing

namespace Numeral

/-- The character may be the first of a numeral. -/
def Begins (c : Char) : Prop := c = '-' ∨ c.isDigit = true

instance (c : Char) : Decidable (Begins c) := inferInstanceAs (Decidable (_ ∨ _))

theorem Begins.ne {c d : Char} (first : Begins c) (other : ¬ Begins d) : c ≠ d := by
  rintro rfl
  exact other first

theorem Begins.visible {c : Char} (first : Begins c) : isSpace c = false := by
  have others : c ≠ ' ' ∧ c ≠ '\t' ∧ c ≠ '\n' ∧ c ≠ '\r' :=
    ⟨first.ne (by decide), first.ne (by decide), first.ne (by decide), first.ne (by decide)⟩
  simp [isSpace, others]

theorem WrittenAs.exists_cons {numeral : Numeral} {text : List Char}
    (written : numeral.WrittenAs text) : ∃ c rest, text = c :: rest ∧ Begins c := by
  obtain @⟨negative, whole, fraction, exponent, _, _, digits, _, _, _⟩ := written
  cases negative with
  | true => exact ⟨'-', _, rfl, .inl rfl⟩
  | false =>
    cases whole with
    | nil => exact absurd rfl digits.1
    | cons c whole => exact ⟨c, _, rfl, .inr (digits.2 c List.mem_cons_self)⟩

end Numeral

theorem WrittenAs.starts {json : Json} {text : List Char} {closing : Char} (closes : Closes closing)
    (written : json.WrittenAs text) : Starts closing text := by
  cases written with
  | number numeral =>
    obtain ⟨c, rest, rfl, first⟩ := numeral.exists_cons
    refine ⟨c, rest, rfl, first.visible, ?_⟩
    rcases closes with rfl | rfl <;> exact first.ne (by decide)
  | null | true | false | string | array | object =>
    refine ⟨_, _, rfl, rfl, ?_⟩
    rcases closes with rfl | rfl <;> decide

theorem MemberText.starts {member : String × Json} {text : List Char} {closing : Char}
    (closes : Closes closing) (written : MemberText WrittenAs member text) :
    Starts closing text := by
  cases written
  refine ⟨_, _, rfl, rfl, ?_⟩
  rcases closes with rfl | rfl <;> decide

/-- The white space before the first of the items can be left out. -/
theorem Listed.exists_skipSpaces {α : Type} {W : α → List Char → Prop} {items : List α}
    {text : List Char} {closing : Char} (listed : Listed W items text)
    (starts : ∀ item ∈ items, ∀ text, W item text → Starts closing text) (rest : List Char) :
    ∃ c tail, c ≠ closing ∧ skipSpaces (text ++ rest) = c :: tail ++ rest ∧
      Listed W items (c :: tail) := by
  cases listed with
  | @last item before text after blank written blankAfter =>
    obtain ⟨c, tail, rfl, visible, other⟩ := starts item List.mem_cons_self text written
    refine ⟨c, tail ++ after, other, ?_, .last spaces_nil written blankAfter⟩
    simp only [List.append_assoc, List.cons_append]
    rw [skipSpaces_append blank, skipSpaces_cons visible]
  | @cons item items before text after more blank written blankAfter listed =>
    obtain ⟨c, tail, rfl, visible, other⟩ := starts item List.mem_cons_self text written
    refine ⟨c, tail ++ after ++ ',' :: more, other, ?_, .cons spaces_nil written blankAfter listed⟩
    simp only [List.append_assoc, List.cons_append]
    rw [skipSpaces_append blank, skipSpaces_cons visible]

namespace Reader

variable {α β σ : Type}

/-- The reader makes the result of the text, with white space before it and whatever follows it. -/
def Reads (reader : Reader α) (text : List Char) (result : Except Failure α) : Prop :=
  ∀ spaces rest, Spaces spaces → Numeral.Ends rest →
    reader.run (spaces ++ text ++ rest) = result.map (·, rest)

theorem run_check {reader : Reader α} {input rest : List Char} {result : Except Failure α}
    (run : reader.run input = result.map (·, rest)) (f : α → Except Failure β) :
    (reader.check f).run input = (result >>= f).map (·, rest) := by
  simp only [Reader.check, run]
  cases result with
  | error failure => rfl
  | ok value =>
    dsimp only [Except.map, bind, Except.bind]
    cases f value <;> rfl

theorem Reads.check {reader : Reader α} {text : List Char} {result : Except Failure α}
    (reads : reader.Reads text result) (f : α → Except Failure β) :
    (reader.check f).Reads text (result >>= f) :=
  fun spaces rest blank ends => run_check (reads spaces rest blank ends) f

theorem Reads.map {reader : Reader α} {text : List Char} {result : Except Failure α}
    (reads : reader.Reads text result) (f : α → β) :
    (reader.map f).Reads text (do return f (← result)) :=
  reads.check fun value => .ok (f value)

theorem run_map (reader : Reader α) (f : α → β) (input : List Char) :
    (reader.map f).run input = (reader.run input).map fun (value, rest) => (f value, rest) := by
  simp only [Reader.map, Reader.check]
  cases reader.run input <;> rfl

/-- White space is skipped before the first character chooses a reader. -/
theorem run_byFirst {choose : Char → Except Failure (Reader α)} {spaces : List Char} {c : Char}
    (blank : Spaces spaces) (visible : isSpace c = false) (rest : List Char) :
    (byFirst choose).run (spaces ++ c :: rest) =
      choose c >>= fun reader => reader.run (c :: rest) := by
  simp only [byFirst, skipSpaces_append blank, skipSpaces_cons visible]
  cases choose c <;> rfl

/-- The first character chooses a reader, and what this one makes of the text is the result. -/
theorem reads_byFirst {choose : Char → Except Failure (Reader α)} {c : Char} {tail : List Char}
    {result : Except Failure α} (visible : isSpace c = false)
    (run : ∀ rest, Numeral.Ends rest →
      (choose c >>= fun reader => reader.run (c :: tail ++ rest)) = result.map (·, rest)) :
    (byFirst choose).Reads (c :: tail) result := by
  intro spaces rest blank ends
  rw [← run rest ends, List.append_assoc]
  exact run_byFirst blank visible (tail ++ rest)

theorem reads_byFirst_of_reads {choose : Char → Except Failure (Reader α)} {c : Char}
    {tail : List Char} {reader : Reader α} {result : Except Failure α}
    (visible : isSpace c = false) (chosen : choose c = .ok reader)
    (reads : reader.Reads (c :: tail) result) : (byFirst choose).Reads (c :: tail) result := by
  refine reads_byFirst visible fun rest ends => ?_
  rw [chosen]
  exact reads [] rest spaces_nil ends

theorem reads_byFirst_error {choose : Char → Except Failure (Reader α)} {c : Char}
    {failure : Failure} (visible : isSpace c = false) (refused : choose c = .error failure)
    (tail : List Char) : (byFirst choose).Reads (c :: tail) (.error failure) := by
  refine reads_byFirst visible ?_
  intro rest _
  rw [refused]
  rfl

/-! ## Sequences -/

theorem items_eq (closing : Char) (step : σ → Reader σ) (state : σ) (input : List Char) :
    items closing step state input = (do
      let (next, rest) ← (step state).run input
      let (more, rest) ← readSeparator closing rest
      if more then items closing step next rest else .ok (next, rest)) := by
  rw [items]
  split
  case h_1 failure failed => rw [failed]; rfl
  case h_2 next rest read =>
    rw [read]
    dsimp only [bind, Except.bind]
    split
    case h_1 failure failed => rw [failed]
    case h_2 left separated => rw [separated]; rfl
    case h_3 left separated => rw [separated]; rfl

variable {W : α → List Char → Prop} {step : σ → Reader σ} {f : σ → α → Except Failure σ}
  {items : List α} {closing : Char}

theorem items_of_listed {text : List Char} (closes : Closes closing)
    (reads : ∀ item ∈ items, ∀ text, W item text → ∀ state, (step state).Reads text (f state item))
    (listed : Listed W items text) (state : σ) (rest : List Char) :
    Reader.items closing step state (text ++ closing :: rest) =
      (items.foldlM f state).map (·, rest) := by
  -- What follows an item is white space and then a comma or the end, neither of which could be more
  -- of a numeral; so the reader of the item stops where its text does.
  induction listed generalizing state with
  | @last item before text after blank written blankAfter =>
    have read := reads item List.mem_cons_self text written state before
      (after ++ closing :: rest) blank (ends_append blankAfter (closes.ends rest))
    rw [items_eq, List.append_assoc, read, List.foldlM_cons]
    cases f state item with
    | error failure => rfl
    | ok next =>
      dsimp only [Except.map, bind, Except.bind]
      rw [readSeparator_closing closes blankAfter]
      rfl
  | @cons item items before text after more blank written blankAfter _ ih =>
    have read := reads item List.mem_cons_self text written state before
      (after ++ ',' :: (more ++ closing :: rest)) blank
      (ends_append blankAfter (Numeral.ends_cons rfl _))
    have following := ih fun item member => reads item (List.mem_cons_of_mem _ member)
    rw [List.append_assoc, List.append_assoc, List.cons_append, items_eq, read, List.foldlM_cons]
    cases f state item with
    | error failure => rfl
    | ok next =>
      dsimp only [Except.map, bind, Except.bind]
      rw [readSeparator_comma closing blankAfter]
      exact following next

theorem run_bracketed {text : List Char} (closes : Closes closing)
    (starts : ∀ item ∈ items, ∀ text, W item text → Starts closing text)
    (reads : ∀ item ∈ items, ∀ text, W item text → ∀ state, (step state).Reads text (f state item))
    (enclosed : Enclosed W items text) (opening : Char) (state : σ) (rest : List Char) :
    (bracketed closing step state).run (opening :: (text ++ [closing]) ++ rest) =
      (items.foldlM f state).map (·, rest) := by
  rw [List.cons_append, List.append_assoc]
  change bracketedItems closing step state (opening :: (text ++ closing :: rest)) = _
  rw [bracketedItems]
  cases enclosed with
  | empty blank =>
    rw [skipSpaces_append blank, skipSpaces_cons closes.visible]
    dsimp only
    rw [if_pos rfl]
    rfl
  | listed listed =>
    obtain ⟨c, tail, other, skipped, listed⟩ := listed.exists_skipSpaces starts (closing :: rest)
    rw [skipped]
    exact (if_neg other).trans (items_of_listed closes reads listed state rest)

theorem run_array {items : List Json} {text : List Char} {f : σ → Json → Except Failure σ}
    (enclosed : Enclosed WrittenAs items text)
    (reads : ∀ item ∈ items, ∀ text, item.WrittenAs text →
      ∀ state, (step state).Reads text (f state item)) (state : σ) (rest : List Char) :
    (array step state).run ('[' :: (text ++ [']']) ++ rest) =
      (items.foldlM f state).map (·, rest) :=
  run_bracketed (.inl rfl) (fun _ _ _ written => written.starts (.inl rfl)) reads enclosed '['
    state rest

theorem run_object {step : σ → String → Except Failure (Reader σ)} {members : List (String × Json)}
    {text : List Char} {f : σ → String × Json → Except Failure σ}
    (enclosed : Enclosed (MemberText WrittenAs) members text)
    (reads : ∀ member ∈ members, ∀ text, MemberText WrittenAs member text →
      ∀ state, (Reader.member (step state)).Reads text (f state member)) (state : σ)
    (rest : List Char) :
    (object step state).run ('\x7b' :: (text ++ ['\x7d']) ++ rest) =
      (members.foldlM f state).map (·, rest) :=
  run_bracketed (.inr rfl) (fun _ _ _ written => written.starts (.inr rfl)) reads enclosed '\x7b'
    state rest

/-- A member is read by the reader that its name chooses. -/
theorem reads_member {step : String → Except Failure (Reader σ)} {name : String} {json : Json}
    {text : List Char} {result : Except Failure σ}
    (reads : ∀ written, json.WrittenAs written → ∀ spaces rest, Spaces spaces → Numeral.Ends rest →
      (step name >>= fun reader => reader.run (spaces ++ written ++ rest)) = result.map (·, rest))
    (member : MemberText WrittenAs (name, json) text) : (Reader.member step).Reads text result := by
  obtain @⟨_, _, spelling, before, after, value, spelled, blankBefore, blankAfter, written⟩ :=
    member
  intro spaces rest blank ends
  have named := run_string spelled (before ++ ':' :: (after ++ value ++ rest))
  have colon : dropWord [':'] (skipSpaces (before ++ ':' :: (after ++ value ++ rest))) =
      .ok (after ++ value ++ rest) := by
    rw [skipSpaces_append blankBefore, skipSpaces_cons rfl]
    rfl
  rw [← reads value written after rest blankAfter ends]
  simp only [Reader.member, List.append_assoc, List.cons_append, skipSpaces_append blank,
    skipSpaces_cons (c := '"') rfl] at named colon ⊢
  rw [named]
  dsimp only
  rw [colon]
  cases step name <;> rfl

theorem scalar_of_begins {c : Char} (first : Numeral.Begins c) :
    scalar c = .ok (number.map .number) := by
  rw [scalar, if_neg (first.ne (by decide)), if_neg (first.ne (by decide)),
    if_neg (first.ne (by decide)), if_neg (first.ne (by decide))]
  exact if_pos first

/-- A scalar is read as it is written by the reader that its first character chooses. -/
theorem run_scalar {json : Json} {written : List Char} (writtenAs : json.WrittenAs written)
    (flat : json.nesting = 0) :
    ∃ c tail reader, written = c :: tail ∧ isSpace c = false ∧ c ≠ '[' ∧ c ≠ '\x7b' ∧
      scalar c = .ok reader ∧
      ∀ rest, Numeral.Ends rest → reader.run (written ++ rest) = .ok (json, rest) := by
  cases writtenAs with
  | null => exact ⟨_, _, _, rfl, rfl, by decide, by decide, rfl, fun rest _ => rfl⟩
  | true => exact ⟨_, _, _, rfl, rfl, by decide, by decide, rfl, fun rest _ => rfl⟩
  | false => exact ⟨_, _, _, rfl, rfl, by decide, by decide, rfl, fun rest _ => rfl⟩
  | string spelled =>
    refine ⟨_, _, _, rfl, rfl, by decide, by decide, rfl, ?_⟩
    intro rest _
    have read := run_string spelled rest
    simp only [List.append_assoc, List.cons_append, List.nil_append] at read ⊢
    simp only [Reader.map, Reader.check, read]
  | number numeral value =>
    obtain ⟨c, tail, same, first⟩ := numeral.exists_cons
    refine ⟨c, tail, _, same, first.visible, first.ne (by decide), first.ne (by decide),
      scalar_of_begins first, ?_⟩
    intro rest ends
    simp only [Reader.map, Reader.check, run_numeral numeral ends, value]
    rfl
  | array | object =>
    rw [nesting] at flat
    omega

/-- Takes a document into a sequence, unless it is nested too deep. -/
def within (depth : Nat) (json : Json) (result : α) : Except Failure α :=
  if json.nesting ≤ depth then .ok result else .error .malformed

theorem within_eq_ok {depth : Nat} {json : Json} {result value : α} :
    within depth json result = .ok value ↔ json.nesting ≤ depth ∧ result = value := by
  rw [within]
  split
  case isTrue shallow => simp [shallow]
  case isFalse deep => simp [deep]

/-- A sequence is taken as a whole, unless one of its items is nested too deep. -/
theorem foldlM_within (depth : Nat) (content : α → Json) (items before : List α) :
    items.foldlM (fun taken item => within depth (content item) (item :: taken)) before =
      if ∀ item ∈ items, (content item).nesting ≤ depth then .ok (items.reverse ++ before)
      else .error .malformed := by
  induction items generalizing before with
  | nil => rfl
  | cons item items ih =>
    rw [List.foldlM_cons, within]
    by_cases shallow : (content item).nesting ≤ depth
    · rw [if_pos shallow]
      refine (ih (item :: before)).trans ?_
      simp only [List.forall_mem_cons, shallow, true_and, List.reverse_cons, List.append_assoc,
        List.singleton_append]
    · rw [if_neg shallow, if_neg fun all => shallow (all item List.mem_cons_self)]
      rfl

theorem bind_within (depth : Nat) (json : Json) (result : α) (f : α → β) :
    (do return f (← within depth json result)) = within depth json (f result) := by
  rw [within, within]
  split <;> rfl

/-- A text that opens neither an array nor an object is read by the reader that its first character
chooses. -/
theorem reads_value_of_chosen {c : Char} {tail : List Char} {reader : Reader Json}
    {result : Except Failure Json} (depth : Nat) (visible : isSpace c = false) (notArray : c ≠ '[')
    (notObject : c ≠ '\x7b') (chosen : scalar c = .ok reader)
    (run : ∀ rest, Numeral.Ends rest → reader.run (c :: tail ++ rest) = result.map (·, rest)) :
    (value depth).Reads (c :: tail) result := by
  have runChosen (rest : List Char) (ends : Numeral.Ends rest) :
      (scalar c >>= fun reader => reader.run (c :: tail ++ rest)) = result.map (·, rest) := by
    rw [chosen]
    exact run rest ends
  cases depth with
  | zero =>
    refine reads_byFirst visible ?_
    rwa [if_neg (by simp [notArray, notObject])]
  | succ depth =>
    refine reads_byFirst visible ?_
    rwa [if_neg notArray, if_neg notObject]

theorem reads_value_of_scalar {json : Json} (depth : Nat) {written : List Char}
    (writtenAs : json.WrittenAs written) (flat : json.nesting = 0) :
    (value depth).Reads written (within depth json json) := by
  obtain ⟨c, tail, reader, rfl, visible, notArray, notObject, chosen, read⟩ :=
    run_scalar writtenAs flat
  rw [within, if_pos (by omega)]
  exact reads_value_of_chosen depth visible notArray notObject chosen read

/-- A numeral is read as its value, and refused if it has none. -/
theorem reads_value_of_numeral {numeral : Numeral} (depth : Nat) {written : List Char}
    (writtenAs : numeral.WrittenAs written) :
    (value depth).Reads written
      ((numeral.value?.elim (.error .malformed) .ok : Except Failure Number).map .number) := by
  obtain ⟨c, tail, rfl, first⟩ := writtenAs.exists_cons
  refine reads_value_of_chosen depth first.visible (first.ne (by decide)) (first.ne (by decide))
    (scalar_of_begins first) fun rest ends => ?_
  rw [run_map, run_numeral writtenAs ends]
  cases numeral.value? <;> rfl

theorem reads_value_array {items : List Json} {text : List Char}
    (enclosed : Enclosed WrittenAs items text)
    (ih : ∀ item ∈ items, ∀ (depth : Nat) {written : List Char}, item.WrittenAs written →
      (value depth).Reads written (within depth item item)) (depth : Nat) :
    (value depth).Reads ('[' :: (text ++ [']'])) (within depth (.array items) (.array items)) := by
  cases depth with
  | zero =>
    rw [within, if_neg (by rw [nesting]; omega)]
    exact reads_byFirst_error rfl rfl _
  | succ depth =>
    refine reads_byFirst rfl ?_
    intro rest _
    have reads : ∀ item ∈ items, ∀ text, item.WrittenAs text → ∀ taken : List Json,
        ((value depth).map (· :: taken)).Reads text (within depth item (item :: taken)) := by
      intro item member text written taken
      have read := (ih item member depth written).map (· :: taken)
      rwa [bind_within] at read
    refine (run_map _ _ _).trans ?_
    rw [run_array enclosed reads, foldlM_within depth (fun item => item)]
    simp only [within, nesting_array_le, List.append_nil]
    split
    case isTrue => simp only [Except.map, List.reverse_reverse]
    case isFalse => rfl

theorem reads_value_object {members : List (String × Json)} {text : List Char}
    (enclosed : Enclosed (MemberText WrittenAs) members text)
    (ih : ∀ member ∈ members, ∀ (depth : Nat) {written : List Char}, member.2.WrittenAs written →
      (value depth).Reads written (within depth member.2 member.2)) (depth : Nat) :
    (value depth).Reads ('\x7b' :: (text ++ ['\x7d']))
      (within depth (.object members) (.object members)) := by
  cases depth with
  | zero =>
    rw [within, if_neg (by rw [nesting]; omega)]
    exact reads_byFirst_error rfl rfl _
  | succ depth =>
    refine reads_byFirst rfl ?_
    intro rest _
    let step (taken : List (String × Json)) (name : String) : Except Failure (Reader _) :=
      .ok ((value depth).map fun json => (name, json) :: taken)
    have reads : ∀ member ∈ members, ∀ text, MemberText WrittenAs member text → ∀ taken,
        (Reader.member (step taken)).Reads text (within depth member.2 (member :: taken)) := by
      rintro ⟨name, json⟩ isMember text writtenMember taken
      refine reads_member ?_ writtenMember
      intro written writtenAs
      have read := (ih _ isMember depth writtenAs).map fun json => (name, json) :: taken
      rwa [bind_within] at read
    refine (run_map _ _ _).trans ?_
    rw [run_object enclosed reads, foldlM_within depth Prod.snd]
    simp only [within, nesting_object_le, List.append_nil]
    split
    case isTrue => simp only [Except.map, List.reverse_reverse]
    case isFalse => rfl

/-- A document is read as it is written, unless it is nested too deep. -/
theorem reads_value {json : Json} (depth : Nat) {written : List Char}
    (writtenAs : json.WrittenAs written) :
    (value depth).Reads written (within depth json json) := by
  induction json using Json.induct generalizing depth written with
  | null | bool | number | string => exact reads_value_of_scalar depth writtenAs rfl
  | array items ih =>
    cases writtenAs with
    | array enclosed => exact reads_value_array enclosed ih depth
  | object members ih =>
    cases writtenAs with
    | object enclosed => exact reads_value_object enclosed ih depth

/-- A whole text is read like what stands in it. -/
theorem readAll_of_reads {reader : Reader α} {before written after : List Char}
    {result : Except Failure α} (reads : reader.Reads written result) (blank : Spaces before)
    (blankAfter : Spaces after) {text : String} (same : text.toList = before ++ written ++ after) :
    reader.readAll text = result := by
  have ends := ends_append blankAfter Numeral.ends_nil
  have skipped := skipSpaces_append blankAfter []
  rw [List.append_nil] at ends skipped
  rw [readAll, same, reads before after blank ends]
  cases result with
  | error failure => rfl
  | ok value => exact if_pos skipped

end Reader

/-- A text in which a document stands is read as this document, unless it is nested too deep. -/
theorem ofText_of_standsIn {json : Json} {text : String} (stands : json.StandsIn text.toList) :
    ofText text = Reader.within maxDepth json json := by
  obtain ⟨before, written, after, blank, writtenAs, blankAfter, same⟩ := stands
  exact Reader.readAll_of_reads (Reader.reads_value maxDepth writtenAs) blank blankAfter same

end FilterQuery.Json
