import FilterQuery.Proofs.Filter.Restyling
import FilterQuery.Proofs.Json.Printing

/-!
Decoding filters. What a text is decoded into depends only on the document that stands in it
(`Filter.decode_eq`), and it is a filter exactly if the document presents this filter and is not
nested too deep (`Filter.decode_eq_ok_iff_presents`).
-/
namespace FilterQuery

open Json (Mismatch Found Failure Reader Spaces Numeral bind_eq_ok mapError_eq_ok)

namespace Json.Reader

variable {α β : Type}

/-- Every document is known by how it begins. -/
theorem run_found {json : Json} {written : List Char} (writtenAs : json.WrittenAs written)
    {spaces rest : List Char} (blank : Spaces spaces) (ends : Numeral.Ends rest) :
    ∃ left, found.run (spaces ++ written ++ rest) = .ok (.of json, left) := by
  cases json with
  | null | bool | number | string =>
    obtain ⟨c, tail, reader, rfl, visible, notArray, notObject, chosen, read⟩ :=
      run_scalar writtenAs rfl
    refine ⟨rest, ?_⟩
    rw [found, List.append_assoc, List.cons_append, run_byFirst blank visible, if_neg notArray,
      if_neg notObject, chosen]
    exact (run_map reader Found.of _).trans (congrArg _ (read rest ends))
  | array items =>
    cases writtenAs with
    | array enclosed =>
      rw [found, List.append_assoc, List.cons_append, List.cons_append, run_byFirst blank rfl]
      exact ⟨_, rfl⟩
  | object members =>
    cases writtenAs with
    | object enclosed =>
      rw [found, List.append_assoc, List.cons_append, List.cons_append, run_byFirst blank rfl]
      exact ⟨_, rfl⟩

/-- A document of another type is refused. -/
theorem reads_refuse {json : Json} {written : List Char} (writtenAs : json.WrittenAs written)
    (expected : String) :
    (refuse expected : Reader α).Reads written
      (.error (.mismatch (.wrongType (.of json) expected))) := by
  intro spaces rest blank ends
  obtain ⟨left, read⟩ := run_found writtenAs blank ends
  simp only [refuse, Reader.check, read]
  rfl

end Json.Reader

namespace Operator

/-- The operator of a document that has to be its name. -/
def ofNamed : Json → Except Mismatch Operator
  | .string name => ofName name
  | json => .error (.wrongType (.of json) expected)

theorem ofNamed_eq_ok {json : Json} {operator : Operator} :
    ofNamed json = .ok operator ↔ operator.GivenBy .whole json := by
  constructor
  · intro decoded
    unfold ofNamed at decoded
    split at decoded
    · obtain rfl := ofName_eq_ok.mp decoded
      exact .name .whole operator
    · contradiction
  · intro given
    cases given
    exact ofName_eq_ok.mpr rfl

theorem reads_reader_of_other {json : Json} {c : Char} {tail : List Char}
    (writtenAs : json.WrittenAs (c :: tail)) (visible : Json.isSpace c = false) (other : c ≠ '"') :
    reader.Reads (c :: tail) (.error (.mismatch (.wrongType (.of json) expected))) :=
  Reader.reads_byFirst_of_reads visible (if_neg other) (Reader.reads_refuse writtenAs expected)

theorem reads_reader {json : Json} {written : List Char} (writtenAs : json.WrittenAs written) :
    reader.Reads written ((ofNamed json).mapError .mismatch) := by
  cases writtenAs with
  | @string s spelling spelled =>
    refine Reader.reads_byFirst rfl fun rest _ => ?_
    have read : Reader.string.run ('"' :: (spelling ++ ['"']) ++ rest) =
        (.ok s : Except Failure String).map (·, rest) := by
      rw [List.cons_append, List.append_assoc]
      exact Reader.run_string spelled rest
    exact Reader.run_check read _
  | number numeral value =>
    obtain ⟨c, tail, rfl, first⟩ := numeral.exists_cons
    exact reads_reader_of_other (.number numeral value) first.visible (first.ne (by decide))
  | null => exact reads_reader_of_other .null rfl (by decide)
  | true => exact reads_reader_of_other .true rfl (by decide)
  | false => exact reads_reader_of_other .false rfl (by decide)
  | array enclosed => exact reads_reader_of_other (.array enclosed) rfl (by decide)
  | object enclosed => exact reads_reader_of_other (.object enclosed) rfl (by decide)

end Operator

namespace Filter

/-- One turn of the loop over the members of a whole document. -/
def takeMember : Option Operator × List (String × Json) → String × Json →
    Except Failure (Option Operator × List (String × Json)) :=
  pick (fun tag => (Operator.ofNamed tag).mapError .mismatch)
    (.mismatch (.duplicateMember Operator.tag))
    fun member => Reader.within (Json.maxDepth - 1) member.2 member

/-- One turn of the loop over the items of a whole document. -/
def takeItem : Option (Operator × List Json) → Json → Except Failure (Option (Operator × List Json))
  | none, tag => do return some (← (Operator.ofNamed tag).mapError .mismatch, [])
  | some (operator, items), json =>
    Reader.within (Json.maxDepth - 1) json (some (operator, json :: items))

theorem reads_itemsReader_step {json : Json} {written : List Char}
    (writtenAs : json.WrittenAs written) (state : Option (Operator × List Json)) :
    (itemsReader.step state).Reads written (takeItem state json) := by
  rcases state with _ | ⟨operator, items⟩
  · exact (Operator.reads_reader writtenAs).map fun operator => some (operator, [])
  · have read := (Reader.reads_value (Json.maxDepth - 1) writtenAs).map
      fun json => some (operator, json :: items)
    rwa [Reader.bind_within] at read

theorem reads_membersReader_step {name : String} {json : Json} {text : List Char}
    (member : Json.MemberText Json.WrittenAs (name, json) text)
    (state : Option Operator × List (String × Json)) :
    (Reader.member (membersReader.step state)).Reads text (takeMember state (name, json)) := by
  refine Reader.reads_member (fun written writtenAs spaces rest blank ends => ?_) member
  rw [membersReader.step, takeMember, pick]
  by_cases tagged : name = Operator.tag
  · rw [if_pos tagged, if_pos tagged]
    cases state.1 with
    -- A second operator is refused by its name; its value is not read.
    | some operator => rfl
    | none =>
      have read := (Operator.reads_reader writtenAs).map fun operator => (some operator, state.2)
      exact read spaces rest blank ends
  · rw [if_neg tagged, if_neg tagged]
    have read := (Reader.reads_value (Json.maxDepth - 1) writtenAs).map
      fun json => (state.1, (name, json) :: state.2)
    rw [Reader.bind_within] at read ⊢
    exact read spaces rest blank ends

/-- What a whole document is decoded into. -/
def ofDocument : Json → Except Failure Filter
  | .object members => do
    (ofReadMembers (← members.foldlM takeMember (none, []))).mapError .mismatch
  | .array items => do (ofReadItems (← items.foldlM takeItem none)).mapError .mismatch
  | json => .error (.mismatch (.wrongType (.of json) expected))

theorem reads_reader {json : Json} {written : List Char} (writtenAs : json.WrittenAs written) :
    reader.Reads written (ofDocument json) := by
  cases json with
  | null | bool | number | string =>
    obtain ⟨c, tail, _, rfl, visible, notArray, notObject, _, _⟩ :=
      Reader.run_scalar writtenAs rfl
    refine Reader.reads_byFirst_of_reads visible ?_ (Reader.reads_refuse writtenAs expected)
    rw [if_neg notObject, if_neg notArray]
  | array items =>
    cases writtenAs with
    | @array _ text enclosed =>
      refine Reader.reads_byFirst rfl fun rest _ => ?_
      have read := Reader.run_array enclosed
        (fun _ _ _ written state => reads_itemsReader_step written state) none rest
      exact Reader.run_check read _
  | object members =>
    cases writtenAs with
    | @object _ text enclosed =>
      refine Reader.reads_byFirst rfl fun rest _ => ?_
      have read := Reader.run_object enclosed
        (fun _ _ _ written state => reads_membersReader_step written state) (none, []) rest
      exact Reader.run_check read _

theorem mapM_within_eq_ok {α : Type} {depth : Nat} {content : α → Json} {items taken : List α} :
    items.mapM (fun item => Reader.within depth (content item) item) = .ok taken ↔
      (∀ item ∈ items, (content item).nesting ≤ depth) ∧ items = taken := by
  simp only [mapM_eq_ok, Reader.within_eq_ok, List.forall₂_and_left, List.forall₂_eq_eq_eq]

/-- A loop on a part of the state is the loop on this part. -/
theorem foldlM_of_part {ε α σ τ : Type} {items : List α} {f : τ → α → Except ε τ}
    {g : σ → α → Except ε σ} (whole : σ → τ)
    (step : ∀ item ∈ items, ∀ part, f (whole part) item = (do return whole (← g part item)))
    (part : σ) : items.foldlM f (whole part) = (do return whole (← items.foldlM g part)) := by
  induction items generalizing part with
  | nil => rfl
  | cons item items ih =>
    rw [List.foldlM_cons, List.foldlM_cons, step item List.mem_cons_self]
    cases g part item with
    | error failure => rfl
    | ok next => exact ih (fun item member => step item (List.mem_cons_of_mem _ member)) next

theorem foldlM_takeItem (operator : Operator) (args : List Json) :
    args.foldlM takeItem (some (operator, [])) =
      if ∀ arg ∈ args, arg.nesting ≤ Json.maxDepth - 1 then .ok (some (operator, args.reverse))
      else .error .malformed := by
  have step (item : Json) (_ : item ∈ args) (taken : List Json) :
      takeItem (some (operator, taken)) item =
        (do return some (operator, ← Reader.within (Json.maxDepth - 1) item (item :: taken))) :=
    (Reader.bind_within (Json.maxDepth - 1) item (item :: taken)
      fun taken => some (operator, taken)).symm
  rw [foldlM_of_part (fun taken => some (operator, taken)) step,
    Reader.foldlM_within (Json.maxDepth - 1) (fun arg => arg), List.append_nil]
  split <;> rfl

theorem ofReadMembers_some (operator : Operator) (members : List (String × Json)) :
    ofReadMembers (some operator, members.reverse) =
      ofMembers operator (members.map fun member => (member.1, argument member.2)) := by
  rw [ofReadMembers, List.reverse_reverse]

theorem ofReadItems_some (operator : Operator) (args : List Json) :
    ofReadItems (some (operator, args.reverse)) = ofItems operator (args.map argument) := by
  rw [ofReadItems, List.reverse_reverse]

theorem nesting_of_givenBy {position : Position} {operator : Operator} {json : Json}
    (given : operator.GivenBy position json) : json.nesting = 0 := by
  cases given <;> rfl

theorem ofDocument_array_eq_ok {items : List Json} {filter : Filter} :
    ofDocument (.array items) = .ok filter ↔
      (∀ item ∈ items, item.nesting ≤ Json.maxDepth - 1) ∧
        ∃ operator tag args, items = tag :: args ∧ operator.GivenBy .whole tag ∧
          ofItems operator (args.map argument) = .ok filter := by
  rw [ofDocument]
  cases items with
  | nil => simp [bind, Except.bind, pure, Except.pure, ofReadItems, Except.mapError]
  | cons tag args =>
    simp only [List.forall_mem_cons, bind_eq_ok, mapError_eq_ok, List.foldlM_cons, takeItem]
    constructor
    · rintro ⟨read, ⟨_, ⟨operator, named, ⟨⟩⟩, folded⟩, decoded⟩
      have given := Operator.ofNamed_eq_ok.mp named
      rw [foldlM_takeItem] at folded
      split at folded <;> try contradiction
      rename_i shallow
      cases folded
      rw [ofReadItems_some] at decoded
      have flat := nesting_of_givenBy given
      exact ⟨⟨by omega, shallow⟩, operator, tag, args, rfl, given, decoded⟩
    · rintro ⟨⟨_, shallow⟩, operator, _, _, ⟨⟩, given, decoded⟩
      rw [← ofReadItems_some] at decoded
      refine ⟨_, ⟨_, ⟨operator, Operator.ofNamed_eq_ok.mpr given, rfl⟩, ?_⟩, decoded⟩
      exact (foldlM_takeItem operator args).trans (if_pos shallow)

/-- The operator of an object is nowhere nested, so only the other members have to be looked at. -/
theorem nesting_le_of_others {members : List (String × Json)} {member : String × Json} {depth : Nat}
    (alone : members.filter (fun member => member.1 = Operator.tag) = [member])
    (flat : member.2.nesting = 0)
    (shallow : ∀ other ∈ members.filter fun member => member.1 ≠ Operator.tag,
      other.2.nesting ≤ depth) : ∀ other ∈ members, other.2.nesting ≤ depth := by
  intro other found
  by_cases tagged : other.1 = Operator.tag
  · have same : other ∈ members.filter fun member => member.1 = Operator.tag :=
      List.mem_filter.mpr ⟨found, decide_eq_true tagged⟩
    rw [alone, List.mem_singleton] at same
    rw [same, flat]
    exact Nat.zero_le depth
  · exact shallow other (List.mem_filter.mpr ⟨found, decide_eq_true tagged⟩)

theorem ofDocument_object_eq_ok {members : List (String × Json)} {filter : Filter} :
    ofDocument (.object members) = .ok filter ↔
      (∀ member ∈ members, member.2.nesting ≤ Json.maxDepth - 1) ∧
        ∃ operator tag, Json.Sole members Operator.tag tag ∧ operator.GivenBy .whole tag ∧
          ofMembers operator ((members.filter fun member => member.1 ≠ Operator.tag).map
            fun member => (member.1, argument member.2)) = .ok filter := by
  rw [ofDocument, bind_eq_ok]
  simp only [mapError_eq_ok, Prod.exists, takeMember, foldlM_pick, mapM_within_eq_ok,
    List.append_nil]
  constructor
  · rintro ⟨picked, kept, ⟨taken, _, ⟨shallow, rfl⟩, rfl⟩, decoded⟩
    cases picked with
    | none => contradiction
    | some operator =>
      obtain ⟨member, alone, read⟩ := taken_some.mp taken
      have given := Operator.ofNamed_eq_ok.mp (mapError_eq_ok.mp read)
      rw [ofReadMembers_some] at decoded
      exact ⟨nesting_le_of_others alone (nesting_of_givenBy given) shallow, operator, member.2,
        Json.sole_of_filter alone, given, decoded⟩
  · rintro ⟨shallow, operator, tag, tagged, given, decoded⟩
    rw [← ofReadMembers_some] at decoded
    refine ⟨some operator, _, ⟨taken_some.mpr ⟨_, tagged,
      mapError_eq_ok.mpr (Operator.ofNamed_eq_ok.mpr given)⟩, _, ⟨?_, rfl⟩, rfl⟩, decoded⟩
    exact fun member other => shallow member (List.mem_of_mem_filter other)

/-- A whole document is decoded into the filter that it presents, unless it is nested too deep. -/
theorem ofDocument_eq_ok {json : Json} {filter : Filter} :
    ofDocument json = .ok filter ↔
      json.nesting ≤ Json.maxDepth ∧ Presents .whole json filter := by
  cases json with
  | null | bool | number | string =>
    constructor
    · intro decoded
      cases decoded
    · rintro ⟨_, presents⟩
      cases presents
  | array items =>
    rw [ofDocument_array_eq_ok, presents_array_iff fun _ _ _ => ofJson_eq_ok_iff]
    exact and_congr_left fun _ => (Json.nesting_array_le items (Json.maxDepth - 1)).symm
  | object members =>
    rw [ofDocument_object_eq_ok, presents_object_iff fun _ _ _ => ofJson_eq_ok_iff]
    exact and_congr_left fun _ => (Json.nesting_object_le members (Json.maxDepth - 1)).symm

/-- A text is decoded into what the document in it is. -/
theorem decode_eq {json : Json} {text : String} (stands : json.StandsIn text.toList) :
    decode text = ofDocument json := by
  obtain ⟨before, written, after, blank, writtenAs, blankAfter, same⟩ := stands
  exact Reader.readAll_of_reads (reads_reader writtenAs) blank blankAfter same

/-- A text is decoded into a filter exactly if its document presents this filter, and so texts whose
documents differ in style only are decoded alike. -/
theorem decode_eq_ok_iff_presents {json : Json} {text : String} (filter : Filter)
    (stands : json.StandsIn text.toList) (shallow : json.nesting ≤ Json.maxDepth) :
    (decode text = .ok filter ↔ Presents .whole json filter) ∧
      ∀ json' text', Restyled json json' → json'.StandsIn text'.toList →
        json'.nesting ≤ Json.maxDepth → (decode text' = .ok filter ↔ decode text = .ok filter) := by
  have decodes {json : Json} {text : String} (stands : json.StandsIn text.toList)
      (shallow : json.nesting ≤ Json.maxDepth) :
      decode text = .ok filter ↔ Presents .whole json filter := by
    rw [decode_eq stands, ofDocument_eq_ok]
    exact and_iff_right shallow
  refine ⟨decodes stands shallow, ?_⟩
  intro json' text' restyled stands' shallow'
  rw [decodes stands shallow, decodes stands' shallow', restyled.presents_iff]

/-- The operator may come last, after a member that means nothing, and be given by its index inside;
and the outer node may be an array and the inner one an object instead. -/
theorem decode_not_eq :
    ∃ json json', json.StandsIn "\x7b\"expr\":[0,\"k\",true],\"x\":null,\"op\":\"not\"\x7d".toList ∧
      json.nesting ≤ Json.maxDepth ∧ Restyled json json' ∧
      json'.StandsIn "[\"not\",\x7b\"value\":true,\"op\":0,\"key\":\"k\"\x7d]".toList ∧
      json'.nesting ≤ Json.maxDepth ∧
      decode "\x7b\"expr\":[0,\"k\",true],\"x\":null,\"op\":\"not\"\x7d" =
        .ok (.not (.eq "k" (.bool true))) ∧
      decode "[\"not\",\x7b\"value\":true,\"op\":0,\"key\":\"k\"\x7d]" =
        .ok (.not (.eq "k" (.bool true))) := by
  have tag : (Json.number (.integer 0)).StandsIn _ := Json.standsIn_integer_text 0
  have key := Json.standsIn_string_text "k"
  have value := Json.standsIn_bool_text true
  have outerTag := Json.standsIn_string_text "not"
  have inner := Json.standsIn_array_text (.cons tag (.cons key (.cons value .nil)))
  have stands := Json.standsIn_object_text ["expr", "x", "op"]
    (.cons inner (.cons Json.standsIn_null_text (.cons outerTag .nil)))
  have inner' := Json.standsIn_object_text ["value", "op", "key"]
    (.cons value (.cons tag (.cons key .nil)))
  have stands' := Json.standsIn_array_text (.cons outerTag (.cons inner' .nil))
  have indexed : (Operator.relation .eq).GivenBy .inner (.number (.integer 0)) := .index rfl
  have restyled : Restyled
      (.object [("expr", .array [.number (.integer 0), .string "k", .bool true]), ("x", .null),
        ("op", .string "not")])
      (.array [.string "not", .object [("value", .bool true), ("op", .number (.integer 0)),
        ("key", .string "k")]]) :=
    .inside (.name .inner .negation) trivial (.object rfl (.cons rfl .nil)) .array
      (.cons (.outside indexed .array (.object rfl (.cons rfl (.cons rfl .nil)))) .nil)
  obtain ⟨decodes, alike⟩ :=
    @decode_eq_ok_iff_presents _ "[\"not\",\x7b\"value\":true,\"op\":0,\"key\":\"k\"\x7d]"
      (.not (.eq "k" (.bool true))) stands' (by decide)
  have decoded := decodes.mpr (.array (.name .whole .negation)
    (.not (.object rfl indexed (.cons rfl (.cons rfl .nil)) (.compare rfl))))
  refine ⟨_, _, stands, by decide, restyled, stands', by decide, ?_, decoded⟩
  refine (alike _ _ restyled.symm ?_ (by decide)).mpr decoded
  exact stands

end Filter

end FilterQuery
