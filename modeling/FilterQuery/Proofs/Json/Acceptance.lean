import FilterQuery.Proofs.Json.Soundness

/-!
Texts that are read. Whatever the reader of values takes from the front of a text writes a document
there (`Reader.consumes_value`), so a text is read exactly if a document stands in it that is not
nested too deep (`ofText_eq_ok`).
-/
namespace FilterQuery.Json

namespace Reader

variable {α β σ : Type} {W : α → List Char → Prop}

/-- What the reader takes from the front of a text writes an item, with white space before it. What
the reader makes of the item is left open. -/
def Consumes (W : α → List Char → Prop) (reader : Reader β) : Prop :=
  ∀ input result rest, reader.run input = .ok (result, rest) →
    ∃ item spaces written, Spaces spaces ∧ W item written ∧ input = spaces ++ written ++ rest

theorem Consumes.check {reader : Reader β} (consumes : reader.Consumes W)
    (f : β → Except Failure σ) : (reader.check f).Consumes W := by
  intro input result rest run
  obtain ⟨value, read, _⟩ := run_check_eq_ok.mp run
  exact consumes _ _ _ read

theorem Consumes.map {reader : Reader β} (consumes : reader.Consumes W) (f : β → σ) :
    (reader.map f).Consumes W :=
  consumes.check _

theorem consumes_byFirst {choose : Char → Except Failure (Reader β)}
    (chosen : ∀ {c reader tail result rest}, choose c = .ok reader →
      reader.run (c :: tail) = .ok (result, rest) →
      ∃ item written, W item written ∧ c :: tail = written ++ rest) :
    (byFirst choose).Consumes W := by
  intro input result rest run
  obtain ⟨spaces, c, tail, reader, blank, _, rfl, same, read⟩ := run_byFirst_eq_ok.mp run
  obtain ⟨item, written, isItem, split⟩ := chosen same read
  exact ⟨item, spaces, written, blank, isItem, by rw [split, List.append_assoc]⟩

/-- What is taken between two brackets writes a sequence of items. -/
theorem exists_enclosed {step : σ → Reader σ} (consumes : ∀ state, (step state).Consumes W)
    {opening closing : Char} {start result : σ} {input rest : List Char}
    (run : (bracketed closing step start).run (opening :: input) = .ok (result, rest)) :
    ∃ items text, Enclosed W items text ∧ input = text ++ closing :: rest := by
  -- The states that the loop went through are kept beside the items, and forgotten afterwards.
  have takes (state : σ) :
      (step state).Takes (fun item : α × σ => W item.1) fun item => item.2 := by
    intro input result rest read
    obtain ⟨item, spaces, written, blank, isItem, same⟩ := consumes state _ _ _ read
    exact ⟨(item, result), spaces, written, blank, isItem, same, rfl⟩
  obtain ⟨entries, text, enclosed, same, _⟩ := exists_enclosed_of_bracketed takes run
  refine ⟨entries.map Prod.fst, text, ?_, same⟩
  have forgotten (item : α) (text : List Char) :
      W item text ↔ ∃ entry : α × σ, entry.1 = item ∧ W entry.1 text :=
    ⟨fun written => ⟨(item, start), rfl, written⟩, fun ⟨entry, named, written⟩ => named ▸ written⟩
  exact (enclosed_iff_exists_forall₂ forgotten).mpr ⟨entries,
    List.forall₂_map_right_iff.mpr (List.forall₂_same.mpr fun _ _ => rfl), enclosed⟩

theorem consumes_member {step : String → Except Failure (Reader σ)}
    (consumes : ∀ name reader, step name = .ok reader → reader.Consumes WrittenAs) :
    (member step).Consumes (MemberText WrittenAs) := by
  intro input result rest run
  obtain ⟨name, reader, spaces, spelling, before, tail, blank, spelled, blankBefore, chosen, read,
    rfl⟩ := exists_of_run_member run
  obtain ⟨json, after, written, blankAfter, writtenAs, rfl⟩ :=
    consumes name reader chosen _ _ _ read
  refine ⟨(name, json), spaces, _, blank, .mk spelled blankBefore blankAfter writtenAs, ?_⟩
  simp only [List.append_assoc, List.cons_append]

theorem exists_writtenAs_of_array {step : σ → Reader σ}
    (consumes : ∀ state, (step state).Consumes WrittenAs) {start result : σ}
    {tail rest : List Char} (run : (array step start).run ('[' :: tail) = .ok (result, rest)) :
    ∃ json written, WrittenAs json written ∧ '[' :: tail = written ++ rest := by
  obtain ⟨items, text, enclosed, rfl⟩ := exists_enclosed consumes run
  exact ⟨.array items, _, .array enclosed, by simp⟩

theorem exists_writtenAs_of_object {step : σ → String → Except Failure (Reader σ)}
    (consumes : ∀ state name reader, step state name = .ok reader → reader.Consumes WrittenAs)
    {start result : σ} {tail rest : List Char}
    (run : (object step start).run ('\x7b' :: tail) = .ok (result, rest)) :
    ∃ json written, WrittenAs json written ∧ '\x7b' :: tail = written ++ rest := by
  obtain ⟨members, text, enclosed, rfl⟩ :=
    exists_enclosed (fun state => consumes_member (consumes state)) run
  exact ⟨.object members, _, .object enclosed, by simp⟩

theorem exists_writtenAs_of_scalar {c : Char} {reader : Reader Json} {tail rest : List Char}
    {json : Json} (chosen : scalar c = .ok reader)
    (run : reader.run (c :: tail) = .ok (json, rest)) :
    ∃ json written, WrittenAs json written ∧ c :: tail = written ++ rest := by
  unfold scalar at chosen
  split at chosen
  case isTrue null =>
    cases chosen
    obtain ⟨_, rfl⟩ := run_word_eq_ok.mp run
    exact ⟨_, _, .null, by rw [null]; rfl⟩
  split at chosen
  case isTrue yes =>
    cases chosen
    obtain ⟨_, rfl⟩ := run_word_eq_ok.mp run
    exact ⟨_, _, .true, by rw [yes]; rfl⟩
  split at chosen
  case isTrue no =>
    cases chosen
    obtain ⟨_, rfl⟩ := run_word_eq_ok.mp run
    exact ⟨_, _, .false, by rw [no]; rfl⟩
  split at chosen
  case isTrue quote =>
    cases chosen
    subst quote
    obtain ⟨s, read, _⟩ := run_map_eq_ok.mp run
    obtain ⟨spelling, spelled, rfl⟩ := run_string_eq_ok.mp read
    exact ⟨_, _, .string spelled, by simp⟩
  split at chosen <;> cases chosen
  obtain ⟨number, read, _⟩ := run_map_eq_ok.mp run
  obtain ⟨written, same, writtenAs⟩ := exists_writtenAs_of_number read
  exact ⟨_, written, writtenAs, same⟩

/-- What is taken from the front of a text as a value writes a document. -/
theorem consumes_value (depth : Nat) : (value depth).Consumes WrittenAs := by
  induction depth with
  | zero =>
    refine consumes_byFirst fun chosen run => ?_
    split at chosen <;> try contradiction
    exact exists_writtenAs_of_scalar chosen run
  | succ depth ih =>
    refine consumes_byFirst fun chosen run => ?_
    split at chosen
    case isTrue opening =>
      cases chosen
      subst opening
      obtain ⟨items, read, _⟩ := run_map_eq_ok.mp run
      exact exists_writtenAs_of_array (fun _ => ih.map _) read
    split at chosen
    case isTrue opening =>
      cases chosen
      subst opening
      obtain ⟨members, read, _⟩ := run_map_eq_ok.mp run
      refine exists_writtenAs_of_object (fun _ _ reader same => ?_) read
      cases same
      exact ih.map _
    exact exists_writtenAs_of_scalar chosen run

/-- A document stands in a text that is read as a whole. -/
theorem exists_standsIn {reader : Reader β} (consumes : reader.Consumes WrittenAs)
    {text : String} {result : β} (read : reader.readAll text = .ok result) :
    ∃ json : Json, json.StandsIn text.toList := by
  obtain ⟨after, run, blankAfter⟩ := readAll_eq_ok.mp read
  obtain ⟨json, before, written, blank, writtenAs, same⟩ := consumes _ _ _ run
  exact ⟨json, before, written, after, blank, writtenAs, blankAfter, same⟩

end Reader

/-- A text is read as a document exactly if this document stands in it and is not nested too deep.
-/
theorem ofText_eq_ok {text : String} {json : Json} :
    ofText text = .ok json ↔ json.StandsIn text.toList ∧ json.nesting ≤ maxDepth := by
  constructor
  · intro read
    obtain ⟨json', stands⟩ := Reader.exists_standsIn (Reader.consumes_value maxDepth) read
    rw [ofText_of_standsIn stands, Reader.within_eq_ok] at read
    obtain ⟨shallow, rfl⟩ := read
    exact ⟨stands, shallow⟩
  · rintro ⟨stands, shallow⟩
    rw [ofText_of_standsIn stands, Reader.within_eq_ok]
    exact ⟨shallow, rfl⟩

end FilterQuery.Json
