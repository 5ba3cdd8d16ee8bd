import FilterQuery.Metadata.Json
import FilterQuery.Proofs.Json.Acceptance
import FilterQuery.Proofs.SortedMap

/-!
Which texts are metadata. A text lists entries when it is an object whose members hold the values of
the entries, in order. Exactly the texts that list entries are decoded, and the metadata are what
the entries come to when they are written one after the other (`Metadata.ofText_eq_ok_iff`).
-/
namespace FilterQuery.Metadata

open Json (Failure Reader mapError_eq_ok)

/-- The member holds the key of the entry, and a scalar for its value. -/
def Holds (member : String × Json) (entry : String × Value) : Prop :=
  member.1 = entry.1 ∧ Value.ofJson member.2 = .ok entry.2

/-- The text is an object whose members hold the entries, in order. -/
def Lists (text : String) (entries : List (String × Value)) : Prop :=
  ∃ members, (Json.object members).StandsIn text.toList ∧ List.Forall₂ Holds members entries

/-- Takes a member of an object into metadata. -/
def takeMember (metadata : Metadata) (member : String × Json) : Except Failure Metadata := do
  let json ← Reader.within (Json.maxDepth - 1) member.2 member.2
  return metadata.insert member.1 (← (Value.ofJson json).mapError .mismatch)

/-- A value is a scalar, so its document is not nested. -/
theorem nesting_of_ofJson {json : Json} {value : Value} (read : Value.ofJson json = .ok value) :
    json.nesting = 0 := by
  cases json with
  | null | array | object => cases read
  | bool | number | string => rfl

theorem takeMember_eq_ok {metadata result : Metadata} {member : String × Json} :
    metadata.takeMember member = .ok result ↔
      ∃ value, Value.ofJson member.2 = .ok value ∧ result = metadata.insert member.1 value := by
  unfold takeMember
  simp only [Json.bind_eq_ok, Reader.within_eq_ok, mapError_eq_ok]
  constructor
  · rintro ⟨json, ⟨_, rfl⟩, value, read, same⟩
    exact ⟨value, read, (Except.ok.inj same).symm⟩
  · rintro ⟨value, read, rfl⟩
    exact ⟨member.2, ⟨nesting_of_ofJson read ▸ Nat.zero_le _, rfl⟩, value, read, rfl⟩

/-- Members are taken if each of them holds an entry, and the entries are written in order. -/
theorem foldlM_takeMember_eq_ok {members : List (String × Json)} {metadata result : Metadata} :
    members.foldlM takeMember metadata = .ok result ↔
      ∃ entries, List.Forall₂ Holds members entries ∧ result = metadata.insertAll entries := by
  induction members generalizing metadata with
  | nil =>
    simp only [List.foldlM_nil, List.forall₂_nil_left_iff, exists_eq_left]
    exact ⟨fun same => (Except.ok.inj same).symm, fun same => congrArg _ same.symm⟩
  | cons member members ih =>
    simp only [List.foldlM_cons, Json.bind_eq_ok, takeMember_eq_ok, ih, List.forall₂_cons_left_iff]
    constructor
    · rintro ⟨_, ⟨value, read, rfl⟩, entries, rest, rfl⟩
      exact ⟨(member.1, value) :: entries, ⟨_, _, ⟨rfl, read⟩, rest, rfl⟩, rfl⟩
    · rintro ⟨_, ⟨⟨name, value⟩, entries, ⟨rfl, read⟩, rest, rfl⟩, rfl⟩
      exact ⟨_, ⟨value, read, rfl⟩, entries, rest, rfl⟩

theorem reads_member {name : String} {json : Json} {text : List Char}
    (member : Json.MemberText Json.WrittenAs (name, json) text) (metadata : Metadata) :
    (Reader.member fun name =>
      .ok ((Value.reader (Json.maxDepth - 1)).map (metadata.insert name))).Reads text
        (metadata.takeMember (name, json)) := by
  refine Reader.reads_member (fun written writtenAs spaces rest blank ends => ?_) member
  have read := ((Reader.reads_value (Json.maxDepth - 1) writtenAs).check fun json =>
    (Value.ofJson json).mapError .mismatch).map (metadata.insert name)
  rw [bind_assoc] at read
  exact read spaces rest blank ends

/-- The text of an object is read member by member. -/
theorem ofText_of_standsIn {members : List (String × Json)} {text : String}
    (stands : (Json.object members).StandsIn text.toList) :
    ofText text = members.foldlM takeMember .empty := by
  obtain ⟨before, written, after, blank, writtenAs, blankAfter, same⟩ := stands
  refine Reader.readAll_of_reads ?_ blank blankAfter same
  unfold reader Reader.objectOnly
  cases writtenAs with
  | @object _ text enclosed =>
    refine Reader.reads_byFirst rfl fun rest _ => ?_
    exact Reader.run_object enclosed (fun _ _ _ written metadata => reads_member written metadata)
      .empty rest

theorem consumes_valueReader (name : String) (metadata : Metadata) :
    ((Value.reader (Json.maxDepth - 1)).map (metadata.insert name)).Consumes Json.WrittenAs :=
  ((Reader.consumes_value _).check _).map _

/-- An object stands in a text that is read. -/
theorem exists_object {text : String} {metadata : Metadata} (read : ofText text = .ok metadata) :
    ∃ members, (Json.object members).StandsIn text.toList := by
  obtain ⟨after, run, blankAfter⟩ := Reader.readAll_eq_ok.mp read
  unfold reader Reader.objectOnly at run
  obtain ⟨before, first, tail, chosen, blank, _, same, choice, run⟩ :=
    Reader.run_byFirst_eq_ok.mp run
  obtain rfl := Except.ok.inj choice
  by_cases opening : first = '\x7b'
  · subst opening
    rw [if_pos rfl] at run
    obtain ⟨members, inside, enclosed, rfl⟩ := Reader.exists_enclosed
      (fun metadata => Reader.consumes_member fun name reader chosen => by
        obtain rfl := Except.ok.inj chosen
        exact consumes_valueReader name metadata) run
    exact ⟨members, before, _, after, blank, .object enclosed, blankAfter, by simpa using same⟩
  · rw [if_neg opening] at run
    exact absurd run Reader.not_run_refuse

/-- Exactly the texts that list entries are read as metadata, and the last entry for a key counts.
-/
theorem ofText_eq_ok_iff {text : String} {metadata : Metadata} :
    ofText text = .ok metadata ↔
      ∃ entries, Lists text entries ∧ metadata = SortedMap.ofList entries := by
  constructor
  · intro read
    obtain ⟨members, stands⟩ := exists_object read
    rw [ofText_of_standsIn stands, foldlM_takeMember_eq_ok] at read
    obtain ⟨entries, holds, same⟩ := read
    exact ⟨entries, ⟨members, stands, holds⟩, same⟩
  · rintro ⟨entries, ⟨members, stands, holds⟩, same⟩
    rw [ofText_of_standsIn stands, foldlM_takeMember_eq_ok]
    exact ⟨entries, holds, same⟩

end FilterQuery.Metadata
