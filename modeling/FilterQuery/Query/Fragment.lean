import FilterQuery.Query.Capability

/-!
Fragments of query text. A fragment is what one step of rendering writes, with the refusal that
stopped it if it did not come to its end. A refused fragment absorbs what would follow, so a text
that is built from fragments only ever grows, and stops where the first refusal is.
-/
namespace FilterQuery

/-- Written text, and the refusal that stopped the writing, if one did. -/
structure Fragment where
  text : String
  refusal : Option Refusal
  deriving DecidableEq

namespace Fragment

/-- A text, completely written. -/
def written (text : String) : Fragment := ⟨text, none⟩

/-- Nothing, because of a refusal. -/
def refused (refusal : Refusal) : Fragment := ⟨"", some refusal⟩

/-- The first fragment, and then the second if the first came to its end. -/
def append (a b : Fragment) : Fragment :=
  match a.refusal with
  | none => ⟨a.text ++ b.text, b.refusal⟩
  | some _ => a

instance : Append Fragment := ⟨append⟩

/-- The whole text, if the writing came to its end. -/
def result (fragment : Fragment) : Except Refusal String :=
  match fragment.refusal with
  | none => .ok fragment.text
  | some refusal => .error refusal

theorem append_of_some {a : Fragment} {refusal : Refusal} (refused : a.refusal = some refusal)
    (b : Fragment) : a ++ b = a := by
  change a.append b = a
  rw [append, refused]

theorem append_of_none {a : Fragment} (complete : a.refusal = none) (b : Fragment) :
    a ++ b = ⟨a.text ++ b.text, b.refusal⟩ := by
  change a.append b = _
  rw [append, complete]

theorem append_assoc (a b c : Fragment) : a ++ b ++ c = a ++ (b ++ c) := by
  obtain ⟨text, _ | _⟩ := a
  · obtain ⟨text', _ | _⟩ := b
    · exact congrArg (Fragment.mk · c.refusal) String.append_assoc
    · rfl
  · rfl

@[simp] theorem refusal_written (text : String) : (written text).refusal = none := rfl

@[simp] theorem refusal_refused (refusal : Refusal) : (refused refusal).refusal = some refusal :=
  rfl

/-- The first refusal counts. -/
@[simp] theorem refusal_append (a b : Fragment) : (a ++ b).refusal = a.refusal.or b.refusal := by
  obtain ⟨text, _ | _⟩ := a <;> rfl

@[simp] theorem written_append_written (a b : String) : written a ++ written b = written (a ++ b) :=
  rfl

theorem result_eq_ok {fragment : Fragment} {text : String} :
    fragment.result = .ok text ↔ fragment = written text := by
  obtain ⟨text', _ | refusal⟩ := fragment <;> simp [result, written]

theorem result_eq_error {fragment : Fragment} {refusal : Refusal} :
    fragment.result = .error refusal ↔ fragment.refusal = some refusal := by
  obtain ⟨text', _ | refusal'⟩ := fragment <;> simp [result]

end Fragment

end FilterQuery
