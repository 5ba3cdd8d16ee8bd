import FilterQuery.Proofs.Query.Support
import FilterQuery.Query.Renderer

/-!
What a renderer writes. Every step of a renderer writes a fragment that the schema determines,
whatever is written already, and what is written already stays (`Step.exists_emits`). Of a filter
that is refused, the text before the predicate of the first unsupported leaf is written, which is
the same in every tree where this leaf is replaced (`renderer_appends`).
-/
namespace FilterQuery

open Renderer (push emitField require emitEqual emitRange emitIn emitNegated emitGroup)

/-- What becomes of a renderer when a fragment is written: the step goes as far as the fragment. -/
def Fragment.outcome (fragment : Fragment) (renderer : Renderer) :
    EStateM.Result Refusal Renderer Unit :=
  match fragment.refusal with
  | none => .ok () (renderer.emit fragment)
  | some refusal => .error refusal (renderer.emit fragment)

/-- Whatever is written already, the step writes the fragment. -/
def Emits (writing : Writing) (fragment : Schema → Fragment) : Prop :=
  ∀ renderer, writing.run renderer = (fragment renderer.schema).outcome renderer

theorem emits_push (text : String) : Emits (push text) fun _ => .written text := fun _ => rfl

theorem Renderer.emit_of_empty (renderer : Renderer) {fragment : Fragment}
    (empty : fragment.text = "") : renderer.emit fragment = renderer := by
  rw [emit, empty, String.append_empty]

theorem emits_throw (refusal : Refusal) : Emits (throw refusal) fun _ => .refused refusal := by
  intro renderer
  change _ = EStateM.Result.error refusal (renderer.emit (.refused refusal))
  rw [renderer.emit_of_empty rfl]
  rfl

theorem emits_pure : Emits (pure ()) fun _ => .written "" := by
  intro renderer
  change _ = EStateM.Result.ok () (renderer.emit (.written ""))
  rw [renderer.emit_of_empty rfl]
  rfl

theorem Fragment.outcome_of_none {fragment : Fragment} (complete : fragment.refusal = none)
    (renderer : Renderer) : fragment.outcome renderer = .ok () (renderer.emit fragment) := by
  rw [outcome, complete]

theorem Fragment.outcome_of_some {fragment : Fragment} {refusal : Refusal}
    (refused : fragment.refusal = some refusal) (renderer : Renderer) :
    fragment.outcome renderer = .error refusal (renderer.emit fragment) := by
  rw [outcome, refused]

/-- The second of two steps is only taken when the first one came to its end, and goes on where that
one stopped. -/
theorem Emits.andThen {first second : Writing} {a b : Schema → Fragment}
    (emitsFirst : Emits first a) (emitsSecond : Emits second b) :
    Emits (do first; second) fun schema => a schema ++ b schema := by
  intro renderer
  rw [EStateM.run_bind, emitsFirst renderer]
  dsimp only
  cases stopped : (a renderer.schema).refusal with
  | none =>
    rw [Fragment.outcome_of_none stopped, Fragment.append_of_none stopped]
    change second.run (renderer.emit (a renderer.schema)) = _
    rw [emitsSecond]
    unfold Fragment.outcome Renderer.emit
    rw [String.append_assoc]
  | some refusal =>
    rw [Fragment.outcome_of_some stopped, Fragment.append_of_some stopped,
      Fragment.outcome_of_some stopped]

theorem Emits.congr {writing : Writing} {a b : Schema → Fragment} (emits : Emits writing a)
    (same : ∀ schema, a schema = b schema) : Emits writing b := by
  intro renderer
  rw [← same]
  exact emits renderer

theorem emits_emitField (key body : String) :
    Emits (emitField key body) fun _ => .written ("@" ++ key ++ ":" ++ body) := by
  have emits := (emits_push "@").andThen ((emits_push key).andThen
    ((emits_push ":").andThen (emits_push body)))
  refine emits.congr fun _ => ?_
  simp only [Fragment.written_append_written, String.append_assoc]

theorem emits_require (key : String) (type : FieldType) (predicateClass : PredicateClass) :
    Emits (require key type predicateClass) fun _ =>
      if type.supports predicateClass = true then .written ""
      else .refused (.unsupportedType key type predicateClass) := by
  unfold require FieldType.require
  by_cases supports : type.supports predicateClass = true
  · rw [if_pos supports, if_pos supports]
    exact emits_pure
  · rw [if_neg supports, if_neg supports]
    exact emits_throw _

/-- A predicate is checked against the type of the field before its body is looked for. -/
theorem emits_predicate {key : String} {type : FieldType} {predicateClass : PredicateClass}
    {body? : Option String} {write : Writing}
    (present : ∀ body, body? = some body →
      Emits write fun _ => .written ("@" ++ key ++ ":" ++ body))
    (absent : body? = none →
      Emits write fun _ => .refused (.unsupportedType key type predicateClass)) :
    Emits (do require key type predicateClass; write)
      fun _ => .predicate key type predicateClass body? := by
  have checked := emits_require key type predicateClass
  unfold Fragment.predicate FieldType.require
  by_cases supports : type.supports predicateClass = true
  · simp only [if_pos supports] at checked ⊢
    cases found : body? with
    | none => exact checked.andThen (absent found)
    | some body =>
      refine (checked.andThen (present body found)).congr fun _ => ?_
      rw [Fragment.written_append_written, String.empty_append]
  · simp only [if_neg supports] at checked ⊢
    cases found : body? with
    | none => exact checked.andThen (absent found)
    | some body => exact checked.andThen (present body found)

/-- A field of the type may have no body for the predicate, whatever it supports. -/
theorem emits_optional (key : String) (type : FieldType) (predicateClass : PredicateClass)
    (body? : Option String) :
    Emits
      (do
        require key type predicateClass
        match body? with
        | some body => emitField key body
        | none => throw (.unsupportedType key type predicateClass))
      fun _ => .predicate key type predicateClass body? := by
  refine emits_predicate ?_ ?_
  · rintro body rfl
    exact emits_emitField key body
  · rintro rfl
    exact emits_throw _

theorem emits_emitEqual (key : String) (value : Value) :
    Emits (emitEqual key value) fun schema => .equality schema key value := by
  intro renderer
  exact emits_optional key (renderer.schema.equalityType key) .equality _ renderer

theorem emits_emitIn (key : String) (values : List Value) :
    Emits (emitIn key values) fun schema => .membership schema key values := by
  intro renderer
  exact emits_optional key (renderer.schema.equalityType key) .membership _ renderer

theorem emits_emitRange (key : String) (lower upper : Bound) :
    Emits (emitRange key lower upper) fun schema => .range schema key lower upper := by
  intro renderer
  refine emits_predicate ?_ ?_ renderer
  · intro body found
    cases found
    exact emits_emitField key _
  · intro absent
    contradiction

theorem Emits.negated {inner : Writing} {fragment : Schema → Fragment} (emits : Emits inner fragment) :
    Emits (emitNegated inner) fun schema => .negated (fragment schema) := by
  have opened := (emits_push "(").andThen ((emits_push "-").andThen (emits.andThen (emits_push ")")))
  refine opened.congr fun schema => ?_
  rw [Fragment.negated, ← Fragment.append_assoc, Fragment.written_append_written,
    Fragment.append_assoc]
  rfl

theorem Emits.group {left right : Writing} {a b : Schema → Fragment} (emitsLeft : Emits left a)
    (delimiter : String) (emitsRight : Emits right b) :
    Emits (emitGroup left delimiter right) fun schema => .group (a schema) delimiter (b schema) := by
  have opened := (emits_push "(").andThen (emitsLeft.andThen ((emits_push delimiter).andThen
    (emitsRight.andThen (emits_push ")"))))
  refine opened.congr fun schema => ?_
  simp only [Fragment.group, Fragment.append_assoc]

theorem Leaf.emits_write (l : Leaf) : Emits l.write fun schema => l.render schema := by
  cases l with
  | compare relation key value =>
    cases relation with
    | eq => exact emits_emitEqual key value
    | notEq => exact (emits_emitEqual key value).negated
    | gt | gte | lt | lte => exact emits_emitRange key _ _
    | contains => exact emits_throw _
  | among membership key values =>
    cases membership with
    | isIn => exact emits_emitIn key values
    | notIn => exact (emits_emitIn key values).negated

theorem Filter.emits_write (filter : Filter) :
    Emits filter.write fun schema => filter.render schema := by
  induction filter with
  | leaf l => exact l.emits_write
  | join connective left right ihLeft ihRight => exact ihLeft.group connective.delimiter ihRight
  | not inner ih => exact ih.negated

mutual

theorem Step.exists_emits : (step : Step) → ∃ fragment, Emits step.write fragment
  | .equal key value => ⟨_, emits_emitEqual key value⟩
  | .range key lower upper => ⟨_, emits_emitRange key lower upper⟩
  | .isIn key values => ⟨_, emits_emitIn key values⟩
  | .negated inner => by
    obtain ⟨fragment, emits⟩ := Step.exists_emits_all inner
    exact ⟨_, emits.negated⟩
  | .group left delimiter right => ⟨_, left.emits_write.group delimiter right.emits_write⟩
  | .whole filter => ⟨_, filter.emits_write⟩

theorem Step.exists_emits_all : (steps : List Step) → ∃ fragment, Emits (Step.writeAll steps) fragment
  | [] => ⟨_, emits_pure⟩
  | step :: steps => by
    obtain ⟨a, first⟩ := Step.exists_emits step
    obtain ⟨b, rest⟩ := Step.exists_emits_all steps
    exact ⟨_, first.andThen rest⟩

end

namespace Renderer

/-- Whatever becomes of a step, what was written before it stays, and so does the schema. -/
theorem exists_take (renderer : Renderer) (step : Step) :
    ∃ text, (renderer.take step).2 = ⟨renderer.schema, renderer.query ++ text⟩ := by
  obtain ⟨fragment, emits⟩ := step.exists_emits
  refine ⟨(fragment renderer.schema).text, ?_⟩
  rw [take, emits renderer]
  cases stopped : (fragment renderer.schema).refusal with
  | none =>
    rw [Fragment.outcome_of_none stopped]
    rfl
  | some refusal =>
    rw [Fragment.outcome_of_some stopped]
    rfl

theorem exists_takeAll (renderer : Renderer) (steps : List Step) :
    ∃ text, renderer.takeAll steps = ⟨renderer.schema, renderer.query ++ text⟩ := by
  induction steps generalizing renderer with
  | nil => exact ⟨"", congrArg (Renderer.mk _) (String.append_empty).symm⟩
  | cons step steps ih =>
    obtain ⟨first, taken⟩ := renderer.exists_take step
    obtain ⟨rest, takenAll⟩ := ih (renderer.take step).2
    refine ⟨first ++ rest, ?_⟩
    change (renderer.take step).2.takeAll steps = _
    rw [takenAll, taken, String.append_assoc]

theorem takeAll_append (renderer : Renderer) (earlier later : List Step) :
    renderer.takeAll (earlier ++ later) = (renderer.takeAll earlier).takeAll later :=
  List.foldl_append

end Renderer

/-- A step with a fragment that is refused before anything of it is written. -/
theorem Emits.unchanged {writing : Writing} {fragment : Schema → Fragment}
    (emits : Emits writing fragment)
    (early : ∀ schema refusal, (fragment schema).refusal = some refusal → (fragment schema).text = "")
    {renderer next : Renderer} {refusal : Refusal}
    (failed : writing.run renderer = .error refusal next) : next = renderer := by
  rw [emits renderer] at failed
  cases stopped : (fragment renderer.schema).refusal with
  | none =>
    rw [Fragment.outcome_of_none stopped] at failed
    contradiction
  | some found =>
    rw [Fragment.outcome_of_some stopped] at failed
    cases failed
    exact renderer.emit_of_empty (early _ _ stopped)

theorem Fragment.text_predicate {key : String} {type : FieldType} {predicateClass : PredicateClass}
    {body? : Option String} {refusal : Refusal}
    (refused : (predicate key type predicateClass body?).refusal = some refusal) :
    (predicate key type predicateClass body?).text = "" := by
  unfold predicate at refused ⊢
  split
  · simp_all
  · rfl
  · rfl

theorem Fragment.text_negated {inner : Fragment} {refusal : Refusal}
    (refused : inner.refusal = some refusal) : (negated inner).text = "(-" ++ inner.text := by
  rw [negated, append_assoc, append_of_some refused]
  rfl

theorem Fragment.text_group_left {left right : Fragment} {refusal : Refusal} {delimiter : String}
    (refused : left.refusal = some refusal) :
    (group left delimiter right).text = "(" ++ left.text := by
  simp only [group, append_assoc]
  rw [append_of_some refused]
  rfl

theorem Fragment.text_group_right {text delimiter : String} {right : Fragment} {refusal : Refusal}
    (refused : right.refusal = some refusal) :
    (group (written text) delimiter right).text = "(" ++ text ++ delimiter ++ right.text := by
  rw [group, written_append_written, written_append_written, append_assoc, append_of_some refused]
  rfl

/-! ## The first unsupported leaf -/

namespace Leaf

/-- The leaf is written as a negation. -/
def negative : Leaf → Bool
  | compare .notEq _ _ | among .notIn _ _ => true
  | compare _ _ _ | among .isIn _ _ => false

/-- The leaf without its negation. -/
def positive : Leaf → Leaf
  | compare .notEq key value => compare .eq key value
  | among .notIn key values => among .isIn key values
  | l => l

/-- What is written before the predicate of a leaf. -/
def opening (l : Leaf) : String := if l.negative = true then "(-" else ""

def closing (l : Leaf) : String := if l.negative = true then ")" else ""

end Leaf

/-- The two filters have one shape, whatever their leaves are. -/
inductive SameShape : Filter → Filter → Prop
  | leaf (l l' : Leaf) : SameShape (.leaf l) (.leaf l')
  | join {connective : Connective} {left left' right right' : Filter} : SameShape left left' →
      SameShape right right' → SameShape (.join connective left right) (.join connective left' right')
  | not {inner inner' : Filter} : SameShape inner inner' → SameShape (.not inner) (.not inner')

def Filter.AllSupported (schema : Schema) (filter : Filter) : Prop :=
  ∀ l ∈ filter.leaves, l.Supported schema

/-- The second filter is the first one with its first unsupported leaf replaced by this supported
leaf of the same polarity, and the leaves to the right of it by any supported leaves. -/
inductive Mends (schema : Schema) (replacement : Leaf) : Filter → Filter → Prop
  | leaf {l : Leaf} : ¬ l.Supported schema → replacement.Supported schema →
      replacement.negative = l.negative → Mends schema replacement (.leaf l) (.leaf replacement)
  | left {connective : Connective} {left left' right right' : Filter} :
      Mends schema replacement left left' → SameShape right right' → right'.AllSupported schema →
      Mends schema replacement (.join connective left right) (.join connective left' right')
  | right {connective : Connective} {left right right' : Filter} : left.AllSupported schema →
      Mends schema replacement right right' →
      Mends schema replacement (.join connective left right) (.join connective left right')
  | not {inner inner' : Filter} : Mends schema replacement inner inner' →
      Mends schema replacement (.not inner) (.not inner')

variable {schema : Schema}

theorem Filter.AllSupported.exists_written {filter : Filter} (supported : filter.AllSupported schema) :
    ∃ text, filter.render schema = .written text := by
  have complete : (filter.render schema).refusal = none := by
    rw [refusal_render, firstUnsupported?_eq_none.mpr supported]
    rfl
  refine ⟨(filter.render schema).text, ?_⟩
  rw [Fragment.written, ← complete]

namespace Leaf

theorem supported_positive (l : Leaf) : l.positive.Supported schema ↔ l.Supported schema := by
  cases l with
  | compare relation key value => cases relation <;> exact Iff.rfl
  | among membership key values => cases membership <;> exact Iff.rfl

theorem render_eq (l : Leaf) :
    l.render schema =
      if l.negative = true then .negated (l.positive.render schema)
      else l.positive.render schema := by
  cases l with
  | compare relation key value => cases relation <;> rfl
  | among membership key values => cases membership <;> rfl

theorem render_positive (l : Leaf) (schema : Schema) :
    (∃ type predicateClass body?,
        l.positive.render schema = .predicate l.key type predicateClass body?) ∨
      ∃ refusal, l.positive.render schema = .refused refusal := by
  cases l with
  | compare relation key value =>
    cases relation with
    | contains => exact .inr ⟨_, rfl⟩
    | eq | notEq | gt | gte | lt | lte => exact .inl ⟨_, _, _, rfl⟩
  | among membership key values => cases membership <;> exact .inl ⟨_, _, _, rfl⟩

theorem text_positive_of_unsupported {l : Leaf} (unsupported : ¬ l.Supported schema) :
    (l.positive.render schema).text = "" := by
  have refused := l.positive.refusal_render schema
  rw [if_neg fun supported => unsupported (l.supported_positive.mp supported)] at refused
  rcases l.render_positive schema with ⟨type, predicateClass, body?, same⟩ | ⟨refusal, same⟩
  · rw [same] at refused ⊢
    exact Fragment.text_predicate refused
  · rw [same]
    rfl

/-- Of a leaf without a form, no more is written than the opening of its negation. -/
theorem text_of_unsupported {l : Leaf} (unsupported : ¬ l.Supported schema) :
    (l.render schema).text = l.opening := by
  have empty := text_positive_of_unsupported unsupported
  have refused := l.positive.refusal_render schema
  rw [if_neg fun supported => unsupported (l.supported_positive.mp supported)] at refused
  rw [render_eq, opening]
  by_cases negative : l.negative = true
  · rw [if_pos negative, if_pos negative, Fragment.text_negated refused, empty, String.append_empty]
  · rw [if_neg negative, if_neg negative, empty]

theorem render_of_supported {l : Leaf} (supported : l.Supported schema) :
    ∃ body, l.positive.render schema = .written ("@" ++ l.key ++ ":" ++ body) ∧
      l.render schema = .written (l.opening ++ ("@" ++ l.key ++ ":" ++ body) ++ l.closing) := by
  have complete := l.positive.refusal_render schema
  rw [if_pos (l.supported_positive.mpr supported)] at complete
  have written : ∃ body, l.positive.render schema = .written ("@" ++ l.key ++ ":" ++ body) := by
    rcases l.render_positive schema with ⟨type, predicateClass, body?, same⟩ | ⟨refusal, same⟩
    · rw [same] at complete ⊢
      unfold Fragment.predicate at complete ⊢
      split at complete
      · exact ⟨_, rfl⟩
      · contradiction
      · contradiction
    · rw [same] at complete
      contradiction
  obtain ⟨body, same⟩ := written
  refine ⟨body, same, ?_⟩
  rw [render_eq, same, opening, closing]
  by_cases negative : l.negative = true
  · rw [if_pos negative, if_pos negative, if_pos negative, Fragment.negated_written]
  · rw [if_neg negative, if_neg negative, if_neg negative, String.empty_append, String.append_empty]

end Leaf

theorem Mends.refused {replacement : Leaf} {filter mended : Filter}
    (mends : Mends schema replacement filter mended) :
    ∃ refusal, (filter.render schema).refusal = some refusal := by
  induction mends with
  | leaf unsupported _ _ =>
    rw [Filter.render, Leaf.refusal_render, if_neg unsupported]
    exact ⟨_, rfl⟩
  | left _ _ _ ih =>
    obtain ⟨refusal, refused⟩ := ih
    rw [Filter.render, Fragment.refusal_group, refused]
    exact ⟨refusal, rfl⟩
  | right supported _ ih =>
    obtain ⟨refusal, refused⟩ := ih
    obtain ⟨text, written⟩ := supported.exists_written
    rw [Filter.render, Fragment.refusal_group, written, refused]
    exact ⟨refusal, rfl⟩
  | not _ ih =>
    obtain ⟨refusal, refused⟩ := ih
    rw [Filter.render, Fragment.refusal_negated, refused]
    exact ⟨refusal, rfl⟩

/-- What is written of a refused filter stands before the predicate of the replaced leaf in every
tree that mends the filter. -/
theorem Mends.exists_render {replacement : Leaf} {filter mended : Filter}
    (mends : Mends schema replacement filter mended) :
    ∃ body rest, replacement.positive.render schema = .written ("@" ++ replacement.key ++ ":" ++ body) ∧
      mended.render schema =
        .written ((filter.render schema).text ++ ("@" ++ replacement.key ++ ":" ++ body) ++ rest) := by
  induction mends with
  | @leaf l unsupported supported polarity =>
    obtain ⟨body, positive, whole⟩ := Leaf.render_of_supported supported
    refine ⟨body, replacement.closing, positive, ?_⟩
    have opened : replacement.opening = l.opening := by
      rw [Leaf.opening, Leaf.opening, polarity]
    rw [Filter.render, Filter.render, whole, Leaf.text_of_unsupported unsupported, opened]
  | @left connective left left' right right' mends _ supported ih =>
    obtain ⟨body, rest, positive, whole⟩ := ih
    obtain ⟨refusal, refused⟩ := mends.refused
    obtain ⟨text, written⟩ := supported.exists_written
    refine ⟨body, rest ++ connective.delimiter ++ text ++ ")", positive, ?_⟩
    rw [Filter.render, Filter.render, whole, written, Fragment.group_written,
      Fragment.text_group_left refused]
    simp only [String.append_assoc]
  | @right connective left right right' supported mends ih =>
    obtain ⟨body, rest, positive, whole⟩ := ih
    obtain ⟨refusal, refused⟩ := mends.refused
    obtain ⟨text, written⟩ := supported.exists_written
    refine ⟨body, rest ++ ")", positive, ?_⟩
    rw [Filter.render, Filter.render, whole, written, Fragment.group_written,
      Fragment.text_group_right refused]
    simp only [String.append_assoc]
  | @not inner inner' mends ih =>
    obtain ⟨body, rest, positive, whole⟩ := ih
    obtain ⟨refusal, refused⟩ := mends.refused
    refine ⟨body, rest ++ ")", positive, ?_⟩
    rw [Filter.render, Filter.render, whole, Fragment.negated_written,
      Fragment.text_negated refused]
    simp only [String.append_assoc]

/-- The part stands before the predicate of the replaced leaf in the query of every tree that mends
the filter. -/
def Filter.Precedes (schema : Schema) (filter : Filter) (part : String) : Prop :=
  ∀ replacement mended, Mends schema replacement filter mended →
    ∃ body rest,
      Query.compile schema (some (.leaf replacement.positive)) =
          .ok ("@" ++ replacement.key ++ ":" ++ body) ∧
        Query.compile schema (some mended) =
          .ok (part ++ ("@" ++ replacement.key ++ ":" ++ body) ++ rest)

theorem Filter.precedes_text (schema : Schema) (filter : Filter) :
    filter.Precedes schema (filter.render schema).text := by
  intro replacement mended mends
  obtain ⟨body, rest, positive, whole⟩ := mends.exists_render
  refine ⟨body, rest, ?_, ?_⟩
  · rw [Query.compile, render, positive]
    rfl
  · rw [Query.compile, whole]
    rfl

/-- The filter with one leaf in the place of each of its leaves. -/
def Filter.fill (l : Leaf) : Filter → Filter
  | leaf _ => leaf l
  | join connective left right => join connective (left.fill l) (right.fill l)
  | not inner => not (inner.fill l)

theorem Filter.sameShape_fill (l : Leaf) (filter : Filter) : SameShape filter (filter.fill l) := by
  induction filter with
  | leaf other => exact .leaf other l
  | join connective left right ihLeft ihRight => exact .join ihLeft ihRight
  | not inner ih => exact .not ih

theorem Filter.allSupported_fill {l : Leaf} (supported : l.Supported schema) (filter : Filter) :
    (filter.fill l).AllSupported schema := by
  induction filter with
  | leaf other =>
    intro l' member
    obtain rfl := List.mem_singleton.mp member
    exact supported
  | join connective left right ihLeft ihRight =>
    intro l' member
    rcases List.mem_append.mp member with inLeft | inRight
    · exact ihLeft l' inLeft
    · exact ihRight l' inRight
  | not inner ih => exact ih

/-- An unregistered field can take the place of the first unsupported leaf. -/
theorem Filter.exists_mends {key : String} (free : schema.get? key = none) {filter : Filter}
    {refusal : Refusal} (refused : (filter.render schema).refusal = some refusal) :
    ∃ replacement mended, replacement.key = key ∧ Mends schema replacement filter mended := by
  have equal (value : Value) : (Leaf.compare .eq key value).Supported schema := by
    rw [Leaf.Supported, free]
    decide
  have notEqual (value : Value) : (Leaf.compare .notEq key value).Supported schema := by
    rw [Leaf.Supported, free]
    decide
  induction filter generalizing refusal with
  | leaf l =>
    have unsupported : ¬ l.Supported schema := by
      intro supported
      rw [render, Leaf.refusal_render, if_pos supported] at refused
      contradiction
    cases polarity : l.negative with
    | true =>
      exact ⟨.compare .notEq key (.bool true), _, rfl, .leaf unsupported (notEqual _) polarity.symm⟩
    | false =>
      exact ⟨.compare .eq key (.bool true), _, rfl, .leaf unsupported (equal _) polarity.symm⟩
  | join connective left right ihLeft ihRight =>
    rw [render, Fragment.refusal_group] at refused
    cases stopped : (left.render schema).refusal with
    | some found =>
      obtain ⟨replacement, mended, same, mends⟩ := ihLeft stopped
      exact ⟨replacement, _, same, .left mends (right.sameShape_fill _)
        (right.allSupported_fill (equal (.bool true)))⟩
    | none =>
      rw [stopped, Option.none_or] at refused
      obtain ⟨replacement, mended, same, mends⟩ := ihRight refused
      have supported : left.AllSupported schema := by
        rw [refusal_render, Option.map_eq_none_iff] at stopped
        exact firstUnsupported?_eq_none.mp stopped
      exact ⟨replacement, _, same, .right supported mends⟩
  | not inner ih =>
    rw [render, Fragment.refusal_negated] at refused
    obtain ⟨replacement, mended, same, mends⟩ := ih refused
    exact ⟨replacement, _, same, .not mends⟩

/-- A schema registers finitely many fields, so some field with this first character is free. -/
theorem Schema.exists_free (schema : Schema) (first : Char) :
    ∃ key rest, schema.get? key = none ∧ key.toList = first :: rest := by
  have bounded (entries : List (String × FieldType)) :
      ∃ n, ∀ entry ∈ entries, entry.1.toList.length ≤ n := by
    induction entries with
    | nil => exact ⟨0, by simp⟩
    | cons entry entries ih =>
      obtain ⟨n, bound⟩ := ih
      refine ⟨max entry.1.toList.length n, ?_⟩
      intro other member
      rcases List.mem_cons.mp member with rfl | later
      · exact Nat.le_max_left _ _
      · exact Nat.le_trans (bound other later) (Nat.le_max_right _ _)
  obtain ⟨n, bound⟩ := bounded schema.entries
  refine ⟨String.ofList (first :: List.replicate n first), List.replicate n first, ?_,
    String.toList_ofList⟩
  rw [SortedMap.get?, Option.map_eq_none_iff, List.find?_eq_none]
  intro entry member same
  rw [decide_eq_true_eq] at same
  have short := bound entry member
  rw [same, String.toList_ofList, List.length_cons, List.length_replicate] at short
  omega

/-- What stands before a predicate whatever its field is ends right before it. -/
theorem eq_nil_of_marked {added x x' y y' : List Char} (first : '@' :: 'a' :: x = added ++ '@' :: 'a' :: x')
    (second : '@' :: 'b' :: y = added ++ '@' :: 'b' :: y') : added = [] := by
  cases added with
  | nil => rfl
  | cons c added =>
    cases added with
    | nil => simp at first
    | cons d added =>
      simp only [List.cons_append, List.cons.injEq] at first second
      obtain ⟨_, rfl, _⟩ := first
      obtain ⟨_, impossible, _⟩ := second
      exact absurd impossible (by decide)

theorem Filter.Precedes.unique {filter : Filter} {refusal : Refusal}
    (refused : (filter.render schema).refusal = some refusal) {part other : String}
    (precedes : filter.Precedes schema part) (precedesOther : filter.Precedes schema other) :
    part = other := by
  have marked (first : Char) : ∃ x x', part.toList ++ '@' :: first :: x =
      other.toList ++ '@' :: first :: x' := by
    obtain ⟨key, tail, free, begins⟩ := schema.exists_free first
    obtain ⟨replacement, mended, rfl, mends⟩ := exists_mends free refused
    obtain ⟨body, rest, _, whole⟩ := precedes _ _ mends
    obtain ⟨body', rest', _, whole'⟩ := precedesOther _ _ mends
    have same := congrArg String.toList (Except.ok.inj (whole.symm.trans whole'))
    simp only [String.toList_append, begins, List.append_assoc, List.cons_append] at same
    exact ⟨_, _, same⟩
  obtain ⟨x, x', first⟩ := marked 'a'
  obtain ⟨y, y', second⟩ := marked 'b'
  apply String.toList_inj.mp
  rcases List.append_eq_append_iff.mp first with ⟨added, longer, cut⟩ | ⟨added, longer, cut⟩
  · rw [longer, List.append_assoc, List.append_cancel_left_eq] at second
    rw [longer, eq_nil_of_marked cut second, List.append_nil]
  · rw [longer, List.append_assoc, List.append_cancel_left_eq] at second
    rw [longer, eq_nil_of_marked cut second.symm, List.append_nil]

/-! ## Rendering -/

/-- A renderer only appends. A filter with a query adds the query to what is written; a filter that
is refused adds the text before the predicate of its first unsupported leaf, whatever is written
already. Refused predicates add nothing, and after steps of any kind, refused or not, what the steps
before them wrote is still there. -/
theorem renderer_appends (schema : Schema) :
    (∀ (filter : Filter) (query : String), Query.compile schema (some filter) = .ok query →
        ∀ written, filter.write.run ⟨schema, written⟩ = .ok () ⟨schema, written ++ query⟩) ∧
      (∀ (filter : Filter) (refusal : Refusal),
        Query.compile schema (some filter) = .error refusal →
          ∃ part,
            (∀ written,
              filter.write.run ⟨schema, written⟩ = .error refusal ⟨schema, written ++ part⟩) ∧
            filter.Precedes schema part ∧ ∀ other, filter.Precedes schema other → other = part) ∧
      (∀ (writing : Writing) (written : String) (refusal : Refusal) (next : Renderer),
        (∃ key value, writing = emitEqual key value) ∨
            (∃ key lower upper, writing = emitRange key lower upper) ∨
            (∃ key values, writing = emitIn key values) →
          writing.run ⟨schema, written⟩ = .error refusal next → next = ⟨schema, written⟩) ∧
      ∀ (written : String) (earlier later : List Step), ∃ text,
        (Renderer.takeAll ⟨schema, written⟩ (earlier ++ later)).query =
          (Renderer.takeAll ⟨schema, written⟩ earlier).query ++ text := by
  refine ⟨?_, ?_, ?_, ?_⟩
  · intro filter query compiled written
    have fragment := Fragment.result_eq_ok.mp compiled
    rw [filter.emits_write]
    dsimp only
    rw [fragment]
    rfl
  · intro filter refusal compiled
    have refused := Fragment.result_eq_error.mp compiled
    refine ⟨(filter.render schema).text, ?_, filter.precedes_text schema, ?_⟩
    · intro written
      rw [filter.emits_write]
      dsimp only
      rw [Fragment.outcome_of_some refused]
      rfl
    · intro other precedes
      exact precedes.unique refused (filter.precedes_text schema)
  · rintro writing written refusal next (⟨key, value, rfl⟩ | ⟨key, lower, upper, rfl⟩ |
      ⟨key, values, rfl⟩) failed
    · exact (emits_emitEqual key value).unchanged (fun _ _ => Fragment.text_predicate) failed
    · exact (emits_emitRange key lower upper).unchanged (fun _ _ => Fragment.text_predicate) failed
    · exact (emits_emitIn key values).unchanged (fun _ _ => Fragment.text_predicate) failed
  · intro written earlier later
    obtain ⟨text, taken⟩ := (Renderer.takeAll ⟨schema, written⟩ earlier).exists_takeAll later
    exact ⟨text, by rw [Renderer.takeAll_append, taken]⟩

/-- The second of two leaves is refused: the first one is written, and the opening of a negation
that every leaf in the place of the second one needs as well. -/
theorem renderer_appends_up_to_excluded :
    let schema : Schema := SortedMap.empty.insert "price" .numeric
    let red : Filter := .eq "color" (.string "red")
    let filter : Filter := .or red (.notIn "price" [.int 1])
    let refusal : Refusal := .unsupportedType "price" .numeric .membership
    (Query.compile schema (some red) = .ok "@color:\x7bred\x7d" ∧
        red.write.run ⟨schema, "* "⟩ = .ok () ⟨schema, "* @color:\x7bred\x7d"⟩) ∧
      (Query.compile schema (some filter) = .error refusal ∧
        filter.write.run ⟨schema, "* "⟩ = .error refusal ⟨schema, "* (@color:\x7bred\x7d | (-"⟩ ∧
        filter.Precedes schema "(@color:\x7bred\x7d | (-") ∧
      ∃ next, (emitIn "price" [.int 1]).run ⟨schema, "* "⟩ = .error refusal next ∧
        next = ⟨schema, "* "⟩ := by
  intro schema red filter refusal
  have compiled : Query.compile schema (some red) = .ok "@color:\x7bred\x7d" := rfl
  have refused : Query.compile schema (some filter) = .error refusal := rfl
  have text : (filter.render schema).text = "(@color:\x7bred\x7d | (-" := by decide +kernel
  obtain ⟨succeeds, fails, unchanged, _⟩ := renderer_appends schema
  obtain ⟨part, stops, precedes, only⟩ := fails filter refusal refused
  have same : part = "(@color:\x7bred\x7d | (-" :=
    (only _ (filter.precedes_text schema)).symm.trans text
  subst same
  refine ⟨⟨compiled, succeeds red _ compiled "* "⟩, ⟨refused, stops "* ", precedes⟩, _, rfl, ?_⟩
  exact unchanged (emitIn "price" [.int 1]) "* " refusal _ (.inr (.inr ⟨_, _, rfl⟩)) rfl

end FilterQuery
