import FilterQuery.Cli.Run
import FilterQuery.Json.Reader
import Mathlib.Data.List.Induction
import Mathlib.Data.List.TakeWhile

/-!
Command lines that spell a request. The options of a request may come in any order, and each value
may stand behind an equals sign or in an argument of its own; only the order of the field
declarations says something. Every such command line is read as the request that it spells
(`ofArguments_of_spelledBy`), or refused for the first declaration that is refused.
-/
namespace FilterQuery.Cli

section

variable {ε α β : Type}

@[simp] theorem ok_bind (value : α) (f : α → Except ε β) : Except.ok value >>= f = f value := rfl

@[simp] theorem error_bind (error : ε) (f : α → Except ε β) :
    Except.error error >>= f = .error error := rfl

end

/-- What the program is asked to do, with the values of the options as they were typed. -/
inductive Request where
  | compile (filter : String) (schema : Option String) (fields : List String)
  | validate (filter : String)
  | evaluate (filter metadata : String)
  | events (input : String)

namespace Request

def action : Request → Action
  | compile .. => .compile
  | validate _ => .validate
  | evaluate .. => .evaluate
  | events _ => .events

/-- The values that a request gives to an option, in order. -/
def values : Request → Flag → List String
  | compile filter _ _, .filter => [filter]
  | compile _ schema _, .schema => schema.toList
  | compile _ _ fields, .field => fields
  | validate filter, .filter => [filter]
  | evaluate filter _, .filter => [filter]
  | evaluate _ metadata, .metadata => [metadata]
  | events input, .input => [input]
  | _, _ => []

end Request

/-- The value is not taken for an option when it stands in an argument of its own. -/
def Standalone (value : String) : Prop := value.toList.head? = some '-' → value = "-"

/-- The arguments that give a value to an option. -/
inductive Spelled (flag : Flag) (value : String) : List String → Prop
  | joined : Spelled flag value ["--" ++ flag.name ++ "=" ++ value]
  | apart : Standalone value → Spelled flag value ["--" ++ flag.name, value]

/-- The arguments that give values to options, one after the other. -/
inductive Spells : List (Flag × String) → List String → Prop
  | nil : Spells [] []
  | cons {flag : Flag} {value : String} {settings : List (Flag × String)}
      {words rest : List String} : Spelled flag value words → Spells settings rest →
      Spells ((flag, value) :: settings) (words ++ rest)

/-- The values that an option gets, in order. -/
def valuesOf (flag : Flag) (settings : List (Flag × String)) : List String :=
  (settings.filter fun setting => setting.1 = flag).map (·.2)

/-- The command line spells the request. -/
def Request.SpelledBy (request : Request) (arguments : List String) : Prop :=
  ∃ settings words, arguments = request.action.name :: words ∧ Spells settings words ∧
    ∀ flag, valuesOf flag settings = request.values flag

/-- The declarations of fields, unless one is refused. -/
def declared (fields : List String) : Except UsageError (List (String × FieldType)) :=
  fields.mapM fun field => (parseField field).mapError .field

/-- The command that a request comes to, unless a declaration of a field is refused. -/
def Request.command : Request → Except UsageError Command
  | compile filter schema fields => return .compile filter schema (← declared fields)
  | validate filter => .ok (.validate filter)
  | evaluate filter metadata => .ok (.evaluate filter metadata)
  | events input => .ok (.events input)

theorem splitAtEquals_append {before : List Char} (noEquals : '=' ∉ before) (rest : List Char) :
    splitAtEquals (before ++ '=' :: rest) = some (before, rest) := by
  have passed : ∀ c ∈ before, decide (c ≠ '=') = true := by
    intro c member
    simp only [decide_eq_true_eq]
    rintro rfl
    exact noEquals member
  have dropped : (before ++ '=' :: rest).dropWhile (· ≠ '=') = '=' :: rest := by
    rw [List.dropWhile_append_of_pos passed]
    rfl
  have taken : (before ++ '=' :: rest).takeWhile (· ≠ '=') = before := by
    rw [List.takeWhile_append_of_pos passed]
    exact List.append_nil before
  unfold splitAtEquals
  rw [dropped, taken]

theorem splitAtEquals_of_notMem {text : List Char} (noEquals : '=' ∉ text) :
    splitAtEquals text = none := by
  have passed : text.dropWhile (· ≠ '=') = [] := by
    rw [List.dropWhile_eq_nil_iff]
    intro c member
    simp only [decide_eq_true_eq]
    rintro rfl
    exact noEquals member
  unfold splitAtEquals
  rw [passed]

theorem Flag.equals_notMem_name (flag : Flag) : '=' ∉ flag.name.toList := by
  cases flag <;> decide

theorem Flag.eq_of_name {flag other : Flag} (same : flag.name.toList = other.name.toList) :
    flag = other := by
  revert same
  cases flag <;> cases other <;> decide

theorem find?_name {flags : List Flag} {flag : Flag} (known : flag ∈ flags) :
    (flags.find? fun other => other.name.toList = flag.name.toList) = some flag := by
  cases found : flags.find? fun other => other.name.toList = flag.name.toList with
  | none =>
    have unlike := List.find?_eq_none.mp found flag known
    simp at unlike
  | some other =>
    have same := List.find?_some found
    rw [decide_eq_true_eq] at same
    rw [Flag.eq_of_name same]

theorem asksHelp_eq_false {argument : String} (notLong : argument ≠ "--help")
    (notShort : "-h".toList.isPrefixOf argument.toList = false) : asksHelp argument = false := by
  unfold asksHelp isRequest
  rw [notShort, decide_eq_false notLong]
  rfl

/-- Two dashes, the name of an option and what follows are neither the end of the options nor a
request for help. -/
theorem starts_option (flag : Flag) {argument : String} {rest : List Char}
    (text : argument.toList = '-' :: '-' :: (flag.name.toList ++ rest)) :
    argument ≠ "--" ∧ asksHelp argument = false := by
  constructor
  · rintro rfl
    cases flag <;> simp [Flag.name] at text
  · apply asksHelp_eq_false
    · rintro rfl
      cases flag <;> simp [Flag.name] at text
    · rw [text]
      rfl

theorem toList_joined (flag : Flag) (value : String) :
    ("--" ++ flag.name ++ "=" ++ value).toList =
      '-' :: '-' :: (flag.name.toList ++ '=' :: value.toList) := by
  simp

theorem toList_name (flag : Flag) :
    ("--" ++ flag.name).toList = '-' :: '-' :: (flag.name.toList ++ []) := by
  simp

theorem splitOption_joined (flag : Flag) (value : String) :
    splitOption ("--" ++ flag.name ++ "=" ++ value).toList =
      some (flag.name.toList, some value) := by
  rw [toList_joined]
  simp only [splitOption, splitAtEquals_append flag.equals_notMem_name, String.ofList_toList]

theorem splitOption_name (flag : Flag) :
    splitOption ("--" ++ flag.name).toList = some (flag.name.toList, none) := by
  rw [toList_name, List.append_nil]
  simp only [splitOption, splitAtEquals_of_notMem flag.equals_notMem_name]

variable {flags : List Flag} {flag : Flag} {options : Options}
  {open? : Option (Flag × Option String)} {value : String} {rest : List String}

theorem readOptions_joined (known : flag ∈ flags) :
    readOptions flags options open? (("--" ++ flag.name ++ "=" ++ value) :: rest) = (do
      let options ← options.settle open?
      let options ← options.put flag value
      readOptions flags options none rest) := by
  obtain ⟨notEnd, noHelp⟩ := starts_option flag (toList_joined flag value)
  rw [readOptions.eq_def]
  dsimp only
  rw [if_neg notEnd, noHelp, splitOption_joined]
  simp only [Bool.false_eq_true, if_false, find?_name known]

theorem readOptions_name (known : flag ∈ flags) :
    readOptions flags options open? (("--" ++ flag.name) :: rest) = (do
      let options ← options.settle open?
      readOptions flags options (some (flag, none)) rest) := by
  obtain ⟨notEnd, noHelp⟩ := starts_option flag (toList_name flag)
  rw [readOptions.eq_def]
  dsimp only
  rw [if_neg notEnd, noHelp, splitOption_name]
  simp only [Bool.false_eq_true, if_false, find?_name known]

/-- A value that starts with a dash is the dash, so it is none of the words with a meaning. -/
theorem Standalone.ne_dashed (standalone : Standalone value) (c : Char) (text : List Char) :
    value.toList ≠ '-' :: c :: text := by
  intro same
  have dash := standalone (by rw [same]; rfl)
  rw [dash] at same
  simp at same

theorem readOptions_value (standalone : Standalone value) :
    readOptions flags options (some (flag, none)) (value :: rest) =
      readOptions flags options (some (flag, some value)) rest := by
  have notEnd : value ≠ "--" := by
    rintro rfl
    exact standalone.ne_dashed '-' [] rfl
  have noHelp : asksHelp value = false := by
    apply asksHelp_eq_false
    · rintro rfl
      exact standalone.ne_dashed '-' _ rfl
    · rw [Bool.eq_false_iff]
      intro short
      obtain ⟨text, same⟩ := List.isPrefixOf_iff_prefix.mp short
      exact standalone.ne_dashed 'h' text same.symm
  have noOption : splitOption value.toList = none := by
    unfold splitOption
    split
    · exact absurd ‹_› (standalone.ne_dashed '-' _)
    · rfl
  have noDash : ¬ (value.toList.head? = some '-' ∧ value ≠ "-") := by
    rintro ⟨first, other⟩
    exact other (standalone first)
  rw [readOptions, if_neg notEnd, noHelp, noOption]
  simp only [Bool.false_eq_true, if_false, if_neg noDash]

/-- Options are taken in order, whatever stands at the end of them. An option is open until the next
one starts: its value is known but not yet taken. -/
theorem readOptions_append_of_spells {settings : List (Flag × String)} {words ending : List String}
    {result : Options → Except UsageError (Option Options)} (spells : Spells settings words)
    (known : ∀ setting ∈ settings, setting.1 ∈ flags)
    (ends : ∀ options open?, readOptions flags options open? ending =
      options.settle open? >>= result)
    (options : Options) (open? : Option (Flag × String)) :
    readOptions flags options (open?.map fun setting => (setting.1, some setting.2))
        (words ++ ending) =
      (open?.toList ++ settings).foldlM (fun options setting => options.put setting.1 setting.2)
        options >>= result := by
  have settled (open? : Option (Flag × String)) (options : Options) :
      options.settle (open?.map fun setting => (setting.1, some setting.2)) =
        open?.toList.foldlM (fun options setting => options.put setting.1 setting.2) options := by
    cases open? with
    | none => rfl
    | some setting => exact (bind_pure _).symm
  induction spells generalizing options open? with
  | nil => rw [List.nil_append, ends, settled, List.append_nil]
  | @cons flag value settings words rest spelled _ ih =>
    obtain ⟨first, others⟩ := List.forall_mem_cons.mp known
    have ih := ih others
    rw [List.foldlM_append, bind_assoc]
    cases spelled with
    | joined =>
      rw [List.append_assoc, List.singleton_append, readOptions_joined first, settled]
      congr 1
      funext options
      rw [List.foldlM_cons, bind_assoc]
      congr 1
      funext options
      exact ih options none
    | apart standalone =>
      rw [List.append_assoc, List.cons_append, List.singleton_append, readOptions_name first,
        settled]
      congr 1
      funext options
      rw [readOptions_value standalone]
      exact ih options (some (flag, value))

theorem readOptions_of_spells {settings : List (Flag × String)} {words : List String}
    (spells : Spells settings words) (known : ∀ setting ∈ settings, setting.1 ∈ flags)
    (options : Options) :
    readOptions flags options none words = (do
      return some (← settings.foldlM (fun options setting => options.put setting.1 setting.2)
        options)) := by
  rw [← List.append_nil words]
  exact readOptions_append_of_spells spells known (fun _ _ => rfl) options none

/-- A request for help is answered once the options before it are taken, whatever follows. -/
theorem readOptions_append_help {settings : List (Flag × String)} {words : List String}
    {word : String} (spells : Spells settings words)
    (known : ∀ setting ∈ settings, setting.1 ∈ flags) (asks : asksHelp word = true)
    (rest : List String) :
    readOptions flags options none (words ++ word :: rest) = (do
      let _ ← settings.foldlM (fun options setting => options.put setting.1 setting.2) options
      return none) := by
  refine readOptions_append_of_spells spells known (fun options open? => ?_) options none
  have notEnd : word ≠ "--" := by
    rintro rfl
    revert asks
    decide
  rw [readOptions.eq_def]
  dsimp only
  rw [if_neg notEnd, if_pos asks]

/-- The options after these settings, with the declarations that came out of them. -/
def collected (settings : List (Flag × String)) (fields : List (String × FieldType)) : Options where
  filter := (valuesOf .filter settings).head?
  schema := (valuesOf .schema settings).head?
  metadata := (valuesOf .metadata settings).head?
  input := (valuesOf .input settings).head?
  fields := fields

theorem valuesOf_concat (flag other : Flag) (settings : List (Flag × String)) (value : String) :
    valuesOf flag (settings ++ [(other, value)]) =
      valuesOf flag settings ++ if other = flag then [value] else [] := by
  unfold valuesOf
  rw [List.filter_append, List.map_append]
  congr 1
  by_cases same : other = flag
  · simp [same]
  · simp [same]

/-- Only fields are declared more than once. -/
def Single (settings : List (Flag × String)) : Prop :=
  ∀ flag, flag ≠ .field → (valuesOf flag settings).length ≤ 1

theorem Single.of_concat {settings : List (Flag × String)} {setting : Flag × String}
    (single : Single (settings ++ [setting])) :
    Single settings ∧ (setting.1 ≠ .field → valuesOf setting.1 settings = []) := by
  constructor
  · intro flag notField
    have bound := single flag notField
    rw [valuesOf_concat, List.length_append] at bound
    omega
  · intro notField
    have bound := single setting.1 notField
    rw [valuesOf_concat, if_pos rfl, List.length_append, List.length_singleton] at bound
    exact List.eq_nil_of_length_eq_zero (by omega)

theorem put_collected {settings : List (Flag × String)} {flag : Flag} (value : String)
    (single : flag ≠ .field → valuesOf flag settings = []) (fields : List (String × FieldType)) :
    (collected settings fields).put flag value = (do
      let more ← declared (if flag = .field then [value] else [])
      return collected (settings ++ [(flag, value)]) (fields ++ more)) := by
  cases flag with
  | field =>
    simp only [Options.put, declared, if_true, List.mapM_cons, List.mapM_nil]
    cases (parseField value).mapError UsageError.field with
    | error error => rfl
    | ok field => simp [collected, valuesOf_concat]
  | filter | schema | metadata | input =>
    have none := single (by decide)
    simp [Options.put, Options.once, collected, valuesOf_concat, none, declared]
    rfl

theorem declared_append (fields more : List String) :
    declared (fields ++ more) = (do return (← declared fields) ++ (← declared more)) :=
  List.mapM_append

/-- By induction on the settings from the last one on: what is taken before does not depend on what
comes later. -/
theorem foldlM_put {settings : List (Flag × String)} (single : Single settings) :
    settings.foldlM (fun options setting => options.put setting.1 setting.2) Options.empty = (do
      let fields ← declared (valuesOf .field settings)
      return collected settings fields) := by
  induction settings using List.reverseRecOn with
  | nil => rfl
  | append_singleton settings setting ih =>
    obtain ⟨before, fresh⟩ := single.of_concat
    rw [List.foldlM_append, ih before, valuesOf_concat, declared_append]
    cases declared (valuesOf .field settings) with
    | error error => rfl
    | ok fields =>
      have put := put_collected setting.2 fresh fields
      simp only [pure_bind, bind_assoc, List.foldlM_cons, List.foldlM_nil, bind_pure]
      exact put

theorem Request.single_of_values {request : Request} {settings : List (Flag × String)}
    (values : ∀ flag, valuesOf flag settings = request.values flag) : Single settings := by
  intro flag notField
  rw [values flag]
  cases request with
  | compile filter schema fields =>
    cases flag with
    | field => exact absurd rfl notField
    | schema => cases schema <;> simp [Request.values]
    | filter | metadata | input => simp [Request.values]
  | validate | evaluate | events => cases flag <;> simp [Request.values]

theorem Request.known_of_values {request : Request} {settings : List (Flag × String)}
    (values : ∀ flag, valuesOf flag settings = request.values flag) :
    ∀ setting ∈ settings, setting.1 ∈ request.action.flags := by
  intro setting member
  have value : setting.2 ∈ request.values setting.1 := by
    rw [← values]
    exact List.mem_map.mpr ⟨setting, List.mem_filter.mpr ⟨member, by simp⟩, rfl⟩
  revert value
  cases request <;> cases setting.1 <;> simp [Request.values, Request.action, Action.flags]

theorem find?_action (action : Action) :
    Action.all.find? (fun other => other.name = action.name) = some action := by
  cases action <;> decide

/-- The word for an action is none of those that ask for something else. -/
theorem plain_name (action : Action) :
    asksVersion action.name = false ∧ asksHelp action.name = false ∧ action.name ≠ "help" := by
  cases action <;> decide

theorem ofArguments_name (action : Action) (rest : List String) :
    Command.ofArguments (action.name :: rest) = (do
      Command.ofReading action (← readOptions action.flags .empty none rest)) := by
  obtain ⟨noVersion, noHelp, notHelp⟩ := plain_name action
  simp only [Command.ofArguments, noVersion, noHelp, notHelp, find?_action, Bool.false_eq_true,
    if_false]

/-- Help is given in the place of any option, unless one of the options before it is refused. -/
theorem ofArguments_append_help {action : Action} {settings : List (Flag × String)}
    {words : List String} {word : String} (spells : Spells settings words)
    (known : ∀ setting ∈ settings, setting.1 ∈ action.flags) (asks : asksHelp word = true)
    (rest : List String) :
    Command.ofArguments (action.name :: (words ++ word :: rest)) = (do
      let _ ← settings.foldlM (fun options setting => options.put setting.1 setting.2)
        Options.empty
      return .help) := by
  rw [ofArguments_name, readOptions_append_help spells known asks, bind_assoc]
  rfl

/-- The options of a request are what its action needs. -/
theorem ofOptions_collected {request : Request} {settings : List (Flag × String)}
    (values : ∀ flag, valuesOf flag settings = request.values flag) :
    (do
      let fields ← declared (request.values .field)
      Command.ofOptions request.action (collected settings fields)) = request.command := by
  cases request with
  | compile filter schema fields =>
    unfold Request.command
    congr 1
    funext types
    rw [collected, values .filter, values .schema]
    cases schema <;> rfl
  | validate =>
    change Command.ofOptions .validate (collected settings []) = _
    rw [collected, values .filter]
    rfl
  | evaluate =>
    change Command.ofOptions .evaluate (collected settings []) = _
    rw [collected, values .filter, values .metadata]
    rfl
  | events =>
    change Command.ofOptions .events (collected settings []) = _
    rw [collected, values .input]
    rfl

/-- A command line that spells a request is read as this request. -/
theorem ofArguments_of_spelledBy {request : Request} {arguments : List String}
    (spelled : request.SpelledBy arguments) : Command.ofArguments arguments = request.command := by
  obtain ⟨settings, words, rfl, spells, values⟩ := spelled
  have read := readOptions_of_spells spells (Request.known_of_values values) .empty
  have put := foldlM_put (Request.single_of_values values)
  rw [put, values] at read
  rw [ofArguments_name, read, ← ofOptions_collected values]
  simp only [bind_assoc, pure_bind, Command.ofReading]

end FilterQuery.Cli
