import FilterQuery.Proofs.Cli.CommandLines
import FilterQuery.Proofs.Schema.Entries

/-!
What runs come to. The steps of a request are taken in order: the declarations of fields, the filter
(read, decoded, validated), the schema or the metadata (read, decoded), and the compilation. If all
of them succeed, the result is printed; otherwise nothing is, and the error is that of the first
step that fails (`run_follows_steps`).
-/
namespace FilterQuery.Cli

variable {disk : Disk} {path : String}

/-- How loading a filter ends. The text `null` is no filter. -/
inductive FilterLoad (disk : Disk) (path : String) : Except Fault (Option Filter) → Prop
  | unreadable {failure : FileFailure} : disk.readText path = .error failure →
      FilterLoad disk path (.error (.fileRead failure))
  | malformed {text : String} {failure : Json.Failure} : disk.readText path = .ok text →
      Filter.decodeOptional text = .error failure → FilterLoad disk path (.error (.json failure))
  | invalid {text : String} {filter : Filter} {violation : Violation} :
      disk.readText path = .ok text → Filter.decodeOptional text = .ok (some filter) →
      filter.validate = .error violation → FilterLoad disk path (.error (.invalid violation))
  | none {text : String} : disk.readText path = .ok text →
      Filter.decodeOptional text = .ok none → FilterLoad disk path (.ok none)
  | valid {text : String} {filter : Filter} : disk.readText path = .ok text →
      Filter.decodeOptional text = .ok (some filter) → filter.validate = .ok () →
      FilterLoad disk path (.ok (some filter))

/-- How loading the entries of a schema ends. Without a file there are none. -/
inductive SchemaLoad (disk : Disk) : Option String → Except Fault (List (String × FieldType)) → Prop
  | absent : SchemaLoad disk none (.ok [])
  | unreadable {path : String} {failure : FileFailure} : disk.readText path = .error failure →
      SchemaLoad disk (some path) (.error (.fileRead failure))
  | malformed {path text : String} {failure : Json.Failure} : disk.readText path = .ok text →
      Schema.ofText text = .error failure → SchemaLoad disk (some path) (.error (.json failure))
  | listed {path text : String} {entries : List (String × FieldType)} :
      disk.readText path = .ok text → Schema.Lists text entries →
      SchemaLoad disk (some path) (.ok entries)

/-- How loading metadata ends. -/
inductive MetadataLoad (disk : Disk) (path : String) : Except Fault Metadata → Prop
  | unreadable {failure : FileFailure} : disk.readText path = .error failure →
      MetadataLoad disk path (.error (.fileRead failure))
  | malformed {text : String} {failure : Json.Failure} : disk.readText path = .ok text →
      Metadata.ofText text = .error failure → MetadataLoad disk path (.error (.json failure))
  | loaded {text : String} {metadata : Metadata} : disk.readText path = .ok text →
      Metadata.ofText text = .ok metadata → MetadataLoad disk path (.ok metadata)

/-- The schema has the declared fields with the type of their last declaration, the other fields of
the entries with the type of their last entry, and no more. -/
def Governs (schema : Schema) (declarations entries : List (String × FieldType)) : Prop :=
  ∀ key, schema.get? key = (declarations.reverse.lookup key).or (entries.reverse.lookup key)

/-- Every declaration of a field is accepted. -/
def Accepted (fields : List String) (declarations : List (String × FieldType)) : Prop :=
  List.Forall₂ (fun field declaration => parseField field = .ok declaration) fields declarations

/-- All steps of the request succeed, and the text is what it prints. -/
inductive Prints (disk : Disk) : Request → String → Prop
  | compile {filter : String} {path : Option String} {fields : List String}
      {declarations entries : List (String × FieldType)} {loaded : Option Filter} {schema : Schema}
      {query : String} :
      Accepted fields declarations → FilterLoad disk filter (.ok loaded) →
      SchemaLoad disk path (.ok entries) → Governs schema declarations entries →
      Query.compile schema loaded = .ok query →
      Prints disk (.compile filter path fields) (query ++ "\n")
  | validate {filter : String} {loaded : Option Filter} : FilterLoad disk filter (.ok loaded) →
      Prints disk (.validate filter) "ok\n"
  | evaluate {filter path : String} {loaded : Option Filter} {metadata : Metadata} {answer : Bool} :
      FilterLoad disk filter (.ok loaded) → MetadataLoad disk path (.ok metadata) →
      (answer = true ↔ ∀ filter ∈ loaded, Filter.accepts metadata filter = true) →
      Prints disk (.evaluate filter path) (if answer = true then "true\n" else "false\n")
  | events {input : String} {events : List Stream.Event} :
      loadEvents disk input = .ok events → Prints disk (.events input) (eventOutput events).text

/-- The steps of the request before the one that the report is about succeed, and that one fails. -/
inductive Fails (disk : Disk) : Request → Report → Prop
  | refused {filter : String} {path : Option String} {before after : List String} {field : String}
      {declarations : List (String × FieldType)} {refusal : FieldRefusal} :
      Accepted before declarations → parseField field = .error refusal →
      Fails disk (.compile filter path (before ++ field :: after)) (.usage (.field refusal))
  | compileFilter {filter : String} {path : Option String} {fields : List String}
      {declarations : List (String × FieldType)} {fault : Fault} :
      Accepted fields declarations → FilterLoad disk filter (.error fault) →
      Fails disk (.compile filter path fields) (.failure fault)
  | compileSchema {filter : String} {path : Option String} {fields : List String}
      {declarations : List (String × FieldType)} {loaded : Option Filter} {fault : Fault} :
      Accepted fields declarations → FilterLoad disk filter (.ok loaded) →
      SchemaLoad disk path (.error fault) → Fails disk (.compile filter path fields) (.failure fault)
  | compile {filter : String} {path : Option String} {fields : List String}
      {declarations entries : List (String × FieldType)} {loaded : Option Filter} {schema : Schema}
      {refusal : Refusal} :
      Accepted fields declarations → FilterLoad disk filter (.ok loaded) →
      SchemaLoad disk path (.ok entries) → Governs schema declarations entries →
      Query.compile schema loaded = .error refusal →
      Fails disk (.compile filter path fields) (.failure (.compile refusal))
  | validate {filter : String} {fault : Fault} : FilterLoad disk filter (.error fault) →
      Fails disk (.validate filter) (.failure fault)
  | evaluateFilter {filter path : String} {fault : Fault} : FilterLoad disk filter (.error fault) →
      Fails disk (.evaluate filter path) (.failure fault)
  | evaluateMetadata {filter path : String} {loaded : Option Filter} {fault : Fault} :
      FilterLoad disk filter (.ok loaded) → MetadataLoad disk path (.error fault) →
      Fails disk (.evaluate filter path) (.failure fault)
  | events {input : String} {fault : Fault} : loadEvents disk input = .error fault →
      Fails disk (.events input) (.failure fault)

/-- What is computed is what is derived, if every derivation is computed and there is one. -/
theorem eq_iff_of_total {α : Type} {Derives : α → Prop} {computed result : α}
    (total : ∃ result, Derives result) (sound : ∀ result, Derives result → computed = result) :
    computed = result ↔ Derives result := by
  constructor
  · rintro rfl
    obtain ⟨result, derived⟩ := total
    exact sound result derived ▸ derived
  · exact sound result

theorem exists_filterLoad (disk : Disk) (path : String) : ∃ result, FilterLoad disk path result := by
  cases read : disk.readText path with
  | error failure => exact ⟨_, .unreadable read⟩
  | ok text =>
    cases decoded : Filter.decodeOptional text with
    | error failure => exact ⟨_, .malformed read decoded⟩
    | ok loaded =>
      cases loaded with
      | none => exact ⟨_, .none read decoded⟩
      | some filter =>
        cases validated : filter.validate with
        | error violation => exact ⟨_, .invalid read decoded validated⟩
        | ok _ => exact ⟨_, .valid read decoded validated⟩

theorem loadFilter_eq_iff {result : Except Fault (Option Filter)} :
    loadFilter disk path = result ↔ FilterLoad disk path result := by
  refine eq_iff_of_total (exists_filterLoad disk path) ?_
  intro result load
  unfold loadFilter Filter.ofTextOptional
  cases load with
  | unreadable read =>
    rw [read]
    rfl
  | malformed read decoded =>
    rw [read, Except.mapError, ok_bind, decoded]
    rfl
  | invalid read decoded invalid =>
    rw [read, Except.mapError, ok_bind, decoded]
    simp only [Except.mapError, ok_bind, error_bind, Filter.checked, invalid]
  | none read decoded =>
    rw [read, Except.mapError, ok_bind, decoded]
    rfl
  | valid read decoded valid =>
    rw [read, Except.mapError, ok_bind, decoded]
    simp only [Except.mapError, ok_bind, Filter.checked, valid]
    rfl

theorem exists_metadataLoad (disk : Disk) (path : String) :
    ∃ result, MetadataLoad disk path result := by
  cases read : disk.readText path with
  | error failure => exact ⟨_, .unreadable read⟩
  | ok text =>
    cases decoded : Metadata.ofText text with
    | error failure => exact ⟨_, .malformed read decoded⟩
    | ok metadata => exact ⟨_, .loaded read decoded⟩

theorem loadMetadata_eq_iff {result : Except Fault Metadata} :
    loadMetadata disk path = result ↔ MetadataLoad disk path result := by
  refine eq_iff_of_total (exists_metadataLoad disk path) ?_
  intro result load
  unfold loadMetadata
  cases load with
  | unreadable read =>
    rw [read]
    rfl
  | malformed read decoded =>
    rw [read, Except.mapError, ok_bind, decoded]
    rfl
  | loaded read decoded =>
    rw [read, Except.mapError, ok_bind, decoded]
    rfl

theorem exists_schemaLoad (disk : Disk) (path : Option String) :
    ∃ result, SchemaLoad disk path result := by
  cases path with
  | none => exact ⟨_, .absent⟩
  | some path =>
    cases read : disk.readText path with
    | error failure => exact ⟨_, .unreadable read⟩
    | ok text =>
      cases decoded : Schema.ofText text with
      | error failure => exact ⟨_, .malformed read decoded⟩
      | ok schema =>
        obtain ⟨entries, lists, _⟩ := Schema.ofText_eq_ok_iff.mp decoded
        exact ⟨_, .listed read lists⟩

/-- The schema with the entries of the file and the declarations written over them. -/
theorem loadSchema_of_schemaLoad {path : Option String}
    {result : Except Fault (List (String × FieldType))} (load : SchemaLoad disk path result)
    (declarations : List (String × FieldType)) :
    loadSchema disk path declarations =
      result.map fun entries => (SortedMap.ofList entries).insertAll declarations := by
  unfold loadSchema Schema.load
  cases load with
  | absent => rfl
  | unreadable read =>
    simp only [read]
    rfl
  | malformed read decoded =>
    simp only [read, Except.mapError, ok_bind, decoded]
    rfl
  | listed read lists =>
    have decoded := Schema.ofText_eq_ok_iff.mpr ⟨_, lists, rfl⟩
    simp only [read, Except.mapError, ok_bind, decoded]
    rfl

theorem governs_insertAll (declarations entries : List (String × FieldType)) :
    Governs ((SortedMap.ofList entries).insertAll declarations) declarations entries := by
  intro key
  rw [SortedMap.get?_insertAll, SortedMap.get?_ofList]

theorem Governs.eq {schema : Schema} {declarations entries : List (String × FieldType)}
    (governs : Governs schema declarations entries) :
    schema = (SortedMap.ofList entries).insertAll declarations := by
  apply SortedMap.ext_get?
  intro key
  rw [governs key, governs_insertAll declarations entries key]

theorem declared_of_accepted {fields : List String} {declarations : List (String × FieldType)}
    (accepted : Accepted fields declarations) : declared fields = .ok declarations := by
  induction accepted with
  | nil => rfl
  | cons first _ ih =>
    unfold declared at ih ⊢
    rw [List.mapM_cons, first, ih]
    rfl

theorem declared_of_refused {before after : List String} {field : String}
    {declarations : List (String × FieldType)} {refusal : FieldRefusal}
    (accepted : Accepted before declarations) (refused : parseField field = .error refusal) :
    declared (before ++ field :: after) = .error (.field refusal) := by
  have first : declared (field :: after) = .error (.field refusal) := by
    unfold declared
    rw [List.mapM_cons, refused]
    rfl
  rw [declared_append, declared_of_accepted accepted, first]
  rfl

/-- Either all declarations are accepted, or there is a first one that is refused. -/
theorem accepted_or_refused (fields : List String) :
    (∃ declarations, Accepted fields declarations) ∨
      ∃ before field after declarations refusal, fields = before ++ field :: after ∧
        Accepted before declarations ∧ parseField field = .error refusal := by
  induction fields with
  | nil => exact .inl ⟨[], .nil⟩
  | cons first rest ih =>
    cases parsed : parseField first with
    | error refusal => exact .inr ⟨[], first, rest, [], refusal, rfl, .nil, parsed⟩
    | ok declaration =>
      rcases ih with ⟨declarations, accepted⟩ | ⟨before, field, after, declarations, refusal, rfl,
        accepted, refused⟩
      · exact .inl ⟨declaration :: declarations, .cons parsed accepted⟩
      · exact .inr ⟨first :: before, field, after, declaration :: declarations, refusal, rfl,
          .cons parsed accepted, refused⟩

theorem acceptsOptional_iff (metadata : Metadata) (loaded : Option Filter) :
    Filter.acceptsOptional metadata loaded = true ↔
      ∀ filter ∈ loaded, Filter.accepts metadata filter = true := by
  unfold Filter.acceptsOptional
  cases loaded <;> simp

theorem prints_or_fails (disk : Disk) (request : Request) :
    (∃ text, Prints disk request text) ∨ ∃ report, Fails disk request report := by
  cases request with
  | compile filter path fields =>
    rcases accepted_or_refused fields with ⟨declarations, accepted⟩ | ⟨before, field, after,
      declarations, refusal, rfl, accepted, refused⟩
    · obtain ⟨filterResult, filterLoad⟩ := exists_filterLoad disk filter
      cases filterResult with
      | error fault => exact .inr ⟨_, .compileFilter accepted filterLoad⟩
      | ok loaded =>
        obtain ⟨schemaResult, schemaLoad⟩ := exists_schemaLoad disk path
        cases schemaResult with
        | error fault => exact .inr ⟨_, .compileSchema accepted filterLoad schemaLoad⟩
        | ok entries =>
          have governs := governs_insertAll declarations entries
          cases compiled : Query.compile ((SortedMap.ofList entries).insertAll declarations) loaded with
          | error refusal => exact .inr ⟨_, .compile accepted filterLoad schemaLoad governs compiled⟩
          | ok query => exact .inl ⟨_, .compile accepted filterLoad schemaLoad governs compiled⟩
    · exact .inr ⟨_, .refused accepted refused⟩
  | validate filter =>
    obtain ⟨result, load⟩ := exists_filterLoad disk filter
    cases result with
    | error fault => exact .inr ⟨_, .validate load⟩
    | ok loaded => exact .inl ⟨_, .validate load⟩
  | evaluate filter path =>
    obtain ⟨filterResult, filterLoad⟩ := exists_filterLoad disk filter
    cases filterResult with
    | error fault => exact .inr ⟨_, .evaluateFilter filterLoad⟩
    | ok loaded =>
      obtain ⟨metadataResult, metadataLoad⟩ := exists_metadataLoad disk path
      cases metadataResult with
      | error fault => exact .inr ⟨_, .evaluateMetadata filterLoad metadataLoad⟩
      | ok metadata =>
        exact .inl ⟨_, .evaluate filterLoad metadataLoad (acceptsOptional_iff metadata loaded)⟩
  | events input =>
    cases events : loadEvents disk input with
    | error fault => exact .inr ⟨_, .events events⟩
    | ok events' => exact .inl ⟨_, .events events⟩

theorem execute_of_prints {request : Request} {text : String} (prints : Prints disk request text) :
    ∃ command output, request.command = .ok command ∧ command.execute disk = .ok output ∧
      output.text = text := by
  cases prints with
  | @compile filter path fields declarations entries loaded schema query accepted filterLoad
      schemaLoad governs compiled =>
    have loadedFilter := loadFilter_eq_iff.mpr filterLoad
    have loadedSchema := loadSchema_of_schemaLoad schemaLoad declarations
    rw [Except.map, ← governs.eq] at loadedSchema
    refine ⟨.compile filter path declarations, .line query, ?_, ?_, rfl⟩
    · rw [Request.command, declared_of_accepted accepted]
      rfl
    · simp only [Command.execute, loadedFilter, loadedSchema, ok_bind, compiled]
      rfl
  | @validate filter loaded filterLoad =>
    refine ⟨.validate filter, ⟨"ok\n", [validityNote loaded]⟩, rfl, ?_, rfl⟩
    simp only [Command.execute, loadFilter_eq_iff.mpr filterLoad, ok_bind]
    rfl
  | @evaluate filter path loaded metadata answer filterLoad metadataLoad answers =>
    refine ⟨.evaluate filter path, .line (if answer = true then "true" else "false"), rfl, ?_, ?_⟩
    · have same : Filter.acceptsOptional metadata loaded = answer := by
        rw [Bool.eq_iff_iff, acceptsOptional_iff, answers]
      simp only [Command.execute, loadFilter_eq_iff.mpr filterLoad,
        loadMetadata_eq_iff.mpr metadataLoad, ok_bind, same]
      rfl
    · cases answer <;> rfl
  | @events input events loaded =>
    refine ⟨.events input, eventOutput events, rfl, ?_, rfl⟩
    simp only [Command.execute, loaded, ok_bind]
    rfl

theorem run_of_prints {request : Request} {arguments : List String} {text : String}
    (spelled : request.SpelledBy arguments) (prints : Prints disk request text) :
    ∃ output, run disk arguments = .success output ∧ output.text = text := by
  obtain ⟨command, output, commanded, executed, printed⟩ := execute_of_prints prints
  refine ⟨output, ?_, printed⟩
  rw [run, ofArguments_of_spelledBy spelled, commanded]
  simp only [executed]

theorem run_of_fails {request : Request} {arguments : List String} {report : Report}
    (spelled : request.SpelledBy arguments) (fails : Fails disk request report) :
    run disk arguments = report := by
  rw [run, ofArguments_of_spelledBy spelled]
  cases fails with
  | refused accepted refused =>
    rw [Request.command, declared_of_refused accepted refused]
    rfl
  | compileFilter accepted filterLoad =>
    rw [Request.command, declared_of_accepted accepted]
    simp only [Command.execute, loadFilter_eq_iff.mpr filterLoad, ok_bind, error_bind, pure,
      Except.pure]
  | @compileSchema filter path fields declarations loaded fault accepted filterLoad schemaLoad =>
    have loadedSchema := loadSchema_of_schemaLoad schemaLoad declarations
    rw [Request.command, declared_of_accepted accepted]
    simp only [Command.execute, loadFilter_eq_iff.mpr filterLoad, loadedSchema, ok_bind,
      error_bind, pure, Except.pure, Except.map]
  | @compile filter path fields declarations entries loaded schema refusal accepted filterLoad
      schemaLoad governs compiled =>
    have loadedSchema := loadSchema_of_schemaLoad schemaLoad declarations
    rw [Except.map, ← governs.eq] at loadedSchema
    rw [Request.command, declared_of_accepted accepted]
    simp only [Command.execute, loadFilter_eq_iff.mpr filterLoad, loadedSchema, ok_bind,
      error_bind, pure, Except.pure, compiled, Except.mapError]
  | validate filterLoad =>
    simp only [Request.command, Command.execute, loadFilter_eq_iff.mpr filterLoad, error_bind]
  | evaluateFilter filterLoad =>
    simp only [Request.command, Command.execute, loadFilter_eq_iff.mpr filterLoad, error_bind]
  | evaluateMetadata filterLoad metadataLoad =>
    simp only [Request.command, Command.execute, loadFilter_eq_iff.mpr filterLoad,
      loadMetadata_eq_iff.mpr metadataLoad, ok_bind, error_bind]
  | events failed =>
    simp only [Request.command, Command.execute, failed, error_bind]

theorem Fails.silent {request : Request} {report : Report} (fails : Fails disk request report) :
    report.exitCode ≠ 0 ∧ report.text = "" := by
  cases fails <;> exact ⟨by simp [Report.exitCode], rfl⟩

/-- A command line that spells a request does what the steps of the request say. It exits with zero
exactly if all of them succeed, and prints their result. Otherwise it prints nothing, and its error
is that of the first step that fails. -/
theorem run_follows_steps {request : Request} {arguments : List String}
    (spelled : request.SpelledBy arguments) (disk : Disk) :
    (∀ text, (run disk arguments).exitCode = 0 ∧ (run disk arguments).text = text ↔
        Prints disk request text) ∧
      ((¬ ∃ text, Prints disk request text) →
        (run disk arguments).exitCode ≠ 0 ∧ (run disk arguments).text = "") ∧
      ∀ report, report.exitCode ≠ 0 →
        (run disk arguments = report ↔ Fails disk request report) := by
  refine ⟨?_, ?_, ?_⟩
  · intro text
    constructor
    · rintro ⟨success, rfl⟩
      rcases prints_or_fails disk request with ⟨text, prints⟩ | ⟨report, fails⟩
      · obtain ⟨output, ran, rfl⟩ := run_of_prints spelled prints
        rw [ran]
        exact prints
      · rw [run_of_fails spelled fails] at success
        exact absurd success fails.silent.1
    · intro prints
      obtain ⟨output, ran, rfl⟩ := run_of_prints spelled prints
      rw [ran]
      exact ⟨rfl, rfl⟩
  · intro none
    rcases prints_or_fails disk request with prints | ⟨report, fails⟩
    · exact absurd prints none
    · rw [run_of_fails spelled fails]
      exact fails.silent
  · intro report failed
    constructor
    · rintro rfl
      rcases prints_or_fails disk request with ⟨text, prints⟩ | ⟨report, fails⟩
      · obtain ⟨output, ran, _⟩ := run_of_prints spelled prints
        rw [ran] at failed
        exact absurd rfl failed
      · rw [run_of_fails spelled fails]
        exact fails
    · exact run_of_fails spelled

/-- Of two declarations of a field the later one counts, and of two entries of the file the later
one, unless the field is declared. Without the files the filter is missed first. -/
theorem run_follows_steps_of_overriding :
    let disk : Disk := fun path =>
      if path = "f" then
        .ok [.chunk "[\"and\", \x7b\"op\": \"eq\", \"key\": \"a\", \"value\": ".toUTF8.toList,
          .chunk "1\x7d, \x7b\"op\": \"eq\", \"key\": \"b\", \"value\": 2\x7d]".toUTF8.toList]
      else .ok [.chunk "\x7b\"b\": \"text\", \"a\": \"geo\", \"b\": \"tag\"\x7d".toUTF8.toList]
    let request : Request := .compile "f" (some "s") ["a=tag", "a = Numeric"]
    let arguments :=
      ["compile", "--field", "a=tag", "--schema=s", "--field=a = Numeric", "--filter", "f"]
    request.SpelledBy arguments ∧ Prints disk request "(@a:[1 1] @b:\x7b2\x7d)\n" ∧
      Fails (fun _ => .error .notFound) request (.failure (.fileRead .notFound)) := by
  intro disk request arguments
  have spelled : request.SpelledBy arguments := by
    have first : Standalone "a=tag" := by
      unfold Standalone
      decide
    have last : Standalone "f" := by
      unfold Standalone
      decide
    refine ⟨[(.field, "a=tag"), (.schema, "s"), (.field, "a = Numeric"), (.filter, "f")], _, rfl,
      .cons (.apart first) (.cons .joined (.cons .joined (.cons (.apart last) .nil))), ?_⟩
    intro flag
    cases flag <;> rfl
  obtain ⟨printing, _, _⟩ := run_follows_steps spelled disk
  obtain ⟨_, _, failing⟩ := run_follows_steps spelled fun _ => .error .notFound
  have ran : run disk arguments = .success ⟨"(@a:[1 1] @b:\x7b2\x7d)\n", []⟩ := by
    decide +kernel
  refine ⟨spelled, (printing _).mp ?_, (failing _ (by decide)).mp (by decide +kernel)⟩
  rw [ran]
  exact ⟨rfl, rfl⟩

end FilterQuery.Cli
