import Interchange.Config
import Interchange.Proofs.Fields
import Interchange.Proofs.Json.RoundTrip

/-!
# Configurations written and read

Each part of a configuration has a document that it is read from again: of a structure every field
is written, so nothing is left to a default (`Config.fields?_object`), a list is read item by item
(`Config.list?_array`), and the levels of single targets come back as they are because they are
sorted (`Config.table?_object`). The documents have no doubles and are nested four deep, so their
texts are read as these documents. Therefore a configuration whose targets are sorted is read from
its text, and every configuration that is read from any text is such a one
(`Config.outlives_writing`).
-/
namespace Interchange.Config

/-! ### Documents of the parts -/

/-- If the members of an object have the names of a structure, in their order, they are its
fields. -/
theorem fields?_object {names : List String} {members : List (String × Json)}
    (named : Fields.names members = names) (distinct : names.Nodup) :
    fields? names (.object members) = some (members.map fun member => some member.2) := by
  subst named
  have known : (Fields.names members).all (Fields.names members).contains := by simp
  have found : (Fields.names members).map (Fields.find? · members) =
      members.map fun member => some member.2 := by
    rw [Fields.names, List.map_map]
    exact List.map_congr_left fun member mem => Fields.find?_of_mem distinct mem
  rw [fields?, if_pos ⟨known, distinct⟩, found]

/-- A string or null is read back. -/
theorem optionalString?_optionalJson (s : Option String) :
    optionalString? (optionalJson s) = some s := by
  cases s <;> rfl

/-- A style is read back from its name. -/
theorem format?_formatName (format : LogFormat) :
    format? (.string (formatName format)) = some format := by
  cases format <;> rfl

/-- If each item is read back, so is the array of them. -/
theorem list?_array {α : Type} {read? : Json → Option α} {write : α → Json}
    (each : ∀ item, read? (write item) = some item) (items : List α) :
    list? read? (.array (items.map write)) = some items := by
  have read : read? ∘ write = fun item => pure (id item) := funext each
  rw [list?, List.mapM_map, read, List.mapM_pure, List.map_id]
  rfl

/-- Strings under sorted names are read back in their order. -/
theorem table?_object {table : Fields String} (sorted : table.Sorted) :
    table? (.object (table.map fun (name, level) => (name, .string level))) = some table := by
  have read : (fun ((name, member) : String × Json) => (string? member).map (name, ·)) ∘
      (fun (name, level) => (name, .string level)) = fun entry => pure (id entry) := rfl
  rw [table?, List.mapM_map, read, List.mapM_pure, List.map_id]
  exact congrArg some sorted.sorted_eq

/-- The extensions of a language are read back. -/
theorem language?_languageJson (language : LanguageConfig) :
    language? (languageJson language) = some language := by
  have given : fields? ["id", "extensions"] (languageJson language) = some [
      some (.string language.id), some (.array (language.extensions.map .string))] :=
    fields?_object rfl (by decide)
  have extensions := list?_array (fun s => (rfl : string? (.string s) = some s)) language.extensions
  rw [language?, given]
  simp only [Option.bind_eq_bind, Option.bind_some, string?, extensions, Option.pure_def]

/-- What is logged is read back, if its targets are sorted. -/
theorem log?_logJson {log : LogConfig} (sorted : log.targets.Sorted) :
    log? (logJson log) = some log := by
  have given : fields? ["level", "format", "targets", "file"] (logJson log) = some [
      some (.string log.level), some (.string (formatName log.format)),
      some (.object (log.targets.map fun (name, level) => (name, .string level))),
      some (optionalJson log.file)] :=
    fields?_object rfl (by decide)
  rw [log?, given]
  simp only [Option.bind_eq_bind, Option.bind_some, orDefault?, string?, format?_formatName,
    table?_object sorted, optionalString?_optionalJson, Option.pure_def]

/-- A configuration is read back from its document, if its targets are sorted. -/
theorem ofJson?_toJson {config : Config} (sorted : config.log.targets.Sorted) :
    ofJson? config.toJson = some config := by
  have given : fields? ["root", "max_eval_depth", "journal", "languages", "log"] config.toJson =
      some [
        some (optionalJson config.root), some (.number (.natural config.maxDepth)),
        some (.bool config.journal), some (.array (config.languages.map languageJson)),
        some (logJson config.log)] :=
    fields?_object rfl (by decide)
  rw [ofJson?, given]
  simp only [Option.bind_eq_bind, Option.bind_some, orDefault?, optionalString?_optionalJson,
    count?, bool?, list?_array language?_languageJson, log?_logJson sorted, Option.pure_def]

/-! ### Texts -/

/-- A string or null can be read back from its text. -/
theorem optionalJson_isReadable (limit : Nat) (s : Option String) :
    (optionalJson s).IsReadable limit := by
  cases s with
  | none => exact .null limit
  | some s => exact .string limit s

/-- The extensions of a language can be read back from their text. -/
theorem languageJson_isReadable (limit : Nat) (language : LanguageConfig) :
    (languageJson language).IsReadable (limit + 2) := by
  refine .object (List.forall_mem_cons.2 ⟨.string _ _, List.forall_mem_singleton.2 (.array ?_)⟩)
  intro document mem
  obtain ⟨extension, -, rfl⟩ := List.mem_map.1 mem
  exact .string limit extension

/-- What is logged can be read back from its text. -/
theorem logJson_isReadable (limit : Nat) (log : LogConfig) :
    (logJson log).IsReadable (limit + 2) := by
  have targets : Json.IsReadable (limit + 1)
      (.object (log.targets.map fun (name, level) => (name, .string level))) := by
    refine .object fun member mem => ?_
    obtain ⟨entry, -, rfl⟩ := List.mem_map.1 mem
    exact .string limit entry.2
  exact .object (List.forall_mem_cons.2 ⟨.string _ _, List.forall_mem_cons.2 ⟨.string _ _,
    List.forall_mem_cons.2 ⟨targets,
      List.forall_mem_singleton.2 (optionalJson_isReadable _ log.file)⟩⟩⟩)

/-- A configuration can be read back from its text. -/
theorem toJson_isReadable (limit : Nat) (config : Config) :
    config.toJson.IsReadable (limit + 4) := by
  have languages : (Json.array (config.languages.map languageJson)).IsReadable (limit + 3) := by
    refine .array fun document mem => ?_
    obtain ⟨language, -, rfl⟩ := List.mem_map.1 mem
    exact languageJson_isReadable limit language
  exact .object (List.forall_mem_cons.2 ⟨optionalJson_isReadable _ _, List.forall_mem_cons.2
    ⟨.number _ (Json.Number.readsBack_natural _), List.forall_mem_cons.2 ⟨.bool _ _,
      List.forall_mem_cons.2 ⟨languages,
        List.forall_mem_singleton.2 (logJson_isReadable (limit + 1) config.log)⟩⟩⟩⟩)

/-- A configuration is read back from its text, if its targets are sorted. -/
theorem read?_render {config : Config} (sorted : config.log.targets.Sorted) :
    read? config.toJson.render = some config := by
  rw [read?, Json.read?_render (toJson_isReadable 123 config), Option.bind_some,
    ofJson?_toJson sorted]

/-! ### What is read -/

/-- A table that is read is sorted. -/
theorem sorted_of_table? {document : Json} {table : Fields String}
    (read : table? document = some table) : table.Sorted := by
  cases document with
  | object members =>
    obtain ⟨pairs, -, made⟩ := Option.bind_eq_some_iff.1 read
    obtain rfl : Fields.sorted pairs = table := Option.some.inj made
    exact Fields.sorted_isSorted pairs
  | _ => cases read

/-- A field that is read has what the default one and all documents have that are read. -/
theorem orDefault?_keeps {α : Type} (keeps : α → Prop) {default value : α}
    {read? : Json → Option α} {field : Option Json} (start : keeps default)
    (each : ∀ document value, read? document = some value → keeps value)
    (read : orDefault? default read? field = some value) : keeps value := by
  cases field with
  | none => exact Option.some.inj read ▸ start
  | some document => exact each document value read

/-- The targets of what is logged are sorted when they are read. -/
theorem sorted_of_log? {document : Json} {log : LogConfig} (read : log? document = some log) :
    log.targets.Sorted := by
  obtain ⟨given, -, made⟩ := Option.bind_eq_some_iff.1 read
  split at made
  · obtain ⟨level, -, made⟩ := Option.bind_eq_some_iff.1 made
    obtain ⟨format, -, made⟩ := Option.bind_eq_some_iff.1 made
    obtain ⟨targets, table, made⟩ := Option.bind_eq_some_iff.1 made
    obtain ⟨file, -, made⟩ := Option.bind_eq_some_iff.1 made
    obtain rfl := Option.some.inj made
    exact orDefault?_keeps Fields.Sorted Fields.sorted_nil (fun _ _ => sorted_of_table?) table
  · cases made

/-- The targets of a configuration are sorted when it is read. -/
theorem sorted_of_ofJson? {document : Json} {config : Config}
    (read : ofJson? document = some config) : config.log.targets.Sorted := by
  obtain ⟨given, -, made⟩ := Option.bind_eq_some_iff.1 read
  split at made
  · obtain ⟨root, -, made⟩ := Option.bind_eq_some_iff.1 made
    obtain ⟨maxDepth, -, made⟩ := Option.bind_eq_some_iff.1 made
    obtain ⟨journal, -, made⟩ := Option.bind_eq_some_iff.1 made
    obtain ⟨languages, -, made⟩ := Option.bind_eq_some_iff.1 made
    obtain ⟨log, logged, made⟩ := Option.bind_eq_some_iff.1 made
    obtain rfl := Option.some.inj made
    exact orDefault?_keeps (fun log : LogConfig => log.targets.Sorted) Fields.sorted_nil
      (fun _ _ => sorted_of_log?) logged
  · cases made

/-- A configuration outlives being written as JSON and read again. Every configuration whose
targets are sorted is read from its own text, whatever strings it has, with whatever depth,
languages and levels. Every configuration that is read from some text, which may leave out fields or
repeat targets, has sorted targets, and so it is read from its own text too. -/
theorem outlives_writing :
    (∀ config : Config, config.log.targets.Sorted →
      read? config.toJson.render = some config) ∧
    ∀ text config, read? text = some config →
      config.log.targets.Sorted ∧ read? config.toJson.render = some config := by
  refine ⟨fun config sorted => read?_render sorted, fun text config read => ?_⟩
  obtain ⟨document, -, made⟩ := Option.bind_eq_some_iff.1 read
  have sorted := sorted_of_ofJson? made
  exact ⟨sorted, read?_render sorted⟩

/-- A configuration with strings that need escapes, an empty language and the greatest depth. -/
def fullConfig : Config where
  root := some "C:\\demos \"3\"\n"
  maxDepth := 0xffffffffffffffff
  journal := true
  languages := [⟨"lisp", ["lsp", ".λ"]⟩, ⟨"", []⟩]
  log := {
    level := "loud"
    format := .json
    targets := [("", "off"), ("polyglot", "Trace"), ("polyglot::lisp", "")]
    file := some "" }

/-- A text that leaves out fields, gives what is logged by position and repeats a target. -/
def terseText : String :=
  " \x7b\"languages\":[[\"lisp\",[]]]," ++
    "\"log\":[\"warn\",\x7b\"compact\":null\x7d,\x7b\"b\":\"x\",\"a\":\"y\",\"b\":\"z\"\x7d]\x7d"

/-- What the text says. -/
def terseConfig : Config where
  languages := [⟨"lisp", []⟩]
  log := { level := "warn", format := .compact, targets := [("a", "y"), ("b", "z")] }

/-- Both configurations outlive being written. -/
theorem configs_outlive_writing :
    read? fullConfig.toJson.render = some fullConfig ∧
    read? terseText = some terseConfig ∧ terseConfig.log.targets.Sorted ∧
    read? terseConfig.toJson.render = some terseConfig := by
  obtain ⟨written, reread⟩ := outlives_writing
  have terse : read? terseText = some terseConfig := by decide +kernel
  exact ⟨written fullConfig (by decide), terse, reread terseText terseConfig terse⟩

end Interchange.Config
