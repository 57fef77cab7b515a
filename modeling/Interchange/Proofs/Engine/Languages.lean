import Interchange.Proofs.Engine.Refusals
import Mathlib.Data.List.TakeWhile

/-!
# Which language evaluates a file

A builder is told of languages and of further extensions for them in any order; the extensions are
given their languages at the end. So the tables of the engine come from two lists, of the languages
and of the further extensions, in the order in which they were named: under each name stands the
language that was registered last (`LanguageTable.find?_foldl_register`), and an extension leads
where it was last told to lead, or else to the language that was last registered with it
(`LanguageTable.foldlM_lead`). A file is evaluated in the language that its extension leads to
(`languages_found_by_extension`).
-/
namespace Interchange

/-- A call of a builder that has a say in which language evaluates a file. -/
inductive Builder.Setting where
  /-- To register a language. -/
  | language (language : Language)
  /-- To let an extension lead to a language. -/
  | extension (extension id : String)
  /-- To take over a configuration. -/
  | config (config : Config)

namespace Builder.Setting

/-- Do what the call asks for. -/
def apply (builder : Builder) : Setting → Builder
  | .language added => builder.language added
  | .extension dotted id => builder.extension dotted id
  | .config whole => builder.config whole

/-- The language that is registered. -/
def language? : Setting → Option Language
  | .language added => some added
  | .extension .. | .config _ => none

/-- The extensions that are to lead to languages, each with the name of its language. -/
def aliases : Setting → List (String × String)
  | .language _ => []
  | .extension dotted id => [(dotted, id)]
  | .config whole => whole.languages.flatMap fun language =>
    language.extensions.map fun extension => (extension, language.id)

end Builder.Setting

/-- A builder after one call after the other; everything that has no say in languages is set up as
in another builder. -/
def Builder.configured (others : Builder) (settings : List Setting) : Builder :=
  settings.foldl Setting.apply { others with languages := {}, aliases := [] }

/-! ### What was said last -/

namespace Language

/-- The language that was registered last under a name. -/
def lastNamed? (languages : List Language) (id : String) : Option Language :=
  languages.reverse.find? fun language => language.id = id

/-- The name of the language that was registered last with an extension. -/
def lastAnnouncing? (languages : List Language) (extension : String) : Option String :=
  (languages.reverse.find? fun language => extension ∈ language.extensions).map Language.id

/-- A language that is registered after others is the last of its name. -/
theorem lastNamed?_concat (languages : List Language) (language : Language) (id : String) :
    lastNamed? (languages ++ [language]) id =
      if language.id = id then some language else lastNamed? languages id := by
  rw [lastNamed?, List.reverse_append, List.reverse_singleton, List.singleton_append,
    List.find?_cons]
  by_cases same : language.id = id <;> simp [same, lastNamed?]

/-- A language that is registered after others is the last with its extensions. -/
theorem lastAnnouncing?_concat (languages : List Language) (language : Language)
    (extension : String) :
    lastAnnouncing? (languages ++ [language]) extension =
      if extension ∈ language.extensions then some language.id
      else lastAnnouncing? languages extension := by
  rw [lastAnnouncing?, List.reverse_append, List.reverse_singleton, List.singleton_append,
    List.find?_cons]
  by_cases announced : extension ∈ language.extensions <;> simp [announced, lastAnnouncing?]

/-- Under a name at least one language was registered if one was registered last. -/
theorem isSome_lastNamed?_iff {languages : List Language} {id : String} :
    (lastNamed? languages id).isSome ↔ ∃ language ∈ languages, language.id = id := by
  simp [lastNamed?]

/-- The language that was registered last under a name has it. -/
theorem id_of_lastNamed? {languages : List Language} {id : String} {language : Language}
    (last : lastNamed? languages id = some language) : language.id = id := by
  have named := List.find?_some last
  exact of_decide_eq_true named

/-- A language that was registered last with an extension was registered. -/
theorem isSome_lastNamed?_of_announcing {languages : List Language} {extension id : String}
    (announced : lastAnnouncing? languages extension = some id) :
    (lastNamed? languages id).isSome := by
  obtain ⟨language, found, rfl⟩ := Option.map_eq_some_iff.1 announced
  exact isSome_lastNamed?_iff.2
    ⟨language, List.mem_reverse.1 (List.mem_of_find?_eq_some found), rfl⟩

end Language

namespace LanguageTable

/-- An extension of files may be spelled with any number of dots in front of it. It has none at its
own beginning. -/
def Spells (spelled extension : String) : Prop :=
  (∃ dots, spelled.toList = List.replicate dots '.' ++ extension.toList) ∧
    extension.toList.head? ≠ some '.'

/-- A spelling is one of the extension that is left without the dots in front. -/
theorem bareExtension_eq_iff (spelled extension : String) :
    bareExtension spelled = extension ↔ Spells spelled extension := by
  constructor
  · rintro rfl
    simp only [Spells, bareExtension, String.toList_ofList]
    constructor
    · have dots : spelled.toList.takeWhile (· == '.') =
          List.replicate (spelled.toList.takeWhile (· == '.')).length '.' :=
        List.eq_replicate_iff.2 ⟨rfl, fun c mem => by simpa using List.mem_takeWhile_imp mem⟩
      refine ⟨(spelled.toList.takeWhile (· == '.')).length, ?_⟩
      rw [← dots, List.takeWhile_append_dropWhile]
    · intro dotted
      have stopped := List.head?_dropWhile_not (· == '.') spelled.toList
      rw [dotted] at stopped
      simp at stopped
  · rintro ⟨⟨dots, spelled⟩, bare⟩
    have dropped : (List.replicate dots '.').dropWhile (· == '.') = [] :=
      List.dropWhile_eq_nil_iff.2 fun c mem => by simpa using List.eq_of_mem_replicate mem
    have kept : extension.toList.dropWhile (· == '.') = extension.toList := by
      cases written : extension.toList with
      | nil => rfl
      | cons c rest =>
        rw [written] at bare
        exact List.dropWhile_cons_of_neg (by simpa using bare)
    rw [bareExtension, spelled, List.dropWhile_append, dropped]
    simp [kept]

/-- Whether it is can be computed. -/
instance (spelled extension : String) : Decidable (Spells spelled extension) :=
  decidable_of_iff _ (bareExtension_eq_iff spelled extension)

/-- The name that an extension was last told to lead to, however it was spelled. -/
def lastAlias? (aliases : List (String × String)) (extension : String) : Option String :=
  (aliases.reverse.find? fun entry => Spells entry.1 extension).map Prod.snd

/-- An extension leads where it was told last. -/
theorem lastAlias?_concat (aliases : List (String × String)) (entry : String × String)
    (extension : String) :
    lastAlias? (aliases ++ [entry]) extension =
      if Spells entry.1 extension then some entry.2 else lastAlias? aliases extension := by
  rw [lastAlias?, List.reverse_append, List.reverse_singleton, List.singleton_append,
    List.find?_cons]
  by_cases same : Spells entry.1 extension <;> simp [same, lastAlias?]

/-- An extension leads to the name of one of its aliases. -/
theorem mem_of_lastAlias? {aliases : List (String × String)} {extension id : String}
    (told : lastAlias? aliases extension = some id) : ∃ entry ∈ aliases, entry.2 = id := by
  obtain ⟨entry, found, rfl⟩ := Option.map_eq_some_iff.1 told
  exact ⟨entry, List.mem_reverse.1 (List.mem_of_find?_eq_some found), rfl⟩

/-! ### The tables of languages and extensions -/

/-- Under each name stands the language that was registered last. -/
theorem find?_foldl_register (languages : List Language) (id : String) :
    Fields.find? id (languages.foldl register {}).languages =
      Language.lastNamed? languages id := by
  induction languages using List.reverseRecOn with
  | nil => rfl
  | append_singleton languages language ih =>
    rw [List.foldl_append, List.foldl_cons, List.foldl_nil, Language.lastNamed?_concat, ← ih,
      register, Fields.find?_insert]
    simp only [eq_comm]

/-- Extensions of one language all lead to it, and others where they led before. -/
theorem find?_foldl_put (extensions : List String) (id extension : String)
    (fields : Fields String) :
    Fields.find? extension
        (extensions.foldl (fun fields extension => Fields.put extension id fields) fields) =
      if extension ∈ extensions then some id else Fields.find? extension fields := by
  induction extensions generalizing fields with
  | nil => rfl
  | cons first rest ih =>
    rw [List.foldl_cons, ih, Fields.find?_put]
    by_cases later : extension ∈ rest
    · simp [later]
    · simp [later]

/-- Before it is told anything else, an extension leads to the language that was last registered
with it. -/
theorem extensions_foldl_register (languages : List Language) (extension : String) :
    Fields.find? extension (languages.foldl register {}).extensions =
      Language.lastAnnouncing? languages extension := by
  induction languages using List.reverseRecOn with
  | nil => rfl
  | append_singleton languages language ih =>
    rw [List.foldl_append, List.foldl_cons, List.foldl_nil, Language.lastAnnouncing?_concat, ← ih,
      register, find?_foldl_put]

/-- An extension is led to a language that is there. -/
theorem lead_of_known {table : LanguageTable} {id : String} {language : Language}
    (known : table.get id = .ok language) (extension : String) :
    table.lead extension id = .ok { table with
      extensions := Fields.put (bareExtension extension) id table.extensions } := by
  rw [lead, known]
  rfl

/-- Extensions can be led to languages that are there, and then lead where they were told last, or
else where they led before. -/
theorem foldlM_lead {aliases : List (String × String)} {table : LanguageTable}
    (known : ∀ entry ∈ aliases, ∃ language, table.get entry.2 = .ok language) :
    ∃ after, aliases.foldlM (fun table entry => table.lead entry.1 entry.2) table = .ok after ∧
      after.languages = table.languages ∧
      ∀ extension, Fields.find? extension after.extensions =
        (lastAlias? aliases extension <|> Fields.find? extension table.extensions) := by
  induction aliases using List.reverseRecOn with
  | nil => exact ⟨table, rfl, rfl, fun extension => rfl⟩
  | append_singleton aliases entry ih =>
    obtain ⟨between, led, same, leads⟩ :=
      ih fun other mem => known other (List.mem_append_left _ mem)
    obtain ⟨language, there⟩ := known entry (List.mem_append_right _ List.mem_cons_self)
    have still : between.get entry.2 = .ok language := by
      rw [← there, get, get, same]
    refine ⟨{ between with
        extensions := Fields.put (bareExtension entry.1) entry.2 between.extensions }, ?_, same,
      fun extension => ?_⟩
    · rw [List.foldlM_append, led]
      exact (congrArg (· >>= pure) (lead_of_known still entry.1)).trans rfl
    · rw [Fields.find?_put, leads, lastAlias?_concat]
      by_cases last : Spells entry.1 extension
      · rw [if_pos ((bareExtension_eq_iff _ _).2 last).symm, if_pos last]
        rfl
      · have other : extension ≠ bareExtension entry.1 :=
          fun same => last ((bareExtension_eq_iff _ _).1 same.symm)
        rw [if_neg other, if_neg last]

/-- The first extension that is to lead to a language that is not there is refused. -/
theorem foldlM_lead_of_unknown {before after : List (String × String)} {entry : String × String}
    {table : LanguageTable}
    (known : ∀ other ∈ before, ∃ language, table.get other.2 = .ok language)
    (unknown : Fields.find? entry.2 table.languages = none) :
    (before ++ entry :: after).foldlM (fun table entry => table.lead entry.1 entry.2) table =
      .error (.unknownLanguage entry.2) := by
  obtain ⟨between, led, same, -⟩ := foldlM_lead known
  have refused : between.lead entry.1 entry.2 = .error (.unknownLanguage entry.2) := by
    rw [lead, get, same, unknown]
    rfl
  rw [List.foldlM_append, led]
  exact (congrArg (· >>= fun table =>
    after.foldlM (fun table entry => table.lead entry.1 entry.2) table) refused).trans rfl

/-- The language of a path is the one that its extension leads to. -/
theorem forPath_of_leads {table : LanguageTable} {path id : String} {language : Language}
    (leads : Fields.find? (SourcePath.fileExtension path) table.extensions = some id)
    (known : table.get id = .ok language) : table.forPath path = .ok language := by
  simp only [forPath, leads, Fault.orElse, bind, Except.bind, known]

/-- A path whose extension leads nowhere has no language. -/
theorem forPath_of_leads_nowhere {table : LanguageTable} {path : String}
    (nowhere : Fields.find? (SourcePath.fileExtension path) table.extensions = none) :
    table.forPath path = .error (.unknownLanguage ("." ++ SourcePath.fileExtension path)) := by
  simp only [forPath, nowhere, Fault.orElse, bind, Except.bind]

end LanguageTable

/-! ### Building the engine -/

namespace Builder

open LanguageTable

/-- The name of the language that files with an extension are evaluated in after calls of a builder:
the last alias of the extension gives it, or else the last language that was registered with the
extension. -/
def detected? (settings : List Setting) (extension : String) : Option String :=
  lastAlias? (settings.flatMap Setting.aliases) extension <|>
    Language.lastAnnouncing? (settings.filterMap Setting.language?) extension

/-- An alias is to lead to a name under which no call registers a language. -/
def Dangles (settings : List Setting) (entry : String × String) : Prop :=
  ∀ language ∈ settings.filterMap Setting.language?, language.id ≠ entry.2

/-- Whether an alias is to lead nowhere can be computed. -/
instance (settings : List Setting) (entry : String × String) : Decidable (Dangles settings entry) :=
  inferInstanceAs (Decidable (∀ language ∈ settings.filterMap Setting.language?,
    language.id ≠ entry.2))

/-- Calls one after the other register their languages. -/
theorem languages_foldl_apply (settings : List Setting) (builder : Builder) :
    (settings.foldl Setting.apply builder).languages =
      (settings.filterMap Setting.language?).foldl register builder.languages := by
  induction settings generalizing builder with
  | nil => rfl
  | cons setting rest ih => cases setting <;> exact ih _

/-- Calls one after the other keep their aliases for the end. -/
theorem aliases_foldl_apply (settings : List Setting) (builder : Builder) :
    (settings.foldl Setting.apply builder).aliases =
      builder.aliases ++ settings.flatMap Setting.aliases := by
  induction settings generalizing builder with
  | nil => exact (List.append_nil _).symm
  | cons setting rest ih =>
    have kept : (setting.apply builder).aliases = builder.aliases ++ setting.aliases := by
      cases setting with
      | language added => exact (List.append_nil _).symm
      | extension dotted id => rfl
      | config whole => rfl
    rw [List.foldl_cons, ih, kept, List.append_assoc, List.flatMap_cons]

variable (others : Builder) (settings : List Setting)

/-- A language is known under a name if it was registered last under it. -/
theorem get_configured {id : String} {language : Language} :
    (others.configured settings).languages.get id = .ok language ↔
      Language.lastNamed? (settings.filterMap Setting.language?) id = some language := by
  rw [LanguageTable.get, configured, languages_foldl_apply, find?_foldl_register,
    Fault.orElse_ok_iff]

/-- An engine is not built if an extension is refused. -/
theorem build_of_refused {builder : Builder} {fault : Fault}
    (refused : builder.aliases.foldlM (fun table entry => table.lead entry.1 entry.2)
      builder.languages = .error fault) (disk : Disk) : builder.build disk = .error fault := by
  rw [build, Outcome.bind_error_iff]
  exact .inl refused

/-- An alias that does not dangle leads to a language that is known. -/
theorem get_of_not_dangles {entry : String × String} (registered : ¬ Dangles settings entry) :
    ∃ language, (others.configured settings).languages.get entry.2 = .ok language := by
  simp only [Dangles, not_forall, ne_eq, not_not, exists_prop] at registered
  obtain ⟨language, last⟩ :=
    Option.isSome_iff_exists.1 (Language.isSome_lastNamed?_iff.2 registered)
  exact ⟨language, (get_configured others settings).2 last⟩

/-- The aliases of a builder are those of the calls. -/
theorem aliases_configured :
    (others.configured settings).aliases = settings.flatMap Setting.aliases := by
  rw [configured, aliases_foldl_apply, List.nil_append]

/-- The first alias that dangles is refused. -/
theorem build_of_dangling {entry : String × String}
    (first : (settings.flatMap Setting.aliases).find? (Dangles settings ·) = some entry)
    (disk : Disk) :
    (others.configured settings).build disk = .error (.unknownLanguage entry.2) := by
  obtain ⟨dangles, before, after, split, known⟩ := List.find?_eq_some_iff_append.1 first
  have dangles := of_decide_eq_true dangles
  apply build_of_refused
  rw [aliases_configured, split]
  refine foldlM_lead_of_unknown (fun other mem => ?_) ?_
  · have registered := known other mem
    rw [Bool.not_eq_true', decide_eq_false_iff_not] at registered
    exact get_of_not_dangles others settings registered
  · rw [configured, languages_foldl_apply, find?_foldl_register, ← Option.not_isSome_iff_eq_none,
      Language.isSome_lastNamed?_iff]
    rintro ⟨language, mem, same⟩
    exact dangles language mem same

/-- Where no alias dangles, an engine is built. Its languages are those registered last, and its
extensions lead where they were told last, or else to the language that was last registered with
them. -/
theorem build_of_registered
    (registered : ∀ entry ∈ settings.flatMap Setting.aliases, ¬ Dangles settings entry)
    (disk : Disk) :
    ∃ engine, (others.configured settings).build disk = .ok engine ∧
      (∀ id language, engine.languages.get id = .ok language ↔
        Language.lastNamed? (settings.filterMap Setting.language?) id = some language) ∧
      ∀ extension,
        Fields.find? extension engine.languages.extensions = detected? settings extension := by
  obtain ⟨table, led, same, leads⟩ := foldlM_lead fun entry mem =>
    get_of_not_dangles others settings (registered entry mem)
  rw [← aliases_configured others] at led
  refine ⟨_, build_ok_iff.2 ⟨table, led, rfl⟩, fun id language => ?_, fun extension => ?_⟩
  · rw [← get_configured others settings, LanguageTable.get, LanguageTable.get, same]
  · rw [leads, configured, languages_foldl_apply, extensions_foldl_register, detected?]

/-- An engine is not built exactly if an alias dangles. -/
theorem build_fails_iff (disk : Disk) :
    (∃ fault, (others.configured settings).build disk = .error fault) ↔
      ∃ entry ∈ settings.flatMap Setting.aliases, Dangles settings entry := by
  constructor
  · rintro ⟨fault, failed⟩
    by_contra registered
    obtain ⟨engine, built, -⟩ := others.build_of_registered settings
      (fun entry mem dangles => registered ⟨entry, mem, dangles⟩) disk
    rw [failed] at built
    cases built
  · rintro ⟨entry, mem, dangles⟩
    have some : ((settings.flatMap Setting.aliases).find? (Dangles settings ·)).isSome :=
      List.find?_isSome.2 ⟨entry, mem, decide_eq_true dangles⟩
    obtain ⟨first, found⟩ := Option.isSome_iff_exists.1 some
    exact ⟨_, others.build_of_dangling settings found disk⟩

/-- The name that a file's extension leads to is that of a registered language if no alias
dangles. -/
theorem lastNamed?_of_detected?
    (registered : ∀ entry ∈ settings.flatMap Setting.aliases, ¬ Dangles settings entry)
    {extension id : String} (detected : detected? settings extension = some id) :
    ∃ language,
      Language.lastNamed? (settings.filterMap Setting.language?) id = some language := by
  rw [← Option.isSome_iff_exists]
  cases told : lastAlias? (settings.flatMap Setting.aliases) extension with
  | none =>
    rw [detected?, told] at detected
    exact Language.isSome_lastNamed?_of_announcing detected
  | some other =>
    rw [detected?, told] at detected
    obtain rfl : other = id := Option.some.inj detected
    obtain ⟨entry, mem, rfl⟩ := mem_of_lastAlias? told
    have named := registered entry mem
    simp only [Dangles, not_forall, ne_eq, not_not, exists_prop] at named
    exact Language.isSome_lastNamed?_iff.2 named

end Builder

namespace Engine

variable {run : Runner} {world : World} {caller : ContextId} {id path : String}
  {language : Language}

/-- Evaluating a source in a language that is known does not fail for want of a language. -/
theorem evalAt_ne_unknown (known : world.engine.languages.get id = .ok language)
    (line : Option Nat) (name : String) (after : World) :
    evalAt run caller id path line world ≠ some (.error (.unknownLanguage name), after) := by
  rw [evalAt_eq]
  intro failed
  cases loaded : world.engine.loader.load
      (SourcePath.resolve (world.engine.contexts.sourceOf caller) path) with
  | error fault =>
    obtain ⟨place, cause, rfl⟩ := Loader.load_error loaded
    simp only [respondEval, known, loaded, Reply.complete] at failed
    cases failed
  | ok text =>
    simp only [respondEval, known, loaded] at failed
    cases below : world.engine.contexts.depthBelow (some caller) with
    | error fault =>
      obtain ⟨parent, rfl⟩ := ContextTree.depthBelow_error below
      rw [respondBelow_of_nowhere known below] at failed
      cases failed
    | ok depth =>
      rw [respondBelow_of_known known below] at failed
      split at failed
      · split at failed
        · cases failed
        · obtain ⟨⟨⟨session, outcome⟩, left⟩, -, concluded⟩ := Option.map_eq_some_iff.1 failed
          cases outcome <;> cases concluded
      · cases failed

end Engine

/-- A file is evaluated for the host in a language that goes by a name: if its source is there, its
context does not lie too deep, and there is a number left for it, the language evaluates the source
in a new context. -/
structure World.EvaluatesFile (run : Runner) (world : World) (path id : String)
    (language : Language) : Prop where
  /-- The source is evaluated under the name. -/
  asked : Engine.evalFile run path world = Engine.evalAt run .host id path none world
  /-- The language does so. -/
  evaluated : ∀ text depth,
    world.engine.loader.load (SourcePath.resolve (world.engine.contexts.sourceOf .host) path) =
      .ok text →
    world.engine.contexts.depthBelow (some .host) = .ok depth → depth ≤ world.engine.maxDepth →
    world.engine.contexts.count < ContextTree.capacity →
    Engine.evalFile run path world =
      (Reply.after ⟨world.engine.contexts.count⟩
        (language.session.evaluate ⟨⟨world.engine.contexts.count⟩, id,
          SourcePath.resolve (world.engine.contexts.sourceOf .host) path⟩ text)
        (world.withContexts (world.engine.contexts.add (.running
          ⟨world.engine.contexts.count⟩ .host id
            (SourcePath.resolve (world.engine.contexts.sourceOf .host) path) depth)))
        (.naming ⟨world.engine.contexts.count⟩ (.finishing ⟨world.engine.contexts.count⟩
          ⟨id, SourcePath.resolve (world.engine.contexts.sourceOf .host) path, text⟩))).complete run

/-- A file is evaluated in the language that its extension leads to. -/
theorem World.EvaluatesFile.of_leads {world : World} {path id : String} {language : Language}
    (leads : Fields.find? (SourcePath.fileExtension path) world.engine.languages.extensions =
      some id)
    (known : world.engine.languages.get id = .ok language) (named : language.id = id)
    (run : Runner) : world.EvaluatesFile run path id language := by
  have asked : Engine.evalFile run path world = Engine.evalAt run .host id path none world := by
    rw [Engine.evalFile, LanguageTable.forPath_of_leads leads known]
    exact congrArg (fun name => Engine.evalAt run .host name path none world) named
  refine ⟨asked, fun text depth loaded below deep room => ?_⟩
  rw [asked, Engine.evalAt_eq]
  simp only [Engine.respondEval, known, loaded]
  rw [Engine.respondBelow_of_known known below, if_pos room, if_neg (Nat.not_lt.2 deep)]

/-- Calls of a builder, in any order, make files be evaluated in the language that their extension
was last told to lead to, or else in the one that was last registered with it, and always by what
was last registered under the language's name. An engine is built unless an extension is told to
lead to a name under which no call registers a language, and the first such name is refused. A file
is refused for want of a language only if its extension leads nowhere; no extension leads to a
language that is not there. -/
theorem languages_found_by_extension (others : Builder) (settings : List Builder.Setting)
    (disk : Disk) :
    ((∃ fault, (others.configured settings).build disk = .error fault) ↔
      ∃ entry ∈ settings.flatMap Builder.Setting.aliases, Builder.Dangles settings entry) ∧
    (∀ entry,
      (settings.flatMap Builder.Setting.aliases).find? (Builder.Dangles settings ·) = some entry →
      (others.configured settings).build disk = .error (.unknownLanguage entry.2)) ∧
    ∀ engine, (others.configured settings).build disk = .ok engine →
      (∀ extension id, Fields.find? extension engine.languages.extensions = some id →
        ∃ language, engine.languages.get id = .ok language) ∧
      ∀ (run : Runner) (world : World) (path : String),
        world.engine.languages = engine.languages →
        (∀ id, Builder.detected? settings (SourcePath.fileExtension path) = some id →
          ∃ language,
            Language.lastNamed? (settings.filterMap Builder.Setting.language?) id =
              some language ∧
            world.EvaluatesFile run path id language) ∧
        (Builder.detected? settings (SourcePath.fileExtension path) = none →
          Engine.evalFile run path world =
            some (.error (.unknownLanguage ("." ++ SourcePath.fileExtension path)), world)) ∧
        ((∃ name after, Engine.evalFile run path world =
            some (.error (.unknownLanguage name), after)) ↔
          Builder.detected? settings (SourcePath.fileExtension path) = none) := by
  refine ⟨others.build_fails_iff settings disk,
    fun entry first => others.build_of_dangling settings first disk, fun engine built => ?_⟩
  have registered : ∀ entry ∈ settings.flatMap Builder.Setting.aliases,
      ¬ Builder.Dangles settings entry := by
    intro entry mem dangles
    obtain ⟨fault, failed⟩ := (others.build_fails_iff settings disk).2 ⟨entry, mem, dangles⟩
    rw [built] at failed
    cases failed
  obtain ⟨other, again, implements, leads⟩ := others.build_of_registered settings registered disk
  obtain rfl : engine = other := Except.ok.inj (built.symm.trans again)
  refine ⟨fun extension id led => ?_, fun run world path same => ?_⟩
  · rw [leads] at led
    obtain ⟨language, last⟩ := Builder.lastNamed?_of_detected? settings registered led
    exact ⟨language, (implements id language).2 last⟩
  have evaluated {id : String}
      (detected : Builder.detected? settings (SourcePath.fileExtension path) = some id) :
      ∃ language,
        Language.lastNamed? (settings.filterMap Builder.Setting.language?) id = some language ∧
        world.EvaluatesFile run path id language := by
    obtain ⟨language, last⟩ := Builder.lastNamed?_of_detected? settings registered detected
    refine ⟨language, last, .of_leads ?_ ?_ (Language.id_of_lastNamed? last) run⟩
    · rw [same, leads, detected]
    · rw [same, implements, last]
  have unknown (nowhere : Builder.detected? settings (SourcePath.fileExtension path) = none) :
      Engine.evalFile run path world =
        some (.error (.unknownLanguage ("." ++ SourcePath.fileExtension path)), world) := by
    rw [Engine.evalFile, LanguageTable.forPath_of_leads_nowhere (by rw [same, leads, nowhere])]
  refine ⟨fun id => evaluated, unknown, ?_, fun nowhere => ⟨_, _, unknown nowhere⟩⟩
  rintro ⟨name, after, failed⟩
  cases detected : Builder.detected? settings (SourcePath.fileExtension path) with
  | none => rfl
  | some id =>
    obtain ⟨language, last, file⟩ := evaluated detected
    have known : world.engine.languages.get id = .ok language := by rw [same, implements, last]
    rw [file.asked] at failed
    exact absurd failed (Engine.evalAt_ne_unknown known none name after)

/-- An extension that is led twice, and a language that takes the place of another. -/
def Builder.overridingSettings : List Builder.Setting :=
  [.extension ".txt" "lisp", .language .forms,
    .config { languages := [⟨"jsonscript", ["..txt", ".md"]⟩] }, .language .statements,
    .language (.probe "lisp")]

/-- Files are evaluated in the language that their extension was led to last, with or without dots
in front of it, and by what took the place of the form language. -/
theorem files_led_to_last_languages :
    ∃ engine, (({} : Builder).configured Builder.overridingSettings).build
        ⟨fun _ => .error .notFound, fun _ => false⟩ = .ok engine ∧
      ∀ run : Runner,
        World.EvaluatesFile run { engine } "notes.txt" "jsonscript" .statements ∧
        World.EvaluatesFile run { engine } "README.md" "jsonscript" .statements ∧
        World.EvaluatesFile run { engine } "a/main.scm" "lisp" (.probe "lisp") ∧
        Engine.evalFile run "main.rs" { engine } =
          some (.error (.unknownLanguage ".rs"), { engine }) := by
  obtain ⟨fails, -, built⟩ :=
    languages_found_by_extension {} Builder.overridingSettings
      ⟨fun _ => .error .notFound, fun _ => false⟩
  cases made : (({} : Builder).configured Builder.overridingSettings).build
      ⟨fun _ => .error .notFound, fun _ => false⟩ with
  | error fault => exact absurd (fails.1 ⟨fault, made⟩) (by decide)
  | ok engine =>
    obtain ⟨-, files⟩ := built engine made
    refine ⟨engine, rfl, fun run => ⟨?_, ?_, ?_, ?_⟩⟩
    · obtain ⟨language, last, given⟩ :=
        (files run { engine } "notes.txt" rfl).1 "jsonscript" (by decide)
      obtain rfl : Language.statements = language := Option.some.inj last
      exact given
    · obtain ⟨language, last, given⟩ :=
        (files run { engine } "README.md" rfl).1 "jsonscript" (by decide)
      obtain rfl : Language.statements = language := Option.some.inj last
      exact given
    · obtain ⟨language, last, given⟩ :=
        (files run { engine } "a/main.scm" rfl).1 "lisp" (by decide)
      obtain rfl : Language.probe "lisp" = language := Option.some.inj last
      exact given
    · exact (files run { engine } "main.rs" rfl).2.1 (by decide)

end Interchange
