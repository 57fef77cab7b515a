import Interchange.Fault
import Interchange.Fields
import Interchange.Json.Reader
import Interchange.LogLevel

/-!
# Configuration

What a configuration file can say, and how it is read from JSON and written back. A structure
is an object with known names, none of them twice, or an array of its fields in order. Fields
that are left out take the values of the default configuration, except that a language entry
needs both of its fields.
-/
namespace Interchange

/-- File extensions of a language. -/
structure LanguageConfig where
  /-- The name of the language. -/
  id : String
  /-- The extensions its files have. -/
  extensions : List String
  deriving DecidableEq

/-- The style of log lines. -/
inductive LogFormat where
  /-- Several lines for each entry. -/
  | pretty
  /-- One line for each entry. -/
  | compact
  /-- One JSON object for each entry. -/
  | json
  deriving DecidableEq

/-- What is logged, where and how. -/
structure LogConfig where
  /-- The level of everything without a level of its own. -/
  level : String := "info"
  /-- The style of log lines. -/
  format : LogFormat := .pretty
  /-- Levels of single targets, sorted by target. -/
  targets : Fields String := []
  /-- A file that log lines are appended to. -/
  file : Option String := none
  deriving DecidableEq

/-- A whole configuration. -/
structure Config where
  /-- The directory that relative source paths start from. -/
  root : Option String := none
  /-- How deep evaluations may be nested. -/
  maxDepth : UInt64 := 64
  /-- Whether exports and imports are recorded. -/
  journal : Bool := false
  /-- File extensions of languages. -/
  languages : List LanguageConfig := []
  /-- What is logged. -/
  log : LogConfig := {}
  deriving DecidableEq

namespace Config

/-- The fields of a structure in the order of their names, from an object or an array; a field
that is left out is `none`. -/
def fields? (names : List String) : Json → Option (List (Option Json))
  | .object members =>
    if (Fields.names members).all names.contains ∧ (Fields.names members).Nodup then
      some (names.map fun name => Fields.find? name members)
    else none
  | .array items =>
    if items.length ≤ names.length then
      some (items.map some ++ List.replicate (names.length - items.length) none)
    else none
  | _ => none

/-- Read a field that may be left out. -/
def orDefault? {α : Type} (default : α) (read? : Json → Option α) : Option Json → Option α
  | none => some default
  | some document => read? document

/-- Read a string. -/
def string? : Json → Option String
  | .string s => some s
  | _ => none

/-- Read a string or null. -/
def optionalString? : Json → Option (Option String)
  | .null => some none
  | .string s => some (some s)
  | _ => none

/-- Read a truth value. -/
def bool? : Json → Option Bool
  | .bool b => some b
  | _ => none

/-- Read a number of the unsigned word. -/
def count? : Json → Option UInt64
  | .number (.natural n) => some n
  | _ => none

/-- Read an array, item by item. -/
def list? {α : Type} (read? : Json → Option α) : Json → Option (List α)
  | .array items => items.mapM read?
  | _ => none

/-- Read an object of strings; of a repeated name the last member counts. -/
def table? : Json → Option (Fields String)
  | .object members => do
    let pairs ← members.mapM fun (name, member) => (string? member).map (name, ·)
    return Fields.sorted pairs
  | _ => none

/-- The style with a name. -/
def formatNamed? : String → Option LogFormat
  | "pretty" => some .pretty
  | "compact" => some .compact
  | "json" => some .json
  | _ => none

/-- Read a style: its name, or an object with its name for null. -/
def format? : Json → Option LogFormat
  | .string name => formatNamed? name
  | .object [(name, .null)] => formatNamed? name
  | _ => none

/-- Read the extensions of a language. -/
def language? (document : Json) : Option LanguageConfig := do
  match ← fields? ["id", "extensions"] document with
  | [some id, some extensions] =>
    return ⟨← string? id, ← list? string? extensions⟩
  | _ => none

/-- Read what is logged. -/
def log? (document : Json) : Option LogConfig := do
  match ← fields? ["level", "format", "targets", "file"] document with
  | [level, format, targets, file] =>
    return { level := ← orDefault? "info" string? level,
             format := ← orDefault? .pretty format? format,
             targets := ← orDefault? [] table? targets,
             file := ← orDefault? none optionalString? file }
  | _ => none

/-- Read a configuration from its document. -/
def ofJson? (document : Json) : Option Config := do
  match ← fields? ["root", "max_eval_depth", "journal", "languages", "log"] document with
  | [root, maxDepth, journal, languages, log] =>
    return { root := ← orDefault? none optionalString? root,
             maxDepth := ← orDefault? 64 count? maxDepth,
             journal := ← orDefault? false bool? journal,
             languages := ← orDefault? [] (list? language?) languages,
             log := ← orDefault? {} log? log }
  | _ => none

/-- Read a configuration from a text. -/
def read? (text : String) : Option Config := (Json.read? text.toList).bind ofJson?

/-- A string or null. -/
def optionalJson : Option String → Json
  | none => .null
  | some s => .string s

/-- The name of a style. -/
def formatName : LogFormat → String
  | .pretty => "pretty"
  | .compact => "compact"
  | .json => "json"

/-- The document of the extensions of a language. -/
def languageJson (language : LanguageConfig) : Json :=
  .object [("id", .string language.id), ("extensions", .array (language.extensions.map .string))]

/-- The document of what is logged. -/
def logJson (log : LogConfig) : Json :=
  .object [
    ("level", .string log.level),
    ("format", .string (formatName log.format)),
    ("targets", .object (log.targets.map fun (name, level) => (name, .string level))),
    ("file", optionalJson log.file)]

/-- The document of a configuration. -/
def toJson (config : Config) : Json :=
  .object [
    ("root", optionalJson config.root),
    ("max_eval_depth", .number (.natural config.maxDepth)),
    ("journal", .bool config.journal),
    ("languages", .array (config.languages.map languageJson)),
    ("log", logJson config.log)]

end Config

/-- Why a configuration cannot be used. -/
inductive ConfigFault where
  /-- The file cannot be read. -/
  | unreadable (path : String) (cause : IoFault)
  /-- The text is not a configuration. -/
  | invalid
  /-- No log level has that name. -/
  | invalidLevel (text : String)
  deriving DecidableEq

/-- The wording of a configuration fault. -/
def ConfigFault.message : ConfigFault → String
  | unreadable path _ => "cannot read config `" ++ path ++ "`"
  | invalid => "invalid config"
  | invalidLevel text => "invalid log level `" ++ text ++ "`"

namespace LogConfig

/-- The level that a text names. -/
def levelOf (text : String) : Except ConfigFault LogLevel :=
  match LogLevel.read? text with
  | some level => .ok level
  | none => .error (.invalidLevel text)

/-- The level of everything without a level of its own. -/
def globalLevel (log : LogConfig) : Except ConfigFault LogLevel := levelOf log.level

/-- The level of a target: its own if it has one. -/
def levelFor (log : LogConfig) (target : String) : Except ConfigFault LogLevel :=
  match Fields.find? target log.targets with
  | some level => levelOf level
  | none => log.globalLevel

end LogConfig

end Interchange
