import Interchange.Forms.Evaluation
import Interchange.Probe
import Interchange.SourcePath
import Interchange.Statements.Statement

/-!
# Sessions and languages

A session is what a context keeps between two units: the locals of its language. A language is
a name, the file extensions that announce it, and the session its contexts begin with. The two
bundled languages and the probe are all that there are; a language that a host would bring along has
no place here.
-/
namespace Interchange

/-- The state of a context in its language. -/
inductive Session where
  /-- The locals of the form language. -/
  | forms (locals : Fields Forms.Datum)
  /-- The locals of the statement language. -/
  | statements (locals : Fields Statements.Item)
  /-- The probe language keeps nothing. -/
  | probe
  deriving Inhabited

namespace Session

/-- Evaluate a text: the session it leaves, and whether it came to its end. -/
def evaluate (scope : Scope) (text : String) :
    Session → Program (Session × Except Fault Unit)
  | forms locals => do
    let (locals, result) ← Forms.evaluate locals text
    return (forms locals, result)
  | statements locals => do
    let (locals, result) ← Statements.evaluate locals text
    return (statements locals, result)
  | probe => do
    let result ← Probe.evaluate scope text
    return (probe, result)

/-- The names of the locals, sorted. -/
def localNames : Session → List String
  | forms locals => Fields.names locals
  | statements locals => Fields.names locals
  | probe => []

/-- The written form of a local. -/
def writtenLocal? (name : String) : Session → Option String
  | forms locals => (locals.find? name).map Forms.Datum.written
  | statements locals => (locals.find? name).map Statements.Item.written
  | probe => none

end Session

/-- A guest language. -/
structure Language where
  /-- The name it is registered under. -/
  id : String
  /-- The file extensions that announce it. -/
  extensions : List String
  /-- What a new context begins with. -/
  session : Session

namespace Language

/-- The form language. -/
def forms : Language := ⟨Forms.languageName, ["lisp", "scm"], .forms []⟩

/-- The statement language. -/
def statements : Language := ⟨Statements.languageName, ["jss"], .statements []⟩

/-- The probe language under a name. -/
def probe (id : String) : Language := ⟨id, ["probe", "lisp"], .probe⟩

end Language

/-- The languages an engine knows, and the extensions that lead to them. -/
structure LanguageTable where
  /-- The languages by name, sorted. -/
  languages : Fields Language := []
  /-- The name of the language of each extension. -/
  extensions : Fields String := []

namespace LanguageTable

/-- Register a language; it takes the place of an earlier one of its name, and its extensions
lead to it from now on. -/
def register (table : LanguageTable) (language : Language) : LanguageTable where
  languages := Fields.insert language.id language table.languages
  extensions := language.extensions.foldl
    (fun extensions extension => Fields.put extension language.id extensions) table.extensions

/-- The language of a name. -/
def get (table : LanguageTable) (id : String) : Except Fault Language :=
  Fault.orElse (.unknownLanguage id) (Fields.find? id table.languages)

/-- An extension without the dots in front of it. -/
def bareExtension (extension : String) : String :=
  String.ofList (extension.toList.dropWhile (· == '.'))

/-- Let an extension lead to a language that is registered. -/
def lead (table : LanguageTable) (extension id : String) : Except Fault LanguageTable := do
  let _ ← table.get id
  return { table with extensions := Fields.put (bareExtension extension) id table.extensions }

/-- The language that the extension of a path leads to. -/
def forPath (table : LanguageTable) (path : String) : Except Fault Language := do
  let extension := SourcePath.fileExtension path
  let id ← Fault.orElse (.unknownLanguage ("." ++ extension))
    (Fields.find? extension table.extensions)
  table.get id

/-- The names of all languages, sorted. -/
def ids (table : LanguageTable) : List String := Fields.names table.languages

end LanguageTable

end Interchange
