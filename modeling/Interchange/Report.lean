import Interchange.Context.Id

/-!
# Reports on an exchange

A journal lists every export and import in order. A report is read off a finished journal and
the sources that could not be found: imports of unbound names and missing sources are errors,
overwritten exports are warnings, and exports that nobody imported are remarks. Errors come
first and remarks last.
-/
namespace Interchange

/-- One exchange through the registry. -/
inductive Event where
  /-- A name was bound; `overwrote` is the origin of the binding it replaced and
  `deferred` tells whether a computation was bound instead of a value. -/
  | exported (name : String) (context : ContextId) (overwrote : Option ContextId) (deferred : Bool)
    (line : Option Nat)
  /-- A name was looked up; `resolved` tells whether it was bound. -/
  | imported (name : String) (context : ContextId) (resolved : Bool) (line : Option Nat)
  deriving DecidableEq

/-- A source that could not be loaded. -/
structure MissingSource where
  /-- The context that asked for the source. -/
  context : ContextId
  /-- The path as resolved against the source of that context. -/
  path : String
  /-- The line of the statement that asked for it. -/
  line : Option Nat
  deriving DecidableEq

/-- How much a finding matters. -/
inductive Severity where
  /-- Something was asked for and not there. -/
  | error
  /-- Something was lost. -/
  | warning
  /-- Something was left unused. -/
  | info
  deriving DecidableEq

/-- The word for a severity. -/
def Severity.word : Severity → String
  | .error => "error"
  | .warning => "warning"
  | .info => "info"

/-- The place of a severity in a report. -/
def Severity.rank : Severity → Nat
  | .error => 0
  | .warning => 1
  | .info => 2

/-- What a finding is about. -/
inductive Category where
  /-- The names bound and looked up. -/
  | exchange
  /-- A source to be loaded. -/
  | missingFile
  deriving DecidableEq

/-- The word for a category. -/
def Category.word : Category → String
  | .exchange => "import-export"
  | .missingFile => "file-not-found"

/-- One entry of a report. -/
structure Finding where
  /-- How much it matters. -/
  severity : Severity
  /-- What it is about. -/
  category : Category
  /-- The context concerned. -/
  context : ContextId
  /-- The line of the statement concerned. -/
  line : Option Nat
  /-- The name or path concerned. -/
  subject : String
  /-- The finding in words. -/
  message : String
  deriving DecidableEq

/-- Whether a finding matters at least as much as another one. -/
def Finding.precedes (finding other : Finding) : Bool :=
  finding.severity.rank ≤ other.severity.rank

/-- The line of text that shows a finding. -/
def Finding.written (finding : Finding) : String :=
  finding.severity.word ++ "[" ++ finding.category.word ++ "] " ++ finding.context.label ++
    (match finding.line with
      | some line => " line " ++ line.repr
      | none => "") ++
    ": " ++ finding.message

/-- Findings in the order in which they are shown. -/
structure Report where
  /-- Errors first, then warnings, then remarks. -/
  findings : List Finding

namespace Report

/-- A name between backquotes. -/
def named (name : String) : String := "`" ++ name ++ "`"

/-- Whether a name is bound by one of the events. -/
def isExported (name : String) (events : List Event) : Bool :=
  events.any fun
    | .exported other .. => other == name
    | .imported .. => false

/-- Whether an import found the name bound in one of the events. -/
def isUsed (name : String) (events : List Event) : Bool :=
  events.any fun
    | .imported other _ resolved _ => resolved && other == name
    | .exported .. => false

/-- The first import of each unbound name by each context; `reported` are the pairs already
told. What comes after an event decides whether the name was exported later. -/
def unresolvedImports (reported : List (String × ContextId)) : List Event → List Finding
  | [] => []
  | .imported name context false line :: later =>
    if (name, context) ∈ reported then unresolvedImports reported later
    else
      { severity := .error, category := .exchange, context, line, subject := name,
        message := named name ++
          (if isExported name later then " was imported before it was exported"
           else " was imported but never exported") } ::
      unresolvedImports ((name, context) :: reported) later
  | _ :: later => unresolvedImports reported later

/-- The warning of an export that replaced a binding. -/
def overwrite? : Event → Option Finding
  | .exported name context (some previous) _ line =>
    some { severity := .warning, category := .exchange, context, line, subject := name,
           message := named name ++ " exported by " ++ previous.label ++ " was overwritten" }
  | _ => none

/-- The last export of each name that no import found bound, the latest first. The events are
given backwards; `told` are the names already told. -/
def unusedExports (events : List Event) (told : List String) : List Event → List Finding
  | [] => []
  | .exported name context _ _ line :: earlier =>
    if isUsed name events ∨ name ∈ told then unusedExports events told earlier
    else
      { severity := .info, category := .exchange, context, line, subject := name,
        message := named name ++ " was exported but never imported" } ::
      unusedExports events (name :: told) earlier
  | _ :: earlier => unusedExports events told earlier

/-- The error of a source that could not be loaded. -/
def missingFile (missing : MissingSource) : Finding :=
  { severity := .error, category := .missingFile, context := missing.context,
    line := missing.line, subject := missing.path, message := "file not found: " ++ missing.path }

/-- The findings on a journal and the sources that could not be loaded, one pass after the other. -/
def collected (events : List Event) (missing : List MissingSource) : List Finding :=
  unresolvedImports [] events ++ events.filterMap overwrite? ++
    unusedExports events [] events.reverse ++ missing.map missingFile

/-- The report on a journal and the sources that could not be loaded. Findings of one severity stay
in the order in which they were collected. -/
def ofEvents (events : List Event) (missing : List MissingSource) : Report :=
  ⟨(collected events missing).mergeSort Finding.precedes⟩

/-- The findings that are errors. -/
def errors (report : Report) : List Finding :=
  report.findings.filter fun finding => finding.severity = .error

/-- Whether anything was asked for and not there. -/
def hasErrors (report : Report) : Bool := !report.errors.isEmpty

/-- Whether there is nothing to tell. -/
def isEmpty (report : Report) : Bool := report.findings.isEmpty

/-- The findings about a name or path. -/
def about (report : Report) (subject : String) : List Finding :=
  report.findings.filter fun finding => finding.subject = subject

/-- The report as text, one finding a line. -/
def written (report : Report) : String :=
  String.join (report.findings.map fun finding => finding.written ++ "\n")

end Report

end Interchange
