import Interchange.Context.Id

/-!
# Faults

Everything that can go wrong in an exchange, as a cause with its particulars. The wording of
each cause is in `Fault.message`; `Fault.causes` lists the wordings of what lies behind it, and
`Fault.root` leads through nested evaluations to the fault that started them.
-/
namespace Interchange

/-- Why the operating system or a sink refused to read or write. -/
inductive IoFault where
  /-- Nothing has that path. -/
  | notFound
  /-- A directory stands where a file is needed. -/
  | isDirectory
  /-- A file stands where a directory is needed. -/
  | notDirectory
  /-- The bytes are not a text. -/
  | invalidText
  /-- A name is longer than the system allows. -/
  | nameTooLong
  /-- A path has a null character in it. -/
  | nullInPath
  /-- The sink takes no more output. -/
  | sinkClosed
  /-- Any other refusal, in the system's own words. -/
  | other (text : String)
  deriving DecidableEq

/-- The wording of a refusal. -/
def IoFault.message : IoFault → String
  | .notFound => "No such file or directory (os error 2)"
  | .isDirectory => "Is a directory (os error 21)"
  | .notDirectory => "Not a directory (os error 20)"
  | .invalidText => "stream did not contain valid UTF-8"
  | .nameTooLong => "File name too long (os error 36)"
  | .nullInPath => "file name contained an unexpected NUL byte"
  | .sinkClosed => "sink closed"
  | .other text => text

/-- The cause of a failed operation. -/
inductive Fault where
  /-- Nothing was exported under the name, or a name stands for a failure of its own. -/
  | unresolvedName (name : String)
  /-- The target has no field of that name. -/
  | noSuchField (field target : String)
  /-- The sequence is too short for the index. -/
  | indexOutOfBounds (index length : Nat)
  /-- A value of another type was needed. -/
  | typeMismatch (expected found : String)
  /-- The object cannot be called. -/
  | notCallable (what : String)
  /-- The value has no counterpart in the language it was meant for. -/
  | unrepresentable (language reason : String)
  /-- No language is registered under that name. -/
  | unknownLanguage (language : String)
  /-- The loader has no source at that path. -/
  | sourceNotFound (path : String) (cause : Option IoFault)
  /-- No context has that number. -/
  | unknownContext (context : ContextId)
  /-- The context is running, or is the host, which evaluates nothing. -/
  | contextUnavailable (context : ContextId)
  /-- Computing the value asked for the value itself. -/
  | cyclicLazyExport (name : String)
  /-- Evaluations were nested deeper than the limit. -/
  | depthExceeded (limit : Nat)
  /-- The output sink failed. -/
  | output (cause : IoFault)
  /-- A guest language found a fault of its own, told in its own words. -/
  | guest (language : String) (words : String)
  /-- The evaluation of a source failed with the given fault. -/
  | evaluation (language path : String) (context : ContextId) (cause : Fault)
  deriving DecidableEq

namespace Fault

/-- The wording of a fault, without what lies behind it. -/
def message : Fault → String
  | unresolvedName name => "unresolved name `" ++ name ++ "`"
  | noSuchField field target => "no such field `" ++ field ++ "` on " ++ target
  | indexOutOfBounds index length =>
    "index " ++ index.repr ++ " is out of bounds for length " ++ length.repr
  | typeMismatch expected found => "expected " ++ expected ++ ", found " ++ found
  | notCallable what => what ++ " is not callable"
  | unrepresentable language reason =>
    "value cannot be represented in " ++ language ++ ": " ++ reason
  | unknownLanguage language => "unknown language `" ++ language ++ "`"
  | sourceNotFound path _ => "source not found: " ++ path
  | unknownContext context => "unknown context " ++ context.label
  | contextUnavailable context => "context " ++ context.label ++ " has no evaluator available"
  | cyclicLazyExport name => "lazy export `" ++ name ++ "` depends on itself"
  | depthExceeded limit => "evaluation depth limit of " ++ limit.repr ++ " exceeded"
  | output _ => "failed to write output"
  | guest language _ => language ++ " evaluator fault"
  | evaluation language path context _ =>
    "evaluation of " ++ language ++ " source `" ++ path ++ "` in " ++ context.label ++ " failed"

/-- The wordings of what lies behind a fault, the nearest cause first. -/
def causes : Fault → List String
  | sourceNotFound _ (some cause) => [cause.message]
  | output cause => [cause.message]
  | guest _ words => [words]
  | evaluation _ _ _ cause => cause.message :: cause.causes
  | _ => []

/-- The fault at the start of nested failed evaluations. -/
def root : Fault → Fault
  | evaluation _ _ _ cause => cause.root
  | fault => fault

/-- What a root is never: the failure of a nested evaluation. -/
def IsEvaluation : Fault → Prop
  | evaluation .. => True
  | _ => False

/-- A root is never the failure of a nested evaluation. -/
theorem root_not_isEvaluation (fault : Fault) : ¬ fault.root.IsEvaluation := by
  induction fault <;> simp_all [root, IsEvaluation]

/-- The value of an optional step, or the fault that explains its absence. -/
def orElse {α : Type} (fault : Fault) : Option α → Except Fault α
  | some value => .ok value
  | none => .error fault

end Fault

end Interchange
