import Interchange.Statements.Expression
import Interchange.Text.Lines

/-!
# Statements

A unit of the statement language is a list of lines, one statement each; blank lines and lines
that begin with a number sign are skipped but counted. A statement is read completely before
anything in it is evaluated. It changes the locals of its session in place, and whatever it has
changed stays changed if it fails afterwards.
-/
namespace Interchange.Statements

/-- What a statement does: it reads and changes the locals, asks the exchange, and may fail. The
locals outlive a failure. -/
abbrev Execution (α : Type) := ExceptT Trouble (StateT (Fields Item) Program) α

namespace Execution

/-- Evaluate something that leaves the locals alone. -/
def evaluate {α : Type} (evaluation : Evaluation α) : Execution α := do
  MonadExcept.ofExcept (← liftM evaluation.run)

/-- Bind a local, or give it another value. -/
def assign (name : String) (item : Item) : Execution Unit :=
  modify fun locals => locals.insert name item

end Execution

/-- A statement. -/
inductive Statement where
  /-- Bind a local. -/
  | bindLocal (name : String) (source : Expression)
  /-- Bind a name of the exchange. -/
  | publish (name : String) (source : Expression)
  /-- Evaluate a source in a new context. -/
  | eval (language path : String)
  /-- Print a line. -/
  | print (source : Expression)
  /-- Set a field of a local object, or of the shared object a local refers to. -/
  | setField (name field : String) (source : Expression)
  /-- No statement. -/
  | malformed (malformation : Malformation)

namespace Statement

/-- A statement that breaks a rule. -/
def broken (message : String) : Statement := malformed (.rule message)

/-- The two sides of the first equals sign, without white space around them. -/
def splitAssignment? (text : List Char) : Option (List Char × List Char) :=
  (Text.splitFirst? (· == '=') text).map fun (target, source) =>
    (Text.trim target, Text.trim source)

/-- The first word of a text and the rest without white space around it. -/
def splitWord (text : List Char) : List Char × List Char :=
  match Text.splitFirst? Text.isBlank text with
  | some (word, rest) => (word, Text.trim rest)
  | none => (text, [])

/-- Read what follows `let`. -/
def readBinding (text : List Char) : Statement :=
  match splitAssignment? text with
  | none => broken "expected `=`"
  | some (name, source) =>
    if isIdentifier name then bindLocal (String.ofList name) (Expression.read source)
    else broken ("`" ++ String.ofList name ++ "` is not a variable name")

/-- Read what follows `export`: a name and an expression, or a name that is the expression. -/
def readExport (text : List Char) : Statement :=
  let (word, source) := splitWord text
  let name := unquote word
  if name.isEmpty then broken "expected a name to export"
  else publish name (Expression.read (if source = [] then name.toList else source))

/-- Read what follows `eval`. -/
def readEval (text : List Char) : Statement :=
  match Text.splitFirst? Text.isBlank text with
  | none => broken "expected `eval <language> <path>`"
  | some (language, path) => eval (String.ofList language) (unquote (Text.trim path))

/-- Read what follows `set`. -/
def readAssignment (text : List Char) : Statement :=
  match splitAssignment? text with
  | none => broken "expected `=`"
  | some (target, source) =>
    match Path.read target with
    | .error fault => malformed (pathMalformation target fault)
    | .ok ⟨name, [.field field]⟩ =>
      setField (String.ofList name) (String.ofList field) (Expression.read source)
    | .ok _ => broken "expected `set <variable>.<field> = <expr>`"

/-- Read a statement from a line without white space around it. -/
def read (text : List Char) : Statement :=
  let (keyword, rest) := splitWord text
  match String.ofList keyword with
  | "let" => readBinding rest
  | "export" => readExport rest
  | "eval" => readEval rest
  | "print" => print (Expression.read rest)
  | "set" => readAssignment rest
  | other => broken ("unknown statement `" ++ other ++ "`")

open Evaluation Execution

/-- Execute a statement on a line. -/
def execute (line : Nat) : Statement → Execution Unit
  | bindLocal name source => do
    let item ← evaluate (source.eval (← get) line)
    assign name item
  | publish name source => do
    let item ← evaluate (source.eval (← get) line)
    let value ← evaluate (ofOutcome item.toValue)
    liftM (Program.exportValue name value (some line))
  | eval language path => do
    let _ ← evaluate (request (Program.eval language path (some line)))
  | print source => do
    let item ← evaluate (source.eval (← get) line)
    evaluate (request (Program.print item.display))
  | setField name field source => do
    let item ← evaluate (source.eval (← get) line)
    match (← get).find? name with
    | some (.foreign reference) =>
      let value ← evaluate (ofOutcome item.toValue)
      evaluate (request (Program.setField reference field value))
    | some (.object members) => assign name (.object (Fields.insert field item members))
    | some other => throw (.exchange (.typeMismatch "object" other.typeName))
    | none => throw (.unboundVariable line name)
  | malformed malformation => throw (.malformed line malformation)

/-- The statement on a line, unless the line is blank or a comment. -/
def ofLine? (line : List Char) : Option Statement :=
  match Text.trim line with
  | [] => none
  | '#' :: _ => none
  | text => some (read text)

/-- The statements of lines that are counted from a number, each with its line. -/
def ofLines (first : Nat) : List (List Char) → List (Nat × Statement)
  | [] => []
  | line :: lines =>
    match ofLine? line with
    | some statement => (first, statement) :: ofLines (first + 1) lines
    | none => ofLines (first + 1) lines

end Statement

/-- The statements of a text, each with its line. -/
def statements (text : String) : List (Nat × Statement) :=
  Statement.ofLines 1 (Text.lines text.toList)

/-- Execute statements one after the other until one fails. -/
def executeAll : List (Nat × Statement) → Execution Unit
  | [] => pure ()
  | (line, statement) :: rest => do
    statement.execute line
    executeAll rest

/-- Execute statements in a session with the given locals: the locals they leave, and the trouble of
the one that failed. -/
def execute (locals : Fields Item) (statements : List (Nat × Statement)) :
    Program (Fields Item × Except Trouble Unit) := do
  let (result, locals) ← (executeAll statements).run.run locals
  return (locals, result)

/-- Evaluate a text in a session with the given locals: the locals it leaves, and whether it
came to its end. -/
def evaluate (locals : Fields Item) (text : String) :
    Program (Fields Item × Except Fault Unit) := do
  let (locals, result) ← execute locals (statements text)
  return (locals, result.mapError Trouble.fault)

end Interchange.Statements
