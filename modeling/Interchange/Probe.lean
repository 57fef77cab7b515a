import Interchange.Program
import Interchange.Text.Lines
import Interchange.Text.Quoted
import Interchange.Text.Split
import Interchange.Value.Written

/-!
# The probe language

A third guest language, whose lines each do one thing with the scope they run in: tell where
they are, bind a name to a word, show what a name is bound to, or evaluate another source. It
keeps no locals.
-/
namespace Interchange.Probe

/-- The wording of a line that is no command. -/
def notACommand : String := "an error occurred when formatting an argument"

/-- A line number as far as one is known. -/
def lineLabel : Option Nat → String
  | some line => "Some(" ++ line.repr ++ ")"
  | none => "None"

/-- The particulars of the scope in full. -/
def details (scope : Scope) (line : Option Nat) : String :=
  "Scope \x7b context: ContextId(" ++ scope.context.raw.repr ++ "), language: " ++
    Text.quoted scope.language ++ ", unit_path: " ++ Text.quoted scope.path ++ ", line: " ++
    lineLabel line ++ " \x7d"

/-- The particulars of the scope in short. -/
def position (scope : Scope) (line : Option Nat) : String :=
  scope.context.label ++ " " ++ scope.language ++ " " ++ scope.path ++ " " ++ lineLabel line

/-- The number of a run of decimal digits. -/
def lineNumber? (digits : String) : Option Nat :=
  if digits.toList.all Char.isDigit then digits.toNat? else none

/-- What a line does: the line number it leaves, or its fault. -/
def command (scope : Scope) (line : Option Nat) (words : List String) :
    ExceptT Fault Program (Option Nat) := do
  match words with
  | ["line", number] =>
    match lineNumber? number with
    | some line => return some line
    | none => throw (.guest scope.language notACommand)
  | ["info"] =>
    ExceptT.mk (Program.print (details scope line))
    return line
  | ["where"] =>
    ExceptT.mk (Program.print (position scope line))
    return line
  | ["export", name, text] =>
    liftM (Program.exportValue name (.text text) line)
    return line
  | ["import", name] =>
    let value ← ExceptT.mk (Program.importName name line)
    ExceptT.mk (Program.print value.written)
    return line
  | ["eval", language, path] =>
    let context ← ExceptT.mk (Program.eval language path line)
    ExceptT.mk (Program.print ("evaluated " ++ context.label))
    return line
  | _ => throw (.guest scope.language notACommand)

/-- Do one line after the other. -/
def commands (scope : Scope) (line : Option Nat) :
    List (List Char) → ExceptT Fault Program Unit
  | [] => return
  | text :: rest => do
    let line ← command scope line ((Text.splitAll ' ' text).map String.ofList)
    commands scope line rest

/-- Evaluate a text. -/
def evaluate (scope : Scope) (text : String) : Program (Except Fault Unit) :=
  (commands scope none (Text.lines text.toList)).run

end Interchange.Probe
