import Interchange.Json.Reader
import Interchange.Program
import Interchange.Statements.Arguments
import Interchange.Statements.Item
import Interchange.Statements.Path

/-!
# Expressions

Every text is read as an expression: an import, a call, a path into a variable, or a JSON
literal. A text that is none of these is kept as malformed and fails when it is evaluated,
after everything that is evaluated before it. Evaluating an expression never changes a local.
-/
namespace Interchange.Statements

/-- What is wrong with a malformed text. -/
inductive Malformation where
  /-- It breaks a rule of the language. -/
  | rule (message : String)
  /-- It is no JSON literal. -/
  | literal

/-- Why a statement or an expression on a line cannot be evaluated. -/
inductive Trouble where
  /-- The text is malformed. -/
  | malformed (line : Nat) (malformation : Malformation)
  /-- No local has that name. -/
  | unboundVariable (line : Nat) (name : String)
  /-- The exchange refused. -/
  | exchange (fault : Fault)

/-- The wording of a trouble. -/
def Trouble.words : Trouble → String
  | malformed line (.rule message) => "line " ++ line.repr ++ ": " ++ message
  | malformed line .literal => "line " ++ line.repr ++ ": invalid JSON literal"
  | unboundVariable line name => "line " ++ line.repr ++ ": unbound variable `" ++ name ++ "`"
  | exchange fault => fault.message

/-- The fault that a trouble is for the exchange. -/
def Trouble.fault : Trouble → Fault
  | exchange fault => fault
  | other => .guest languageName other.words

/-- An expression. -/
inductive Expression where
  /-- The value bound to a name. -/
  | imported (name : String)
  /-- The result of a function; the text of the function names it in faults. -/
  | call (function : Expression) (text : String) (arguments : List Expression)
  /-- What a path leads to. -/
  | path (path : Path)
  /-- Data written out. -/
  | literal (item : Item)
  /-- No expression. -/
  | malformed (malformation : Malformation)

/-- A text that is either a JSON string, which gives its content, or stands for itself. -/
def unquote (text : List Char) : String := (Json.readText? text).getD (String.ofList text)

/-- A path fault with the text it was found in. -/
def pathMalformation (text : List Char) (fault : PathFault) : Malformation :=
  .rule (fault.message ++ " in `" ++ String.ofList text ++ "`")

/-- The words that are literals although they look like names. -/
def isLiteralWord (text : List Char) : Bool :=
  text == "true".toList || text == "false".toList || text == "null".toList

/-- Read a path or a literal, whichever the first character announces. -/
def readPlain (text : List Char) : Expression :=
  if text.head?.any startsName && !isLiteralWord text then
    match Path.read text with
    | .ok path => .path path
    | .error fault => .malformed (pathMalformation text fault)
  else match Json.read? text with
    | some document => .literal (Item.ofJson document)
    | none => .malformed .literal

/-- The text between the parentheses of a call, given what follows the opening one. -/
def closeCall? (text : List Char) : Option (List Char) :=
  match (Text.trimEnd text).getLast? with
  | some ')' => some (Text.trimEnd text).dropLast
  | _ => none

/-- What stands in parentheses is no longer than the text with the closing one. -/
theorem length_of_closeCall? {text inner : List Char} (closed : closeCall? text = some inner) :
    inner.length ≤ text.length := by
  unfold closeCall? at closed
  split at closed
  · simp only [Option.some.injEq] at closed
    have trimmed := Text.length_trimEnd_le text
    rw [← closed, List.length_dropLast]
    omega
  · simp at closed

/-- What follows a leading word is no longer than the text without that word. -/
theorem length_of_after? {word text rest : List Char} (found : Text.after? word text = some rest) :
    rest.length + word.length = text.length := by
  rw [Text.eq_of_after? found, List.length_append, Nat.add_comm]

/-- Read an expression. -/
def Expression.read (text : List Char) : Expression :=
  if Text.trim text = [] then .malformed (.rule "expected an expression")
  else match Text.after? "import ".toList (Text.trim text) with
    | some name => .imported (unquote (Text.trim name))
    | none =>
      match called : Text.after? "call ".toList (Text.trim text) with
      | none => readPlain (Text.trim text)
      | some afterWord =>
        match cut : Text.splitFirst? (· == '(') afterWord with
        | none => .malformed (.rule
            ("expected `(` after `call " ++ String.ofList (Text.trim afterWord) ++ "`"))
        | some (function, rest) =>
          match closed : closeCall? rest with
          | none => .malformed (.rule "expected `)` to close the call")
          | some inner =>
            have _word := length_of_after? called
            have _parts := length_of_splitFirst? cut
            have _trimmed := Text.length_trim_le text
            have _inside := length_of_closeCall? closed
            .call (read function) (String.ofList (Text.trim function))
              ((splitArguments inner).attach.map fun argument => read argument.1)
termination_by text.length
decreasing_by
  · omega
  · have short := length_le_of_mem_splitArguments argument.2
    omega

/-- What evaluating an expression does: it asks the exchange, and may fail. -/
abbrev Evaluation (α : Type) := ExceptT Trouble Program α

namespace Evaluation

/-- Go on with an outcome of the exchange. -/
def ofOutcome {α : Type} : Except Fault α → Evaluation α
  | .ok value => pure value
  | .error fault => throw (.exchange fault)

/-- Ask the exchange for something that can be refused. -/
def request {α : Type} (program : Program (Except Fault α)) : Evaluation α := do
  ofOutcome (← liftM program)

end Evaluation

open Evaluation

/-- Follow one step from an item. -/
def Step.follow (heap : Heap) (item : Item) : Step → Except Fault Item
  | field name => item.field heap (String.ofList name)
  | index position => item.index heap position

namespace Expression

mutual

/-- The item that an expression on a line gives. -/
def eval (locals : Fields Item) (line : Nat) : Expression → Evaluation Item
  | imported name => do
    let value ← request (Program.importName name (some line))
    ofOutcome (Item.ofValue value)
  | call function text arguments => do
    match ← eval locals line function with
    | .foreign reference =>
      let values ← evalArguments locals line arguments
      let value ← request (Program.call reference values)
      ofOutcome (Item.ofValue value)
    | _ => throw (.exchange (.notCallable text))
  | path target => do
    match locals.find? (String.ofList target.name) with
    | none => throw (.unboundVariable line (String.ofList target.name))
    | some item =>
      let heap ← liftM Program.inspect
      ofOutcome (target.steps.foldlM (Step.follow heap) item)
  | literal item => return item
  | malformed malformation => throw (.malformed line malformation)

/-- The exchanged values that arguments give, one after the other. -/
def evalArguments (locals : Fields Item) (line : Nat) :
    List Expression → Evaluation (List Value)
  | [] => return []
  | argument :: arguments => do
    let item ← eval locals line argument
    let value ← ofOutcome item.toValue
    return value :: (← evalArguments locals line arguments)

end

end Expression

end Interchange.Statements
