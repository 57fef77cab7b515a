import Interchange.Forms.Datum
import Interchange.Forms.Reader
import Interchange.Program
import Interchange.Text.Split

/-!
# Evaluating forms

A unit of the form language is evaluated form by form. A session keeps the locals that its
forms define, sorted by name; what a form defined before a fault stays defined. The value of a
form depends on nothing but the locals and the answers to what it asks the exchange for.
-/
namespace Interchange.Forms

/-- Why a form cannot be evaluated. -/
inductive Trouble where
  /-- The text is no form. -/
  | reading (fault : Reader.ReadFault)
  /-- A form has a shape that is not allowed where it stands. -/
  | unexpectedValueType
  /-- No form has that name. -/
  | unknownForm (name : String)
  /-- No local has that name. -/
  | unboundVariable (name : String)
  /-- A form has too many or too few parts. -/
  | wrongParamSize
  /-- The exchange refused. -/
  | exchange (fault : Fault)

/-- The wording of a trouble. -/
def Trouble.words : Trouble → String
  | reading fault => fault.message
  | unexpectedValueType => "Unexpected value type"
  | unknownForm name => "Unknown form: " ++ name
  | unboundVariable name => "Unbound variable: " ++ name
  | wrongParamSize => "Wrong param size"
  | exchange fault => fault.message

/-- The fault that a trouble is for the exchange. -/
def Trouble.fault : Trouble → Fault
  | exchange fault => fault
  | other => .guest languageName other.words

/-- What a form does: it reads and changes the locals, asks the exchange, and may fail. The
locals outlive a failure. -/
abbrev Evaluation (α : Type) := ExceptT Trouble (StateT (Fields Datum) Program) α

namespace Evaluation

/-- Go on with an outcome of the exchange. -/
def ofOutcome {α : Type} : Except Fault α → Evaluation α
  | .ok value => pure value
  | .error fault => throw (.exchange fault)

/-- Ask the exchange for something that can be refused. -/
def request {α : Type} (program : Program (Except Fault α)) : Evaluation α := do
  ofOutcome (← liftM program)

/-- Define a local, or give it another value. -/
def define (name : String) (datum : Datum) : Evaluation Unit :=
  modify fun locals => locals.insert name datum

end Evaluation

open Evaluation

/-- The name that a symbol gives. -/
def symbolName : Sexp → Evaluation String
  | .symbol name => pure name
  | _ => throw .unexpectedValueType

/-- The name that a symbol or a string gives. -/
def nameOf : Sexp → Evaluation String
  | .symbol name => pure name
  | .string name => pure name
  | _ => throw .unexpectedValueType

/-- Read one field after another. -/
def fieldPath (heap : Heap) : List (List Char) → Datum → Except Fault Datum
  | [], datum => .ok datum
  | name :: names, datum => do
    let inner ← datum.field heap (String.ofList name)
    fieldPath heap names inner

/-- The value of a symbol: nil, a local, or fields of a local with dots between the names. -/
def lookup (name : String) : Evaluation Datum := do
  if name = "nil" then return .nil
  let locals ← get
  match locals.find? name with
  | some datum => return datum
  | none =>
    match Text.splitAll '.' name.toList with
    | head :: field :: fields =>
      match locals.find? (String.ofList head) with
      | some datum =>
        let heap ← liftM Program.inspect
        ofOutcome (fieldPath heap (field :: fields) datum)
      | none => throw (.unboundVariable name)
    | _ => throw (.unboundVariable name)

/-- Whether a datum is the integer zero. -/
def isZero : Datum → Bool
  | .integer n => n == Integer.zero
  | _ => false

/-- Add one more operand: numbers of one type are added and strings are joined. A sum that is
still the integer zero takes any double or string. -/
def addOperand : Datum → Datum → Except Fault Datum
  | .integer a, .integer b => .ok (.integer (a + b))
  | .float a, .float b => .ok (.float (a + b))
  | .string a, .string b => .ok (.string (a ++ b))
  | sum, operand =>
    match operand with
    | .float _ | .string _ =>
      if isZero sum then .ok operand
      else .error (.typeMismatch sum.typeName operand.typeName)
    | _ => .error (.typeMismatch sum.typeName operand.typeName)

/-- The sum of operands from left to right, starting from the integer zero. -/
def sum (operands : List Datum) : Except Fault Datum :=
  operands.foldlM addOperand (.integer Integer.zero)

/-- The text of a string. -/
def stringOf : Datum → Except Fault String
  | .string s => .ok s
  | other => .error (.typeMismatch "string" other.typeName)

/-- The position that an integer gives. -/
def positionOf : Datum → Except Fault Nat
  | .integer n => Fault.orElse (.typeMismatch "index" n.numeral) (n.toUnsigned?.map UInt64.toNat)
  | other => .error (.typeMismatch "index" other.typeName)

/-- The exchanged values of named data in order. -/
def exchanged (fields : List (String × Datum)) : Except Fault (List (String × Value)) :=
  fields.mapM fun (name, datum) => do return (name, ← datum.toValue)

mutual

/-- Evaluate a form that starts on a line. -/
def eval (line : Nat) : Sexp → Evaluation Datum
  | .empty _ => return .nil
  | .bool b => return .bool b
  | .integer n => return .integer n
  | .float x => return .float x
  | .string s => return .string s
  | .symbol name => lookup name
  | .vector items => return .list (← evalAll line items)
  | .other => throw .unexpectedValueType
  | .list items tail => do
    match items with
    | .symbol head :: arguments =>
      let improper := arguments.isEmpty && tail.isSome
      match head with
      | "define" =>
        match arguments with
        | [name, value] =>
          let name ← symbolName name
          define name (← eval line value)
          return .nil
        | _ => throw (if improper then .unexpectedValueType else .wrongParamSize)
      | "set!" =>
        match arguments with
        | [name, value] =>
          let name ← symbolName name
          if (Fields.find? name (← get)).isNone then throw (.unboundVariable name)
          define name (← eval line value)
          return .nil
        | _ => throw (if improper then .unexpectedValueType else .wrongParamSize)
      | "begin" =>
        if improper then throw .unexpectedValueType
        evalLast line .nil arguments
      | "export" =>
        match arguments with
        | [name] =>
          let name ← symbolName name
          let value ← ofOutcome (← lookup name).toValue
          liftM (Program.exportValue name value (some line))
          return .nil
        | [name, value] =>
          let name ← nameOf name
          let value ← ofOutcome (← eval line value).toValue
          liftM (Program.exportValue name value (some line))
          return .nil
        | _ => throw (if improper then .unexpectedValueType else .wrongParamSize)
      | "import" =>
        match arguments with
        | [name] =>
          let name ← nameOf name
          return .ofValue (← request (Program.importName name (some line)))
        | _ => throw (if improper then .unexpectedValueType else .wrongParamSize)
      | "eval" =>
        match arguments with
        | [language, path] =>
          let language ← nameOf language
          let path ← ofOutcome (stringOf (← eval line path))
          let _ ← request (Program.eval language path (some line))
          return .nil
        | _ => throw (if improper then .unexpectedValueType else .wrongParamSize)
      | "print" =>
        if improper then throw .unexpectedValueType
        let data ← evalAll line arguments
        request (Program.print (" ".intercalate (data.map Datum.display)))
        return .nil
      | "list" =>
        if improper then throw .unexpectedValueType
        return .list (← evalAll line arguments)
      | "record" =>
        if improper then throw .unexpectedValueType
        return .record (Fields.ofPairs (← evalFields line arguments))
      | "object" =>
        if improper then throw .unexpectedValueType
        let pairs ← ofOutcome (exchanged (← evalFields line arguments))
        return .foreign (← liftM (Program.allocate pairs))
      | "get" =>
        match arguments with
        | [target, field] =>
          let target ← eval line target
          let field ← nameOf field
          ofOutcome (target.field (← liftM Program.inspect) field)
        | _ => throw (if improper then .unexpectedValueType else .wrongParamSize)
      | "nth" =>
        match arguments with
        | [target, position] =>
          let target ← eval line target
          let position ← ofOutcome (positionOf (← eval line position))
          ofOutcome (target.nth (← liftM Program.inspect) position)
        | _ => throw (if improper then .unexpectedValueType else .wrongParamSize)
      | "length" =>
        match arguments with
        | [target] =>
          let target ← eval line target
          let length ← ofOutcome (target.length (← liftM Program.inspect))
          return .integer (Integer.ofInt length)
        | _ => throw (if improper then .unexpectedValueType else .wrongParamSize)
      | "set-field!" =>
        match arguments with
        | [target, field, value] =>
          match ← eval line target with
          | .foreign reference =>
            let value ← ofOutcome (← eval line value).toValue
            let field ← nameOf field
            request (Program.setField reference field value)
            return .nil
          | _ => throw (.exchange (.typeMismatch "foreign object" "local value"))
        | _ => throw (if improper then .unexpectedValueType else .wrongParamSize)
      | "call" =>
        if improper then throw .unexpectedValueType
        match ← evalAll line arguments with
        | [] => throw .wrongParamSize
        | .foreign function :: data =>
          let values ← ofOutcome (data.mapM Datum.toValue)
          return .ofValue (← request (Program.call function values))
        | other :: _ => throw (.exchange (.notCallable other.typeName))
      | "+" =>
        if improper then throw .unexpectedValueType
        ofOutcome (sum (← evalAll line arguments))
      | other => throw (.unknownForm other)
    | _ => throw .unexpectedValueType

/-- Evaluate forms one after the other. -/
def evalAll (line : Nat) : List Sexp → Evaluation (List Datum)
  | [] => return []
  | form :: forms => do
    let datum ← eval line form
    return datum :: (← evalAll line forms)

/-- Evaluate forms one after the other and keep the value of the last, or the given datum if
there is none. -/
def evalLast (line : Nat) (last : Datum) : List Sexp → Evaluation Datum
  | [] => return last
  | form :: forms => do evalLast line (← eval line form) forms

/-- Evaluate the fields of a record, each a list of a name and a form. -/
def evalFields (line : Nat) : List Sexp → Evaluation (List (String × Datum))
  | [] => return []
  | .list [name, value] _ :: fields => do
    let name ← nameOf name
    let datum ← eval line value
    return (name, datum) :: (← evalFields line fields)
  | .list _ _ :: _ => throw .wrongParamSize
  | .empty true :: _ => throw .wrongParamSize
  | _ :: _ => throw .unexpectedValueType

end

/-- Evaluate the forms of a unit in order. -/
def evalUnit : List (Nat × Sexp) → Evaluation Unit
  | [] => return
  | (line, form) :: forms => do
    let _ ← eval line form
    evalUnit forms

/-- Evaluate a text in a session with the given locals: the locals it leaves, and whether it
came to its end. -/
def evaluate (locals : Fields Datum) (text : String) :
    Program (Fields Datum × Except Fault Unit) := do
  let (forms, fault) := Reader.forms text
  let unit : Evaluation Unit := do
    evalUnit forms
    match fault with
    | some fault => throw (.reading fault)
    | none => return
  let (result, locals) ← (unit.run).run locals
  return (locals, result.mapError Trouble.fault)

end Interchange.Forms
