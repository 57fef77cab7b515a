import Interchange.Heap
import Interchange.Value.Written

/-!
# Data

What the form language computes with: nil and booleans, which no exchanged value stands for,
and counterparts of all exchanged values. Turning a value into a datum never fails
(`Datum.ofValue`); a datum becomes a value if it holds neither nil nor a boolean
(`Datum.toValue`).
-/
namespace Interchange.Forms

/-- The name under which the form language is registered. -/
def languageName : String := "lisp"

/-- A piece of data in the form language. -/
inductive Datum where
  /-- The absent value. -/
  | nil
  /-- True or false. -/
  | bool (b : Bool)
  /-- An exact integer. -/
  | integer (n : Integer)
  /-- A double. -/
  | float (x : Double)
  /-- A string. -/
  | string (s : String)
  /-- Data by position. -/
  | list (items : List Datum)
  /-- Data by name, in order. -/
  | record (fields : List (String × Datum))
  /-- A shared object. -/
  | foreign (target : Reference)
  deriving Inhabited

namespace Datum

/-- The name of a datum's type. -/
def typeName : Datum → String
  | nil => "nil"
  | bool _ => "bool"
  | integer _ => "integer"
  | float _ => "float"
  | string _ => "string"
  | list _ => "list"
  | record _ => "record"
  | foreign _ => "foreign object"

/-- The fault of data that only the guest languages know. -/
def noCounterpart (what : String) : Fault :=
  .unrepresentable "exchange values" (what ++ " has no counterpart")

mutual

/-- The exchanged value of a datum. -/
def toValue : Datum → Except Fault Value
  | nil => .error (noCounterpart "nil")
  | bool b => .error (noCounterpart (if b then "boolean true" else "boolean false"))
  | integer n => .ok (.integer n)
  | float x => .ok (.float x)
  | string s => .ok (.text s)
  | list items => do return .sequence (← toValues items)
  | record fields => do return Value.recordOf (← toPairs fields)
  | foreign target => .ok (.reference target)

/-- The exchanged values of data in order; the first that has none decides. -/
def toValues : List Datum → Except Fault (List Value)
  | [] => .ok []
  | datum :: data => do
    let value ← toValue datum
    return value :: (← toValues data)

/-- The exchanged values of named data in order; the first that has none decides. -/
def toPairs : List (String × Datum) → Except Fault (List (String × Value))
  | [] => .ok []
  | (name, datum) :: fields => do
    let value ← toValue datum
    return (name, value) :: (← toPairs fields)

end

mutual

/-- The datum of an exchanged value. -/
def ofValue : Value → Datum
  | .integer n => integer n
  | .float x => float x
  | .text s => string s
  | .sequence items => list (ofValues items)
  | .record fields => record (ofPairs fields)
  | .reference target => foreign target

/-- The data of values in order. -/
def ofValues : List Value → List Datum
  | [] => []
  | value :: values => ofValue value :: ofValues values

/-- The data of named values in order. -/
def ofPairs : List (String × Value) → List (String × Datum)
  | [] => []
  | (name, value) :: fields => (name, ofValue value) :: ofPairs fields

end

mutual

/-- The written form of a datum. -/
def written : Datum → String
  | nil => "nil"
  | bool b => if b then "#t" else "#f"
  | integer n => n.numeral
  | float x => x.numeral
  | string s => Text.quoted s
  | list items => "(" ++ " ".intercalate (writtenItems items) ++ ")"
  | record fields => "#record(" ++ " ".intercalate (writtenFields fields) ++ ")"
  | foreign target => "#" ++ target.written

/-- The written forms of the items of a list. -/
def writtenItems : List Datum → List String
  | [] => []
  | item :: items => item.written :: writtenItems items

/-- The written forms of the fields of a record. -/
def writtenFields : List (String × Datum) → List String
  | [] => []
  | (name, datum) :: fields =>
    ("(" ++ name ++ " " ++ datum.written ++ ")") :: writtenFields fields

end

/-- What printing a datum shows: a string as it is, anything else in its written form. -/
def display : Datum → String
  | string s => s
  | other => other.written

/-- The field of a record, or of the object a reference stands for. -/
def field (heap : Heap) (name : String) : Datum → Except Fault Datum
  | record fields => Fault.orElse (.noSuchField name "record") (Fields.find? name fields)
  | foreign target => (heap.getField target name).map ofValue
  | other => .error (.typeMismatch "record" other.typeName)

/-- The item of a list, or of the object a reference stands for. -/
def nth (heap : Heap) (position : Nat) : Datum → Except Fault Datum
  | list items => Fault.orElse (.indexOutOfBounds position items.length) items[position]?
  | foreign target => (heap.getIndex target position).map ofValue
  | other => .error (.typeMismatch "list" other.typeName)

/-- The number of items, fields or characters. -/
def length (heap : Heap) : Datum → Except Fault Nat
  | list items => .ok items.length
  | record fields => .ok fields.length
  | string s => .ok s.length
  | foreign target =>
    Fault.orElse (.typeMismatch "list" target.typeName) (heap.length? target)
  | other => .error (.typeMismatch "list" other.typeName)

end Datum

end Interchange.Forms
