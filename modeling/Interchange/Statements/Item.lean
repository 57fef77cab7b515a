import Interchange.Heap
import Interchange.Json.Basic
import Interchange.Value.Written

/-!
# Items

What the statement language computes with: JSON data, whose objects are sorted by name, and
references to shared objects. An exchanged value becomes an item if all its numbers fit JSON
(`Item.ofValue`); an item becomes a value if it holds neither null nor a boolean
(`Item.toValue`).
-/
namespace Interchange.Statements

/-- The name under which the statement language is registered. -/
def languageName : String := "jsonscript"

/-- A piece of data in the statement language. -/
inductive Item where
  /-- The absent value. -/
  | null
  /-- True or false. -/
  | bool (b : Bool)
  /-- A number. -/
  | number (n : Json.Number)
  /-- A string. -/
  | string (s : String)
  /-- Items by position. -/
  | array (items : List Item)
  /-- Items by name, sorted by name. -/
  | object (members : List (String × Item))
  /-- A shared object. -/
  | foreign (target : Reference)
  deriving Inhabited

namespace Item

/-- The name of an item's type. -/
def typeName : Item → String
  | null => "null"
  | bool _ => "boolean"
  | number _ => "number"
  | string _ => "string"
  | array _ => "array"
  | object _ => "object"
  | foreign _ => "foreign object"

mutual

/-- The item of a JSON document; of a repeated name the last member counts. -/
def ofJson : Json → Item
  | .null => null
  | .bool b => bool b
  | .number n => number n
  | .string s => string s
  | .array items => array (ofDocuments items)
  | .object members => object (Fields.sorted (ofMembers members))

/-- The items of the documents in an array. -/
def ofDocuments : List Json → List Item
  | [] => []
  | document :: documents => ofJson document :: ofDocuments documents

/-- The items of the members of an object. -/
def ofMembers : List (String × Json) → List (String × Item)
  | [] => []
  | (name, member) :: members => (name, ofJson member) :: ofMembers members

end

/-- The value of a number: an exact integer or a double. -/
def numberValue : Json.Number → Value
  | .natural n => .integer (Integer.ofUnsigned n)
  | .negative n _ => .integer (.word n)
  | .real x _ => .float x

/-- The fault of data that only the guest languages know. -/
def noCounterpart (what : String) : Fault :=
  .unrepresentable "exchange values" (what ++ " has no counterpart")

mutual

/-- The exchanged value of an item. -/
def toValue : Item → Except Fault Value
  | null => .error (noCounterpart "null")
  | bool b => .error (noCounterpart (if b then "boolean true" else "boolean false"))
  | number n => .ok (numberValue n)
  | string s => .ok (.text s)
  | array items => do return .sequence (← toValues items)
  | object members => do return Value.recordOf (← toPairs members)
  | foreign target => .ok (.reference target)

/-- The exchanged values of items in order; the first that has none decides. -/
def toValues : List Item → Except Fault (List Value)
  | [] => .ok []
  | item :: items => do
    let value ← toValue item
    return value :: (← toValues items)

/-- The exchanged values of named items in order; the first that has none decides. -/
def toPairs : List (String × Item) → Except Fault (List (String × Value))
  | [] => .ok []
  | (name, item) :: members => do
    let value ← toValue item
    return (name, value) :: (← toPairs members)

end

/-- The number of an exact integer, if JSON has it. -/
def ofInteger (n : Integer) : Except Fault Json.Number :=
  Fault.orElse
    (.unrepresentable languageName
      ("integer " ++ n.numeral ++ " is outside the JSON number range"))
    (Json.Number.ofInteger? n)

/-- The number of a double, if it is finite. -/
def ofDouble (x : Double) : Except Fault Json.Number :=
  Fault.orElse (.unrepresentable languageName ("float " ++ x.numeral ++ " is not finite"))
    (Json.Number.ofDouble? x)

mutual

/-- The item of an exchanged value. -/
def ofValue : Value → Except Fault Item
  | .integer n => do return number (← ofInteger n)
  | .float x => do return number (← ofDouble x)
  | .text s => .ok (string s)
  | .sequence items => do return array (← ofValues items)
  | .record fields => do return object (Fields.sorted (← ofPairs fields))
  | .reference target => .ok (foreign target)

/-- The items of values in order; the first that has none decides. -/
def ofValues : List Value → Except Fault (List Item)
  | [] => .ok []
  | value :: values => do
    let item ← ofValue value
    return item :: (← ofValues values)

/-- The items of named values in order; the first that has none decides. -/
def ofPairs : List (String × Value) → Except Fault (List (String × Item))
  | [] => .ok []
  | (name, value) :: fields => do
    let item ← ofValue value
    return (name, item) :: (← ofPairs fields)

end

mutual

/-- The written form of an item: JSON without white space, and references as in exchanged
values. -/
def written : Item → String
  | null => "null"
  | bool b => if b then "true" else "false"
  | number n => n.numeral
  | string s => Json.stringLiteral s
  | array items => "[" ++ ",".intercalate (writtenItems items) ++ "]"
  | object members => "\x7b" ++ ",".intercalate (writtenMembers members) ++ "\x7d"
  | foreign target => target.written

/-- The written forms of the items of an array. -/
def writtenItems : List Item → List String
  | [] => []
  | item :: items => item.written :: writtenItems items

/-- The written forms of the members of an object. -/
def writtenMembers : List (String × Item) → List String
  | [] => []
  | (name, item) :: members =>
    (Json.stringLiteral name ++ ":" ++ item.written) :: writtenMembers members

end

/-- What printing an item shows: a string as it is, anything else in its written form. -/
def display : Item → String
  | string s => s
  | other => other.written

/-- The member of an object, or the field of the object a reference stands for. -/
def field (heap : Heap) (name : String) : Item → Except Fault Item
  | object members => Fault.orElse (.noSuchField name "object") (Fields.find? name members)
  | foreign target => do ofValue (← heap.getField target name)
  | other => .error (.typeMismatch "object" other.typeName)

/-- The item of an array, or the item of the object a reference stands for. -/
def index (heap : Heap) (position : Nat) : Item → Except Fault Item
  | array items => Fault.orElse (.indexOutOfBounds position items.length) items[position]?
  | foreign target => do ofValue (← heap.getIndex target position)
  | other => .error (.typeMismatch "array" other.typeName)

end Item

end Interchange.Statements
