import Interchange.Value.Basic

/-!
# Native data of the host

A shape names one of the host's own data types: exact integers, signed words, doubles, texts,
references, values as they are, and lists and tables of such data. `Shape.read` turns an
exchanged value into data of the shape and refuses everything that would lose something;
`Shape.write` turns the data back and never fails.
-/
namespace Interchange

/-- A type of data the host works with. -/
inductive Shape where
  /-- Any exchanged value, unchanged. -/
  | value
  /-- An exact integer. -/
  | integer
  /-- A signed 64-bit word. -/
  | word
  /-- A number of any size. -/
  | whole
  /-- A double. -/
  | real
  /-- A text. -/
  | text
  /-- A shared object. -/
  | reference
  /-- A list of data of one shape. -/
  | list (element : Shape)
  /-- Data of one shape by name, sorted by name. -/
  | table (element : Shape)
  deriving DecidableEq

namespace Shape

/-- The data of a shape. -/
@[reducible] def Native : Shape → Type
  | value => Value
  | integer => Integer
  | word => Int64
  | whole => Int
  | real => Double
  | text => String
  | reference => Reference
  | list element => List element.Native
  | table element => Fields element.Native

/-- Turn a value into data of the shape. -/
def read : (shape : Shape) → Value → Except Fault shape.Native
  | value, v => .ok v
  | integer, v => v.asInteger
  | word, v => do
    let n ← v.asInteger
    Fault.orElse (.unrepresentable "i64" (n.numeral ++ " is out of range")) n.toWord?
  | whole, v => v.asInteger.map Integer.toInt
  | real, v => v.asFloat
  | text, v => v.asText
  | reference, v => v.asReference
  | list element, v => do (← v.asSequence).mapM element.read
  | table element, v => do
    let pairs ← (← v.asRecord).mapM fun (name, entry) => do
      return (name, ← element.read entry)
    return Fields.sorted pairs

/-- Turn data of the shape into a value. -/
def write : (shape : Shape) → shape.Native → Value
  | value, v => v
  | integer, n => .integer n
  | word, n => .integer (.word n)
  | whole, n => .integer (Integer.ofInt n)
  | real, x => .float x
  | text, s => .text s
  | reference, target => .reference target
  | list element, items => .sequence (items.map element.write)
  | table element, entries =>
    Value.recordOf (entries.map fun (name, entry) => (name, element.write entry))

end Shape

end Interchange
