import Interchange.Decimal.Layout
import Interchange.Text.Quoted
import Interchange.Value.Basic

/-!
# Written form of exchanged values

Sequences stand in square brackets and records in braces, entries separated by a comma and a
space; texts are quoted, field names are not. A reference shows the kind of its object and the
context it came from.
-/
namespace Interchange

/-- The written form of a reference. -/
def Reference.written (reference : Reference) : String :=
  "<" ++ reference.typeName ++ " from " ++ reference.origin.label ++ ">"

/-- The particulars of a reference in full. -/
def Reference.details (reference : Reference) : String :=
  "Reference \x7b origin: ContextId(" ++ reference.origin.raw.repr ++ "), type_name: " ++
    Text.quoted reference.typeName ++ " \x7d"

namespace Value

mutual

/-- The written form of a value. -/
def written : Value → String
  | integer n => n.numeral
  | float x => x.numeral
  | text s => Text.quoted s
  | sequence items => "[" ++ ", ".intercalate (writtenItems items) ++ "]"
  | record fields => "\x7b" ++ ", ".intercalate (writtenFields fields) ++ "\x7d"
  | reference target => target.written

/-- The written forms of the items of a sequence. -/
def writtenItems : List Value → List String
  | [] => []
  | item :: items => item.written :: writtenItems items

/-- The written forms of the fields of a record. -/
def writtenFields : List (String × Value) → List String
  | [] => []
  | (name, value) :: fields => (name ++ ": " ++ value.written) :: writtenFields fields

end

end Value

end Interchange
