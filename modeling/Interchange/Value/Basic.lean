import Interchange.Double
import Interchange.Fault
import Interchange.Fields
import Interchange.Integer

/-!
# Exchanged values

The common form of everything that passes between scripts. Integers, doubles, texts, sequences
and records are copied; a reference stands for one shared object and keeps its identity.

A record is a list of names with values. No name stands twice in one that is made by `recordOf` or
by a guest language, but the type does not say so: its own constructor cannot hold a proof about a
list of values. What depends on that says it with `Value.NamesDistinct`, which everything that makes
values keeps.
-/
namespace Interchange

/-- The kinds of shared objects. -/
inductive ObjectKind where
  /-- Named fields that every holder of a reference can read and replace. -/
  | sharedRecord
  /-- A function supplied by the host. -/
  | function
  /-- Items supplied by the host, read by position. -/
  | array
  /-- A handle that can only be passed on. -/
  | handle
  deriving DecidableEq

/-- The name of a kind of object. -/
def ObjectKind.typeName : ObjectKind → String
  | .sharedRecord => "shared-record"
  | .function => "native-function"
  | .array => "host-array"
  | .handle => "opaque"

/-- A shared object, by identity. Its kind and the context it came from never change. -/
structure Reference where
  /-- The context that made the object. -/
  origin : ContextId
  /-- The number that identifies the object. -/
  object : Nat
  /-- The kind of the object. -/
  kind : ObjectKind
  deriving DecidableEq

/-- The name of the kind of the object. -/
def Reference.typeName (reference : Reference) : String := reference.kind.typeName

/-- What passes between scripts. -/
inductive Value where
  /-- An exact integer. -/
  | integer (n : Integer)
  /-- A double. -/
  | float (x : Double)
  /-- A text. -/
  | text (s : String)
  /-- Values by position. -/
  | sequence (items : List Value)
  /-- Values by name, in order. -/
  | record (fields : List (String × Value))
  /-- A shared object. -/
  | reference (target : Reference)
  deriving Inhabited

namespace Value

/-- The name of a value's type. -/
def typeName : Value → String
  | integer _ => "integer"
  | float _ => "float"
  | text _ => "text"
  | sequence _ => "sequence"
  | record _ => "record"
  | reference _ => "reference"

/-- The integer, if the value is one. -/
def asInteger : Value → Except Fault Integer
  | integer n => .ok n
  | other => .error (.typeMismatch "integer" other.typeName)

/-- The double, if the value is one. -/
def asFloat : Value → Except Fault Double
  | float x => .ok x
  | other => .error (.typeMismatch "float" other.typeName)

/-- The text, if the value is one. -/
def asText : Value → Except Fault String
  | text s => .ok s
  | other => .error (.typeMismatch "text" other.typeName)

/-- The items, if the value is a sequence. -/
def asSequence : Value → Except Fault (List Value)
  | sequence items => .ok items
  | other => .error (.typeMismatch "sequence" other.typeName)

/-- The fields, if the value is a record. -/
def asRecord : Value → Except Fault (Fields Value)
  | record fields => .ok fields
  | other => .error (.typeMismatch "record" other.typeName)

/-- The shared object, if the value is a reference. -/
def asReference : Value → Except Fault Reference
  | reference target => .ok target
  | other => .error (.typeMismatch "reference" other.typeName)

/-- The record with the given fields: a repeated name keeps its first place and takes its last
value. -/
def recordOf (pairs : List (String × Value)) : Value := record (Fields.ofPairs pairs)

/-- The item at a position of a sequence. -/
def item (items : List Value) (index : Nat) : Except Fault Value :=
  Fault.orElse (.indexOutOfBounds index items.length) items[index]?

end Value

end Interchange
