import Interchange.Value.Basic

/-!
# Shared objects

The objects that references stand for, numbered in the order of their creation. Reading through
a reference looks at the object as it is now; only the fields of shared records ever change
(`Heap.setField`), and no object is ever removed.
-/
namespace Interchange

/-- The present state of one shared object. -/
inductive SharedObject where
  /-- Named fields that can be replaced and added. -/
  | record (fields : Fields Value)
  /-- A host function with its name and the number of the routine it runs. -/
  | function (name : String) (routine : Nat)
  /-- Items that are read by position. -/
  | array (items : List Value)
  /-- A handle without content. -/
  | handle

/-- The kind of an object. -/
def SharedObject.kind : SharedObject → ObjectKind
  | .record _ => .sharedRecord
  | .function .. => .function
  | .array _ => .array
  | .handle => .handle

/-- All shared objects. -/
structure Heap where
  /-- The objects by number. -/
  objects : List SharedObject := []
  deriving Inhabited

namespace Heap

/-- The object a reference stands for. -/
def object? (heap : Heap) (reference : Reference) : Option SharedObject :=
  heap.objects[reference.object]?

/-- Add an object made by a context, and return the reference that stands for it. -/
def allocate (heap : Heap) (origin : ContextId) (object : SharedObject) : Reference × Heap :=
  (⟨origin, heap.objects.length, object.kind⟩, ⟨heap.objects ++ [object]⟩)

/-- Add a shared record. A repeated field name keeps its first place and takes its last value. -/
def allocateRecord (heap : Heap) (origin : ContextId) (pairs : List (String × Value)) :
    Reference × Heap :=
  heap.allocate origin (.record (Fields.ofPairs pairs))

/-- The value of a field of the object. A function answers only to its own name. -/
def getField (heap : Heap) (reference : Reference) (name : String) : Except Fault Value :=
  match heap.object? reference with
  | some (.record fields) =>
    Fault.orElse (.noSuchField name reference.typeName) (Fields.find? name fields)
  | some (.function own _) =>
    if name = "name" then .ok (.text own)
    else .error (.noSuchField name ("function `" ++ own ++ "`"))
  | _ => .error (.noSuchField name reference.typeName)

/-- Replace or add a field; only shared records have fields that can be set. -/
def setField (heap : Heap) (reference : Reference) (name : String) (value : Value) :
    Except Fault Heap :=
  match heap.object? reference with
  | some (.record fields) =>
    .ok ⟨heap.objects.set reference.object (.record (Fields.put name value fields))⟩
  | _ => .error (.noSuchField name reference.typeName)

/-- The names of the fields, in order; objects other than shared records list none. -/
def fieldNames (heap : Heap) (reference : Reference) : List String :=
  match heap.object? reference with
  | some (.record fields) => Fields.names fields
  | _ => []

/-- The item at a position; only arrays have items. -/
def getIndex (heap : Heap) (reference : Reference) (index : Nat) : Except Fault Value :=
  match heap.object? reference with
  | some (.array items) => Value.item items index
  | _ => .error (.typeMismatch "sequence" reference.typeName)

/-- The number of fields or items, for objects that have them. -/
def length? (heap : Heap) (reference : Reference) : Option Nat :=
  match heap.object? reference with
  | some (.record fields) => some fields.length
  | some (.array items) => some items.length
  | _ => none

/-- The routine that calling the object runs; only functions can be called. -/
def routine (heap : Heap) (reference : Reference) : Except Fault Nat :=
  match heap.object? reference with
  | some (.function _ routine) => .ok routine
  | _ => .error (.notCallable reference.typeName)

end Heap

namespace Value

/-- The field of a record, or of the object a reference stands for. -/
def field (heap : Heap) (name : String) : Value → Except Fault Value
  | record fields => Fault.orElse (.noSuchField name "record") (Fields.find? name fields)
  | reference target => heap.getField target name
  | other => .error (.typeMismatch "record" other.typeName)

/-- The item of a sequence, or of the object a reference stands for. -/
def index (heap : Heap) (position : Nat) : Value → Except Fault Value
  | sequence items => item items position
  | reference target => heap.getIndex target position
  | other => .error (.typeMismatch "sequence" other.typeName)

end Value

end Interchange
