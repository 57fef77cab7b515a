import Interchange.Fields
import Interchange.Report
import Interchange.Text.Quoted
import Interchange.Value.Basic

/-!
# The registry

What names are bound to at the moment, and the journal of how that came about. A name is bound
to a value or to a routine that computes it; while the routine runs the binding says so, and a
look-up that meets it then is a cycle. Each binding has a number of its own, so the end of a
routine can tell whether its binding is still the one in place (`Registry.settle`).
-/
namespace Interchange

/-- What a binding holds. -/
inductive Slot where
  /-- A value. -/
  | ready (value : Value)
  /-- The number of a routine that has not run yet, or has failed. -/
  | deferred (routine : Nat)
  /-- The number of a routine that is running. -/
  | forcing (routine : Nat)

/-- Whether a binding holds a routine. -/
def Slot.isDeferred : Slot → Bool
  | .ready _ => false
  | _ => true

/-- What a name is bound to. -/
structure Binding where
  /-- The value or routine. -/
  slot : Slot
  /-- The context that bound the name. -/
  origin : ContextId
  /-- The number of the binding. -/
  generation : Nat

/-- Names, what they are bound to, and what has happened to them. -/
structure Registry where
  /-- The bindings, sorted by name. -/
  bindings : Fields Binding := []
  /-- The number of the next binding. -/
  nextGeneration : Nat := 0
  /-- Every export and import in order, if they are recorded. -/
  journal : Option (List Event) := none

namespace Registry

/-- A registry without bindings that keeps a journal if told so. -/
def start (journaling : Bool) : Registry := { journal := if journaling then some [] else none }

/-- Write an event into the journal, if there is one. -/
def record (registry : Registry) (event : Event) : Registry :=
  { registry with journal := registry.journal.map (· ++ [event]) }

/-- The binding of a name. -/
def find? (registry : Registry) (name : String) : Option Binding :=
  Fields.find? name registry.bindings

/-- Bind a name, whatever it was bound to before. -/
def bind (registry : Registry) (name : String) (slot : Slot) (origin : ContextId)
    (line : Option Nat) : Registry :=
  let bound := { registry with
    bindings := Fields.insert name ⟨slot, origin, registry.nextGeneration⟩ registry.bindings
    nextGeneration := registry.nextGeneration + 1 }
  bound.record (.exported name origin ((registry.find? name).map Binding.origin)
    slot.isDeferred line)

/-- Look a name up for a context, and record that. -/
def lookUp (registry : Registry) (name : String) (context : ContextId) (line : Option Nat) :
    Option Binding × Registry :=
  let found := registry.find? name
  (found, registry.record (.imported name context found.isSome line))

/-- Let the binding of a name hold something else; nothing is recorded. -/
def replace (registry : Registry) (name : String) (slot : Slot) : Registry :=
  match registry.find? name with
  | none => registry
  | some binding =>
    { registry with bindings := Fields.insert name { binding with slot } registry.bindings }

/-- Take note that a routine has ended. The binding it ran for, if it is still in place, holds
the value from now on, or the routine again if it failed. -/
def settle (registry : Registry) (name : String) (generation routine : Nat) {ε : Type}
    (result : Except ε Value) : Registry :=
  match registry.find? name with
  | none => registry
  | some binding =>
    if binding.generation = generation then
      registry.replace name (match result with
        | .ok value => .ready value
        | .error _ => .deferred routine)
    else registry

/-- Whether a name is bound. -/
def contains (registry : Registry) (name : String) : Bool := (registry.find? name).isSome

/-- The context that bound a name. -/
def originOf (registry : Registry) (name : String) : Option ContextId :=
  (registry.find? name).map Binding.origin

/-- All bound names, sorted. -/
def names (registry : Registry) : List String := Fields.names registry.bindings

/-- Whether a journal is kept. -/
def isJournaling (registry : Registry) : Bool := registry.journal.isSome

/-- The events of the journal. -/
def events (registry : Registry) : List Event := registry.journal.getD []

/-- The particulars of the registry. -/
def details (registry : Registry) : String :=
  "Registry \x7b names: [" ++ ", ".intercalate (registry.names.map Text.quoted) ++ "] \x7d"

end Registry

end Interchange
