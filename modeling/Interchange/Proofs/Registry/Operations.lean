import Interchange.Proofs.Fields
import Interchange.Registry

/-!
# What each operation does to a registry

One statement for every operation and every part of a registry that others look at: what a name
is bound to afterwards (`find?`), the number of the next binding, the journal, and the order of
the names. Nothing beyond this module opens an operation.
-/
namespace Interchange

/-- What the binding that a routine ran for holds when the routine has ended. -/
def Slot.settled (routine : Nat) {ε : Type} : Except ε Value → Slot
  | .ok value => .ready value
  | .error _ => .deferred routine

namespace Registry

variable (registry : Registry) (name other : String)

/-- Writing into the journal leaves the bindings as they are. -/
@[simp] theorem find?_record (event : Event) :
    (registry.record event).find? name = registry.find? name := rfl

/-- Binding a name binds it anew and no other name. -/
theorem find?_bind (slot : Slot) (origin : ContextId) (line : Option Nat) :
    (registry.bind name slot origin line).find? other =
      if other = name then some ⟨slot, origin, registry.nextGeneration⟩
      else registry.find? other :=
  Fields.find?_insert name other _ registry.bindings

/-- Looking a name up finds its binding. -/
@[simp] theorem lookUp_fst (context : ContextId) (line : Option Nat) :
    (registry.lookUp name context line).1 = registry.find? name := rfl

/-- Looking a name up leaves the bindings as they are. -/
@[simp] theorem find?_lookUp (context : ContextId) (line : Option Nat) :
    (registry.lookUp name context line).2.find? other = registry.find? other := rfl

/-- Replacing what a binding holds keeps everything else about it and all other bindings. -/
theorem find?_replace (slot : Slot) :
    (registry.replace name slot).find? other =
      if other = name then (registry.find? name).map fun binding => { binding with slot }
      else registry.find? other := by
  unfold replace
  split
  · rename_i unbound
    split
    · rename_i same
      rw [same, unbound, Option.map_none]
    · rfl
  · rename_i binding bound
    rw [bound, Option.map_some]
    exact Fields.find?_insert name other _ registry.bindings

/-- The end of a routine concerns the binding it ran for, if that is still in place. -/
theorem find?_settle (generation routine : Nat) {ε : Type} (result : Except ε Value) :
    (registry.settle name generation routine result).find? other =
      if other = name then (registry.find? name).map fun binding =>
        if binding.generation = generation then
          { binding with slot := .settled routine result }
        else binding
      else registry.find? other := by
  unfold settle
  split
  · rename_i unbound
    split
    · rename_i same
      rw [same, unbound, Option.map_none]
    · rfl
  · rename_i binding bound
    split
    · rename_i current
      rw [find?_replace, bound, Option.map_some, Option.map_some, if_pos current]
      cases result <;> rfl
    · rename_i replaced
      rw [bound, Option.map_some, if_neg replaced]
      split
      · rename_i same
        rw [same, bound]
      · rfl

/-- Binding a name uses up one number. -/
@[simp] theorem nextGeneration_bind (slot : Slot) (origin : ContextId) (line : Option Nat) :
    (registry.bind name slot origin line).nextGeneration = registry.nextGeneration + 1 := rfl

/-- Looking a name up uses up no number. -/
@[simp] theorem nextGeneration_lookUp (context : ContextId) (line : Option Nat) :
    (registry.lookUp name context line).2.nextGeneration = registry.nextGeneration := rfl

/-- Replacing what a binding holds uses up no number. -/
@[simp] theorem nextGeneration_replace (slot : Slot) :
    (registry.replace name slot).nextGeneration = registry.nextGeneration := by
  unfold replace
  split <;> rfl

/-- The end of a routine uses up no number. -/
@[simp] theorem nextGeneration_settle (generation routine : Nat) {ε : Type}
    (result : Except ε Value) :
    (registry.settle name generation routine result).nextGeneration =
      registry.nextGeneration := by
  unfold settle
  split
  · rfl
  · split
    · exact nextGeneration_replace registry name _
    · rfl

/-- Binding a name is recorded with the origin of the binding it replaced. -/
@[simp] theorem journal_bind (slot : Slot) (origin : ContextId) (line : Option Nat) :
    (registry.bind name slot origin line).journal =
      registry.journal.map (· ++ [.exported name origin (registry.originOf name)
        slot.isDeferred line]) := rfl

/-- Looking a name up is recorded with whether it was bound. -/
@[simp] theorem journal_lookUp (context : ContextId) (line : Option Nat) :
    (registry.lookUp name context line).2.journal =
      registry.journal.map (· ++ [.imported name context (registry.contains name) line]) := rfl

/-- Replacing what a binding holds is not recorded. -/
@[simp] theorem journal_replace (slot : Slot) :
    (registry.replace name slot).journal = registry.journal := by
  unfold replace
  split <;> rfl

/-- The end of a routine is not recorded. -/
@[simp] theorem journal_settle (generation routine : Nat) {ε : Type}
    (result : Except ε Value) :
    (registry.settle name generation routine result).journal = registry.journal := by
  unfold settle
  split
  · rfl
  · split
    · exact journal_replace registry name _
    · rfl

/-- The bindings are sorted by name. -/
def Sorted : Prop := Fields.Sorted registry.bindings

variable {registry}

/-- Binding a name keeps the bindings sorted. -/
theorem Sorted.bind (sorted : registry.Sorted) (name : String) (slot : Slot) (origin : ContextId)
    (line : Option Nat) : (registry.bind name slot origin line).Sorted :=
  Fields.Sorted.insert sorted name _

/-- Looking a name up keeps the bindings sorted. -/
theorem Sorted.lookUp (sorted : registry.Sorted) (name : String) (context : ContextId)
    (line : Option Nat) : (registry.lookUp name context line).2.Sorted := sorted

/-- Replacing what a binding holds keeps the bindings sorted. -/
theorem Sorted.replace (sorted : registry.Sorted) (name : String) (slot : Slot) :
    (registry.replace name slot).Sorted := by
  unfold Registry.replace
  split
  · exact sorted
  · exact Fields.Sorted.insert sorted name _

/-- The end of a routine keeps the bindings sorted. -/
theorem Sorted.settle (sorted : registry.Sorted) (name : String) (generation routine : Nat)
    {ε : Type} (result : Except ε Value) :
    (registry.settle name generation routine result).Sorted := by
  unfold Registry.settle
  split
  · exact sorted
  · split
    · exact sorted.replace name _
    · exact sorted

variable (registry)

/-- Replacing what a binding holds keeps the origin of every name. -/
@[simp] theorem originOf_replace (slot : Slot) :
    (registry.replace name slot).originOf other = registry.originOf other := by
  unfold originOf
  rw [find?_replace]
  split
  · rename_i same
    cases found : registry.find? name <;> simp [same, found]
  · rfl

/-- The end of a routine keeps the origin of every name. -/
@[simp] theorem originOf_settle (generation routine : Nat) {ε : Type}
    (result : Except ε Value) :
    (registry.settle name generation routine result).originOf other =
      registry.originOf other := by
  unfold originOf
  rw [find?_settle]
  split
  · rename_i same
    cases found : registry.find? name with
    | none => simp [same, found]
    | some binding =>
      simp only [same, found, Option.map_some, Option.some.injEq]
      split <;> rfl
  · rfl

/-- Binding a name makes the context that binds it its origin. -/
theorem originOf_bind (slot : Slot) (origin : ContextId) (line : Option Nat) :
    (registry.bind name slot origin line).originOf other =
      if other = name then some origin else registry.originOf other := by
  unfold originOf
  rw [find?_bind]
  split <;> rfl

/-- A name is bound exactly when it has an origin. -/
theorem contains_eq_isSome_originOf :
    registry.contains name = (registry.originOf name).isSome := by
  simp [contains, originOf]

/-- A name is bound exactly when it is listed. -/
theorem contains_iff_mem_names : registry.contains name = true ↔ name ∈ registry.names :=
  Fields.find?_isSome_iff name registry.bindings

end Registry

end Interchange
