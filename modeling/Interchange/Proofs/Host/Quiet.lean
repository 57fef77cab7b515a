import Interchange.Host.Routine
import Interchange.Proofs.Engine.Quiet
import Interchange.Proofs.Guests.Evaluation

/-!
# Routines of a host that evaluate nothing

All functions of a host but one, and all lazily exported computations that are given nothing to
evaluate, are quiet: whatever they look up, call or bind, they make no contexts, and their own
faults are plain (`Host.routines_areQuiet`).
-/
namespace Interchange

namespace Value

open Fault (Plainly plainly_ok plainly_error plainly_orElse)

/-- Taking a field fails in plain ways. -/
theorem plainly_field (heap : Heap) (name : String) (value : Value) :
    Plainly (value.field heap name) := by
  unfold field
  split
  · exact plainly_orElse trivial
  · exact heap.plainly_getField _ name
  · exact plainly_error trivial

/-- Taking an item fails in plain ways. -/
theorem plainly_index (heap : Heap) (position : Nat) (value : Value) :
    Plainly (value.index heap position) := by
  unfold index
  split
  · exact plainly_orElse trivial
  · exact heap.plainly_getIndex _ position
  · exact plainly_error trivial

/-- Values of other types are refused in plain ways where an integer is needed. -/
theorem plainly_asInteger (value : Value) : Plainly value.asInteger := by
  cases value <;> first | exact plainly_ok _ | exact plainly_error trivial

/-- Values of other types are refused in plain ways where a text is needed. -/
theorem plainly_asText (value : Value) : Plainly value.asText := by
  cases value <;> first | exact plainly_ok _ | exact plainly_error trivial

end Value

namespace Program

variable {α β : Type} {reach : Nat → Prop}

/-- Quiet programs one after the other, unless the first one fails. -/
theorem isQuiet_bind {first : ExceptT Fault Program α} {next : α → ExceptT Fault Program β}
    (quiet : first.run.IsQuiet reach) (rest : ∀ value, (next value).run.IsQuiet reach) :
    (first >>= next).run.IsQuiet reach := by
  rw [ExceptT.run_bind, bind_eq_bind]
  refine PassesOn.bind quiet ?_ ?_
  · intro outcome ends
    cases outcome with
    | ok value => exact rest value
    | error fault => simp [Fault.of?] at ends
  · intro outcome fault ends
    cases outcome with
    | ok value => simp [Fault.of?] at ends
    | error cause => exact ⟨.error cause, rfl, ends⟩

/-- A program without faults is quiet if it passes faults on. -/
theorem isQuiet_liftM {program : Program α} (passes : program.PassesOn reach False fun _ => none) :
    (liftM program : ExceptT Fault Program α).run.IsQuiet reach :=
  passes.bind_of_none fun _ => .ended rfl

end Program

namespace Host

variable {reach : Nat → Prop}

namespace Function

open Fault (Plainly plainly_orElse plainly_pure)

/-- A missing argument is a plain fault. -/
theorem plainly_argument (arguments : List Value) (position : Nat) (expected : String) :
    Plainly (argument arguments position expected) := plainly_orElse trivial

/-- An argument that is no integer is a plain fault. -/
theorem plainly_integerAt (arguments : List Value) (position : Nat) :
    Plainly (integerAt arguments position) :=
  (plainly_argument arguments position _).bind Value.plainly_asInteger

/-- An argument that is no text is a plain fault. -/
theorem plainly_textAt (arguments : List Value) (position : Nat) :
    Plainly (textAt arguments position) :=
  (plainly_argument arguments position _).bind Value.plainly_asText

/-- An argument that is no index is a plain fault. -/
theorem plainly_indexAt (arguments : List Value) (position : Nat) :
    Plainly (indexAt arguments position) :=
  (plainly_integerAt arguments position).bind fun _ => plainly_orElse trivial

/-- Going on with a plain outcome. -/
theorem isQuiet_withOutcome {α β : Type} {outcome : Except Fault α}
    {next : α → Program (Except Fault β)} (plain : Plainly outcome)
    (rest : ∀ value, (next value).IsQuiet reach) :
    (withOutcome outcome next).IsQuiet reach := by
  cases outcome with
  | ok value => exact rest value
  | error fault => exact .done plain

/-- Looking at the shared objects for a plain outcome. -/
theorem isQuiet_inspect {α : Type} {outcome : Heap → Except Fault α}
    (plain : ∀ heap, Plainly (outcome heap)) :
    (Program.inspect >>= fun heap => pure (outcome heap)).IsQuiet reach :=
  .quiet trivial fun heap _ => .done (plain heap)

/-- All functions but one evaluate nothing. -/
theorem program_isQuiet {function : Function} (other : function ≠ evaluate)
    (arguments : List Value) : (function.program arguments).IsQuiet reach := by
  cases function with
  | double => exact .done ((plainly_integerAt arguments 0).map _)
  | greet => exact .done ((plainly_textAt arguments 0).map _)
  | args => exact .done (plainly_pure _)
  | count => exact .done (plainly_pure _)
  | fail => exact .done (Fault.plainly_error trivial)
  | nan => exact .done (plainly_pure _)
  | big => exact .done (plainly_pure _)
  | importName =>
    exact isQuiet_withOutcome (plainly_textAt arguments 0) fun name =>
      Program.passesOn_importName name none
  | exportValue =>
    refine isQuiet_withOutcome (plainly_argument arguments 1 _) fun value => ?_
    refine isQuiet_withOutcome (plainly_textAt arguments 0) fun name => ?_
    exact .quiet trivial fun _ _ => .done (plainly_pure value)
  | field =>
    refine isQuiet_withOutcome (plainly_argument arguments 0 _) fun value => ?_
    refine isQuiet_withOutcome (plainly_textAt arguments 1) fun name => ?_
    exact isQuiet_inspect fun heap => value.plainly_field heap name
  | index =>
    refine isQuiet_withOutcome (plainly_argument arguments 0 _) fun value => ?_
    refine isQuiet_withOutcome (plainly_indexAt arguments 1) fun position => ?_
    exact isQuiet_inspect fun heap => value.plainly_index heap position
  | evaluate => exact absurd rfl other

end Function

namespace Thunk

open Program (isQuiet_bind isQuiet_liftM passesOn_exportValue passesOn_importName passesOn_tally)

/-- Looking names up is quiet. -/
theorem importAll_isQuiet (names : List String) : (importAll names).run.IsQuiet reach := by
  induction names with
  | nil => exact .done (Fault.plainly_pure _)
  | cons name names ih =>
    refine isQuiet_bind (passesOn_importName name none) fun value => ?_
    exact isQuiet_bind ih fun _ => .done (Fault.plainly_pure _)

/-- Adding up what names are bound to is quiet. -/
theorem addAll_isQuiet (sum : Integer) (names : List String) :
    (addAll sum names).run.IsQuiet reach := by
  induction names generalizing sum with
  | nil => exact .done (Fault.plainly_pure _)
  | cons name names ih =>
    refine isQuiet_bind (passesOn_importName name none) fun value => ?_
    have taken : (ExceptT.mk (return value.asInteger) : ExceptT Fault Program Integer).run.IsQuiet
        reach := .done value.plainly_asInteger
    exact isQuiet_bind taken fun n => ih (sum + n)

/-- Coming to a result is quiet. -/
theorem conclude_isQuiet (run : Nat) (result : ThunkResult) :
    (conclude run result).run.IsQuiet reach := by
  cases result with
  | fail name => exact .done (Fault.plainly_error trivial)
  | importName name => exact passesOn_importName name none
  | sum names => exact isQuiet_bind (addAll_isQuiet _ names) fun _ => .done (Fault.plainly_pure _)
  | list names => exact isQuiet_bind (importAll_isQuiet names) fun _ => .done (Fault.plainly_pure _)
  | runs => exact .done (Fault.plainly_pure _)
  | value value => exact .done (Fault.plainly_pure _)

/-- A thunk that is given nothing to evaluate is quiet. -/
theorem program_isQuiet {thunk : Thunk} (nothing : thunk.evaluates = none) :
    thunk.program.IsQuiet reach := by
  have ends (run : Nat) : (conclude run thunk.result).run.IsQuiet reach :=
    conclude_isQuiet run thunk.result
  have failed (name : String) :
      (throw (.unresolvedName name) : ExceptT Fault Program PUnit).run.IsQuiet reach :=
    .done (Fault.plainly_error trivial)
  unfold program attempt
  refine isQuiet_bind (isQuiet_liftM (passesOn_tally thunk.name)) fun run => ?_
  simp only [nothing]
  split
  · refine isQuiet_bind (failed _) fun _ => ?_
    split
    · exact isQuiet_bind (isQuiet_liftM (passesOn_exportValue _ _ none)) fun _ => ends run
    · exact ends run
  · split
    · exact isQuiet_bind (isQuiet_liftM (passesOn_exportValue _ _ none)) fun _ => ends run
    · exact ends run

end Thunk

/-- The routine evaluates nothing. -/
def Routine.IsQuiet : Routine → Prop
  | function work => work ≠ .evaluate
  | thunk work => work.evaluates = none

/-- Among the routines of a host, those that evaluate nothing are quiet, and so are numbers that
are no routine. -/
theorem routines_areQuiet (supplied : List Routine) :
    (routines supplied).AreQuiet fun number =>
      ∀ routine, supplied[number]? = some routine → routine.IsQuiet := by
  intro number quiet arguments
  unfold routines
  split
  · rename_i routine found
    cases routine with
    | function work => exact Function.program_isQuiet (quiet _ found) arguments
    | thunk work => exact Thunk.program_isQuiet (quiet _ found)
  · exact .done (Fault.plainly_error trivial)

end Host

end Interchange
