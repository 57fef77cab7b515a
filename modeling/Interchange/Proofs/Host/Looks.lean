import Interchange.Host.Routine
import Interchange.Proofs.Engine.Journals

/-!
# Routines of a host that look at nothing

The functions and the lazily exported computations of a host ask for many things, but never to be
told something about an engine or its registry (`Host.routines_lookOnlyAt`).
-/
namespace Interchange.Host

open Program (asks_send asks_bind asks_liftM)

variable {seen : Query → Prop}

namespace Function

/-- Going on with an outcome. -/
theorem looks_withOutcome {α β : Type} (outcome : Except Fault α)
    {next : α → Program (Except Fault β)}
    (rest : ∀ value, (next value).Asks (Request.LooksOnlyAt seen)) :
    (withOutcome outcome next).Asks (Request.LooksOnlyAt seen) := by
  cases outcome with
  | ok value => exact rest value
  | error fault => trivial

/-- Functions look at nothing. -/
theorem program_looks (function : Function) (arguments : List Value) :
    (function.program arguments).Asks (Request.LooksOnlyAt seen) := by
  cases function with
  | importName => exact looks_withOutcome _ fun name => asks_send trivial
  | exportValue =>
    exact looks_withOutcome _ fun value => looks_withOutcome _ fun name =>
      (asks_send trivial).bind fun _ => trivial
  | field =>
    exact looks_withOutcome _ fun value => looks_withOutcome _ fun name =>
      (asks_send trivial).bind fun _ => trivial
  | index =>
    exact looks_withOutcome _ fun value => looks_withOutcome _ fun position =>
      (asks_send trivial).bind fun _ => trivial
  | evaluate =>
    exact looks_withOutcome _ fun language => looks_withOutcome _ fun text =>
      looks_withOutcome _ fun context => (asks_send trivial).bind fun _ => trivial
  | _ => trivial

end Function

namespace Thunk

/-- Looking names up is looking at nothing else. -/
theorem importAll_looks (names : List String) :
    (importAll names).run.Asks (Request.LooksOnlyAt seen) := by
  induction names with
  | nil => trivial
  | cons name names ih =>
    exact asks_bind (asks_send trivial) fun value => asks_bind ih fun _ => trivial

/-- So is adding up what names are bound to. -/
theorem addAll_looks (sum : Integer) (names : List String) :
    (addAll sum names).run.Asks (Request.LooksOnlyAt seen) := by
  induction names generalizing sum with
  | nil => trivial
  | cons name names ih =>
    refine asks_bind (asks_send trivial) fun value => ?_
    have taken : (ExceptT.mk (return value.asInteger) :
        ExceptT Fault Program Integer).run.Asks (Request.LooksOnlyAt seen) := trivial
    exact asks_bind taken fun n => ih (sum + n)

/-- Coming to a result. -/
theorem conclude_looks (run : Nat) (result : ThunkResult) :
    (conclude run result).run.Asks (Request.LooksOnlyAt seen) := by
  cases result with
  | importName name => exact asks_send trivial
  | sum names => exact asks_bind (addAll_looks _ names) fun _ => trivial
  | list names => exact asks_bind (importAll_looks names) fun _ => trivial
  | _ => trivial

variable {rest : ExceptT Fault Program Value}

/-- Evaluating a unit, if there is one, before going on. -/
theorem evaluates_looks (evaluates : Option SourceUnit)
    (looks : rest.run.Asks (Request.LooksOnlyAt seen)) :
    (match evaluates with
      | some unit => ExceptT.mk (Program.evalUnit unit) >>= fun _ => rest
      | none => rest : ExceptT Fault Program Value).run.Asks (Request.LooksOnlyAt seen) := by
  cases evaluates with
  | none => exact looks
  | some unit => exact asks_bind (asks_send trivial) fun _ => looks

/-- Exporting something, if there is something to export, before going on. -/
theorem publishes_looks (publishes : Option (String × Value))
    (looks : rest.run.Asks (Request.LooksOnlyAt seen)) :
    (match publishes with
      | some (name, value) => liftM (Program.exportValue name value none) >>= fun _ => rest
      | none => rest : ExceptT Fault Program Value).run.Asks (Request.LooksOnlyAt seen) := by
  cases publishes with
  | none => exact looks
  | some published => exact asks_bind (asks_liftM (asks_send trivial)) fun _ => looks

/-- Thunks look at nothing. -/
theorem program_looks (thunk : Thunk) : thunk.program.Asks (Request.LooksOnlyAt seen) := by
  have goesOn (run : Nat) :=
    publishes_looks thunk.publishes
      (evaluates_looks thunk.evaluates (@conclude_looks seen run thunk.result))
  unfold program attempt
  refine asks_bind (asks_liftM (asks_send trivial)) fun run => ?_
  by_cases early : run ≤ thunk.failures
  · rw [if_pos early]
    have failed : (throw (.unresolvedName ("attempt " ++ run.repr)) :
        ExceptT Fault Program Unit).run.Asks (Request.LooksOnlyAt seen) := trivial
    exact asks_bind failed fun _ => goesOn run
  · rw [if_neg early]
    exact goesOn run

end Thunk

/-- No routine of a host looks at anything. -/
theorem routines_lookOnlyAt (supplied : List Routine) (seen : Query → Prop) :
    (routines supplied).LookOnlyAt seen := by
  intro number arguments
  unfold routines
  split
  · rename_i routine found
    cases routine with
    | function work => exact work.program_looks arguments
    | thunk work => exact work.program_looks
  · trivial

end Interchange.Host
