import Interchange.Program

/-!
# Lazily exported computations of a host

A thunk is run when its name is looked up. It counts its runs under that name, may fail the
first few times, may export something and evaluate a unit, and then comes to its result.
-/
namespace Interchange.Host

/-- How a thunk comes to its result. -/
inductive ThunkResult where
  /-- It fails with a name of its own. -/
  | fail (name : String)
  /-- The value bound to another name. -/
  | importName (name : String)
  /-- The sum of the integers bound to other names. -/
  | sum (names : List String)
  /-- The values bound to other names, in a sequence. -/
  | list (names : List String)
  /-- How often thunks of its name have run. -/
  | runs
  /-- A value known from the start. -/
  | value (value : Value)

/-- A lazily exported computation. -/
structure Thunk where
  /-- The name it is exported under, which its runs are counted by. -/
  name : String
  /-- How many runs fail. -/
  failures : Nat := 0
  /-- What it exports. -/
  publishes : Option (String × Value) := none
  /-- What it evaluates. -/
  evaluates : Option SourceUnit := none
  /-- How it comes to its result. -/
  result : ThunkResult

namespace Thunk

/-- Look names up in order; the first fault decides. -/
def importAll : List String → ExceptT Fault Program (List Value)
  | [] => return []
  | name :: names => do
    let value ← ExceptT.mk (Program.importName name none)
    return value :: (← importAll names)

/-- Look names up in order and add what they are bound to. -/
def addAll (sum : Integer) : List String → ExceptT Fault Program Integer
  | [] => return sum
  | name :: names => do
    let value ← ExceptT.mk (Program.importName name none)
    let n ← ExceptT.mk (return value.asInteger)
    addAll (sum + n) names

/-- How a thunk comes to its result in one of its runs. -/
def conclude (run : Nat) : ThunkResult → ExceptT Fault Program Value
  | .fail name => throw (.unresolvedName name)
  | .importName name => ExceptT.mk (Program.importName name none)
  | .sum names => return .integer (← addAll Integer.zero names)
  | .list names => return .sequence (← importAll names)
  | .runs => return .integer (Integer.ofInt run)
  | .value value => return value

/-- One run of a thunk. -/
def attempt (thunk : Thunk) : ExceptT Fault Program Value := do
  let run ← liftM (Program.tally thunk.name)
  if run ≤ thunk.failures then throw (.unresolvedName ("attempt " ++ run.repr))
  match thunk.publishes with
  | some (name, value) => liftM (Program.exportValue name value none)
  | none => pure ()
  match thunk.evaluates with
  | some unit => let _ ← ExceptT.mk (Program.evalUnit unit)
  | none => pure ()
  conclude run thunk.result

/-- What a thunk does when it is run. -/
def program (thunk : Thunk) : Program (Except Fault Value) := thunk.attempt.run

end Thunk

end Interchange.Host
