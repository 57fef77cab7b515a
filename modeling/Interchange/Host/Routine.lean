import Interchange.Engine.Running
import Interchange.Host.Function
import Interchange.Host.Thunk

/-!
# Routines of a host

The host's functions and lazily exported computations under the numbers by which function
objects and bindings know them.
-/
namespace Interchange.Host

/-- Something a host has supplied. -/
inductive Routine where
  /-- A function. -/
  | function (function : Function)
  /-- A lazily exported computation. -/
  | thunk (thunk : Thunk)

/-- What a routine does with the arguments of a call; a lazily exported computation has none. -/
def Routine.program (arguments : List Value) : Routine → Program (Except Fault Value)
  | .function work => work.program arguments
  | .thunk work => work.program

/-- The routines of a list by their position. A number beyond the list is no routine. -/
def routines (supplied : List Routine) : Routines := fun number arguments =>
  match supplied[number]? with
  | some routine => routine.program arguments
  | none => return .error (.notCallable "nothing")

end Interchange.Host
