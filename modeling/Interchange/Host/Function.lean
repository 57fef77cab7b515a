import Interchange.Program

/-!
# Functions of a host

Small functions that a host can hand to scripts. They check their arguments one by one, in
order, and some of them ask the exchange for something on behalf of the host.
-/
namespace Interchange.Host

/-- A function of the host. -/
inductive Function where
  /-- An integer added to itself. -/
  | double
  /-- A greeting for a name. -/
  | greet
  /-- All arguments as a sequence. -/
  | args
  /-- How many arguments there are. -/
  | count
  /-- Always a fault. -/
  | fail
  /-- A double that is no number. -/
  | nan
  /-- An integer that no machine word holds. -/
  | big
  /-- The value bound to a name. -/
  | importName
  /-- Bind a name to a value. -/
  | exportValue
  /-- A field of a value. -/
  | field
  /-- An item of a value. -/
  | index
  /-- Evaluate a unit in a context that is already there. -/
  | evaluate
  deriving DecidableEq

namespace Function

/-- The argument at a position; what it should be is named in the fault of its absence. -/
def argument (arguments : List Value) (position : Nat) (expected : String) :
    Except Fault Value :=
  Fault.orElse (.typeMismatch expected "nothing") arguments[position]?

/-- The integer at a position. -/
def integerAt (arguments : List Value) (position : Nat) : Except Fault Integer := do
  (← argument arguments position "integer").asInteger

/-- The text at a position. -/
def textAt (arguments : List Value) (position : Nat) : Except Fault String := do
  (← argument arguments position "text").asText

/-- The index at a position: an integer that an unsigned word holds. -/
def indexAt (arguments : List Value) (position : Nat) : Except Fault Nat := do
  let n ← integerAt arguments position
  Fault.orElse (.typeMismatch "index" n.numeral) (n.toUnsigned?.map UInt64.toNat)

/-- Go on with an outcome that needs nothing from the exchange. -/
def withOutcome {α β : Type} (outcome : Except Fault α)
    (next : α → Program (Except Fault β)) : Program (Except Fault β) :=
  match outcome with
  | .ok value => next value
  | .error fault => return .error fault

/-- What a function does when it is called. -/
def program (function : Function) (arguments : List Value) : Program (Except Fault Value) :=
  match function with
  | double => return (integerAt arguments 0).map fun n => .integer (n + n)
  | greet => return (textAt arguments 0).map fun name => .text ("hello, " ++ name)
  | args => return .ok (.sequence arguments)
  | count => return .ok (.integer (Integer.ofInt arguments.length))
  | fail => return .error (.unresolvedName "fail")
  | nan => return .ok (.float Double.quietNaN)
  | big => return .ok (.integer (Integer.ofInt 1180591620717411303424))
  | importName => withOutcome (textAt arguments 0) fun name => Program.importName name none
  | exportValue =>
    withOutcome (argument arguments 1 "value") fun value =>
      withOutcome (textAt arguments 0) fun name => do
        Program.exportValue name value none
        return .ok value
  | field =>
    withOutcome (argument arguments 0 "value") fun value =>
      withOutcome (textAt arguments 1) fun name => do
        return value.field (← Program.inspect) name
  | index =>
    withOutcome (argument arguments 0 "value") fun value =>
      withOutcome (indexAt arguments 1) fun position => do
        return value.index (← Program.inspect) position
  | evaluate =>
    withOutcome (textAt arguments 1) fun language =>
      withOutcome (textAt arguments 2) fun text =>
        withOutcome (indexAt arguments 0) fun context => do
          let result ← Program.evaluate ⟨context⟩ ⟨language, "nested", text⟩
          return result.map fun _ => .text "done"

end Function

end Interchange.Host
