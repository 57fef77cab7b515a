/-!
# Log levels

How much a part of the program tells while it works. A level enables itself and every level
above it; `off` enables none.
-/
namespace Interchange

/-- How much is told. -/
inductive LogLevel where
  /-- Nothing. -/
  | off
  /-- What failed. -/
  | error
  /-- What looks wrong. -/
  | warn
  /-- What happens. -/
  | info
  /-- How it happens. -/
  | debug
  /-- Every step of it. -/
  | trace
  deriving DecidableEq

namespace LogLevel

/-- The word for a level. -/
def word : LogLevel → String
  | off => "off"
  | error => "error"
  | warn => "warn"
  | info => "info"
  | debug => "debug"
  | trace => "trace"

/-- The level of a word in lower case. -/
def ofWord? : String → Option LogLevel
  | "silent" => some off
  | "off" => some off
  | "error" => some error
  | "warn" => some warn
  | "info" => some info
  | "debug" => some debug
  | "trace" => some trace
  | _ => none

/-- The level of a word in any case. Only letters of the basic alphabet occur in the words, and
no other letter has one of them as its lower case. -/
def read? (text : String) : Option LogLevel :=
  ofWord? (String.ofList (text.toList.map Char.toLower))

/-- How many levels a level enables. -/
def rank : LogLevel → Nat
  | off => 0
  | error => 1
  | warn => 2
  | info => 3
  | debug => 4
  | trace => 5

/-- The levels at which something can be told, the most urgent first. -/
def all : List LogLevel := [error, warn, info, debug, trace]

/-- The levels that a level enables. -/
def enabled (level : LogLevel) : List LogLevel := all.filter fun other => other.rank ≤ level.rank

end LogLevel

end Interchange
