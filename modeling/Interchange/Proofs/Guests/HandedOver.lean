import Interchange.Proofs.Guests.Distinct
import Interchange.Proofs.Guests.Execution
import Interchange.Session

/-!
# What scripts hand over

Statements and the probe language hand over only values that have no name twice in a record,
whatever their own data are, since values are gathered field by field (`Item.comesTo_toValue`).
Together with what holds of forms this means that scripts of all languages keep names distinct
(`Session.evaluate_distinct`).
-/
namespace Interchange

open Fault
open Program (distinct_send)

namespace Statements

namespace Item

mutual

/-- The value of an item never has a name twice in a record. -/
theorem comesTo_toValue : (item : Item) → ComesTo Value.NamesDistinct item.toValue
  | null => comesTo_error _
  | bool _ => comesTo_error _
  | number (.natural _) => comesTo_ok (.integer _)
  | number (.negative _ _) => comesTo_ok (.integer _)
  | number (.real _ _) => comesTo_ok (.float _)
  | string s => comesTo_ok (.text s)
  | array items => (comesTo_toValues items).bind fun _ given => comesTo_ok (.sequence given)
  | object members =>
    (comesTo_toPairs members).bind fun _ given => comesTo_ok (Value.NamesDistinct.recordOf given)
  | foreign target => comesTo_ok (.reference target)

/-- Nor have the values of items in order. -/
theorem comesTo_toValues : (items : List Item) →
    ComesTo (fun values => ∀ value ∈ values, value.NamesDistinct) (toValues items)
  | [] => comesTo_ok fun _ mem => absurd mem List.not_mem_nil
  | item :: items =>
    (comesTo_toValue item).bind fun _ first => (comesTo_toValues items).bind fun _ others =>
      comesTo_ok (List.forall_mem_cons.2 ⟨first, others⟩)

/-- Nor have the values of named items. -/
theorem comesTo_toPairs : (members : List (String × Item)) →
    ComesTo (fun pairs => ∀ pair ∈ pairs, pair.2.NamesDistinct) (toPairs members)
  | [] => comesTo_ok fun _ mem => absurd mem List.not_mem_nil
  | (_, item) :: members =>
    (comesTo_toValue item).bind fun _ first => (comesTo_toPairs members).bind fun _ others =>
      comesTo_ok (List.forall_mem_cons.2 ⟨first, others⟩)

end

end Item

/-- Told only values that have no name twice in a record, the evaluation hands over only such
values, and what it comes to is of a kind. -/
def Evaluation.Preserves {α : Type} (kind : α → Prop) (evaluation : Evaluation α) : Prop :=
  evaluation.run.Distinct (ComesTo kind)

namespace Evaluation

variable {α β : Type} {kind : α → Prop} {last : β → Prop}

/-- Ending. -/
theorem preserves_pure {value : α} (right : kind value) :
    (pure value : Evaluation α).Preserves kind := comesTo_ok right

/-- Failing. -/
theorem preserves_throw (trouble : Trouble) : (throw trouble : Evaluation α).Preserves kind :=
  comesTo_error trouble

/-- One after the other. -/
theorem Preserves.bind {first : Evaluation α} {next : α → Evaluation β}
    (preserves : first.Preserves kind) (rest : ∀ value, kind value → (next value).Preserves last) :
    (first >>= next).Preserves last := Program.Distinct.andThen preserves rest

/-- Going on with an outcome. -/
theorem preserves_ofOutcome {outcome : Except Fault α} (comes : ComesTo kind outcome) :
    (ofOutcome outcome).Preserves kind := by
  rw [Preserves, run_ofOutcome]
  exact comes.mapError _

/-- Asking the exchange. -/
theorem preserves_liftM {program : Program α} (distinct : program.Distinct kind) :
    (liftM program : Evaluation α).Preserves kind := distinct.lift

/-- Asking the exchange for something that can be refused. -/
theorem preserves_request {program : Program (Except Fault α)}
    (distinct : program.Distinct (ComesTo kind)) : (request program).Preserves kind :=
  (preserves_liftM distinct).bind fun _ comes => preserves_ofOutcome comes

end Evaluation

open Evaluation

/-- Evaluating arguments in order. -/
theorem evalArguments_preserves {locals : Fields Item} {line : Nat} {arguments : List Expression}
    (each : ∀ argument ∈ arguments, (argument.eval locals line).Preserves fun _ => True) :
    (Expression.evalArguments locals line arguments).Preserves fun values =>
      ∀ value ∈ values, value.NamesDistinct := by
  induction arguments with
  | nil => exact preserves_pure fun value mem => absurd mem List.not_mem_nil
  | cons argument arguments ih =>
    obtain ⟨first, later⟩ := List.forall_mem_cons.1 each
    exact first.bind fun item _ => (preserves_ofOutcome item.comesTo_toValue).bind
      fun value given => (ih later).bind fun values others =>
        preserves_pure (List.forall_mem_cons.2 ⟨given, others⟩)

/-- Every expression. -/
theorem eval_preserves (locals : Fields Item) (line : Nat) :
    (expression : Expression) → (expression.eval locals line).Preserves fun _ => True
  | .imported name => by
    rw [Expression.eval]
    exact (preserves_request (distinct_send (.importName name (some line)) trivial)).bind
      fun value _ => preserves_ofOutcome (comesTo_any _)
  | .call function text arguments => by
    rw [Expression.eval]
    refine (eval_preserves locals line function).bind fun item _ => ?_
    split
    · rename_i reference
      have values : (Expression.evalArguments locals line arguments).Preserves fun values =>
          ∀ value ∈ values, value.NamesDistinct :=
        evalArguments_preserves fun argument mem => eval_preserves locals line argument
      exact values.bind fun values given =>
        (preserves_request (distinct_send (.call reference values) given)).bind fun value _ =>
          preserves_ofOutcome (comesTo_any _)
    · exact preserves_throw _
  | .path target => by
    rw [Expression.eval]
    split
    · exact preserves_throw _
    · exact (preserves_liftM (distinct_send .inspect trivial)).bind
        fun heap _ => preserves_ofOutcome (comesTo_any _)
  | .literal item => by
    rw [Expression.eval]
    exact preserves_pure trivial
  | .malformed malformation => by
    rw [Expression.eval]
    exact preserves_throw _

/-- Every statement. -/
theorem yields_preserves (locals : Fields Item) (line : Nat) (statement : Statement) :
    (statement.yields locals line).Preserves fun _ => True := by
  cases statement with
  | bindLocal name source =>
    exact (eval_preserves locals line source).bind fun _ _ => preserves_pure trivial
  | publish name source =>
    exact (eval_preserves locals line source).bind fun item _ =>
      (preserves_ofOutcome item.comesTo_toValue).bind fun value given =>
        (preserves_liftM (distinct_send (.exportValue name value (some line)) given)).bind
          fun _ _ => preserves_pure trivial
  | eval language path =>
    have sent := (distinct_send (.eval language path (some line)) trivial).mono
      fun answer _ => comesTo_any answer
    exact (preserves_request sent).bind fun _ _ => preserves_pure trivial
  | print source =>
    refine (eval_preserves locals line source).bind fun item _ => ?_
    have sent := (distinct_send (.print item.display) trivial).mono
      fun answer _ => comesTo_any answer
    exact (preserves_request sent).bind fun _ _ => preserves_pure trivial
  | setField name field source =>
    refine (eval_preserves locals line source).bind fun item _ => ?_
    split
    · rename_i reference _
      refine (preserves_ofOutcome item.comesTo_toValue).bind fun value given => ?_
      have sent := (distinct_send (.setField reference field value) given).mono
        fun answer _ => comesTo_any answer
      exact (preserves_request sent).bind fun _ _ => preserves_pure trivial
    · exact preserves_pure trivial
    · exact preserves_throw _
    · exact preserves_throw _
  | malformed malformation => exact preserves_throw _

/-- Statements in order. -/
theorem executeAll_distinct (locals : Fields Item) (statements : List (Nat × Statement)) :
    (execute locals statements).Distinct fun _ => True := by
  induction statements generalizing locals with
  | nil => trivial
  | cons statement rest ih =>
    obtain ⟨line, statement⟩ := statement
    rw [execute_cons]
    refine Program.Distinct.bind (yields_preserves locals line statement) fun outcome _ => ?_
    cases outcome with
    | ok locals => exact ih locals
    | error trouble => trivial

/-- A text in the statement language. -/
theorem evaluate_distinct (locals : Fields Item) (text : String) :
    (evaluate locals text).Distinct fun _ => True :=
  (executeAll_distinct locals (statements text)).bind fun _ _ => trivial

end Statements

namespace Probe

/-- A line of the probe language. -/
theorem command_distinct (scope : Scope) (line : Option Nat) (words : List String) :
    (command scope line words).run.Distinct (ComesTo fun _ => True) := by
  have prints (text : String) : (Program.print text).Distinct (ComesTo fun _ => True) :=
    (distinct_send (.print text) trivial).mono fun answer _ => comesTo_any answer
  unfold command
  split
  · split
    · exact comesTo_any _
    · exact comesTo_any _
  · exact Program.Distinct.andThen (prints _) fun _ _ => comesTo_any _
  · exact Program.Distinct.andThen (prints _) fun _ _ => comesTo_any _
  · rename_i name text
    have exports := distinct_send (.exportValue name (.text text) line) (.text text)
    exact exports.lift.andThen fun _ _ => comesTo_any _
  · rename_i name
    have imports := distinct_send (.importName name line) trivial
    exact Program.Distinct.andThen imports fun _ _ =>
      Program.Distinct.andThen (prints _) fun _ _ => comesTo_any _
  · rename_i language path
    have evaluates := (distinct_send (.eval language path line) trivial).mono
      fun answer _ => comesTo_any answer
    exact Program.Distinct.andThen evaluates fun _ _ =>
      Program.Distinct.andThen (prints _) fun _ _ => comesTo_any _
  · exact comesTo_any _

/-- Lines of the probe language in order. -/
theorem commands_distinct (scope : Scope) (line : Option Nat) (lines : List (List Char)) :
    (commands scope line lines).run.Distinct (ComesTo fun _ => True) := by
  induction lines generalizing line with
  | nil => exact comesTo_any _
  | cons text rest ih => exact (command_distinct scope line _).andThen fun line _ => ih line

end Probe

namespace Session

/-- No local of the form language has a name twice in a record. -/
def NamesDistinct : Session → Prop
  | forms locals => Forms.LocalsDistinct locals
  | statements _ => True
  | probe => True

/-- Scripts of all languages keep names distinct. -/
theorem evaluate_distinct {session : Session} (distinct : session.NamesDistinct) (scope : Scope)
    (text : String) :
    (session.evaluate scope text).Distinct fun ended => ended.1.NamesDistinct := by
  cases session with
  | forms locals => exact (Forms.evaluate_distinct distinct text).bind fun _ left => left
  | statements locals => exact (Statements.evaluate_distinct locals text).bind fun _ _ => trivial
  | probe => exact (Probe.commands_distinct scope none _).bind fun _ _ => trivial

end Session

end Interchange
