import Interchange.Forms.Evaluation
import Interchange.Statements.Statement

/-!
# Evaluations as programs

An evaluation of a guest language is a program that also knows locals or troubles. One lemma for
each way to build an evaluation says which program it is, so that nothing beyond this module has
to know how the two are put together.
-/
namespace Interchange

namespace Program

variable {α β : Type}

/-- Going on with a program, written as in a sequence of steps. -/
theorem bind_eq_bind (program : Program α) (next : α → Program β) :
    program >>= next = program.bind next := rfl

end Program

section Outcomes

variable {ε ε' α : Type} (change : ε → ε')

/-- A value stays a value, however faults are told. -/
theorem mapError_ok (value : α) : (Except.ok value : Except ε α).mapError change = .ok value := rfl

/-- A fault is told in another way. -/
theorem mapError_error (fault : ε) :
    (Except.error fault : Except ε α).mapError change = .error (change fault) := rfl

end Outcomes

namespace Forms.Evaluation

variable {α β : Type} (locals : Fields Datum)

/-- An evaluation that only ends. -/
theorem run_pure (value : α) :
    (pure value : Evaluation α).run.run locals = .done (.ok value, locals) := rfl

/-- An evaluation that fails at once. -/
theorem run_throw (trouble : Trouble) :
    (throw trouble : Evaluation α).run.run locals = .done (.error trouble, locals) := rfl

/-- Two evaluations one after the other; the second starts with the locals that the first one
leaves, unless that fails. -/
theorem run_bind (first : Evaluation α) (next : α → Evaluation β) :
    (first >>= next).run.run locals =
      (first.run.run locals).bind fun (outcome, locals) =>
        match outcome with
        | .ok value => (next value).run.run locals
        | .error trouble => .done (.error trouble, locals) := by
  rw [ExceptT.run_bind, StateT.run_bind, Program.bind_eq_bind]
  congr 1
  funext outcome
  obtain ⟨outcome, locals⟩ := outcome
  cases outcome <;> rfl

/-- Going on with an outcome of the exchange. -/
theorem run_ofOutcome (outcome : Except Fault α) :
    (ofOutcome outcome).run.run locals = .done (outcome.mapError .exchange, locals) := by
  cases outcome <;> rfl

/-- A program as an evaluation. -/
theorem run_liftM (program : Program α) :
    (liftM program : Evaluation α).run.run locals =
      program.bind fun answer => .done (.ok answer, locals) := by
  have lifted : (liftM program : Evaluation α).run.run locals =
      (program.bind fun answer => .done (answer, locals)).bind
        fun answer => .done (.ok answer.1, answer.2) := rfl
  rw [lifted, Program.bind_assoc]
  rfl

/-- Asking the exchange for something that can be refused. -/
theorem run_request (program : Program (Except Fault α)) :
    (request program).run.run locals =
      program.bind fun answer => .done (answer.mapError .exchange, locals) := by
  rw [request, run_bind, run_liftM, Program.bind_assoc]
  congr 1
  funext answer
  exact run_ofOutcome locals answer

/-- Seeing the locals. -/
theorem run_get : (get : Evaluation (Fields Datum)).run.run locals = .done (.ok locals, locals) :=
  rfl

/-- Defining a local. -/
theorem run_define (name : String) (datum : Datum) :
    (define name datum).run.run locals = .done (.ok (), locals.insert name datum) := rfl

end Forms.Evaluation

namespace Statements.Evaluation

variable {α β : Type}

/-- An evaluation that only ends. -/
theorem run_pure (value : α) : (pure value : Evaluation α).run = .done (.ok value) := rfl

/-- An evaluation that fails at once. -/
theorem run_throw (trouble : Trouble) :
    (throw trouble : Evaluation α).run = .done (.error trouble) := rfl

/-- Two evaluations one after the other, unless the first one fails. -/
theorem run_bind (first : Evaluation α) (next : α → Evaluation β) :
    (first >>= next).run = first.run.bind fun outcome =>
      match outcome with
      | .ok value => (next value).run
      | .error trouble => .done (.error trouble) := by
  rw [ExceptT.run_bind, Program.bind_eq_bind]
  congr 1
  funext outcome
  cases outcome <;> rfl

/-- Going on with an outcome of the exchange. -/
theorem run_ofOutcome (outcome : Except Fault α) :
    (ofOutcome outcome).run = .done (outcome.mapError .exchange) := by
  cases outcome <;> rfl

/-- A program as an evaluation. -/
theorem run_liftM (program : Program α) :
    (liftM program : Evaluation α).run = program.bind fun answer => .done (.ok answer) := rfl

/-- Asking the exchange for something that can be refused. -/
theorem run_request (program : Program (Except Fault α)) :
    (request program).run = program.bind fun answer => .done (answer.mapError .exchange) := by
  rw [request, run_bind, run_liftM, Program.bind_assoc]
  congr 1
  funext answer
  exact run_ofOutcome answer

end Statements.Evaluation

end Interchange
