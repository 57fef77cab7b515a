import Interchange.Proofs.Guests.Evaluation

/-!
# Statements as programs

A statement changes the locals of its session in place, but it does so with the last thing that it
does, after everything that can fail. So what it does is to yield new locals or a trouble, without
touching those that there are (`Statement.yields`), and then to put the new ones in their place
(`Statement.run_execute`). Nothing beyond this module has to look at the order in which a statement
fails and changes locals.
-/
namespace Interchange.Statements

namespace Execution

variable {α β : Type} (locals : Fields Item)

/-- An execution that only ends. -/
theorem run_pure (value : α) :
    (pure value : Execution α).run.run locals = .done (.ok value, locals) := rfl

/-- An execution that fails at once. -/
theorem run_throw (trouble : Trouble) :
    (throw trouble : Execution α).run.run locals = .done (.error trouble, locals) := rfl

/-- Two executions one after the other; the second starts with the locals that the first one leaves,
unless that fails. -/
theorem run_bind (first : Execution α) (next : α → Execution β) :
    (first >>= next).run.run locals =
      (first.run.run locals).bind fun (outcome, locals) =>
        match outcome with
        | .ok value => (next value).run.run locals
        | .error trouble => .done (.error trouble, locals) := by
  rw [ExceptT.run_bind, StateT.run_bind, Program.bind_eq_bind]
  congr 1
  funext outcome
  obtain ⟨outcome, locals⟩ := outcome
  cases outcome <;> rfl

/-- A program as an execution. -/
theorem run_liftM (program : Program α) :
    (liftM program : Execution α).run.run locals =
      program.bind fun answer => .done (.ok answer, locals) := by
  have lifted : (liftM program : Execution α).run.run locals =
      (program.bind fun answer => .done (answer, locals)).bind
        fun answer => .done (.ok answer.1, answer.2) := rfl
  rw [lifted, Program.bind_assoc]
  rfl

/-- Seeing the locals. -/
theorem run_get : (get : Execution (Fields Item)).run.run locals = .done (.ok locals, locals) :=
  rfl

/-- What leaves the locals alone may fail or come to a value. -/
theorem run_evaluate (evaluation : Evaluation α) :
    (evaluate evaluation).run.run locals =
      evaluation.run.bind fun outcome => .done (outcome, locals) := by
  rw [evaluate, run_bind, run_liftM, Program.bind_assoc]
  congr 1
  funext outcome
  cases outcome <;> rfl

/-- What there is after an evaluation of new locals: those, or a trouble and the old ones. -/
def conclude : Except Trouble (Fields Item) → Except Trouble Unit × Fields Item
  | .ok left => (.ok (), left)
  | .error trouble => (.error trouble, locals)

/-- The execution puts in the place of the locals, at its end, what an evaluation yields that has
left them alone. -/
def Commits (execution : Execution Unit) (evaluation : Evaluation (Fields Item)) : Prop :=
  execution.run.run locals = evaluation.run.bind fun outcome => .done (conclude locals outcome)

variable {locals}

/-- Nothing is done, and the locals stay. -/
theorem commits_pure : (pure () : Execution Unit).Commits locals (pure locals) := rfl

/-- A local is bound. -/
theorem commits_assign (name : String) (item : Item) :
    (assign name item).Commits locals (pure (locals.insert name item)) := rfl

/-- It fails at once. -/
theorem commits_throw (trouble : Trouble) :
    (throw trouble : Execution Unit).Commits locals (throw trouble) := rfl

/-- Something that leaves the locals alone comes first. -/
theorem commits_bind {evaluation : Evaluation α} {execution : α → Execution Unit}
    {rest : α → Evaluation (Fields Item)}
    (commits : ∀ value, (execution value).Commits locals (rest value)) :
    (evaluate evaluation >>= execution).Commits locals (evaluation >>= rest) := by
  rw [Commits, run_bind, run_evaluate, Evaluation.run_bind, Program.bind_assoc, Program.bind_assoc]
  congr 1
  funext outcome
  cases outcome with
  | ok value => exact commits value
  | error trouble => rfl

/-- Something that leaves the locals alone is all that is done. -/
theorem commits_evaluate (evaluation : Evaluation Unit) :
    (evaluate evaluation).Commits locals (evaluation >>= fun _ => pure locals) := by
  rw [Commits, run_evaluate, Evaluation.run_bind, Program.bind_assoc]
  congr 1
  funext outcome
  cases outcome <;> rfl

/-- A program runs last, and the locals stay. -/
theorem commits_liftM (program : Program Unit) :
    (liftM program : Execution Unit).Commits locals (liftM program >>= fun _ => pure locals) := by
  rw [Commits, run_liftM, Evaluation.run_bind, Evaluation.run_liftM, Program.bind_assoc,
    Program.bind_assoc]
  rfl

/-- The locals are looked at first. -/
theorem commits_get {execution : Fields Item → Execution Unit}
    {evaluation : Evaluation (Fields Item)}
    (commits : (execution locals).Commits locals evaluation) :
    (get >>= execution).Commits locals evaluation := by
  rw [Commits, run_bind, run_get]
  exact commits

end Execution

open Evaluation Execution

namespace Statement

variable (locals : Fields Item) (line : Nat)

/-- The locals that a statement on a line puts in the place of those that there are, found without
touching these. -/
def yields : Statement → Evaluation (Fields Item)
  | bindLocal name source => do
    let item ← source.eval locals line
    return locals.insert name item
  | publish name source => do
    let item ← source.eval locals line
    let value ← ofOutcome item.toValue
    liftM (Program.exportValue name value (some line))
    return locals
  | eval language path => do
    let _ ← request (Program.eval language path (some line))
    return locals
  | print source => do
    let item ← source.eval locals line
    request (Program.print item.display)
    return locals
  | setField name field source => do
    let item ← source.eval locals line
    match locals.find? name with
    | some (.foreign reference) =>
      let value ← ofOutcome item.toValue
      request (Program.setField reference field value)
      return locals
    | some (.object members) =>
      return locals.insert name (.object (Fields.insert field item members))
    | some other => throw (.exchange (.typeMismatch "object" other.typeName))
    | none => throw (.unboundVariable line name)
  | malformed malformation => throw (.malformed line malformation)

/-- Whatever a statement does to the locals comes last. -/
theorem execute_commits (statement : Statement) :
    (statement.execute line).Commits locals (statement.yields locals line) := by
  cases statement with
  | bindLocal name source =>
    exact commits_get (commits_bind fun item => commits_assign name item)
  | publish name source =>
    exact commits_get (commits_bind fun item => commits_bind fun value => commits_liftM _)
  | eval language path => exact commits_bind fun child => commits_pure
  | print source => exact commits_get (commits_bind fun item => commits_evaluate _)
  | setField name field source =>
    refine commits_get (commits_bind fun item => commits_get ?_)
    cases locals.find? name with
    | none => exact commits_throw _
    | some held =>
      cases held with
      | foreign reference => exact commits_bind fun value => commits_evaluate _
      | object members => exact commits_assign _ _
      | _ => exact commits_throw _
  | malformed malformation => exact commits_throw _

/-- Executing a statement is finding the locals that it yields and putting them in the place of
those that there are. -/
theorem run_execute (statement : Statement) :
    (statement.execute line).run.run locals =
      (statement.yields locals line).run.bind fun outcome => .done (conclude locals outcome) :=
  statement.execute_commits locals line

end Statement

variable (locals : Fields Item)

/-- No statement changes nothing. -/
theorem execute_nil : execute locals [] = .done (locals, .ok ()) := rfl

/-- Statements are executed with the locals that the first one yields, unless it fails. -/
theorem execute_cons (line : Nat) (statement : Statement) (rest : List (Nat × Statement)) :
    execute locals ((line, statement) :: rest) =
      (statement.yields locals line).run.bind fun outcome => match outcome with
        | .ok locals => execute locals rest
        | .error trouble => .done (locals, .error trouble) := by
  rw [execute, executeAll, Execution.run_bind, statement.run_execute, Program.bind_eq_bind,
    Program.bind_assoc, Program.bind_assoc]
  congr 1
  funext outcome
  cases outcome <;> rfl

end Interchange.Statements
