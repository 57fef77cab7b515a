import Interchange.Proofs.Guests.Execution
import Interchange.Proofs.Guests.Guard
import Interchange.Proofs.Guests.Rule
import Interchange.Session

/-!
# Guest languages heed a guard

Whatever a script in one of the bundled languages says, evaluating it binds no names but those
written in it (`Forms.eval_heeds`, `Statements.yields_heeds`), makes only harmless requests besides
those to evaluate a source, and when such a request is refused the script ends with the same fault
(`Session.evaluate_heeds`, `Session.evaluate_passesOn`). For forms that is a rule like others
(`Forms.Rule`); for statements the proof goes through the language construct by construct.
-/
namespace Interchange

namespace Forms

variable {guard : Guard}

open Evaluation

/-- Heeding a guard is a rule that lets all locals be defined. -/
def Rule.heeding (guard : Guard) : Rule where
  follows evaluation := evaluation.Heeds guard
  binds := guard.binds
  defines _ := True
  pure := heeds_pure
  fail := heeds_throw
  bind := Heeds.bind
  get := heeds_get
  define {name} _ := heeds_define name
  inspect := heeds_liftM Program.heeds_inspect
  allocate pairs := heeds_liftM (Program.heeds_allocate pairs)
  exportValue binds value line := heeds_liftM (Program.heeds_exportValue binds value line)
  setField target name value := heeds_request (Program.heeds_setField target name value)
  call function arguments := heeds_request (Program.heeds_call function arguments)
  importName name line := heeds_request (Program.heeds_importName name line)
  eval language path line := heeds_request (Program.heeds_eval language path line)
  print line := heeds_request (Program.heeds_print line)

/-- Every form heeds a guard that lets the names be bound that are written in it. -/
theorem eval_heeds (line : Nat) {form : Sexp}
    (binds : ∀ name ∈ form.exportNames, guard.binds name) : (eval line form).Heeds guard :=
  eval_follows (.heeding guard) line binds fun _ _ => trivial

/-- Evaluating a text heeds a guard that lets all names be bound. -/
theorem evaluate_heeds (binds : ∀ name, guard.binds name) (locals : Fields Datum) (text : String) :
    (evaluate locals text).Heeds guard fun ended => Fault.of? ended.2 := by
  have heeds := evalRead_follows (.heeding guard) (Reader.forms text).1
    (fun form _ => eval_heeds form.1 fun name _ => binds name) (Reader.forms text).2
  refine (heeds locals).bind ?_ ?_
  · rintro ⟨result, locals⟩ ends
    exact .ended ends
  · rintro ⟨result, locals⟩ fault ends
    exact ⟨_, rfl, ends⟩

end Forms

namespace Statements

variable {guard : Guard}

open Evaluation

/-- Evaluating arguments in order heeds a guard if evaluating each of them does. -/
theorem evalArguments_heeds {locals : Fields Item} {line : Nat} {arguments : List Expression}
    (each : ∀ argument ∈ arguments, (argument.eval locals line).Heeds guard) :
    (Expression.evalArguments locals line arguments).Heeds guard := by
  induction arguments with
  | nil => exact heeds_pure []
  | cons argument arguments ih =>
    obtain ⟨first, later⟩ := List.forall_mem_cons.1 each
    exact first.bind fun item => (heeds_ofOutcome item.plainly_toValue).bind fun value =>
      (ih later).bind fun values => heeds_pure _

/-- Every expression heeds a guard. -/
theorem eval_heeds (locals : Fields Item) (line : Nat) :
    (expression : Expression) → (expression.eval locals line).Heeds guard
  | .imported name => by
    rw [Expression.eval]
    exact (heeds_request (Program.heeds_importName name (some line))).bind fun value =>
      heeds_ofOutcome (Item.plainly_ofValue value)
  | .call function text arguments => by
    rw [Expression.eval]
    refine (eval_heeds locals line function).bind fun item => ?_
    split
    · rename_i reference
      have values : (Expression.evalArguments locals line arguments).Heeds guard :=
        evalArguments_heeds fun argument mem => eval_heeds locals line argument
      exact values.bind fun values =>
        (heeds_request (Program.heeds_call reference values)).bind fun value =>
          heeds_ofOutcome (Item.plainly_ofValue value)
    · exact heeds_throw trivial
  | .path target => by
    rw [Expression.eval]
    split
    · exact heeds_throw trivial
    · exact (heeds_liftM Program.heeds_inspect).bind
        fun heap => heeds_ofOutcome (plainly_follow heap _ _)
  | .literal item => by
    rw [Expression.eval]
    exact heeds_pure item
  | .malformed malformation => by
    rw [Expression.eval]
    exact heeds_throw (by cases malformation <;> trivial)

/-- The names that a statement binds in the exchange. -/
def Statement.exportNames : Statement → List String
  | publish name _ => [name]
  | _ => []

/-- Every statement heeds a guard that lets the name be bound that is written in it. -/
theorem yields_heeds (locals : Fields Item) (line : Nat) (statement : Statement)
    (binds : ∀ name ∈ statement.exportNames, guard.binds name) :
    (statement.yields locals line).Heeds guard := by
  cases statement with
  | bindLocal name source => exact (eval_heeds locals line source).bind fun _ => heeds_pure _
  | publish name source =>
    have binds := binds name (List.mem_singleton_self name)
    exact (eval_heeds locals line source).bind fun item =>
      (heeds_ofOutcome item.plainly_toValue).bind fun value =>
        (heeds_liftM (Program.heeds_exportValue binds value (some line))).bind fun _ =>
          heeds_pure _
  | eval language path =>
    exact (heeds_request (Program.heeds_eval language path (some line))).bind fun _ =>
      heeds_pure _
  | print source =>
    exact (eval_heeds locals line source).bind fun item =>
      (heeds_request (Program.heeds_print _)).bind fun _ => heeds_pure _
  | setField name field source =>
    refine (eval_heeds locals line source).bind fun item => ?_
    split
    · exact (heeds_ofOutcome item.plainly_toValue).bind fun value =>
        (heeds_request (Program.heeds_setField _ field value)).bind fun _ => heeds_pure _
    · exact heeds_pure _
    · exact heeds_throw trivial
    · exact heeds_throw trivial
  | malformed malformation => exact heeds_throw (by cases malformation <;> trivial)

/-- Executing statements in order heeds a guard that lets all names be bound. -/
theorem executeAll_heeds (binds : ∀ name, guard.binds name) (locals : Fields Item)
    (statements : List (Nat × Statement)) :
    (execute locals statements).Heeds guard fun ended =>
      Fault.of? (ended.2.mapError Trouble.fault) := by
  induction statements generalizing locals with
  | nil => exact .ended rfl
  | cons statement rest ih =>
    obtain ⟨line, statement⟩ := statement
    have first := yields_heeds locals line statement fun name _ => binds name
    rw [execute_cons]
    refine Program.Heeds.bind first ?_ ?_
    · intro outcome ends
      cases outcome with
      | ok locals => exact ih locals
      | error trouble => simp at ends
    · intro outcome fault ends
      cases outcome with
      | ok locals => simp at ends
      | error trouble => exact ⟨_, rfl, ends⟩

/-- Evaluating a text heeds a guard that lets all names be bound. -/
theorem evaluate_heeds (binds : ∀ name, guard.binds name) (locals : Fields Item) (text : String) :
    (evaluate locals text).Heeds guard fun ended => Fault.of? ended.2 := by
  refine Program.Heeds.bind (executeAll_heeds binds locals (statements text)) ?_ ?_
  · rintro ⟨locals, result⟩ ends
    exact .ended ends
  · rintro ⟨locals, result⟩ fault ends
    exact ⟨_, rfl, ends⟩

end Statements

namespace Session

/-- A session of a bundled language, whatever its locals are. -/
def IsBundled : Session → Prop
  | forms _ => True
  | statements _ => True
  | probe => False

/-- Every script in a bundled language heeds a guard that lets all names be bound. -/
theorem evaluate_heeds {guard : Guard} (binds : ∀ name, guard.binds name) {session : Session}
    (bundled : session.IsBundled) (scope : Scope) (text : String) :
    (session.evaluate scope text).Heeds guard fun ended => Fault.of? ended.2 := by
  cases session with
  | forms locals =>
    refine Program.Heeds.bind (Forms.evaluate_heeds binds locals text) ?_ ?_
    · rintro ⟨locals, result⟩ ends
      exact .ended ends
    · rintro ⟨locals, result⟩ fault ends
      exact ⟨_, rfl, ends⟩
  | statements locals =>
    refine Program.Heeds.bind (Statements.evaluate_heeds binds locals text) ?_ ?_
    · rintro ⟨locals, result⟩ ends
      exact .ended ends
    · rintro ⟨locals, result⟩ fault ends
      exact ⟨_, rfl, ends⟩
  | probe => exact bundled.elim

/-- Every script in a bundled language passes faults on. -/
theorem evaluate_passesOn {session : Session} (bundled : session.IsBundled) (reach : Nat → Prop)
    (scope : Scope) (text : String) :
    (session.evaluate scope text).PassesOn reach True fun ended => Fault.of? ended.2 := by
  have heeds : (session.evaluate scope text).Heeds (.quiet reach) fun ended => Fault.of? ended.2 :=
    evaluate_heeds (fun _ => trivial) bundled scope text
  exact heeds.passesOn

end Session

end Interchange
