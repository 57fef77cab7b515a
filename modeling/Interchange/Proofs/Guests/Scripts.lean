import Interchange.Proofs.Engine.Asking
import Interchange.Proofs.Guests.Session

/-!
# What scripts ask for

Scripts of all languages bind names only to values and evaluate nothing but sources in new contexts
(`Session.evaluate_asks`). A form or a statement by itself binds only names that are written in it
(`Forms.eval_asks`, `Statements.execute_asks`).
-/
namespace Interchange

namespace Request

/-- A request that scripts make. -/
def IsScripted : Request → Prop
  | look _ => False
  | exportLazy .. => False
  | evaluate .. => False
  | evalUnit .. => False
  | tally _ => False
  | _ => True

/-- Scripts bind no name to a routine. -/
theorem IsScripted.isEager {request : Request} (scripted : request.IsScripted) :
    request.IsEager := by
  cases request <;> trivial

/-- The names that the request binds are among the given ones. -/
def Binds (names : String → Prop) (request : Request) : Prop :=
  ∀ name content, request.exported? = some (name, content) → names name

end Request

/-- The guard of a script that may be told everything and may bind the given names. -/
def Guard.binding (names : String → Prop) : Guard where
  may request := request.IsScripted ∧ request.Binds names
  binds := names
  kind _ := True
  common {request} common := by
    refine ⟨by cases request <;> trivial, fun name content bound => ?_⟩
    cases request <;> first | exact common.elim | simp [Request.exported?] at bound
  exported {name} may value line := by
    refine ⟨trivial, fun other content bound => ?_⟩
    obtain ⟨rfl, _⟩ := Prod.mk.inj (Option.some.inj bound)
    exact may
  plain _ := trivial

namespace Program

variable {α β : Type} {names : String → Prop} {allowed : Request → Prop}

/-- A program that heeds a guard under which it may be told any fault asks for what the guard lets
through and for evaluations of sources. -/
theorem Heeds.asks {guard : Guard} {fault? : α → Option Fault} {program : Program α}
    (heeds : program.Heeds guard fault?) (told : ∀ fault, guard.kind fault)
    (lets : ∀ request, guard.may request → allowed request)
    (evals : ∀ language path line, allowed (.eval language path line)) :
    program.Asks allowed := by
  induction heeds with
  | done => trivial
  | ask may _ ih => exact ⟨lets _ may, fun answer => ih answer fun fault _ => told fault⟩
  | eval _ refused ih =>
    refine ⟨evals _ _ _, fun answer => ?_⟩
    cases answer with
    | ok child => exact ih child
    | error fault =>
      obtain ⟨result, stops, _⟩ := refused fault
      rw [stops]
      trivial

/-- What a program asks for that may bind the given names. -/
theorem Heeds.asks_binding {fault? : α → Option Fault} {program : Program α}
    (heeds : program.Heeds (.binding names) fault?) :
    program.Asks fun request => request.IsScripted ∧ request.Binds names :=
  heeds.asks (fun _ => trivial) (fun _ may => may) fun _ _ _ =>
    ⟨trivial, fun _ _ bound => by simp [Request.exported?] at bound⟩

/-- Programs that can fail, one after the other. -/
theorem asks_bind {first : ExceptT Fault Program α} {next : α → ExceptT Fault Program β}
    (asks : first.run.Asks allowed) (rest : ∀ value, (next value).run.Asks allowed) :
    (first >>= next).run.Asks allowed := by
  rw [ExceptT.run_bind, bind_eq_bind]
  refine asks.bind fun outcome => ?_
  cases outcome with
  | ok value => exact rest value
  | error fault => trivial

/-- A program that cannot fail, as one that can. -/
theorem asks_liftM {program : Program α} (asks : program.Asks allowed) :
    (liftM program : ExceptT Fault Program α).run.Asks allowed :=
  asks.bind fun _ => trivial

end Program

namespace Probe

open Program (asks_send asks_bind asks_liftM)

/-- What a line of the probe language asks for. -/
theorem command_asks (scope : Scope) (line : Option Nat) (words : List String) :
    (command scope line words).run.Asks Request.IsScripted := by
  unfold command
  split
  · split <;> trivial
  · exact asks_bind (asks_send trivial) fun _ => trivial
  · exact asks_bind (asks_send trivial) fun _ => trivial
  · exact asks_bind (asks_liftM (asks_send trivial)) fun _ => trivial
  · exact asks_bind (asks_send trivial) fun value =>
      asks_bind (asks_send trivial) fun _ => trivial
  · exact asks_bind (asks_send trivial) fun context =>
      asks_bind (asks_send trivial) fun _ => trivial
  · trivial

/-- What lines of the probe language ask for. -/
theorem commands_asks (scope : Scope) (line : Option Nat) (lines : List (List Char)) :
    (commands scope line lines).run.Asks Request.IsScripted := by
  induction lines generalizing line with
  | nil => trivial
  | cons text rest ih => exact asks_bind (command_asks scope line _) ih

end Probe

/-- What scripts of all languages ask for. -/
theorem Session.evaluate_asks (session : Session) (scope : Scope) (text : String) :
    (session.evaluate scope text).Asks Request.IsScripted := by
  by_cases bundled : session.IsBundled
  · have heeds : (session.evaluate scope text).Heeds (.binding fun _ => True)
        fun ended => Fault.of? ended.2 := evaluate_heeds (fun _ => trivial) bundled scope text
    exact heeds.asks_binding.mono fun request may => may.1
  · cases session with
    | forms locals => exact absurd trivial bundled
    | statements locals => exact absurd trivial bundled
    | probe => exact (Probe.commands_asks scope none _).bind fun _ => trivial

/-- What a form by itself asks for; the names that it binds are written in it. -/
theorem Forms.eval_asks (line : Nat) (form : Sexp) (locals : Fields Datum) :
    ((eval line form).run.run locals).Asks fun request =>
      request.IsScripted ∧ request.Binds (· ∈ form.exportNames) := by
  have heeds : (eval line form).Heeds (.binding (· ∈ form.exportNames)) :=
    eval_heeds line fun _ written => written
  exact (heeds locals).asks_binding

/-- What a statement by itself asks for; the name that it binds is written in it. -/
theorem Statements.execute_asks (locals : Fields Item) (line : Nat) (statement : Statement) :
    ((statement.execute line).run.run locals).Asks fun request =>
      request.IsScripted ∧ request.Binds (· ∈ statement.exportNames) := by
  have heeds : (statement.yields locals line).Heeds (.binding (· ∈ statement.exportNames)) :=
    yields_heeds locals line statement fun _ written => written
  rw [statement.run_execute]
  exact heeds.asks_binding.bind fun _ => trivial

end Interchange
