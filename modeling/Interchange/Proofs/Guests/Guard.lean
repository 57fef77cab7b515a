import Interchange.Proofs.Guests.Evaluation
import Interchange.Proofs.Guests.Plain

/-!
# What scripts ask for and are told

A guard says which names a script may bind and which faults it may be told. A program that heeds a
guard binds no other names, evaluates nothing but sources in new contexts, and when it is refused
that it ends at once with the same fault (`Program.Heeds`). An evaluation of a guest language heeds
a guard if those do that it is put together from.
-/
namespace Interchange

/-- A request that says nothing of names that are bound and evaluates nothing. -/
def Request.IsCommon : Request → Prop
  | inspect => True
  | allocate .. => True
  | setField .. => True
  | call .. => True
  | importName .. => True
  | print .. => True
  | _ => False

/-- Such a request is harmless. -/
theorem Request.IsCommon.isQuiet {request : Request} (common : request.IsCommon)
    (reach : Nat → Prop) : request.IsQuiet reach := by
  cases request <;> trivial

/-- What programs may ask for and be told. -/
structure Guard where
  /-- What may be asked for besides evaluations. -/
  may : Request → Prop
  /-- The names that may be bound. -/
  binds : String → Prop
  /-- The faults that may be told. -/
  kind : Fault → Prop
  /-- What every script may ask for. -/
  common : ∀ {request : Request}, request.IsCommon → may request
  /-- What a script may ask for to bind a name. -/
  exported : ∀ {name : String}, binds name → ∀ value line, may (.exportValue name value line)
  /-- The faults that every script may be told. -/
  plain : ∀ {fault : Fault}, fault.IsPlain → kind fault

/-- The guard under which harmless requests are made and only plain faults are told. -/
def Guard.quiet (reach : Nat → Prop) : Guard where
  may := Request.IsQuiet reach
  binds _ := True
  kind := Fault.IsPlain
  common common := common.isQuiet reach
  exported _ _ _ := trivial
  plain plain := plain

namespace Program

variable {α β : Type} {guard : Guard}

/-- The program makes only requests that the guard lets through and asks to evaluate sources. If
that is refused it ends at once with the same fault. As long as it is told only faults that the
guard lets through it ends only in such. What counts as the fault of a result is given. -/
inductive Heeds (guard : Guard) (fault? : α → Option Fault) : Program α → Prop where
  /-- The program ends. -/
  | done {result : α} (ends : ∀ fault, fault? result = some fault → guard.kind fault) :
      Heeds guard fault? (.done result)
  /-- The program makes a request. -/
  | ask {request : Request} {next : request.Answer → Program α} (may : guard.may request)
      (rest : ∀ answer, (∀ fault, request.refusal? answer = some fault → guard.kind fault) →
        Heeds guard fault? (next answer)) :
      Heeds guard fault? (.ask request next)
  /-- The program asks to evaluate a source. -/
  | eval {language path : String} {line : Option Nat}
      {next : Except Fault ContextId → Program α}
      (rest : ∀ child, Heeds guard fault? (next (.ok child)))
      (refused : ∀ fault, ∃ result, next (.error fault) = .done result ∧
        fault? result = some fault) :
      Heeds guard fault? (.ask (.eval language path line) next)

/-- A program that ends without a fault. -/
theorem Heeds.ended {fault? : α → Option Fault} {result : α} (free : fault? result = none) :
    (Program.done result).Heeds guard fault? :=
  .done fun fault same => by rw [free] at same; simp at same

/-- Going on after a program that heeds a guard, with all faults of it kept. -/
theorem Heeds.bind {fault? : α → Option Fault} {faultAfter? : β → Option Fault}
    {first : Program α} {next : α → Program β} (heeds : first.Heeds guard fault?)
    (rest : ∀ result, fault? result = none → (next result).Heeds guard faultAfter?)
    (failed : ∀ result fault, fault? result = some fault →
      ∃ after, next result = .done after ∧ faultAfter? after = some fault) :
    (first.bind next).Heeds guard faultAfter? := by
  induction heeds with
  | @done result kind =>
    cases ends : fault? result with
    | none => exact rest result ends
    | some fault =>
      obtain ⟨after, stops, kept⟩ := failed result fault ends
      rw [Program.bind, stops]
      refine .done fun other same => ?_
      obtain rfl := Option.some.inj (kept.symm.trans same)
      exact kind _ ends
  | ask may _ ih => exact .ask may ih
  | eval _ refused ih =>
    refine .eval ih fun fault => ?_
    obtain ⟨result, stops, ends⟩ := refused fault
    obtain ⟨after, stopsAfter, kept⟩ := failed result fault ends
    exact ⟨after, by rw [stops]; exact stopsAfter, kept⟩

/-- A program without faults may be followed by any program that heeds the guard. -/
theorem Heeds.bind_of_none {faultAfter? : β → Option Fault} {first : Program α}
    {next : α → Program β} (heeds : first.Heeds guard fun _ => none)
    (rest : ∀ result, (next result).Heeds guard faultAfter?) :
    (first.bind next).Heeds guard faultAfter? :=
  heeds.bind (fun result _ => rest result) fun _ _ impossible => by simp at impossible

/-- One request that can be refused. -/
theorem heeds_send (request : Request) {fault? : request.Answer → Option Fault}
    (may : guard.may request) (told : ∀ answer, request.refusal? answer = fault? answer) :
    (send request).Heeds guard fault? :=
  .ask may fun answer kind => .done fun fault refused =>
    kind fault ((told answer).trans refused)

/-- Seeing the shared objects. -/
theorem heeds_inspect : inspect.Heeds guard fun _ => none :=
  heeds_send .inspect (guard.common trivial) fun _ => rfl

/-- Making a shared record. -/
theorem heeds_allocate (pairs : List (String × Value)) :
    (allocate pairs).Heeds guard fun _ => none :=
  heeds_send (.allocate pairs) (guard.common trivial) fun _ => rfl

/-- Setting a field of a shared object. -/
theorem heeds_setField (target : Reference) (name : String) (value : Value) :
    (setField target name value).Heeds guard Fault.of? :=
  heeds_send (.setField target name value) (guard.common trivial) fun _ => rfl

/-- Calling a function. -/
theorem heeds_call (function : Reference) (arguments : List Value) :
    (call function arguments).Heeds guard Fault.of? :=
  heeds_send (.call function arguments) (guard.common trivial) fun _ => rfl

/-- Looking a name up. -/
theorem heeds_importName (name : String) (line : Option Nat) :
    (importName name line).Heeds guard Fault.of? :=
  heeds_send (.importName name line) (guard.common trivial) fun _ => rfl

/-- Binding a name to a value. -/
theorem heeds_exportValue {name : String} (binds : guard.binds name) (value : Value)
    (line : Option Nat) : (exportValue name value line).Heeds guard fun _ => none :=
  heeds_send (.exportValue name value line) (guard.exported binds value line) fun _ => rfl

/-- Printing a line. -/
theorem heeds_print (line : String) : (print line).Heeds guard Fault.of? :=
  heeds_send (.print line) (guard.common trivial) fun _ => rfl

/-- One request to evaluate a source. -/
theorem heeds_eval (language path : String) (line : Option Nat) :
    (Program.eval language path line).Heeds guard Fault.of? :=
  .eval (fun _ => .ended rfl) fun fault => ⟨.error fault, rfl, rfl⟩

/-- A program that heeds the quiet guard passes faults on. -/
theorem Heeds.passesOn {reach : Nat → Prop} {fault? : α → Option Fault} {program : Program α}
    (heeds : program.Heeds (.quiet reach) fault?) : program.PassesOn reach True fault? := by
  induction heeds with
  | done ends => exact .done ends
  | ask may _ ih => exact .quiet may ih
  | eval _ refused ih => exact .eval trivial ih refused

end Program

namespace Forms

variable {α β : Type} {guard : Guard}

/-- The fault of an evaluation. -/
def Evaluation.fault? (ended : Except Trouble α × Fields Datum) : Option Fault :=
  Fault.of? (ended.1.mapError Trouble.fault)

/-- The end of an evaluation that came to a value. -/
@[simp] theorem Evaluation.fault?_ok (value : α) (locals : Fields Datum) :
    Evaluation.fault? (.ok value, locals) = none := rfl

/-- The end of an evaluation that failed. -/
@[simp] theorem Evaluation.fault?_error (trouble : Trouble) (locals : Fields Datum) :
    Evaluation.fault? ((.error trouble : Except Trouble α), locals) = some trouble.fault := rfl

/-- The evaluation heeds a guard, whatever the locals are. -/
def Evaluation.Heeds (guard : Guard) (evaluation : Evaluation α) : Prop :=
  ∀ locals, (evaluation.run.run locals).Heeds guard Evaluation.fault?

namespace Evaluation

/-- An evaluation that only ends heeds every guard. -/
theorem heeds_pure (value : α) : (pure value : Evaluation α).Heeds guard := fun locals => by
  rw [run_pure]
  exact .ended rfl

/-- An evaluation that fails in a plain way heeds every guard. -/
theorem heeds_throw {trouble : Trouble} (plain : trouble.fault.IsPlain) :
    (throw trouble : Evaluation α).Heeds guard := fun locals => by
  rw [run_throw]
  refine .done fun fault same => ?_
  simp only [fault?_error, Option.some.injEq] at same
  exact same ▸ guard.plain plain

/-- Evaluations that heed a guard, one after the other. -/
theorem Heeds.bind {first : Evaluation α} {next : α → Evaluation β} (heeds : first.Heeds guard)
    (rest : ∀ value, (next value).Heeds guard) : (first >>= next).Heeds guard := fun locals => by
  rw [run_bind]
  refine (heeds locals).bind ?_ ?_
  · rintro ⟨outcome, locals⟩ ends
    cases outcome with
    | ok value => exact rest value locals
    | error trouble => simp at ends
  · rintro ⟨outcome, locals⟩ fault ends
    cases outcome with
    | ok value => simp at ends
    | error trouble => exact ⟨_, rfl, ends⟩

/-- An outcome that is no fault or a plain one heeds every guard. -/
theorem heeds_ofOutcome {outcome : Except Fault α} (plain : Fault.Plainly outcome) :
    (ofOutcome outcome).Heeds guard := fun locals => by
  rw [run_ofOutcome]
  refine .done fun fault same => guard.plain (plain fault ?_)
  cases outcome <;> exact same

/-- A program without faults heeds a guard also as an evaluation. -/
theorem heeds_liftM {program : Program α} (heeds : program.Heeds guard fun _ => none) :
    (liftM program : Evaluation α).Heeds guard := fun locals => by
  rw [run_liftM]
  exact heeds.bind_of_none fun answer => .ended rfl

/-- A request heeds a guard if the program that makes it does. -/
theorem heeds_request {program : Program (Except Fault α)}
    (heeds : program.Heeds guard Fault.of?) :
    (request program).Heeds guard := fun locals => by
  rw [run_request]
  refine heeds.bind ?_ ?_
  · intro outcome ends
    cases outcome with
    | ok value => exact .ended rfl
    | error fault => simp [Fault.of?] at ends
  · intro outcome fault ends
    cases outcome with
    | ok value => simp [Fault.of?] at ends
    | error fault => exact ⟨_, rfl, ends⟩

/-- Seeing the locals heeds every guard. -/
theorem heeds_get : (get : Evaluation (Fields Datum)).Heeds guard := fun locals => by
  rw [run_get]
  exact .ended rfl

/-- Defining a local heeds every guard. -/
theorem heeds_define (name : String) (datum : Datum) : (define name datum).Heeds guard :=
  fun locals => by
    rw [run_define]
    exact .ended rfl

end Evaluation

end Forms

namespace Statements

variable {α β : Type} {guard : Guard}

/-- The fault of an evaluation. -/
def Evaluation.fault? (ended : Except Trouble α) : Option Fault :=
  Fault.of? (ended.mapError Trouble.fault)

/-- The end of an evaluation that came to a value. -/
@[simp] theorem Evaluation.fault?_ok (value : α) : Evaluation.fault? (.ok value) = none := rfl

/-- The end of an evaluation that failed. -/
@[simp] theorem Evaluation.fault?_error (trouble : Trouble) :
    Evaluation.fault? (.error trouble : Except Trouble α) = some trouble.fault := rfl

/-- The evaluation heeds a guard. -/
def Evaluation.Heeds (guard : Guard) (evaluation : Evaluation α) : Prop :=
  evaluation.run.Heeds guard Evaluation.fault?

namespace Evaluation

/-- An evaluation that only ends heeds every guard. -/
theorem heeds_pure (value : α) : (pure value : Evaluation α).Heeds guard := .ended rfl

/-- An evaluation that fails in a plain way heeds every guard. -/
theorem heeds_throw {trouble : Trouble} (plain : trouble.fault.IsPlain) :
    (throw trouble : Evaluation α).Heeds guard := by
  refine .done fun fault same => ?_
  simp only [fault?_error, Option.some.injEq] at same
  exact same ▸ guard.plain plain

/-- Evaluations that heed a guard, one after the other. -/
theorem Heeds.bind {first : Evaluation α} {next : α → Evaluation β} (heeds : first.Heeds guard)
    (rest : ∀ value, (next value).Heeds guard) : (first >>= next).Heeds guard := by
  unfold Heeds
  rw [run_bind]
  refine Program.Heeds.bind heeds ?_ ?_
  · intro outcome ends
    cases outcome with
    | ok value => exact rest value
    | error trouble => simp at ends
  · intro outcome fault ends
    cases outcome with
    | ok value => simp at ends
    | error trouble => exact ⟨_, rfl, ends⟩

/-- An outcome that is no fault or a plain one heeds every guard. -/
theorem heeds_ofOutcome {outcome : Except Fault α} (plain : Fault.Plainly outcome) :
    (ofOutcome outcome).Heeds guard := by
  unfold Heeds
  rw [run_ofOutcome]
  refine .done fun fault same => guard.plain (plain fault ?_)
  cases outcome <;> exact same

/-- A program without faults heeds a guard also as an evaluation. -/
theorem heeds_liftM {program : Program α} (heeds : program.Heeds guard fun _ => none) :
    (liftM program : Evaluation α).Heeds guard := by
  unfold Heeds
  rw [run_liftM]
  exact heeds.bind_of_none fun answer => .ended rfl

/-- A request heeds a guard if the program that makes it does. -/
theorem heeds_request {program : Program (Except Fault α)}
    (heeds : program.Heeds guard Fault.of?) : (request program).Heeds guard := by
  unfold Heeds
  rw [run_request]
  refine heeds.bind ?_ ?_
  · intro outcome ends
    cases outcome with
    | ok value => exact .ended rfl
    | error fault => simp [Fault.of?] at ends
  · intro outcome fault ends
    cases outcome with
    | ok value => simp [Fault.of?] at ends
    | error fault => exact ⟨_, rfl, ends⟩

end Evaluation

end Statements

end Interchange
