import Interchange.Program

/-!
# Programs that pass faults on

What the programs of guest languages do with the faults that they meet. A request to evaluate a
source may be refused with any fault, and then the program ends at once with that very fault. All
other requests are harmless, and a program that is told only plain faults ends only in plain ones
(`Program.PassesOn`). Programs that never ask for an evaluation are quiet (`Program.IsQuiet`).
-/
namespace Interchange

namespace Fault

/-- A fault that tells neither of an evaluation that failed nor of one that was nested too
deeply. -/
def IsPlain : Fault → Prop
  | evaluation .. => False
  | depthExceeded _ => False
  | _ => True

/-- The fault of an outcome. -/
def of? {α : Type} : Except Fault α → Option Fault
  | .ok _ => none
  | .error fault => some fault

/-- An outcome that is none or a plain fault. -/
def Plainly {α : Type} (outcome : Except Fault α) : Prop :=
  ∀ fault, of? outcome = some fault → fault.IsPlain

end Fault

/-- A query that a registry answers by itself. -/
def Query.AsksRegistry : Query → Prop
  | names => True
  | originOf _ => True
  | isJournaling => True
  | events => True
  | _ => False

namespace Request

/-- The fault with which a request was refused. -/
def refusal? : (request : Request) → request.Answer → Option Fault
  | .setField .., answer => Fault.of? answer
  | .call .., answer => Fault.of? answer
  | .importName .., answer => Fault.of? answer
  | .eval .., answer => Fault.of? answer
  | .evaluate .., answer => Fault.of? answer
  | .evalUnit .., answer => Fault.of? answer
  | .print .., answer => Fault.of? answer
  | _, _ => none

/-- A request that leaves engines alone; a routine that it hands over is one of the given ones. -/
def IsQuiet (reach : Nat → Prop) : Request → Prop
  | .look query => query.AsksRegistry
  | .eval .. => False
  | .evaluate .. => False
  | .evalUnit .. => False
  | .exportLazy _ routine => reach routine
  | _ => True

/-- An answer that is no refusal or one with a plain fault. -/
def Plainly (request : Request) (answer : request.Answer) : Prop :=
  ∀ fault, request.refusal? answer = some fault → fault.IsPlain

end Request

namespace Program

variable {α β γ : Type}

/-- The program makes harmless requests and, if it may, asks to evaluate sources. If that is
refused it ends at once with the same fault; all its other faults are plain. What counts as the
fault of a result is given, and so are the routines that it may hand over. -/
inductive PassesOn (reach : Nat → Prop) (mayEval : Prop) (fault? : α → Option Fault) :
    Program α → Prop where
  /-- The program ends. -/
  | done {result : α} (plain : ∀ fault, fault? result = some fault → fault.IsPlain) :
      PassesOn reach mayEval fault? (.done result)
  /-- The program makes a harmless request. -/
  | quiet {request : Request} {next : request.Answer → Program α}
      (harmless : request.IsQuiet reach)
      (rest : ∀ answer, request.Plainly answer → PassesOn reach mayEval fault? (next answer)) :
      PassesOn reach mayEval fault? (.ask request next)
  /-- The program asks to evaluate a source. -/
  | eval {language path : String} {line : Option Nat}
      {next : Except Fault ContextId → Program α} (allowed : mayEval)
      (rest : ∀ child, PassesOn reach mayEval fault? (next (.ok child)))
      (refused : ∀ fault, ∃ result, next (.error fault) = .done result ∧
        fault? result = some fault) :
      PassesOn reach mayEval fault? (.ask (.eval language path line) next)

/-- The program evaluates nothing and ends only in plain faults if it is told only such. -/
def IsQuiet (reach : Nat → Prop) (program : Program (Except Fault α)) : Prop :=
  program.PassesOn reach False Fault.of?

variable {reach : Nat → Prop} {mayEval : Prop}

/-- A program that ends without a fault. -/
theorem PassesOn.ended {fault? : α → Option Fault} {result : α} (free : fault? result = none) :
    (Program.done result).PassesOn reach mayEval fault? :=
  .done fun fault same => by rw [free] at same; simp at same

/-- Going on after a program that passes faults on, with all faults of it kept. -/
theorem PassesOn.bind {fault? : α → Option Fault} {faultAfter? : β → Option Fault}
    {first : Program α} {next : α → Program β} (passes : first.PassesOn reach mayEval fault?)
    (rest : ∀ result, fault? result = none → (next result).PassesOn reach mayEval faultAfter?)
    (failed : ∀ result fault, fault? result = some fault →
      ∃ after, next result = .done after ∧ faultAfter? after = some fault) :
    (first.bind next).PassesOn reach mayEval faultAfter? := by
  induction passes with
  | @done result plain =>
    cases ends : fault? result with
    | none => exact rest result ends
    | some fault =>
      obtain ⟨after, stops, kept⟩ := failed result fault ends
      rw [Program.bind, stops]
      refine .done fun other same => ?_
      obtain rfl := Option.some.inj (kept.symm.trans same)
      exact plain _ ends
  | quiet harmless _ ih => exact .quiet harmless ih
  | eval allowed _ refused ih =>
    refine .eval allowed ih fun fault => ?_
    obtain ⟨result, stops, ends⟩ := refused fault
    obtain ⟨after, stopsAfter, kept⟩ := failed result fault ends
    exact ⟨after, by rw [stops]; exact stopsAfter, kept⟩

/-- A program without faults may be followed by any program that passes faults on. -/
theorem PassesOn.bind_of_none {faultAfter? : β → Option Fault} {first : Program α}
    {next : α → Program β} (passes : first.PassesOn reach mayEval fun _ => none)
    (rest : ∀ result, (next result).PassesOn reach mayEval faultAfter?) :
    (first.bind next).PassesOn reach mayEval faultAfter? :=
  passes.bind (fun result _ => rest result) fun _ _ impossible => by simp at impossible

/-- One harmless request that can be refused. -/
theorem passesOn_send (request : Request) {fault? : request.Answer → Option Fault}
    (harmless : request.IsQuiet reach)
    (told : ∀ answer, request.refusal? answer = fault? answer) :
    (send request).PassesOn reach mayEval fault? :=
  .quiet harmless fun answer plain => .done fun fault refused =>
    plain fault ((told answer).trans refused)

/-- Looking a name up. -/
theorem passesOn_importName (name : String) (line : Option Nat) :
    (importName name line).PassesOn reach mayEval Fault.of? :=
  passesOn_send (.importName name line) trivial fun _ => rfl

/-- Binding a name to a value. -/
theorem passesOn_exportValue (name : String) (value : Value) (line : Option Nat) :
    (exportValue name value line).PassesOn reach mayEval fun _ => none :=
  passesOn_send (.exportValue name value line) trivial fun _ => rfl

/-- Being counted. -/
theorem passesOn_tally (name : String) : (tally name).PassesOn reach mayEval fun _ => none :=
  passesOn_send (.tally name) trivial fun _ => rfl

end Program

end Interchange
