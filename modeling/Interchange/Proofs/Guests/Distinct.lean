import Interchange.Proofs.Guests.Evaluation
import Interchange.Proofs.Guests.Rule
import Interchange.Proofs.Value.Data

/-!
# Forms keep names distinct

As long as a program is told only values that have no name twice in a record, it hands over only
such values (`Program.Distinct`). So do evaluations of forms; besides, whatever a form says, what it
comes to has no name twice in a record either, and nor have the locals that it leaves, if those that
it found had none (`Forms.eval_preserves`).
-/
namespace Interchange

open Fault

namespace Request

/-- No value in what is asked for has a name twice in a record. -/
def NamesDistinct : Request → Prop
  | allocate pairs => ∀ pair ∈ pairs, pair.2.NamesDistinct
  | setField _ _ value => value.NamesDistinct
  | call _ arguments => ∀ argument ∈ arguments, argument.NamesDistinct
  | exportValue _ value _ => value.NamesDistinct
  | _ => True

/-- No value in an answer has a name twice in a record. -/
def AnswersDistinct : (request : Request) → request.Answer → Prop
  | inspect, heap => heap.NamesDistinct
  | call .., answer => ComesTo Value.NamesDistinct answer
  | importName .., answer => ComesTo Value.NamesDistinct answer
  | _, _ => True

end Request

namespace Program

variable {ε α β : Type} {kind wider : α → Prop} {last : β → Prop}

/-- As long as no value in an answer has a name twice in a record, none that is handed over has, and
the result is of a kind. -/
def Distinct (kind : α → Prop) : Program α → Prop
  | done result => kind result
  | ask request next => request.NamesDistinct ∧
    ∀ answer, request.AnswersDistinct answer → (next answer).Distinct kind

/-- The kind may be wider. -/
theorem Distinct.mono {program : Program α} (distinct : program.Distinct kind)
    (wide : ∀ result, kind result → wider result) : program.Distinct wider := by
  induction program with
  | done result => exact wide result distinct
  | ask request next ih =>
    exact ⟨distinct.1, fun answer given => ih answer (distinct.2 answer given)⟩

/-- Programs one after the other. -/
theorem Distinct.bind {program : Program α} {next : α → Program β}
    (distinct : program.Distinct kind)
    (rest : ∀ result, kind result → (next result).Distinct last) :
    (program.bind next).Distinct last := by
  induction program with
  | done result => exact rest result distinct
  | ask request more ih =>
    exact ⟨distinct.1, fun answer given => ih answer (distinct.2 answer given)⟩

/-- A single request. -/
theorem distinct_send (request : Request) (given : request.NamesDistinct) :
    (send request).Distinct request.AnswersDistinct := ⟨given, fun _ answered => answered⟩

/-- Programs that can fail, one after the other. -/
theorem Distinct.andThen {first : ExceptT ε Program α} {next : α → ExceptT ε Program β}
    (distinct : first.run.Distinct (ComesTo kind))
    (rest : ∀ value, kind value → (next value).run.Distinct (ComesTo last)) :
    (first >>= next).run.Distinct (ComesTo last) := by
  rw [ExceptT.run_bind, bind_eq_bind]
  refine distinct.bind fun outcome comes => ?_
  cases outcome with
  | ok value => exact rest value (comes value rfl)
  | error fault => exact comesTo_error fault

/-- A program that cannot fail, as one that can. -/
theorem Distinct.lift {program : Program α} (distinct : program.Distinct kind) :
    (liftM program : ExceptT ε Program α).run.Distinct (ComesTo kind) :=
  distinct.bind fun _ right => comesTo_ok right

end Program

open Program (distinct_send)

namespace Forms

/-- No local has a name twice in a record. -/
def LocalsDistinct (locals : Fields Datum) : Prop := ∀ entry ∈ locals, entry.2.NamesDistinct

/-- Started with locals that have no name twice in a record and told only such values, the
evaluation hands over and leaves only such data, and what it comes to is of a kind. -/
def Evaluation.Preserves {α : Type} (kind : α → Prop) (evaluation : Evaluation α) : Prop :=
  ∀ locals, LocalsDistinct locals →
    (evaluation.run.run locals).Distinct fun (outcome, left) =>
      ComesTo kind outcome ∧ LocalsDistinct left

namespace Evaluation

variable {α β : Type} {kind : α → Prop} {last : β → Prop}

/-- Ending. -/
theorem preserves_pure {value : α} (right : kind value) :
    (pure value : Evaluation α).Preserves kind := fun _ held => ⟨comesTo_ok right, held⟩

/-- Failing. -/
theorem preserves_throw (trouble : Trouble) : (throw trouble : Evaluation α).Preserves kind :=
  fun _ held => ⟨comesTo_error trouble, held⟩

/-- One after the other. -/
theorem Preserves.bind {first : Evaluation α} {next : α → Evaluation β}
    (preserves : first.Preserves kind) (rest : ∀ value, kind value → (next value).Preserves last) :
    (first >>= next).Preserves last := by
  intro locals held
  rw [run_bind]
  refine (preserves locals held).bind fun ⟨outcome, between⟩ ⟨comes, kept⟩ => ?_
  cases outcome with
  | ok value => exact rest value (comes value rfl) between kept
  | error trouble => exact ⟨comesTo_error trouble, kept⟩

/-- Going on with an outcome. -/
theorem preserves_ofOutcome {outcome : Except Fault α} (comes : ComesTo kind outcome) :
    (ofOutcome outcome).Preserves kind := by
  intro locals held
  rw [run_ofOutcome]
  exact ⟨comes.mapError _, held⟩

/-- Asking the exchange. -/
theorem preserves_liftM {program : Program α} (distinct : program.Distinct kind) :
    (liftM program : Evaluation α).Preserves kind := by
  intro locals held
  rw [run_liftM]
  exact distinct.bind fun answer right => ⟨comesTo_ok right, held⟩

/-- Asking the exchange for something that can be refused. -/
theorem preserves_request {program : Program (Except Fault α)}
    (distinct : program.Distinct (ComesTo kind)) : (request program).Preserves kind :=
  (preserves_liftM distinct).bind fun _ comes => preserves_ofOutcome comes

/-- Seeing the locals. -/
theorem preserves_get : (get : Evaluation (Fields Datum)).Preserves LocalsDistinct :=
  fun _ held => ⟨comesTo_ok held, held⟩

/-- Defining a local. -/
theorem preserves_define (name : String) {datum : Datum} (distinct : datum.NamesDistinct) :
    (define name datum).Preserves fun _ => True := by
  intro locals held
  rw [run_define]
  refine ⟨comesTo_ok trivial, fun entry mem => ?_⟩
  rcases Fields.mem_of_mem_insert mem with rfl | before
  · exact distinct
  · exact held entry before

end Evaluation

open Evaluation

namespace Datum

variable {heap : Heap} {datum : Datum}

/-- Fields of data in which no record has a name twice are such data. -/
theorem NamesDistinct.comesTo_field (distinct : datum.NamesDistinct) (held : heap.NamesDistinct)
    (name : String) : ComesTo NamesDistinct (datum.field heap name) := by
  cases distinct with
  | record names inside =>
    exact comesTo_orElse fun inner found => inside _ (Fields.mem_of_find? found)
  | foreign target =>
    have read : ComesTo Value.NamesDistinct (heap.getField target name) :=
      fun value same => held.getField same
    exact read.map fun value given => .ofValue given
  | _ => exact comesTo_error _

/-- So are their items. -/
theorem NamesDistinct.comesTo_nth (distinct : datum.NamesDistinct) (held : heap.NamesDistinct)
    (position : Nat) : ComesTo NamesDistinct (datum.nth heap position) := by
  cases distinct with
  | list inside =>
    exact comesTo_orElse fun inner found => inside _ (List.mem_of_getElem? found)
  | foreign target =>
    have read : ComesTo Value.NamesDistinct (heap.getIndex target position) :=
      fun value same => held.getIndex same
    exact read.map fun value given => .ofValue given
  | _ => exact comesTo_error _

end Datum

/-- Data, values and shared objects in which no record has a name twice. -/
def Kinds.distinct : Kinds where
  data := Datum.NamesDistinct
  values := Value.NamesDistinct
  heaps := Heap.NamesDistinct
  nil := .nil
  bool := .bool
  integer := .integer
  float := .float
  string := .string
  foreign := .foreign
  list := .list
  record {fields} inside := by
    obtain ⟨names, among⟩ := Fields.ofPairs_of_pairs fields
    exact .record names fun field mem => inside field (among field mem)
  ofValue := .ofValue
  toValue _ _ given := Datum.namesDistinct_of_toValue given
  field := Datum.NamesDistinct.comesTo_field
  nth := Datum.NamesDistinct.comesTo_nth

/-- Keeping names distinct is a discipline. -/
def Discipline.preserving : Discipline .distinct where
  keeps := Evaluation.Preserves
  binds _ := True
  defines _ := True
  pure := preserves_pure
  fail _ := preserves_throw _
  bind := Preserves.bind
  get := preserves_get
  define _ distinct := preserves_define _ distinct
  inspect := preserves_liftM (distinct_send .inspect trivial)
  allocate given := preserves_liftM (distinct_send (.allocate _) given)
  exportValue _ given line := preserves_liftM (distinct_send (.exportValue _ _ line) given)
  setField target name _ given :=
    preserves_request ((distinct_send (.setField target name _) given).mono
      fun answer _ => comesTo_any answer)
  call function _ given := preserves_request (distinct_send (.call function _) given)
  importName name line := preserves_request (distinct_send (.importName name line) trivial)
  eval language path line :=
    preserves_request ((distinct_send (.eval language path line) trivial).mono
      fun answer _ => comesTo_any answer)
  print line :=
    preserves_request ((distinct_send (.print line) trivial).mono fun answer _ =>
      comesTo_any answer)

/-- Whatever a form says: started with locals that have no name twice in a record and told only such
values, it comes to a datum that has none and leaves such locals. -/
theorem eval_preserves (line : Nat) (form : Sexp) :
    (eval line form).Preserves Datum.NamesDistinct :=
  eval_disciplined .preserving line (fun _ _ => trivial) fun _ _ => trivial

/-- So do forms one after the other. -/
theorem evalUnit_preserves (forms : List (Nat × Sexp)) :
    (evalUnit forms).Preserves fun _ => True :=
  @evalUnit_disciplined _ .preserving forms fun form _ => eval_preserves form.1 form.2

/-- A text in the form language. -/
theorem evaluate_distinct {locals : Fields Datum} (held : LocalsDistinct locals) (text : String) :
    (evaluate locals text).Distinct fun ended => LocalsDistinct ended.1 := by
  have read := @evalRead_disciplined _ .preserving (Reader.forms text).1
    (fun form _ => eval_preserves form.1 form.2) (Reader.forms text).2
  exact (read locals held).bind fun _ ended => ended.2

end Forms

end Interchange
