import Interchange.Proofs.Fields
import Interchange.Proofs.Guests.Execution
import Interchange.Proofs.Guests.Names
import Interchange.Proofs.Guests.Rule
import Interchange.Session

/-!
# Locals stay bound

What a local is bound to is what its name gives afterwards (`Statements.gives_of_find?`,
`Forms.gives_of_find?`), whatever is executed in between, as long as that does not bind the local
again (`Statements.Leads`, `Forms.Leads`). The exceptions are the names that are literals to the
reading side, although the binding side takes them: `true`, `false` and `null` of the statement
language, and `nil` of the form language.

What is executed is looked at with the answers that it gets from the exchange (`Program.Told`),
which may be any.
-/
namespace Interchange

namespace Program

variable {α β : Type}

/-- Told some answers to what it asks for, the program ends with a result. -/
inductive Told : Program α → List ((request : Request) × request.Answer) → α → Prop where
  /-- It ends. -/
  | done (result : α) : Told (.done result) [] result
  /-- It asks for something and goes on with the answer. -/
  | ask {request : Request} {next : request.Answer → Program α}
      {answers : List ((request : Request) × request.Answer)} {result : α}
      (answer : request.Answer) (rest : Told (next answer) answers result) :
      Told (.ask request next) (⟨request, answer⟩ :: answers) result

variable {answers : List ((request : Request) × request.Answer)}

/-- A program that has ended is told nothing. -/
theorem told_done {result ended : α} (told : (Program.done result).Told answers ended) :
    answers = [] ∧ ended = result := by
  cases told
  exact ⟨rfl, rfl⟩

/-- Going on after a program: it has ended before, told the first answers. -/
theorem Told.of_bind {program : Program α} {next : α → Program β} {ended : β}
    (told : (program.bind next).Told answers ended) :
    ∃ result first rest, answers = first ++ rest ∧ program.Told first result ∧
      (next result).Told rest ended := by
  induction program generalizing answers with
  | done result => exact ⟨result, [], answers, rfl, .done result, told⟩
  | ask request later ih =>
    cases told with
    | @ask _ _ answers _ answer told =>
      obtain ⟨result, first, rest, rfl, begun, goesOn⟩ := ih answer told
      exact ⟨result, ⟨request, answer⟩ :: first, rest, rfl, .ask answer begun, goesOn⟩

/-- A program that has ended and one that goes on after it are told the answers of both. -/
theorem Told.bind {program : Program α} {next : α → Program β} {result : α} {ended : β}
    {further : List ((request : Request) × request.Answer)} (told : program.Told answers result)
    (goesOn : (next result).Told further ended) :
    (program.bind next).Told (answers ++ further) ended := by
  induction told with
  | done result => exact goesOn
  | ask answer _ ih => exact .ask answer (ih goesOn)

end Program

namespace Statements

variable {locals left : Fields Item} {name : String}

/-- The local that a statement binds, or that it sets a field of. -/
def Statement.bound? : Statement → Option String
  | bindLocal name _ => some name
  | setField name _ _ => some name
  | _ => none

/-- What a statement is told is what the evaluation is told of the locals that it yields. -/
theorem Statement.told_execute_iff {statement : Statement} {line : Nat}
    {answers : List ((request : Request) × request.Answer)}
    {ended : Except Trouble Unit × Fields Item} :
    ((statement.execute line).run.run locals).Told answers ended ↔
      ∃ outcome, (statement.yields locals line).run.Told answers outcome ∧
        ended = Execution.conclude locals outcome := by
  rw [statement.run_execute]
  constructor
  · intro told
    obtain ⟨outcome, begun, rest, rfl, yielded, concluded⟩ := told.of_bind
    obtain ⟨rfl, rfl⟩ := Program.told_done concluded
    exact ⟨outcome, (List.append_nil begun).symm ▸ yielded, rfl⟩
  · rintro ⟨outcome, yielded, rfl⟩
    exact List.append_nil answers ▸ yielded.bind (.done _)

/-- A statement that succeeds leaves the locals that it yields. -/
theorem Statement.told_ok_iff {statement : Statement} {line : Nat}
    {answers : List ((request : Request) × request.Answer)} :
    ((statement.execute line).run.run locals).Told answers (.ok (), left) ↔
      (statement.yields locals line).run.Told answers (.ok left) := by
  rw [told_execute_iff]
  constructor
  · rintro ⟨outcome, yielded, same⟩
    cases outcome with
    | ok yields => exact (Prod.mk.inj same).2 ▸ yielded
    | error trouble => cases (Prod.mk.inj same).1
  · exact fun yielded => ⟨_, yielded, rfl⟩

/-- A statement that fails yields no locals, and leaves them as they were. -/
theorem Statement.told_error_iff {statement : Statement} {line : Nat} {trouble : Trouble}
    {answers : List ((request : Request) × request.Answer)} :
    ((statement.execute line).run.run locals).Told answers (.error trouble, left) ↔
      (statement.yields locals line).run.Told answers (.error trouble) ∧ left = locals := by
  rw [told_execute_iff]
  constructor
  · rintro ⟨outcome, yielded, same⟩
    cases outcome with
    | ok yields => cases (Prod.mk.inj same).1
    | error other =>
      obtain ⟨told, rfl⟩ := Prod.mk.inj same
      obtain rfl := Except.error.inj told
      exact ⟨yielded, rfl⟩
  · rintro ⟨yielded, rfl⟩
    exact ⟨_, yielded, rfl⟩

/-- From some locals to others by statements on any lines, told any answers: statements that succeed
and do not bind a name, nor set a field of it, and statements that fail. -/
inductive Leads (name : String) : Fields Item → Fields Item → Prop where
  /-- By none. -/
  | refl (locals : Fields Item) : Leads name locals locals
  /-- By one that succeeds, and others. -/
  | succeeded {locals between left : Fields Item} {line : Nat} {statement : Statement}
      {answers : List ((request : Request) × request.Answer)}
      (spares : statement.bound? ≠ some name)
      (told : ((statement.execute line).run.run locals).Told answers (.ok (), between))
      (further : Leads name between left) : Leads name locals left
  /-- By one that fails, and others. -/
  | failed {locals between left : Fields Item} {line : Nat} {statement : Statement}
      {answers : List ((request : Request) × request.Answer)} {trouble : Trouble}
      (told : ((statement.execute line).run.run locals).Told answers (.error trouble, between))
      (further : Leads name between left) : Leads name locals left

/-- If the evaluation comes to a value, that is one of the kind. -/
def Evaluation.Ensures {α : Type} (kind : α → Prop) (evaluation : Evaluation α) : Prop :=
  ∀ answers value, evaluation.run.Told answers (.ok value) → kind value

namespace Evaluation

variable {α β : Type} {kind : α → Prop}

/-- An evaluation that only ends. -/
theorem ensures_pure {value : α} (right : kind value) :
    (pure value : Evaluation α).Ensures kind := by
  intro answers other told
  obtain ⟨_, same⟩ := Program.told_done told
  exact Except.ok.inj same ▸ right

/-- An evaluation that fails comes to no value. -/
theorem ensures_throw (trouble : Trouble) : (throw trouble : Evaluation α).Ensures kind := by
  intro answers value told
  obtain ⟨_, same⟩ := Program.told_done told
  cases same

/-- Evaluations one after the other: if they come to a value, the first one has come to one. -/
theorem told_bind {first : Evaluation β} {next : β → Evaluation α}
    {answers : List ((request : Request) × request.Answer)} {value : α}
    (told : (first >>= next).run.Told answers (.ok value)) :
    ∃ middle begun rest, answers = begun ++ rest ∧ first.run.Told begun (.ok middle) ∧
      (next middle).run.Told rest (.ok value) := by
  rw [run_bind] at told
  obtain ⟨outcome, begun, rest, rfl, toldFirst, toldNext⟩ := told.of_bind
  cases outcome with
  | ok middle => exact ⟨middle, begun, rest, rfl, toldFirst, toldNext⟩
  | error trouble =>
    obtain ⟨_, same⟩ := Program.told_done toldNext
    cases same

/-- What comes last decides the kind. -/
theorem ensures_bind {first : Evaluation β} {next : β → Evaluation α}
    (last : ∀ middle, (next middle).Ensures kind) : (first >>= next).Ensures kind := by
  intro answers value told
  obtain ⟨middle, begun, rest, _, _, toldNext⟩ := told_bind told
  exact last middle rest value toldNext

end Evaluation

open Evaluation

/-- A statement that succeeds leaves the locals that it does not bind as they are. -/
theorem yields_keeps (locals : Fields Item) (line : Nat) {statement : Statement} {name : String}
    (spares : statement.bound? ≠ some name) :
    (statement.yields locals line).Ensures fun left => left.find? name = locals.find? name := by
  have other {local' : String} (item : Item) (different : some local' ≠ some name) :
      Fields.find? name (locals.insert local' item) = locals.find? name :=
    Fields.find?_insert_of_ne item locals fun same => different (congrArg some same.symm)
  cases statement with
  | bindLocal bound source => exact ensures_bind fun item => ensures_pure (other item spares)
  | publish published source =>
    exact ensures_bind fun item => ensures_bind fun value => ensures_bind fun _ => ensures_pure rfl
  | eval language path => exact ensures_bind fun _ => ensures_pure rfl
  | print source => exact ensures_bind fun item => ensures_bind fun _ => ensures_pure rfl
  | setField bound field source =>
    refine ensures_bind fun item => ?_
    split
    · exact ensures_bind fun value => ensures_bind fun _ => ensures_pure rfl
    · exact ensures_pure (other _ spares)
    · exact ensures_throw _
    · exact ensures_throw _
  | malformed malformation => exact ensures_throw _

/-- What a name is bound to stays. -/
theorem Leads.find? (leads : Leads name locals left) : left.find? name = locals.find? name := by
  induction leads with
  | refl locals => rfl
  | succeeded spares told _ ih =>
    exact ih.trans (yields_keeps _ _ spares _ _ (Statement.told_ok_iff.1 told))
  | failed told _ ih => exact ih.trans (by rw [(Statement.told_error_iff.1 told).2])

/-- One after the other. -/
theorem Leads.trans {between : Fields Item} (first : Leads name locals between)
    (second : Leads name between left) : Leads name locals left := by
  induction first with
  | refl locals => exact second
  | succeeded spares told _ ih => exact .succeeded spares told (ih second)
  | failed told _ ih => exact .failed told (ih second)

/-- The statements of a unit, up to its end or to the first one that fails. -/
theorem Leads.of_execute {statements : List (Nat × Statement)}
    {answers : List ((request : Request) × request.Answer)} {outcome : Except Trouble Unit}
    (spare : ∀ statement ∈ statements, statement.2.bound? ≠ some name)
    (told : (execute locals statements).Told answers (left, outcome)) : Leads name locals left := by
  induction statements generalizing locals answers with
  | nil =>
    obtain ⟨_, same⟩ := Program.told_done told
    cases same
    exact .refl left
  | cons statement statements ih =>
    obtain ⟨spares, others⟩ := List.forall_mem_cons.1 spare
    rw [execute_cons] at told
    obtain ⟨outcome, begun, rest, rfl, toldFirst, toldNext⟩ := told.of_bind
    cases outcome with
    | ok between => exact .succeeded spares (Statement.told_ok_iff.2 toldFirst) (ih others toldNext)
    | error trouble =>
      obtain ⟨_, same⟩ := Program.told_done toldNext
      cases same
      exact .failed (Statement.told_error_iff.2 ⟨toldFirst, rfl⟩) (.refl _)

/-- The statements of a text. -/
theorem Leads.of_evaluate {text : String}
    {answers : List ((request : Request) × request.Answer)} {outcome : Except Fault Unit}
    (spare : ∀ statement ∈ statements text, statement.2.bound? ≠ some name)
    (told : (evaluate locals text).Told answers (left, outcome)) : Leads name locals left := by
  rw [evaluate, Program.bind_eq_bind] at told
  obtain ⟨⟨last, result⟩, _, _, _, executed, ended⟩ := told.of_bind
  obtain ⟨_, same⟩ := Program.told_done ended
  cases same
  exact of_execute spare executed

/-- The expression that is a name gives an item, and to export the bare name binds it to the value
of the item, or fails as there is none. -/
structure Gives (locals : Fields Item) (name : String) (item : Item) : Prop where
  /-- As an expression. -/
  evaluates : ∀ line, ((Expression.read name.toList).eval locals line).run =
    Program.inspect.bind fun _ => .done (.ok item)
  /-- As a bare name to be exported. -/
  exports : ∀ line, ((Statement.read ("export " ++ name).toList).execute line).run.run locals =
    Program.inspect.bind fun _ => match item.toValue with
      | .ok value =>
        (Program.exportValue name value (some line)).bind fun _ => .done (.ok (), locals)
      | .error fault => .done (.error (.exchange fault), locals)

/-- What a variable is bound to its name gives, unless the name is a literal. -/
theorem gives_of_find? (identifier : isIdentifier name.toList)
    (plain : isLiteralWord name.toList = false) {item : Item}
    (found : locals.find? name = some item) : Gives locals name item := by
  have read : Expression.read name.toList = .path ⟨name.toList, []⟩ :=
    Expression.read_of_isIdentifier identifier plain
  have evaluates (line : Nat) : ((Expression.read name.toList).eval locals line).run =
      Program.inspect.bind fun _ => .done (.ok item) := by
    rw [read, Expression.eval, String.ofList_toList, found]
    rfl
  refine ⟨evaluates, fun line => ?_⟩
  have written : ("export " ++ name).toList = "export ".toList ++ name.toList :=
    String.toList_append
  rw [written, Statement.read_export identifier, String.ofList_toList, Statement.run_execute,
    Statement.yields, run_bind, evaluates, Program.bind_assoc, Program.bind_assoc]
  congr 1
  funext heap
  simp only [Program.bind]
  cases item.toValue <;> rfl

/-- A name that a statement has bound gives the item that its expression came to, whatever was
executed since, unless that bound the name again. -/
theorem gives_of_bound {text : List Char} {source : Expression} {line : Nat}
    (reads : Statement.read text = .bindLocal name source)
    (plain : isLiteralWord name.toList = false)
    {answers : List ((request : Request) × request.Answer)} {bound : Fields Item}
    (told : (((Statement.read text).execute line).run.run locals).Told answers (.ok (), bound)) :
    ∃ item, (source.eval locals line).run.Told answers (.ok item) ∧
      ∀ left, Leads name bound left → Gives left name item := by
  rw [reads, Statement.told_ok_iff, Statement.yields] at told
  obtain ⟨item, begun, rest, rfl, evaluated, ended⟩ := told_bind told
  obtain ⟨rfl, same⟩ := Program.told_done ended
  obtain rfl := Except.ok.inj same
  rw [List.append_nil]
  refine ⟨item, evaluated, fun left leads => ?_⟩
  exact gives_of_find? (Statement.isIdentifier_of_read reads) plain
    (leads.find?.trans (Fields.find?_insert_self name item locals))

end Statements

namespace Forms

open Evaluation

variable {locals left : Fields Datum} {name : String}

/-- The evaluation leaves a local as it is, whatever the exchange answers. -/
def Evaluation.Keeps {α : Type} (name : String) (evaluation : Evaluation α) : Prop :=
  ∀ locals answers outcome left, (evaluation.run.run locals).Told answers (outcome, left) →
    Fields.find? name left = locals.find? name

namespace Evaluation

variable {α β : Type}

/-- An evaluation that leaves all locals as they are. -/
theorem keeps_of_run {evaluation : Evaluation α}
    (runs : ∀ locals, ∃ outcome : Except Trouble α,
      evaluation.run.run locals = .done (outcome, locals)) : evaluation.Keeps name := by
  intro locals answers outcome left told
  obtain ⟨_, ended⟩ := runs locals
  rw [ended] at told
  obtain ⟨_, same⟩ := Program.told_done told
  rw [(Prod.mk.inj same).2]

/-- Evaluations one after the other. -/
theorem Keeps.bind {first : Evaluation α} {next : α → Evaluation β} (keeps : first.Keeps name)
    (rest : ∀ value, (next value).Keeps name) : (first >>= next).Keeps name := by
  intro locals answers outcome left told
  rw [run_bind] at told
  obtain ⟨⟨middle, between⟩, begun, later, rfl, toldFirst, toldNext⟩ := told.of_bind
  have kept := keeps locals begun middle between toldFirst
  cases middle with
  | ok value => exact (rest value between later outcome left toldNext).trans kept
  | error trouble =>
    obtain ⟨_, same⟩ := Program.told_done toldNext
    rw [(Prod.mk.inj same).2, kept]

/-- What is asked of the exchange leaves all locals as they are. -/
theorem keeps_liftM (program : Program α) : (liftM program : Evaluation α).Keeps name := by
  intro locals answers outcome left told
  rw [run_liftM] at told
  obtain ⟨answer, _, _, _, _, ended⟩ := told.of_bind
  obtain ⟨_, same⟩ := Program.told_done ended
  rw [(Prod.mk.inj same).2]

/-- So does what can be refused. -/
theorem keeps_request (program : Program (Except Fault α)) : (request program).Keeps name :=
  (keeps_liftM program).bind fun outcome => keeps_of_run fun _ => ⟨_, run_ofOutcome _ outcome⟩

/-- Defining a local leaves the others as they are. -/
theorem keeps_define {other : String} (different : other ≠ name) (datum : Datum) :
    (define other datum).Keeps name := by
  intro locals answers outcome left told
  rw [run_define] at told
  obtain ⟨_, same⟩ := Program.told_done told
  rw [(Prod.mk.inj same).2]
  exact Fields.find?_insert_of_ne datum locals different.symm

end Evaluation

/-- Leaving a local as it is is a rule that lets the others be defined. -/
def Rule.keeping (name : String) : Rule where
  follows evaluation := evaluation.Keeps name
  binds _ := True
  defines other := other ≠ name
  pure _ := keeps_of_run fun _ => ⟨_, rfl⟩
  fail _ := keeps_of_run fun _ => ⟨_, rfl⟩
  bind := Keeps.bind
  get := keeps_of_run fun _ => ⟨_, rfl⟩
  define := keeps_define
  inspect := keeps_liftM _
  allocate _ := keeps_liftM _
  exportValue _ _ _ := keeps_liftM _
  setField _ _ _ := keeps_request _
  call _ _ := keeps_request _
  importName _ _ := keeps_request _
  eval _ _ _ := keeps_request _
  print _ := keeps_request _

/-- A form leaves the locals that it does not define as they are. -/
theorem eval_keeps (line : Nat) {form : Sexp} (spares : ¬ form.Defines name) :
    (eval line form).Keeps name :=
  eval_follows (.keeping name) line (fun _ _ => trivial) fun _ defines same =>
    spares (same ▸ defines)

/-- From some locals to others by forms on any lines, told any answers: forms that do not define a
local, whether they succeed or fail, and definitions of it that fail. -/
inductive Leads (name : String) : Fields Datum → Fields Datum → Prop where
  /-- By none. -/
  | refl (locals : Fields Datum) : Leads name locals locals
  /-- By one that does not define the local, and others. -/
  | spared {locals between left : Fields Datum} {line : Nat} {form : Sexp}
      {answers : List ((request : Request) × request.Answer)} {outcome : Except Trouble Datum}
      (spares : ¬ form.Defines name)
      (told : ((eval line form).run.run locals).Told answers (outcome, between))
      (further : Leads name between left) : Leads name locals left
  /-- By a definition that fails, and others. -/
  | failed {locals between left : Fields Datum} {line : Nat} {keyword : String} {value : Sexp}
      {tail : Option Sexp} {answers : List ((request : Request) × request.Answer)}
      {trouble : Trouble} (defines : keyword = "define" ∨ keyword = "set!")
      (spares : ¬ value.Defines name)
      (told : ((eval line (.list [.symbol keyword, .symbol name, value] tail)).run.run
        locals).Told answers (.error trouble, between))
      (further : Leads name between left) : Leads name locals left

/-- A definition evaluates a form and gives the local the datum that this comes to. -/
theorem eval_define (line : Nat) (name : String) (value : Sexp) (tail : Option Sexp) :
    eval line (.list [.symbol "define", .symbol name, value] tail) =
      (eval line value >>= fun datum => define name datum >>= fun _ => pure .nil) := by
  rw [eval.eq_def]
  rfl

/-- A local is given another value in the same way if it is defined. -/
theorem eval_assign (line : Nat) (name : String) (value : Sexp) (tail : Option Sexp) :
    eval line (.list [.symbol "set!", .symbol name, value] tail) =
      (get >>= fun locals : Fields Datum =>
        if (locals.find? name).isNone then throw (.unboundVariable name)
        else eval line value >>= fun datum => define name datum >>= fun _ => pure .nil) := by
  rw [eval.eq_def]
  rfl

/-- A definition comes to an end by giving the local a datum, or else its form fails. -/
theorem told_define {evaluation : Evaluation Datum}
    {answers : List ((request : Request) × request.Answer)} {outcome : Except Trouble Datum}
    (told : ((evaluation >>= fun datum => define name datum >>= fun _ =>
      pure .nil).run.run locals).Told answers (outcome, left)) :
    (∃ datum between, (evaluation.run.run locals).Told answers (.ok datum, between) ∧
      outcome = .ok .nil ∧ left = between.insert name datum) ∨
    ∃ trouble, (evaluation.run.run locals).Told answers (.error trouble, left) ∧
      outcome = .error trouble := by
  rw [run_bind] at told
  obtain ⟨⟨middle, between⟩, begun, rest, rfl, toldFirst, toldNext⟩ := told.of_bind
  cases middle with
  | ok datum =>
    obtain ⟨rfl, same⟩ := Program.told_done toldNext
    cases same
    rw [List.append_nil]
    exact .inl ⟨datum, between, toldFirst, rfl, rfl⟩
  | error trouble =>
    obtain ⟨rfl, same⟩ := Program.told_done toldNext
    cases same
    rw [List.append_nil]
    exact .inr ⟨trouble, toldFirst, rfl⟩

/-- What a local is stays. -/
theorem Leads.find? (leads : Leads name locals left) : left.find? name = locals.find? name := by
  induction leads with
  | refl locals => rfl
  | spared spares told _ ih => exact ih.trans (eval_keeps _ spares _ _ _ _ told)
  | @failed locals between left line keyword value tail answers trouble defines spares told _ ih =>
    refine ih.trans ?_
    rcases defines with rfl | rfl
    · rw [eval_define] at told
      rcases told_define told with ⟨_, _, _, impossible, _⟩ | ⟨_, evaluated, _⟩
      · cases impossible
      · exact eval_keeps line spares _ _ _ _ evaluated
    · rw [eval_assign, run_bind, run_get, Program.bind] at told
      dsimp only at told
      split at told
      · obtain ⟨_, same⟩ := Program.told_done told
        rw [(Prod.mk.inj same).2]
      · rcases told_define told with ⟨_, _, _, impossible, _⟩ | ⟨_, evaluated, _⟩
        · cases impossible
        · exact eval_keeps line spares _ _ _ _ evaluated

/-- One after the other. -/
theorem Leads.trans {between : Fields Datum} (first : Leads name locals between)
    (second : Leads name between left) : Leads name locals left := by
  induction first with
  | refl locals => exact second
  | spared spares told _ ih => exact .spared spares told (ih second)
  | failed defines spares told _ ih => exact .failed defines spares told (ih second)

/-- The forms of a unit, up to its end or to the first one that fails. -/
theorem Leads.of_evalUnit {forms : List (Nat × Sexp)}
    {answers : List ((request : Request) × request.Answer)} {outcome : Except Trouble Unit}
    (spare : ∀ form ∈ forms, ¬ form.2.Defines name)
    (told : ((evalUnit forms).run.run locals).Told answers (outcome, left)) :
    Leads name locals left := by
  induction forms generalizing locals answers with
  | nil =>
    obtain ⟨_, same⟩ := Program.told_done told
    cases same
    exact .refl left
  | cons form forms ih =>
    obtain ⟨spares, others⟩ := List.forall_mem_cons.1 spare
    rw [evalUnit, run_bind] at told
    obtain ⟨⟨middle, between⟩, begun, rest, rfl, toldFirst, toldNext⟩ := told.of_bind
    cases middle with
    | ok datum => exact .spared spares toldFirst (ih others toldNext)
    | error trouble =>
      obtain ⟨_, same⟩ := Program.told_done toldNext
      cases same
      exact .spared spares toldFirst (.refl left)

/-- The forms of a text, also if what comes after them cannot be read. -/
theorem Leads.of_evaluate {text : String}
    {answers : List ((request : Request) × request.Answer)} {outcome : Except Fault Unit}
    (spare : ∀ form ∈ (Reader.forms text).1, ¬ form.2.Defines name)
    (told : (evaluate locals text).Told answers (left, outcome)) : Leads name locals left := by
  obtain ⟨⟨_, last⟩, _, _, _, read, ended⟩ := told.of_bind
  obtain ⟨_, same⟩ := Program.told_done ended
  cases same
  rw [run_bind] at read
  obtain ⟨⟨middle, between⟩, _, _, _, evaluated, concluded⟩ := read.of_bind
  have leads := of_evalUnit spare evaluated
  cases middle with
  | ok =>
    dsimp only at concluded
    split at concluded
    · obtain ⟨_, same⟩ := Program.told_done concluded
      cases same
      exact leads
    · obtain ⟨_, same⟩ := Program.told_done concluded
      cases same
      exact leads
  | error trouble =>
    obtain ⟨_, same⟩ := Program.told_done concluded
    cases same
    exact leads

/-- The symbol that is a name gives a datum, and to export the bare name binds it to the value of
the datum, or fails as there is none. -/
structure Gives (locals : Fields Datum) (name : String) (datum : Datum) : Prop where
  /-- As a form. -/
  evaluates : ∀ line, (eval line (.symbol name)).run.run locals = .done (.ok datum, locals)
  /-- As a bare name to be exported. -/
  exports : ∀ line tail,
    (eval line (.list [.symbol "export", .symbol name] tail)).run.run locals =
      match datum.toValue with
      | .ok value =>
        (Program.exportValue name value (some line)).bind fun _ => .done (.ok .nil, locals)
      | .error fault => .done (.error (.exchange fault), locals)

/-- What a local is its name gives, unless the name is nil. -/
theorem gives_of_find? (plain : name ≠ "nil") {datum : Datum}
    (found : locals.find? name = some datum) : Gives locals name datum := by
  have looked : (lookup name).run.run locals = .done (.ok datum, locals) := by
    rw [lookup, if_neg plain, run_bind, run_get, Program.bind]
    dsimp only
    rw [found]
    rfl
  refine ⟨fun line => ?_, fun line tail => ?_⟩
  · rw [eval]
    exact looked
  · have exported : eval line (.list [.symbol "export", .symbol name] tail) =
        (lookup name >>= fun datum => do
          let value ← ofOutcome datum.toValue
          liftM (Program.exportValue name value (some line))
          return .nil) := by
      rw [eval.eq_def]
      rfl
    rw [exported, run_bind, looked, Program.bind]
    dsimp only
    rw [run_bind, run_ofOutcome, Program.bind]
    cases datum.toValue <;> rfl

/-- A name that a form has defined gives the datum that its form came to, whatever was evaluated
since, unless that defined the name again. -/
theorem gives_of_defined {value : Sexp} {tail : Option Sexp} {line : Nat} (plain : name ≠ "nil")
    {answers : List ((request : Request) × request.Answer)} {result : Datum} {bound : Fields Datum}
    (told : ((eval line (.list [.symbol "define", .symbol name, value] tail)).run.run
      locals).Told answers (.ok result, bound)) :
    ∃ datum between, ((eval line value).run.run locals).Told answers (.ok datum, between) ∧
      ∀ left, Leads name bound left → Gives left name datum := by
  rw [eval_define] at told
  rcases told_define told with ⟨datum, between, evaluated, _, rfl⟩ | ⟨_, _, impossible⟩
  · refine ⟨datum, between, evaluated, fun left leads => ?_⟩
    exact gives_of_find? plain (leads.find?.trans (Fields.find?_insert_self name datum between))
  · cases impossible

end Forms

namespace Session

variable {name : String}

/-- Nothing that is written in a text binds a local in a session. -/
def Spares (name text : String) : Session → Prop
  | forms _ => ∀ form ∈ (Forms.Reader.forms text).1, ¬ form.2.Defines name
  | statements _ => ∀ statement ∈ Statements.statements text, statement.2.bound? ≠ some name
  | probe => True

/-- From a session to another one of its language without binding a local. -/
def Leads (name : String) : Session → Session → Prop
  | forms locals, forms left => Forms.Leads name locals left
  | statements locals, statements left => Statements.Leads name locals left
  | probe, probe => True
  | _, _ => False

namespace Leads

/-- Nothing needs to be done to lead from a session to itself. -/
theorem refl (name : String) (session : Session) : session.Leads name session := by
  cases session with
  | forms locals => exact Forms.Leads.refl locals
  | statements locals => exact Statements.Leads.refl locals
  | probe => trivial

/-- One after the other. -/
theorem trans {first between last : Session} (leads : first.Leads name between)
    (further : between.Leads name last) : first.Leads name last := by
  -- The three are sessions of one language, as nothing leads from one language to another.
  cases first <;> cases between <;> cases last <;> try trivial
  · exact Forms.Leads.trans leads further
  · exact Statements.Leads.trans leads further

end Leads

/-- A text in which nothing binds a local leads to a session that is reached without that. -/
theorem leads_of_evaluate {session left : Session} {scope : Scope} {text : String}
    {answers : List ((request : Request) × request.Answer)} {outcome : Except Fault Unit}
    (spares : session.Spares name text)
    (told : (session.evaluate scope text).Told answers (left, outcome)) :
    session.Leads name left := by
  cases session with
  | forms locals =>
    obtain ⟨⟨_, _⟩, _, _, _, evaluated, ended⟩ := told.of_bind
    obtain ⟨_, same⟩ := Program.told_done ended
    cases same
    exact Forms.Leads.of_evaluate spares evaluated
  | statements locals =>
    obtain ⟨⟨_, _⟩, _, _, _, evaluated, ended⟩ := told.of_bind
    obtain ⟨_, same⟩ := Program.told_done ended
    cases same
    exact Statements.Leads.of_evaluate spares evaluated
  | probe =>
    obtain ⟨_, _, _, _, _, ended⟩ := told.of_bind
    obtain ⟨_, same⟩ := Program.told_done ended
    cases same
    trivial

end Session

end Interchange
