import Interchange.Proofs.Engine.Locals

/-!
# What statements change

A statement of the statement language changes its locals at its end or not at all: one that fails
leaves them as they were, and one that succeeds changes no more than the local it names
(`Statements.Statement.IsAtomic`). The statements of a unit are executed one after the other up to
the first that fails (`Statements.Runs`), and a context keeps the locals that they have come to,
whatever else the engine has done meanwhile (`Engine.evaluate_runs`).
-/
namespace Interchange

/-- All names but one stand for the same in both. -/
def Fields.SameBut {α : Type} (name : String) (fields others : Fields α) : Prop :=
  ∀ other, other ≠ name → others.find? other = fields.find? other

/-- Inserting a name changes nothing else. -/
theorem Fields.sameBut_insert {α : Type} (name : String) (value : α) (fields : Fields α) :
    fields.SameBut name (fields.insert name value) := fun _ different =>
  find?_insert_of_ne value fields different

namespace Statements

open Evaluation

variable {locals left : Fields Item} {line : Nat}
  {answers : List ((request : Request) × request.Answer)}

/-- What a statement that succeeds does to the locals, told the answers to what it asked for. A
binding changes the one local to what its expression came to. Setting a field changes one field of
a local object to what the expression came to, and no local if the local refers to a shared object.
All other statements change no local. -/
def Statement.Changes (line : Nat) (answers : List ((request : Request) × request.Answer))
    (locals left : Fields Item) : Statement → Prop
  | bindLocal name source => ∃ item, (source.eval locals line).run.Told answers (.ok item) ∧
      left.find? name = some item ∧ locals.SameBut name left
  | setField name field source =>
    (∃ members changed item, locals.find? name = some (.object members) ∧
      (source.eval locals line).run.Told answers (.ok item) ∧
      left.find? name = some (.object changed) ∧ Fields.find? field changed = some item ∧
      Fields.SameBut field members changed ∧ locals.SameBut name left) ∨
    ((∃ target, locals.find? name = some (.foreign target)) ∧ left = locals)
  | _ => left = locals

/-- What leaves the locals alone yields those that there are. -/
theorem ensures_same {evaluation : Evaluation Unit} :
    (evaluation >>= fun _ => pure locals).Ensures fun left => left = locals :=
  ensures_bind fun _ => ensures_pure rfl

/-- What fails yields no locals. -/
theorem not_told_throw {trouble : Trouble} :
    ¬ (throw trouble : Evaluation (Fields Item)).run.Told answers (.ok left) := by
  have fails : (throw trouble : Evaluation (Fields Item)).Ensures fun _ => False :=
    ensures_throw trouble
  exact fails answers left

/-- The locals that a statement yields differ from those that there are by no more than they
should. -/
theorem Statement.changes_of_yields {statement : Statement}
    (told : (statement.yields locals line).run.Told answers (.ok left)) :
    statement.Changes line answers locals left := by
  cases statement with
  | bindLocal name source =>
    obtain ⟨item, begun, rest, rfl, evaluated, ended⟩ := told_bind told
    obtain ⟨rfl, same⟩ := Program.told_done ended
    obtain rfl := Except.ok.inj same
    rw [List.append_nil]
    exact ⟨item, evaluated, Fields.find?_insert_self name item locals,
      Fields.sameBut_insert name item locals⟩
  | publish name source =>
    have keeps : ((publish name source).yields locals line).Ensures fun left => left = locals :=
      ensures_bind fun item => ensures_bind fun value => ensures_same
    exact keeps _ _ told
  | eval language path =>
    have keeps : ((eval language path).yields locals line).Ensures fun left => left = locals :=
      ensures_bind fun _ => ensures_pure rfl
    exact keeps _ _ told
  | print source =>
    have keeps : ((print source).yields locals line).Ensures fun left => left = locals :=
      ensures_bind fun item => ensures_same
    exact keeps _ _ told
  | setField name field source =>
    obtain ⟨item, begun, rest, rfl, evaluated, ended⟩ := told_bind told
    split at ended
    · rename_i target found
      have keeps : (ofOutcome item.toValue >>= fun value =>
          request (Program.setField target field value) >>= fun _ =>
            (pure locals : Evaluation (Fields Item))).Ensures fun left => left = locals :=
        ensures_bind fun value => ensures_same
      exact .inr ⟨⟨target, found⟩, keeps _ _ ended⟩
    · rename_i members found
      obtain ⟨rfl, same⟩ := Program.told_done ended
      obtain rfl := Except.ok.inj same
      rw [List.append_nil]
      exact .inl ⟨members, Fields.insert field item members, item, found, evaluated,
        Fields.find?_insert_self name _ locals, Fields.find?_insert_self field item members,
        Fields.sameBut_insert field item members, Fields.sameBut_insert name _ locals⟩
    · exact absurd ended not_told_throw
    · exact absurd ended not_told_throw
  | malformed malformation => exact absurd told not_told_throw

/-- A statement on a line, told some answers, touches the locals atomically: it fails and leaves
them as they were, or it succeeds and changes no more than it should. -/
def Statement.IsAtomic (statement : Statement) (line : Nat)
    (answers : List ((request : Request) × request.Answer)) (locals left : Fields Item) :
    Except Trouble Unit → Prop
  | .ok () => statement.Changes line answers locals left
  | .error _ => left = locals

/-- However a statement ends, and whatever it was told, it touches the locals atomically. -/
theorem Statement.isAtomic_of_told {statement : Statement} {outcome : Except Trouble Unit}
    (told : ((statement.execute line).run.run locals).Told answers (outcome, left)) :
    statement.IsAtomic line answers locals left outcome := by
  cases outcome with
  | ok => exact changes_of_yields (told_ok_iff.1 told)
  | error trouble => exact (told_error_iff.1 told).2

/-- A statement that names no local to change changes none. -/
theorem Statement.Changes.eq_of_bound? {statement : Statement}
    (changes : statement.Changes line answers locals left) (names : statement.bound? = none) :
    left = locals := by
  cases statement with
  | bindLocal name source => cases names
  | setField name field source => cases names
  | publish | eval | print | malformed => exact changes

/-- The word that a statement begins with. -/
def Statement.keyword (text : List Char) : String := String.ofList (splitWord text).1

/-- Only bindings and assignments name a local to change. -/
theorem Statement.bound?_read {text : List Char} (binds : keyword text ≠ "let")
    (sets : keyword text ≠ "set") : (read text).bound? = none := by
  unfold read
  dsimp only
  split
  · rename_i word
    exact absurd word binds
  · unfold readExport
    dsimp only
    split <;> rfl
  · unfold readEval
    split <;> rfl
  · rfl
  · rename_i word
    exact absurd word sets
  · rfl

/-- Statements executed one after the other up to the first that fails: from the locals they begin
with to the locals that are left, and the outcome. Each of them touches the locals atomically. -/
inductive Runs :
    Fields Item → List (Nat × Statement) → Fields Item → Except Trouble Unit → Prop where
  /-- There is no statement left. -/
  | ended (locals : Fields Item) : Runs locals [] locals (.ok ())
  /-- The first statement fails, and that is the end. -/
  | failed {locals left : Fields Item} {line : Nat} {statement : Statement}
      {rest : List (Nat × Statement)} {answers : List ((request : Request) × request.Answer)}
      {trouble : Trouble}
      (told : ((statement.execute line).run.run locals).Told answers (.error trouble, left))
      (atomic : statement.IsAtomic line answers locals left (.error trouble)) :
      Runs locals ((line, statement) :: rest) left (.error trouble)
  /-- The first statement succeeds, and the others run from the locals that it leaves. -/
  | succeeded {locals between left : Fields Item} {line : Nat} {statement : Statement}
      {rest : List (Nat × Statement)} {answers : List ((request : Request) × request.Answer)}
      {outcome : Except Trouble Unit}
      (told : ((statement.execute line).run.run locals).Told answers (.ok (), between))
      (atomic : statement.IsAtomic line answers locals between (.ok ()))
      (further : Runs between rest left outcome) :
      Runs locals ((line, statement) :: rest) left outcome

/-- Statements that are executed in place run one after the other. -/
theorem runs_of_executeAll {statements : List (Nat × Statement)} {outcome : Except Trouble Unit}
    (told : ((executeAll statements).run.run locals).Told answers (outcome, left)) :
    Runs locals statements left outcome := by
  induction statements generalizing locals answers with
  | nil =>
    obtain ⟨_, same⟩ := Program.told_done told
    cases same
    exact .ended _
  | cons first rest ih =>
    obtain ⟨line, statement⟩ := first
    rw [executeAll, Execution.run_bind] at told
    obtain ⟨⟨result, between⟩, begun, later, _, executed, goesOn⟩ := told.of_bind
    have atomic := Statement.isAtomic_of_told executed
    cases result with
    | error trouble =>
      obtain ⟨_, same⟩ := Program.told_done goesOn
      cases same
      exact .failed executed atomic
    | ok => exact .succeeded executed atomic (ih goesOn)

/-- The statements of a session have run one after the other. -/
theorem runs_of_told {statements : List (Nat × Statement)} {outcome : Except Trouble Unit}
    (told : (execute locals statements).Told answers (left, outcome)) :
    Runs locals statements left outcome := by
  obtain ⟨⟨result, last⟩, _, _, _, executed, ended⟩ := told.of_bind
  obtain ⟨_, same⟩ := Program.told_done ended
  cases same
  exact runs_of_executeAll executed

end Statements

open Statements

/-- A context in which a unit of statements is evaluated keeps the locals that the statements have
come to, whatever else the engine does meanwhile. If the context lies too deep, nothing is executed
and they are what they were. -/
theorem Engine.evaluate_runs {routines : Routines} {allowance : Nat} {world after : World}
    {context : ContextId} {held : Context} {locals : Fields Item} {unit : SourceUnit}
    {outcome : Except Fault Unit}
    (found : world.engine.contexts.contexts[context.raw]? = some held)
    (free : held.session = some (.statements locals))
    (evaluated : evaluate (Runner.within routines allowance) context unit world =
      some (outcome, after)) :
    ∃ rested left, after.engine.contexts.contexts[context.raw]? = some rested ∧
      rested.session = some (.statements left) ∧
      ((outcome = .error (.depthExceeded world.engine.maxDepth) ∧ left = locals) ∨
        ∃ result, Runs locals (statements unit.text) left result ∧
          outcome = result.mapError (·.wrapped context unit.language unit.path)) := by
  obtain ⟨language, path, text⟩ := unit
  have there := ContextTree.lt_count found
  have begun : (world.engine.contexts.set context (held.begun path)).contexts[context.raw]? =
      some (held.begun path) := ContextTree.contexts_set_self there _
  rw [evaluate_statements routines allowance found free] at evaluated
  by_cases deep : world.engine.maxDepth < held.depth
  · rw [if_pos deep] at evaluated
    obtain ⟨rfl, rfl⟩ := Prod.mk.inj (Option.some.inj evaluated)
    exact ⟨_, locals, ContextTree.contexts_finish_self begun _ false, rfl, .inl ⟨rfl, rfl⟩⟩
  · rw [if_neg deep] at evaluated
    obtain ⟨⟨⟨left, result⟩, inside⟩, ran, ended⟩ := Option.map_eq_some_iff.1 evaluated
    obtain ⟨rfl, rfl⟩ := Prod.mk.inj ended
    have stays := Runner.within_keeps rfl allowance ⟨begun, rfl, rfl⟩ ran
    obtain ⟨answers, told⟩ := Runner.exists_told ran
    exact ⟨_, left, ContextTree.contexts_finish_self stays.found (.statements left) result.isOk,
      rfl, .inr ⟨result, runs_of_told told, rfl⟩⟩

/-- Statements are atomic. Whatever text a statement is read from, whatever the locals are, and
whatever the world is like in which it is executed and comes to be while it looks names up, calls
functions and has sources evaluated: if it fails, the locals that it leaves are what they were. If
it succeeds, a binding changes only the local that it names; setting a field changes only that field
if the local holds an object, and no local if it refers to a shared object; and a statement that
begins with any other word changes no local. The locals that are spoken of are those that the
statement changes in place; a statement that fails leaves some too. And so does each statement of a
unit that is evaluated in a context: when the evaluation has ended, the context holds the locals to
which the statements up to the first that fails have come in this way, and the failure of that
statement is the outcome. -/
theorem statements_are_atomic :
    (∀ (routines : Routines) (allowance : Nat) (context : ContextId) (world after : World)
      (line : Nat) (text : List Char) (locals left : Fields Item) (outcome : Except Trouble Unit),
      Runner.within routines allowance _ context
        (((Statement.read text).execute line).run.run locals) world =
          some ((outcome, left), after) →
      (∀ trouble, outcome = .error trouble → left = locals) ∧
      (outcome = .ok () →
        (∃ answers, (Statement.read text).Changes line answers locals left) ∧
        (Statement.keyword text ≠ "let" → Statement.keyword text ≠ "set" → left = locals))) ∧
    ∀ (routines : Routines) (allowance : Nat) (context : ContextId) (world after : World)
      (held : Context) (locals : Fields Item) (unit : SourceUnit) (outcome : Except Fault Unit),
      world.engine.contexts.contexts[context.raw]? = some held →
      held.session = some (.statements locals) →
      Engine.evaluate (Runner.within routines allowance) context unit world =
        some (outcome, after) →
      ∃ rested left, after.engine.contexts.contexts[context.raw]? = some rested ∧
        rested.session = some (.statements left) ∧
        ((outcome = .error (.depthExceeded world.engine.maxDepth) ∧ left = locals) ∨
          ∃ result, Runs locals (statements unit.text) left result ∧
            outcome = result.mapError (·.wrapped context unit.language unit.path)) := by
  constructor
  · intro routines allowance context world after line text locals left outcome ran
    obtain ⟨answers, told⟩ := Runner.exists_told ran
    have atomic := Statement.isAtomic_of_told told
    cases outcome with
    | error trouble =>
      refine ⟨fun _ _ => atomic, fun succeeds => ?_⟩
      cases succeeds
    | ok =>
      refine ⟨fun _ fails => ?_, fun _ => ⟨⟨answers, atomic⟩, fun binds sets => ?_⟩⟩
      · cases fails
      · exact Statement.Changes.eq_of_bound? atomic (Statement.bound?_read binds sets)
  · intro routines allowance context world after held locals unit outcome found free evaluated
    exact Engine.evaluate_runs found free evaluated

/-- A page sets a field of a local object to what it looks up, and fails to set one of a name that
is bound to nothing. Another page binds a number and then fails to set a field of it; the number
stays bound. -/
theorem page_sets_fields :
    (∃ after left answers, Runner.within (Host.routines answerRoutines) 5 _ ⟨1⟩
        (((Statement.read "set x.a = import answer".toList).execute 2).run.run
          [("x", .object [])]) .withPage = some ((.ok (), left), after) ∧
      (Statement.read "set x.a = import answer".toList).Changes 2 answers [("x", .object [])]
        left) ∧
    (∃ after trouble, Runner.within (Host.routines answerRoutines) 5 _ ⟨1⟩
        (((Statement.read "set y.a = import answer".toList).execute 2).run.run
          [("x", .object [])]) .withPage = some ((.error trouble, [("x", .object [])]), after)) ∧
    ∃ fault after rested left trouble,
      Engine.evaluate (Runner.within (Host.routines answerRoutines) 5) ⟨1⟩
        ⟨"jsonscript", "page.jss", "let x = 6\nset x.a = 1"⟩ .withPage =
        some (.error fault, after) ∧
      after.engine.contexts.contexts[1]? = some rested ∧
      rested.session = some (.statements left) ∧
      Runs [] (statements "let x = 6\nset x.a = 1") left (.error trouble) := by
  refine ⟨?_, ?_, ?_⟩
  · have succeeds : (Runner.within (Host.routines answerRoutines) 5 _ ⟨1⟩
        (((Statement.read "set x.a = import answer".toList).execute 2).run.run
          [("x", .object [])]) .withPage).map (fun ended => ended.1.1.isOk) = some true := by
      decide +kernel
    obtain ⟨⟨⟨outcome, left⟩, after⟩, ran, ok⟩ := Option.map_eq_some_iff.1 succeeds
    cases outcome with
    | error trouble => cases ok
    | ok =>
      obtain ⟨⟨answers, changes⟩, _⟩ := (statements_are_atomic.1 _ _ _ _ _ _ _ _ _ _ ran).2 rfl
      exact ⟨after, left, answers, ran, changes⟩
  · have fails : (Runner.within (Host.routines answerRoutines) 5 _ ⟨1⟩
        (((Statement.read "set y.a = import answer".toList).execute 2).run.run
          [("x", .object [])]) .withPage).map (fun ended => ended.1.1.isOk) = some false := by
      decide +kernel
    obtain ⟨⟨⟨outcome, left⟩, after⟩, ran, ok⟩ := Option.map_eq_some_iff.1 fails
    cases outcome with
    | ok => cases ok
    | error trouble =>
      have same := (statements_are_atomic.1 _ _ _ _ _ _ _ _ _ _ ran).1 trouble rfl
      exact ⟨after, trouble, same ▸ ran⟩
  · have fails : (Engine.evaluate (Runner.within (Host.routines answerRoutines) 5) ⟨1⟩
        ⟨"jsonscript", "page.jss", "let x = 6\nset x.a = 1"⟩ .withPage).map Prod.fst =
        some (.error (.evaluation "jsonscript" "page.jss" ⟨1⟩
          (.typeMismatch "object" "number"))) := by
      decide +kernel
    obtain ⟨⟨_, after⟩, evaluated, rfl⟩ := Option.map_eq_some_iff.1 fails
    obtain ⟨rested, left, there, resting, ended⟩ := statements_are_atomic.2
      (Host.routines answerRoutines) 5 ⟨1⟩ .withPage after _ [] _ _ rfl rfl evaluated
    rcases ended with ⟨refused, _⟩ | ⟨result, runs, wraps⟩
    · cases refused
    · cases result with
      | ok => cases wraps
      | error trouble => exact ⟨_, after, rested, left, trouble, evaluated, there, resting, runs⟩

end Interchange
