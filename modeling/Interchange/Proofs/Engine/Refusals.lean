import Interchange.Proofs.Context.Places
import Interchange.Proofs.Engine.Transparency
import Interchange.Proofs.Value.Paths

/-!
# Calls that are turned down

A call that asks an engine for a context or for an evaluation can be turned down before anything is
evaluated: because a language or a context is not known, because the context is at work, or because
the source is not there. The world is as it was then, but for one note of a source that was not
found (`World.TurnsDown`). An export of data that cannot be turned into a value is turned down as
well, and so is one in a script, which exports what its expression came to as the host does
(`Forms.run_export`, `Statements.run_publish`). All of this holds in any world, so it holds of the
calls that running scripts make, however deep they are nested (`rejected_calls_change_nothing`).
-/
namespace Interchange

namespace World

/-- The world with a note of one more missing source. -/
def noting (world : World) (source : MissingSource) : World :=
  { world with engine := { world.engine with missing := world.engine.missing ++ [source] } }

/-- What a call leaves that is turned down with a fault. The source that it asked for is given as it
is noted if it is missing; other calls ask for none. -/
inductive TurnsDown (world : World) (wanted? : Option MissingSource) : Fault → World → Prop where
  /-- A language is not known. -/
  | language (id : String) : TurnsDown world wanted? (.unknownLanguage id) world
  /-- A context is not known. -/
  | context (id : ContextId) : TurnsDown world wanted? (.unknownContext id) world
  /-- A context has given its session away. -/
  | taken (id : ContextId) : TurnsDown world wanted? (.contextUnavailable id) world
  /-- A source is not there. -/
  | source {wanted : MissingSource} (asked : wanted? = some wanted) (path : String)
      (cause : Option IoFault) :
      TurnsDown world wanted? (.sourceNotFound path cause) (world.noting wanted)

variable {world after : World} {fault : Fault}

/-- A call that asks for no source leaves the world as it was. -/
theorem TurnsDown.unchanged (refused : world.TurnsDown none fault after) : after = world := by
  cases refused with
  | source asked path cause => cases asked
  | _ => rfl

/-- A call is turned down for the same reason whatever source it would have asked for. -/
theorem TurnsDown.of_none (refused : world.TurnsDown none fault after)
    (wanted? : Option MissingSource) : world.TurnsDown wanted? fault after := by
  cases refused with
  | language id => exact .language id
  | context id => exact .context id
  | taken id => exact .taken id
  | source asked path cause => cases asked

/-- To return from the first engine without having done anything there changes nothing. -/
theorem backFrom_atHome (world : World) : world.backFrom world.atHome = world := by
  obtain ⟨engine, registry, heap, tallies, home⟩ := world
  cases home with
  | none => rfl
  | some home =>
    obtain ⟨waiting, own⟩ := home
    cases own <;> rfl

end World

/-- Only the name of a language is a reason not to find it. -/
theorem LanguageTable.get_error {table : LanguageTable} {id : String} {fault : Fault}
    (failed : table.get id = .error fault) : fault = .unknownLanguage id :=
  Fault.eq_of_orElse_error failed

/-- A file whose language is not found has no known language. -/
theorem LanguageTable.forPath_error {table : LanguageTable} {path : String} {fault : Fault}
    (failed : table.forPath path = .error fault) : ∃ id, fault = .unknownLanguage id := by
  rw [forPath, Outcome.bind_error_iff] at failed
  rcases failed with unknown | ⟨id, _, unknown⟩
  · exact ⟨_, Fault.eq_of_orElse_error unknown⟩
  · exact ⟨id, get_error unknown⟩

/-- Only an unknown parent is a reason not to tell the depth below it. -/
theorem ContextTree.depthBelow_error {tree : ContextTree} {parent : Option ContextId}
    {fault : Fault} (failed : tree.depthBelow parent = .error fault) :
    ∃ id, fault = .unknownContext id := by
  cases parent with
  | none => cases failed
  | some id =>
    rw [depthBelow, Outcome.bind_error_iff] at failed
    rcases failed with unknown | ⟨context, _, impossible⟩
    · exact ⟨id, Fault.eq_of_orElse_error unknown⟩
    · cases impossible

/-- Only an unknown parent is a plain reason not to create a context. -/
theorem ContextTree.create_error {tree after : ContextTree} {parent : Option ContextId}
    {language : String} {session : Session} {fault : Fault}
    (failed : tree.create parent language session = (.error fault, after))
    (plain : fault.IsPlain) : ∃ id, fault = .unknownContext id := by
  unfold create at failed
  split at failed
  · rename_i cause nowhere
    obtain rfl := Except.error.inj (Prod.mk.inj failed).1
    exact depthBelow_error nowhere
  · split at failed
    · cases (Prod.mk.inj failed).1
    · -- There is no number left for it.
      obtain rfl := Except.error.inj (Prod.mk.inj failed).1
      exact plain.elim

/-- A call that asks an engine for something and may be turned down, whichever way the programs run
that it sets off: it comes to a plain fault only if it is turned down. -/
def Reply.MayTurnDown {α : Type} (world : World) (wanted? : Option MissingSource)
    (reply : Reply (Except Fault α)) : Prop :=
  ∀ run fault after, reply.complete run = some (.error fault, after) → fault.IsPlain →
    world.TurnsDown wanted? fault after

namespace Reply

variable {α : Type} {world : World} {wanted? : Option MissingSource}

/-- A call that is turned down at once. -/
theorem mayTurnDown_now {fault : Fault} {after : World}
    (refused : world.TurnsDown wanted? fault after) :
    (Reply.now (.error fault : Except Fault α) after).MayTurnDown world wanted? := by
  intro run other left completed _
  obtain ⟨same, rfl⟩ := Prod.mk.inj (Option.some.inj completed)
  exact Except.error.inj same ▸ refused

/-- A unit that lies too deep is not turned down but fails. -/
theorem mayTurnDown_tooDeep (limit : Nat) (after : World) :
    (Reply.now (.error (.depthExceeded limit) : Except Fault α) after).MayTurnDown world
      wanted? := by
  intro run fault left completed plain
  obtain ⟨same, _⟩ := Prod.mk.inj (Option.some.inj completed)
  rw [← Except.error.inj same] at plain
  exact plain.elim

/-- The fault of a unit that was evaluated tells of its evaluation. -/
theorem mayTurnDown_finishing (context : ContextId)
    (program : Program (Session × Except Fault Unit)) (opened : World) (inner : ContextId)
    (unit : SourceUnit) :
    (Reply.after context program opened (.finishing inner unit)).MayTurnDown world wanted? := by
  intro run fault after completed plain
  obtain ⟨⟨⟨session, outcome⟩, closed⟩, _, concluded⟩ := Option.map_eq_some_iff.1 completed
  have told := congrArg Prod.fst concluded
  cases outcome with
  | ok done => cases told
  | error cause =>
    rw [← Except.error.inj told] at plain
    exact plain.elim

/-- Naming a context turns nothing else down. -/
theorem MayTurnDown.name {reply : Reply (Except Fault Unit)}
    (may : reply.MayTurnDown world wanted?) (child : ContextId) :
    (reply.name child).MayTurnDown world wanted? := by
  intro run fault after completed plain
  rw [complete_name] at completed
  obtain ⟨⟨answer, left⟩, earlier, same⟩ := Option.map_eq_some_iff.1 completed
  obtain ⟨told, rfl⟩ := Prod.mk.inj same
  cases answer with
  | ok done => cases told
  | error cause =>
    obtain rfl := Except.error.inj told
    exact may run cause left earlier plain

end Reply

namespace Engine

variable (world : World)

/-- Beginning a unit is turned down where there is no context or it is at work. -/
theorem respondEvaluate_mayTurnDown (context : ContextId) (unit : SourceUnit) :
    (respondEvaluate context unit world).MayTurnDown world none := by
  cases found : world.engine.contexts.contexts[context.raw]? with
  | none =>
    rw [respondEvaluate, ContextTree.begin_of_none found]
    exact Reply.mayTurnDown_now (.context context)
  | some entry =>
    cases held : entry.session with
    | none =>
      rw [respondEvaluate, ContextTree.begin_of_taken found held]
      exact Reply.mayTurnDown_now (.taken context)
    | some session =>
      have begun := ContextTree.begin_of_free found held unit.path
      rw [respondEvaluate_of_begin unit world begun]
      split
      · exact Reply.mayTurnDown_tooDeep _ _
      · exact Reply.mayTurnDown_finishing _ _ _ _ _

/-- A context is not created where its language or its parent is not known. -/
theorem createContext_turnsDown {parent : Option ContextId} {language : String} {fault : Fault}
    {after : World} (failed : createContext parent language world = (.error fault, after))
    (plain : fault.IsPlain) : world.TurnsDown none fault after := by
  cases known : world.engine.languages.get language with
  | error cause =>
    obtain rfl := LanguageTable.get_error known
    simp only [createContext, known] at failed
    obtain ⟨same, rfl⟩ := Prod.mk.inj failed
    exact Except.error.inj same ▸ .language language
  | ok found =>
    rcases created : world.engine.contexts.create parent language found.session with
      ⟨cause | made, contexts⟩
    · obtain rfl := ContextTree.create_of_refused created
      simp only [createContext, known, created] at failed
      obtain ⟨same, rfl⟩ := Prod.mk.inj failed
      obtain rfl := Except.error.inj same
      obtain ⟨id, rfl⟩ := ContextTree.create_error created plain
      exact .context id
    · simp only [createContext, known, created] at failed
      cases (Prod.mk.inj failed).1

/-- A unit is not evaluated in a new context where there is none. A new one always begins. -/
theorem respondBelow_mayTurnDown (parent : ContextId) (unit : SourceUnit) :
    (respondBelow parent unit world).MayTurnDown world none := by
  rcases createContext_cases (some parent) unit.language world with
    ⟨fault, refused⟩ | ⟨found, child, contexts, known, made, created⟩
  · rw [respondBelow, refused]
    intro run other after completed plain
    obtain ⟨same, rfl⟩ := Prod.mk.inj (Option.some.inj completed)
    obtain rfl := Except.error.inj same
    exact createContext_turnsDown world refused plain
  · obtain ⟨_, depth, _, _, below, _⟩ := ContextTree.create_cases made
    rw [respondBelow_of_known known below]
    split
    · split
      · exact Reply.mayTurnDown_tooDeep _ _
      · exact (Reply.mayTurnDown_finishing _ _ _ _ unit).name _
    · exact Reply.mayTurnDown_tooDeep _ _

/-- A source as it is noted if it is missing: who asks for it, the path from the source of the unit
that asks, and the line of the statement. -/
def wanted (caller : ContextId) (path : String) (line : Option Nat) : MissingSource :=
  ⟨caller, SourcePath.resolve (world.engine.contexts.sourceOf caller) path, line⟩

/-- A source is turned down where its language is not known, where it is not there, or where it has
no parent. -/
theorem respondEval_mayTurnDown (caller : ContextId) (language path : String)
    (line : Option Nat) :
    (respondEval caller language path line world).MayTurnDown world
      (some (wanted world caller path line)) := by
  cases known : world.engine.languages.get language with
  | error fault =>
    obtain rfl := LanguageTable.get_error known
    simp only [respondEval, known]
    exact Reply.mayTurnDown_now (.language language)
  | ok found =>
    cases loaded : world.engine.loader.load
        (SourcePath.resolve (world.engine.contexts.sourceOf caller) path) with
    | error fault =>
      obtain ⟨place, cause, rfl⟩ := Loader.load_error loaded
      simp only [respondEval, known, loaded]
      exact Reply.mayTurnDown_now (.source rfl place cause)
    | ok text =>
      simp only [respondEval, known, loaded]
      intro run fault after completed plain
      have refused := respondBelow_mayTurnDown world caller _ run fault after completed plain
      exact refused.of_none _

end Engine

namespace Call

/-- The source that a call asks for, as it is noted if it is missing. -/
def wanted? (world : World) : Call → Option MissingSource
  | source caller _ path line => some (Engine.wanted world caller path line)
  | file path => some (Engine.wanted world .host path none)
  | text _ => none

/-- A call from outside is turned down as its source or its unit is, and a file also where its
language is not found. -/
theorem reply_mayTurnDown (call : Call) (world : World) :
    (call.reply world).MayTurnDown world (call.wanted? world) := by
  cases call with
  | source caller language path line =>
    exact Engine.respondEval_mayTurnDown world caller language path line
  | file path =>
    cases known : world.engine.languages.forPath path with
    | error fault =>
      obtain ⟨id, rfl⟩ := LanguageTable.forPath_error known
      simp only [reply, known]
      exact Reply.mayTurnDown_now (.language id)
    | ok language =>
      simp only [reply, known]
      exact Engine.respondEval_mayTurnDown world .host language.id path none
  | text unit => exact Engine.respondBelow_mayTurnDown world .host unit

end Call

namespace Operation

/-- The fault with which a context or an evaluation is refused, to the host or to a program of a
context. Other operations ask for neither. -/
def refusal? : (operation : Operation) → operation.Answer → Option Fault
  | ask _ (.eval ..), answer => Fault.of? answer
  | ask _ (.evaluate ..), answer => Fault.of? answer
  | ask _ (.evalUnit _), answer => Fault.of? answer
  | ask .., _ => none
  | create .., answer => Fault.of? answer
  | evaluate _, answer => Fault.of? answer

/-- The source that is asked for, as it is noted if it is missing. -/
def wanted? (world : World) : Operation → Option MissingSource
  | ask context (.eval _ path line) => some (Engine.wanted world context path line)
  | ask .. => none
  | create .. => none
  | evaluate call => call.wanted? world

/-- What is refused with a plain fault has been turned down. -/
theorem perform_turnsDown {run : Runner} {routines : Routines} {operation : Operation}
    {world after : World} {answer : operation.Answer} {fault : Fault}
    (performed : operation.perform run routines world = some (answer, after))
    (refused : operation.refusal? answer = some fault) (plain : fault.IsPlain) :
    world.TurnsDown (operation.wanted? world) fault after := by
  have error {α : Type} {outcome : Except Fault α} (failed : Fault.of? outcome = some fault) :
      outcome = .error fault := by
    cases outcome with
    | ok value => cases failed
    | error cause => exact congrArg Except.error (Option.some.inj failed)
  cases operation with
  | create parent language =>
    rw [error refused] at performed
    exact Engine.createContext_turnsDown world (Option.some.inj performed) plain
  | evaluate call =>
    rw [error refused, perform, Call.carryOut_eq] at performed
    exact call.reply_mayTurnDown world run fault after performed plain
  | ask context request =>
    rw [perform, Engine.answer_eq] at performed
    cases request with
    | eval language path line =>
      rw [error refused] at performed
      exact Engine.respondEval_mayTurnDown world context language path line run fault after
        performed plain
    | evaluate target unit =>
      rw [error refused] at performed
      exact Engine.respondEvaluate_mayTurnDown world target unit run fault after performed plain
    | evalUnit unit =>
      rw [error refused, Engine.respond, Reply.complete_back] at performed
      obtain ⟨⟨outcome, left⟩, completed, same⟩ := Option.map_eq_some_iff.1 performed
      obtain ⟨rfl, rfl⟩ := Prod.mk.inj same
      -- The first engine turns it down, which leaves it as it was, and so the one at work.
      have atHome := Engine.respondBelow_mayTurnDown world.atHome .host unit run fault left
        completed plain
      have back : world.backFrom left = world := by
        rw [atHome.unchanged, World.backFrom_atHome]
      rw [back]
      cases atHome with
      | language id => exact .language id
      | context id => exact .context id
      | taken id => exact .taken id
      | source asked path cause => cases asked
    | _ => cases refused

end Operation

/-- Native data that cannot be turned into a value are not exported. -/
theorem Engine.bindNative_of_error {α : Type} {toValue : α → Except Fault Value} {native : α}
    {fault : Fault} (refused : toValue native = .error fault) (context : ContextId)
    (name : String) (line : Option Nat) (world : World) :
    bindNative toValue context name native line world = (.error fault, world) := by
  rw [bindNative, refused]

section Exporting

variable (run : Runner) (routines : Routines) (context : ContextId) (name : String) (line : Nat)

namespace Forms

open Evaluation

/-- A form that exports under a name what another form comes to. -/
inductive Exports (name : String) : Sexp → Sexp → Prop where
  /-- The form of the name itself. -/
  | bare (tail : Option Sexp) :
      Exports name (.list [.symbol "export", .symbol name] tail) (.symbol name)
  /-- Any form, under a name that is a symbol or a string. -/
  | given {written : Sexp} (names : nameOf written = pure name) (value : Sexp)
      (tail : Option Sexp) :
      Exports name (.list [.symbol "export", written, value] tail) value

/-- Such a form evaluates the other one, turns what that comes to into a value, and exports it. -/
theorem Exports.eval_eq {name : String} {form value : Sexp} (exports : Exports name form value)
    (line : Nat) :
    eval line form = (eval line value >>= fun datum => ofOutcome datum.toValue >>= fun value =>
      liftM (Program.exportValue name value (some line)) >>= fun _ => pure .nil) := by
  cases exports with
  | bare tail =>
    rw [eval.eq_def, eval.eq_def line (.symbol name)]
    rfl
  | given names value tail =>
    rw [eval.eq_def]
    dsimp only
    rw [names]
    rfl

/-- A script exports what a form comes to as the host exports native data. -/
theorem run_export {name : String} {form value : Sexp} (exports : Exports name form value)
    (locals : Fields Datum) (world : World) :
    ((eval line form).run.run locals).run (Engine.answer run routines context) world =
      (((eval line value).run.run locals).run (Engine.answer run routines context) world).map
        fun ((outcome, left), between) =>
          match outcome with
          | .error trouble => ((.error trouble, left), between)
          | .ok datum =>
            ((((Engine.bindNative Datum.toValue context name datum (some line) between).1.map
                fun _ => .nil).mapError .exchange, left),
              (Engine.bindNative Datum.toValue context name datum (some line) between).2) := by
  rw [exports.eval_eq, run_bind, Program.run_bind, Option.map_eq_bind]
  congr 1
  funext ended
  obtain ⟨⟨outcome, left⟩, between⟩ := ended
  cases outcome with
  | error trouble => rfl
  | ok datum =>
    dsimp only
    rw [run_bind, run_ofOutcome]
    cases converted : datum.toValue with
    | error fault =>
      simp only [Function.comp, Engine.bindNative, converted]
      rfl
    | ok value =>
      simp only [Function.comp, Engine.bindNative, converted]
      rfl

/-- Data that cannot be turned into a value are not exported: after their form was evaluated,
nothing more is done. -/
theorem run_export_of_error {name : String} {form value : Sexp} (exports : Exports name form value)
    {locals left : Fields Datum} {world between : World} {datum : Datum} {fault : Fault}
    (ran : ((eval line value).run.run locals).run (Engine.answer run routines context) world =
      some ((.ok datum, left), between)) (refused : datum.toValue = .error fault) :
    ((eval line form).run.run locals).run (Engine.answer run routines context) world =
      some ((.error (.exchange fault), left), between) := by
  rw [run_export run routines context line exports, ran, Option.map_some]
  simp only [Engine.bindNative_of_error refused]
  rfl

end Forms

namespace Statements

open Evaluation

/-- A statement exports what its expression comes to as the host exports native data, and leaves the
locals as they are. -/
theorem run_publish (source : Expression) (locals : Fields Item) (world : World) :
    (((Statement.publish name source).execute line).run.run locals).run
        (Engine.answer run routines context) world =
      ((source.eval locals line).run.run (Engine.answer run routines context) world).map
        fun (outcome, between) =>
          match outcome with
          | .error trouble => ((.error trouble, locals), between)
          | .ok item =>
            (((Engine.bindNative Item.toValue context name item (some line) between).1.mapError
                .exchange, locals),
              (Engine.bindNative Item.toValue context name item (some line) between).2) := by
  rw [Statement.run_execute, Statement.yields, run_bind, Program.bind_assoc, Program.run_bind,
    Option.map_eq_bind]
  congr 1
  funext ended
  obtain ⟨outcome, between⟩ := ended
  cases outcome with
  | error trouble => rfl
  | ok item =>
    dsimp only
    rw [run_bind, run_ofOutcome]
    cases converted : item.toValue with
    | error fault =>
      simp only [Function.comp, Engine.bindNative, converted]
      rfl
    | ok value =>
      simp only [Function.comp, Engine.bindNative, converted]
      rfl

/-- An item that cannot be turned into a value is not exported: after its expression was evaluated,
nothing more is done. -/
theorem run_publish_of_error {source : Expression} {locals : Fields Item} {world between : World}
    {item : Item} {fault : Fault}
    (ran : (source.eval locals line).run.run (Engine.answer run routines context) world =
      some (.ok item, between)) (refused : item.toValue = .error fault) :
    (((Statement.publish name source).execute line).run.run locals).run
        (Engine.answer run routines context) world =
      some ((.error (.exchange fault), locals), between) := by
  rw [run_publish run routines context name line, ran, Option.map_some]
  simp only [Engine.bindNative_of_error refused]
  rfl

end Statements

end Exporting

/-- Calls that are turned down leave everything as it was. In any world, so also in the midst of
runs of scripts inside each other, a call for a context or an evaluation, by the host or by a
program of a context, comes to a fault that tells neither of an evaluation nor of the limit only if
a language or a context is not known, a context is at work or a source is not there; then the world
is the same as before, but for one note of the source that was not there, with who asked for it, its
path from the source of the one who asked, and the line of the statement. Data that cannot be turned
into a value leave the world as it was if they are to be exported, and so they do in a script of
either language: the form or the statement fails with the locals and the world that evaluating
what is to be exported has left. -/
theorem rejected_calls_change_nothing (run : Runner) (routines : Routines) (world : World) :
    (∀ (operation : Operation) (answer : operation.Answer) (fault : Fault) (after : World),
      operation.perform run routines world = some (answer, after) →
      operation.refusal? answer = some fault → fault.IsPlain →
      world.TurnsDown (operation.wanted? world) fault after) ∧
    (∀ {α : Type} (toValue : α → Except Fault Value) (native : α) (fault : Fault),
      toValue native = .error fault → ∀ context name line,
      Engine.bindNative toValue context name native line world = (.error fault, world)) ∧
    (∀ context line name form value, Forms.Exports name form value →
      ∀ locals datum left between fault,
      ((Forms.eval line value).run.run locals).run (Engine.answer run routines context) world =
        some ((.ok datum, left), between) → datum.toValue = .error fault →
      ((Forms.eval line form).run.run locals).run (Engine.answer run routines context) world =
        some ((.error (.exchange fault), left), between)) ∧
    ∀ context line name source locals item between fault,
      (Statements.Expression.eval locals line source).run.run (Engine.answer run routines context)
        world = some (.ok item, between) → item.toValue = .error fault →
      (((Statements.Statement.publish name source).execute line).run.run locals).run
        (Engine.answer run routines context) world =
          some ((.error (.exchange fault), locals), between) := by
  refine ⟨?_, ?_, ?_, ?_⟩
  · intro operation answer fault after performed refused plain
    exact Operation.perform_turnsDown performed refused plain
  · intro α toValue native fault refused context name line
    exact Engine.bindNative_of_error refused context name line world
  · intro context line name form value exports locals datum left between fault ran refused
    exact Forms.run_export_of_error run routines context line exports ran refused
  · intro context line name source locals item between fault ran refused
    exact Statements.run_publish_of_error run routines context name line ran refused

/-- Where there are no sources, one that the host asks for is noted as missing with its path; a
context below one that is not known is not created, and nil is exported neither by the host nor by a
script. -/
theorem missing_source_noted :
    (∃ after, (Operation.ask .host (.eval "lisp" "lib/../gone.lisp" (some 3))).perform
        (Runner.within (Host.routines []) 2) (Host.routines []) .withoutSources =
          some (.error (.sourceNotFound "gone.lisp" none), after) ∧
      after = World.withoutSources.noting ⟨.host, "gone.lisp", some 3⟩) ∧
    (∃ after, (Operation.create (some ⟨7⟩) "lisp").perform
        (Runner.within (Host.routines []) 2) (Host.routines []) .withoutSources =
          some (.error (.unknownContext ⟨7⟩), after) ∧ after = .withoutSources) ∧
    Engine.bindNative Forms.Datum.toValue .host "n" .nil none .withoutSources =
      (.error (Forms.Datum.noCounterpart "nil"), .withoutSources) ∧
    ((Forms.eval 1 (.list [.symbol "export", .string "n", .symbol "nil"] none)).run.run []).run
        (Engine.answer (Runner.within (Host.routines []) 2) (Host.routines []) .host)
        .withoutSources =
      some ((.error (.exchange (Forms.Datum.noCounterpart "nil")), []), .withoutSources) := by
  obtain ⟨calls, native, forms, _⟩ := rejected_calls_change_nothing
    (Runner.within (Host.routines []) 2) (Host.routines []) .withoutSources
  refine ⟨?_, ?_, ?_, ?_⟩
  · have run : ((Operation.ask .host (.eval "lisp" "lib/../gone.lisp" (some 3))).perform
        (Runner.within (Host.routines []) 2) (Host.routines []) .withoutSources).map Prod.fst =
          some (.error (.sourceNotFound "gone.lisp" none)) := by
      decide +kernel
    obtain ⟨⟨answer, after⟩, performed, same⟩ := Option.map_eq_some_iff.1 run
    obtain rfl : answer = .error (.sourceNotFound "gone.lisp" none) := same
    refine ⟨after, performed, ?_⟩
    have refused := calls (.ask .host (.eval "lisp" "lib/../gone.lisp" (some 3))) _
      (.sourceNotFound "gone.lisp" none) after performed rfl trivial
    have wanted : Operation.wanted? .withoutSources
        (.ask .host (.eval "lisp" "lib/../gone.lisp" (some 3))) =
          some ⟨.host, "gone.lisp", some 3⟩ := by
      decide +kernel
    rw [wanted] at refused
    cases refused with
    | source asked path cause =>
      obtain rfl := Option.some.inj asked
      rfl
  · have refused := calls (.create (some ⟨7⟩) "lisp") (.error (.unknownContext ⟨7⟩))
      (.unknownContext ⟨7⟩) .withoutSources rfl rfl trivial
    exact ⟨.withoutSources, rfl, refused.unchanged⟩
  · exact native Forms.Datum.toValue .nil (Forms.Datum.noCounterpart "nil") rfl .host "n" none
  · exact forms .host 1 "n" _ _ (.given rfl (.symbol "nil") none) [] .nil [] .withoutSources
      (Forms.Datum.noCounterpart "nil") rfl rfl

end Interchange
