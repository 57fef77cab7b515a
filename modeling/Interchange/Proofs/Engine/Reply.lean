import Interchange.Engine.Running

/-!
# What a request sets off

Every request is answered at once, or it starts one other program and is answered when that
program has ended (`Engine.respond`). What is left to do then is data, not code (`Pending`), so
a proof can see which binding is to be settled and which context is to take its session back.
Carrying a reply out is what the exchange does for the request (`Engine.answer_eq`).
-/
namespace Interchange

/-- What is left to do for a request when the program that it started has ended. The types are
those of the program's result and of the answer to the request. -/
inductive Pending : Type → Type → Type 1 where
  /-- To pass the outcome of a function on. -/
  | passing : Pending (Except Fault Value) (Except Fault Value)
  /-- To settle the binding that a routine ran for. -/
  | settling (name : String) (generation routine : Nat) :
      Pending (Except Fault Value) (Except Fault Value)
  /-- To give its session back to the context that evaluated a unit. -/
  | finishing (context : ContextId) (unit : SourceUnit) :
      Pending (Session × Except Fault Unit) (Except Fault Unit)
  /-- To tell of the context that evaluated a unit. -/
  | naming {β : Type} (child : ContextId) (pending : Pending β (Except Fault Unit)) :
      Pending β (Except Fault ContextId)
  /-- To return to the engine that was at work before. -/
  | returning {β α : Type} (before : World) (pending : Pending β α) : Pending β α

/-- Do what is left to do: the answer to the request. -/
def Pending.conclude {β α : Type} : Pending β α → β → World → α × World
  | passing, outcome, world => (outcome, world)
  | settling name generation routine, outcome, world =>
    (outcome, { world with
      registry := world.registry.settle name generation routine outcome })
  | finishing context unit, (session, outcome), world =>
    (outcome.mapError (.evaluation unit.language unit.path context),
      world.withContexts (world.engine.contexts.finish context session outcome.isOk))
  | naming child pending, result, world =>
    ((pending.conclude result world).1.map fun _ => child, (pending.conclude result world).2)
  | returning before pending, result, world =>
    ((pending.conclude result world).1, before.backFrom (pending.conclude result world).2)

/-- How a request is answered. -/
inductive Reply (α : Type) : Type 1 where
  /-- At once. -/
  | now (answer : α) (world : World)
  /-- When a program that runs in a context has ended. -/
  | after {β : Type} (context : ContextId) (program : Program β) (world : World)
      (pending : Pending β α)

namespace Reply

variable {α β : Type}

/-- Carry a reply out. -/
def complete (run : Runner) : Reply α → Option (α × World)
  | now answer world => some (answer, world)
  | after context program world pending =>
    (run _ context program world).map fun (result, world) => pending.conclude result world

/-- Answer with the context that evaluates a unit. -/
def name (child : ContextId) : Reply (Except Fault Unit) → Reply (Except Fault ContextId)
  | now answer world => now (answer.map fun _ => child) world
  | after context program world pending => after context program world (.naming child pending)

/-- Return to the engine that was at work before. -/
def back (before : World) : Reply α → Reply α
  | now answer world => now answer (before.backFrom world)
  | after context program world pending => after context program world (.returning before pending)

/-- Answering with a context changes nothing but the answer. -/
theorem complete_name (run : Runner) (child : ContextId) (reply : Reply (Except Fault Unit)) :
    (reply.name child).complete run =
      (reply.complete run).map fun (answer, world) => (answer.map fun _ => child, world) := by
  cases reply with
  | now answer world => rfl
  | after context program world pending =>
    simp only [name, complete, Option.map_map]
    rfl

/-- Returning changes nothing but the engine at work. -/
theorem complete_back (run : Runner) (before : World) (reply : Reply α) :
    (reply.back before).complete run =
      (reply.complete run).map fun (answer, world) => (answer, before.backFrom world) := by
  cases reply with
  | now answer world => rfl
  | after context program world pending =>
    simp only [back, complete, Option.map_map]
    rfl

end Reply

namespace Engine

/-- How the evaluation of a unit in a context is answered. -/
def respondEvaluate (context : ContextId) (unit : SourceUnit) (world : World) :
    Reply (Except Fault Unit) :=
  match world.engine.contexts.begin context unit.path with
  | (.error fault, contexts) => .now (.error fault) (world.withContexts contexts)
  | (.ok (session, depth), contexts) =>
    if world.engine.maxDepth < depth then
      .now (.error (.depthExceeded world.engine.maxDepth))
        (world.withContexts (contexts.finish context session false))
    else
      .after context (session.evaluate ⟨context, unit.language, unit.path⟩ unit.text)
        (world.withContexts contexts) (.finishing context unit)

/-- How the evaluation of a unit in a new context is answered. -/
def respondBelow (parent : ContextId) (unit : SourceUnit) (world : World) :
    Reply (Except Fault ContextId) :=
  match createContext (some parent) unit.language world with
  | (.error fault, world) => .now (.error fault) world
  | (.ok child, world) => (respondEvaluate child unit world).name child

/-- How the evaluation of a source is answered. -/
def respondEval (caller : ContextId) (language path : String) (line : Option Nat)
    (world : World) : Reply (Except Fault ContextId) :=
  let path := SourcePath.resolve (world.engine.contexts.sourceOf caller) path
  match world.engine.languages.get language with
  | .error fault => .now (.error fault) world
  | .ok _ =>
    match world.engine.loader.load path with
    | .error fault => .now (.error fault) (noteMissing caller path line fault world)
    | .ok text => respondBelow caller ⟨language, path, text⟩ world

/-- How the look-up of a name is answered. -/
def respondImport (routines : Routines) (context : ContextId) (name : String)
    (line : Option Nat) (world : World) : Reply (Except Fault Value) :=
  let registry := (world.registry.lookUp name context line).2
  match world.registry.find? name with
  | none => .now (.error (.unresolvedName name)) { world with registry }
  | some binding =>
    match binding.slot with
    | .ready value => .now (.ok value) { world with registry }
    | .forcing _ => .now (.error (.cyclicLazyExport name)) { world with registry }
    | .deferred routine =>
      .after .host (routines routine [])
        { world with registry := registry.replace name (.forcing routine) }
        (.settling name binding.generation routine)

/-- How the call of a function is answered. -/
def respondCall (routines : Routines) (function : Reference) (arguments : List Value)
    (world : World) : Reply (Except Fault Value) :=
  match world.heap.routine function with
  | .error fault => .now (.error fault) world
  | .ok routine =>
    .after .host (routines routine arguments) world.atHome (.returning world .passing)

/-- How a request of a program that belongs to a context is answered. -/
def respond (routines : Routines) (context : ContextId) :
    (request : Request) → World → Reply request.Answer
  | .inspect, world => .now world.heap world
  | .look query, world => .now (world.atHome.tell query) world
  | .allocate pairs, world =>
    .now (world.heap.allocateRecord context pairs).1
      { world with heap := (world.heap.allocateRecord context pairs).2 }
  | .setField target name value, world =>
    match world.heap.setField target name value with
    | .ok heap => .now (.ok ()) { world with heap }
    | .error fault => .now (.error fault) world
  | .call function arguments, world => respondCall routines function arguments world
  | .importName name line, world => respondImport routines context name line world
  | .exportValue name value line, world =>
    .now () (bindName context name (.ready value) line world)
  | .exportLazy name routine, world =>
    .now () (bindName context name (.deferred routine) none world)
  | .eval language path line, world => respondEval context language path line world
  | .evaluate target unit, world => respondEvaluate target unit world
  | .evalUnit unit, world => (respondBelow .host unit world.atHome).back world
  | .print line, world =>
    .now (world.engine.output.print line).1
      { world with engine := { world.engine with output := (world.engine.output.print line).2 } }
  | .tally name, world =>
    .now ((Fields.find? name world.tallies).getD 0 + 1)
      { world with tallies :=
          Fields.insert name ((Fields.find? name world.tallies).getD 0 + 1) world.tallies }

/-- A new context is added to the tree, and nothing else changes. -/
theorem createContext_cases (parent : Option ContextId) (language : String) (world : World) :
    (∃ fault, createContext parent language world = (.error fault, world)) ∨
      ∃ found child contexts, world.engine.languages.get language = .ok found ∧
        world.engine.contexts.create parent language found.session = (.ok child, contexts) ∧
        createContext parent language world = (.ok child, world.withContexts contexts) := by
  cases known : world.engine.languages.get language with
  | error fault => exact .inl ⟨fault, by simp only [createContext, known]⟩
  | ok found =>
    rcases created : world.engine.contexts.create parent language found.session with
      ⟨fault | child, contexts⟩
    · obtain rfl := ContextTree.create_of_refused created
      exact .inl ⟨fault, by simp only [createContext, known, created]; rfl⟩
    · exact .inr ⟨found, child, contexts, rfl, created,
        by simp only [createContext, known, created]⟩

/-- A unit is refused by a context that does not begin it, and nothing changes. -/
theorem respondEvaluate_of_refused {context : ContextId} {unit : SourceUnit} {world : World}
    {fault : Fault} {contexts : ContextTree}
    (refused : world.engine.contexts.begin context unit.path = (.error fault, contexts)) :
    respondEvaluate context unit world = .now (.error fault) world := by
  obtain rfl := ContextTree.begin_of_refused refused
  simp only [respondEvaluate, refused]
  rfl

variable (run : Runner) (routines : Routines)

/-- Evaluating a unit is carrying its reply out. -/
theorem evaluate_eq (context : ContextId) (unit : SourceUnit) (world : World) :
    evaluate run context unit world = (respondEvaluate context unit world).complete run := by
  rcases begun : world.engine.contexts.begin context unit.path with
    ⟨fault | ⟨session, depth⟩, contexts⟩
  · simp only [evaluate, respondEvaluate, begun, Reply.complete]
  · by_cases deep : world.engine.maxDepth < depth
    · simp only [evaluate, respondEvaluate, begun, if_pos deep, Reply.complete]
    · simp only [evaluate, respondEvaluate, begun, if_neg deep, Reply.complete]
      rfl

/-- Evaluating a unit in a new context is carrying its reply out. -/
theorem evaluateBelow_eq (parent : ContextId) (unit : SourceUnit) (world : World) :
    evaluateBelow run parent unit world = (respondBelow parent unit world).complete run := by
  rcases created : createContext (some parent) unit.language world with ⟨fault | child, after⟩
  · simp only [evaluateBelow, respondBelow, created, Reply.complete]
  · simp only [evaluateBelow, respondBelow, created, Reply.complete_name, evaluate_eq]

/-- Evaluating a source is carrying its reply out. -/
theorem evalAt_eq (caller : ContextId) (language path : String) (line : Option Nat)
    (world : World) :
    evalAt run caller language path line world =
      (respondEval caller language path line world).complete run := by
  cases known : world.engine.languages.get language with
  | error fault => simp only [evalAt, respondEval, known, Reply.complete]
  | ok found =>
    cases loaded : world.engine.loader.load
        (SourcePath.resolve (world.engine.contexts.sourceOf caller) path) with
    | error fault => simp only [evalAt, respondEval, known, loaded, Reply.complete]
    | ok text => simp only [evalAt, respondEval, known, loaded, evaluateBelow_eq]

/-- Looking a name up is carrying its reply out. -/
theorem importName_eq (context : ContextId) (name : String) (line : Option Nat) (world : World) :
    importName run routines context name line world =
      (respondImport routines context name line world).complete run := by
  cases found : world.registry.find? name with
  | none => simp only [importName, respondImport, Registry.lookUp, found, Reply.complete]
  | some binding =>
    simp only [importName, respondImport, Registry.lookUp, found]
    cases binding.slot <;> rfl

/-- Calling a function is carrying its reply out. -/
theorem call_eq (function : Reference) (arguments : List Value) (world : World) :
    call run routines function arguments world =
      (respondCall routines function arguments world).complete run := by
  cases callable : world.heap.routine function with
  | error fault => simp only [call, respondCall, callable, Reply.complete]
  | ok routine =>
    simp only [call, respondCall, callable, Reply.complete]
    rfl

/-- What the exchange does for a request is carrying its reply out. -/
theorem answer_eq (context : ContextId) (request : Request) (world : World) :
    answer run routines context request world =
      (respond routines context request world).complete run := by
  cases request with
  | inspect => rfl
  | look query => rfl
  | allocate pairs => rfl
  | setField target name value =>
    cases set : world.heap.setField target name value <;>
      simp only [answer, respond, set, Reply.complete]
  | call function arguments => exact call_eq run routines function arguments world
  | importName name line => exact importName_eq run routines context name line world
  | exportValue name value line => rfl
  | exportLazy name routine => rfl
  | eval language path line => exact evalAt_eq run context language path line world
  | evaluate target unit => exact evaluate_eq run target unit world
  | evalUnit unit =>
    simp only [answer, respond, Reply.complete_back, Action.home, evalUnit, evaluateBelow_eq]
  | print line => rfl
  | tally name => rfl

end Engine

end Interchange
