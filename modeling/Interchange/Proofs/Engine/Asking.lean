import Interchange.Proofs.Engine.Moment
import Interchange.Proofs.Engine.Quiet

/-!
# What programs ask for

A program can be bound to ask only for certain things, whatever the answers are (`Program.Asks`).
If that holds of the first program of a run, of the routines in reach and of all scripts that can be
started, then it holds of every program that is ever at work or waits (`Moment.Step.obeys`).
-/
namespace Interchange

namespace Program

variable {α β : Type} {allowed wider : Request → Prop}

/-- Whatever the answers are, the program asks only for what is allowed. -/
def Asks (allowed : Request → Prop) : Program α → Prop
  | done _ => True
  | ask request next => allowed request ∧ ∀ answer, (next answer).Asks allowed

/-- One request that is allowed. -/
theorem asks_send {request : Request} (may : allowed request) :
    (send request).Asks allowed := ⟨may, fun _ => trivial⟩

/-- Going on after a program. -/
theorem Asks.bind {program : Program α} {next : α → Program β} (asks : program.Asks allowed)
    (rest : ∀ result, (next result).Asks allowed) : (program.bind next).Asks allowed := by
  induction program with
  | done result => exact rest result
  | ask request later ih => exact ⟨asks.1, fun answer => ih answer (asks.2 answer)⟩

/-- Where more is allowed, what was allowed still is. -/
theorem Asks.mono {program : Program α} (asks : program.Asks allowed)
    (wide : ∀ request, allowed request → wider request) : program.Asks wider := by
  induction program with
  | done result => trivial
  | ask request later ih => exact ⟨wide request asks.1, fun answer => ih answer (asks.2 answer)⟩

end Program

namespace Request

/-- The request evaluates a unit. -/
def Evaluates : Request → Prop
  | eval .. => True
  | evaluate .. => True
  | evalUnit .. => True
  | _ => False

/-- The request binds no name to a routine. -/
def IsEager : Request → Prop
  | exportLazy .. => False
  | _ => True

/-- The name that the request binds, and to what. -/
def exported? : Request → Option (String × Content)
  | exportValue name value _ => some (name, .value value)
  | exportLazy name routine => some (name, .routine routine)
  | _ => none

/-- A request that binds no name to a routine binds none to one. -/
theorem IsEager.exported_ne {request : Request} (eager : request.IsEager) (name : String)
    (routine : Nat) : request.exported? ≠ some (name, .routine routine) := by
  cases request <;> simp_all [exported?, IsEager]

/-- A routine that the request hands over is one of the given ones. -/
def HandsOver (reach : Nat → Prop) : Request → Prop
  | exportLazy _ routine => reach routine
  | _ => True

end Request

/-- The programs that can come to work ask only for what is allowed: the routines in reach, which
are all that can be handed over, and scripts if evaluating is allowed. -/
structure Routines.Obey (routines : Routines) (reach : Nat → Prop) (allowed : Request → Prop) :
    Prop where
  /-- Only routines in reach are handed over. -/
  handsOver : ∀ request, allowed request → request.HandsOver reach
  /-- What the routines of names ask for. -/
  thunks : ∀ routine, reach routine → (routines routine []).Asks allowed
  /-- What the routines of functions ask for, if calling is allowed. -/
  functions : ∀ function arguments, allowed (.call function arguments) → ∀ routine,
    reach routine → (routines routine arguments).Asks allowed
  /-- What scripts ask for. -/
  scripts : ∀ request, allowed request → request.Evaluates → ∀ (session : Session) scope text,
    (session.evaluate scope text).Asks allowed

variable {reach : Nat → Prop} {allowed : Request → Prop}

/-- What can be run on the way back from the first engine. -/
theorem World.Sealed.backFrom {before after : World} (sealed : before.Sealed reach)
    (sealedAfter : after.Sealed reach) : (before.backFrom after).Sealed reach := by
  unfold World.backFrom
  split
  · exact sealedAfter
  · refine ⟨?_, ?_, sealedAfter.heap⟩
    · dsimp only
      split
      · exact sealed.registry
      · exact sealedAfter.registry
    · intro later registry same own
      obtain rfl := Option.some.inj same
      obtain ⟨_, _, rfl⟩ := Option.map_eq_some_iff.1 own
      exact sealedAfter.registry

/-- What is left to do brings no other routine within reach. -/
def Pending.Sealed (reach : Nat → Prop) {β α : Type} : Pending β α → Prop
  | passing => True
  | settling _ _ routine => reach routine
  | finishing .. => True
  | naming _ pending => pending.Sealed reach
  | returning before pending => before.Sealed reach ∧ pending.Sealed reach

/-- Doing what is left to do brings no other routine within reach. -/
theorem Pending.Sealed.conclude {β α : Type} {pending : Pending β α}
    (sealedPending : pending.Sealed reach) (result : β) {world : World}
    (sealed : world.Sealed reach) : (pending.conclude result world).2.Sealed reach := by
  induction pending with
  | passing => exact sealed
  | settling name generation routine =>
    exact ⟨sealed.registry.settle sealedPending name generation result, sealed.home, sealed.heap⟩
  | finishing context unit => exact sealed.withContexts _
  | naming child pending ih => exact ih sealedPending result
  | returning before pending ih => exact sealedPending.1.backFrom (ih sealedPending.2 result)

/-- A reply brings no routine within reach and starts only a program that obeys. -/
def Reply.Obeys (reach : Nat → Prop) (allowed : Request → Prop) {α : Type} : Reply α → Prop
  | now _ world => world.Sealed reach
  | after _ program world pending =>
    world.Sealed reach ∧ pending.Sealed reach ∧ program.Asks allowed

namespace Engine

variable {world : World}

/-- Evaluating a unit starts a script. -/
theorem respondEvaluate_obeys (sealed : world.Sealed reach)
    (scripts : ∀ (session : Session) scope text, (session.evaluate scope text).Asks allowed)
    (context : ContextId) (unit : SourceUnit) :
    (respondEvaluate context unit world).Obeys reach allowed := by
  unfold respondEvaluate
  split
  · exact sealed.withContexts _
  · split
    · exact sealed.withContexts _
    · exact ⟨sealed.withContexts _, trivial, scripts _ _ _⟩

/-- Evaluating a unit in a new context starts a script. -/
theorem respondBelow_obeys (sealed : world.Sealed reach)
    (scripts : ∀ (session : Session) scope text, (session.evaluate scope text).Asks allowed)
    (parent : ContextId) (unit : SourceUnit) :
    (respondBelow parent unit world).Obeys reach allowed := by
  rcases createContext_cases (some parent) unit.language world with
    ⟨fault, refused⟩ | ⟨found, child, contexts, _, _, created⟩
  · simp only [respondBelow, refused]
    exact sealed
  · simp only [respondBelow, created]
    have obeys := respondEvaluate_obeys (sealed.withContexts contexts) scripts child unit
    cases reply : respondEvaluate child unit (world.withContexts contexts) <;>
      · rw [reply] at obeys
        exact obeys

/-- Evaluating a source starts a script. -/
theorem respondEval_obeys (sealed : world.Sealed reach)
    (scripts : ∀ (session : Session) scope text, (session.evaluate scope text).Asks allowed)
    (caller : ContextId) (language path : String) (line : Option Nat) :
    (respondEval caller language path line world).Obeys reach allowed := by
  unfold respondEval
  dsimp only
  split
  · exact sealed
  · split
    · unfold noteMissing
      split
      · exact ⟨sealed.registry, sealed.home, sealed.heap⟩
      · exact sealed
    · exact respondBelow_obeys sealed scripts caller _

/-- Looking a name up starts a routine in reach if any. -/
theorem respondImport_obeys {routines : Routines} (sealed : world.Sealed reach)
    (thunks : ∀ routine, reach routine → (routines routine []).Asks allowed)
    (context : ContextId) (name : String) (line : Option Nat) :
    (respondImport routines context name line world).Obeys reach allowed := by
  have recorded := sealed.registry.lookUp name context line
  unfold respondImport
  dsimp only
  split
  · exact ⟨recorded, sealed.home, sealed.heap⟩
  · rename_i binding found
    split
    · exact ⟨recorded, sealed.home, sealed.heap⟩
    · exact ⟨recorded, sealed.home, sealed.heap⟩
    · rename_i routine held
      have inReach : reach routine := sealed.registry.routine found held
      exact ⟨⟨recorded.started inReach name, sealed.home, sealed.heap⟩, inReach,
        thunks routine inReach⟩

/-- Calling a function starts a routine in reach if any. -/
theorem respondCall_obeys {routines : Routines} (sealed : world.Sealed reach)
    (function : Reference) (arguments : List Value)
    (functions : ∀ routine, reach routine → (routines routine arguments).Asks allowed) :
    (respondCall routines function arguments world).Obeys reach allowed := by
  unfold respondCall
  split
  · exact sealed
  · rename_i routine callable
    exact ⟨sealed.atHome, ⟨sealed, trivial⟩, functions routine (sealed.heap.routine callable)⟩

/-- Returning brings nothing within reach. -/
theorem Reply.Obeys.back {α : Type} (sealed : world.Sealed reach) {reply : Reply α}
    (obeys : reply.Obeys reach allowed) : (reply.back world).Obeys reach allowed := by
  cases reply with
  | now answer after => exact sealed.backFrom obeys
  | after context program opened pending => exact ⟨obeys.1, ⟨sealed, obeys.2.1⟩, obeys.2.2⟩

/-- Whatever is allowed brings no routine within reach and starts only programs that obey. -/
theorem respond_obeys {routines : Routines} (obey : routines.Obey reach allowed)
    (sealed : world.Sealed reach) (context : ContextId) {request : Request}
    (may : allowed request) : (respond routines context request world).Obeys reach allowed := by
  have scripts := obey.scripts request may
  have handsOver := obey.handsOver request may
  cases request with
  | inspect => exact sealed
  | look query => exact sealed
  | allocate pairs =>
    exact ⟨sealed.registry, sealed.home, sealed.heap.allocateRecord context pairs⟩
  | setField target name value =>
    simp only [respond]
    split
    · rename_i heap set
      exact ⟨sealed.registry, sealed.home, sealed.heap.setField set⟩
    · exact sealed
  | call function arguments =>
    exact respondCall_obeys sealed function arguments (obey.functions function arguments may)
  | importName name line => exact respondImport_obeys sealed obey.thunks context name line
  | exportValue name value line =>
    exact ⟨sealed.registry.bindValue name value context line, sealed.home, sealed.heap⟩
  | exportLazy name routine =>
    exact ⟨sealed.registry.bindRoutine handsOver name context none, sealed.home, sealed.heap⟩
  | eval language path line => exact respondEval_obeys sealed (scripts trivial) context language _ _
  | evaluate target unit => exact respondEvaluate_obeys sealed (scripts trivial) target unit
  | evalUnit unit =>
    exact Reply.Obeys.back sealed (respondBelow_obeys sealed.atHome (scripts trivial) .host unit)
  | print line => exact ⟨sealed.registry, sealed.home, sealed.heap⟩
  | tally name => exact ⟨sealed.registry, sealed.home, sealed.heap⟩

end Engine

/-- The programs that wait obey, and what is left to do brings no routine within reach. -/
def Stack.Obeys (reach : Nat → Prop) (allowed : Request → Prop) {α : Type} : Stack α → Prop
  | bottom => True
  | frame _ pending next rest =>
    pending.Sealed reach ∧ (∀ answer, (next answer).Asks allowed) ∧ rest.Obeys reach allowed

/-- The end of a program is only ever the end of a routine for the registry. -/
theorem Pending.ended_of_ended? {β α : Type} {pending : Pending β α} {result : β} {deed : Deed}
    (told : pending.ended? result = some deed) :
    ∃ forcing outcome, deed = .ended forcing outcome := by
  induction pending with
  | passing => simp [ended?] at told
  | settling name generation routine => exact ⟨_, _, (Option.some.inj told).symm⟩
  | finishing context unit => simp [ended?] at told
  | naming child pending ih => exact ih told
  | returning before pending ih => exact ih told

/-- Names were bound only to values. -/
def Exchange.Eager (deeds : List Deed) : Prop :=
  ∀ name routine, .exported name (.routine routine) ∉ deeds

namespace Moment

/-- All programs at work or waiting obey, and no other routines can be run. -/
structure Obeys (reach : Nat → Prop) (allowed : Request → Prop) (moment : Moment) : Prop where
  /-- The program at work. -/
  program : moment.program.Asks allowed
  /-- The programs that wait. -/
  stack : moment.stack.Obeys reach allowed
  /-- The routines that can be run. -/
  sealed : moment.world.Sealed reach

/-- From one moment to the next, all programs go on obeying. -/
theorem Step.obeys {routines : Routines} (obey : routines.Obey reach allowed)
    {before after : Moment} {deed : Option Deed} (step : Step routines before deed after)
    (obeys : before.Obeys reach allowed) : after.Obeys reach allowed := by
  obtain ⟨asks, stack, sealed⟩ := obeys
  cases step with
  | @answered _ context _ _ _ _ _ _ reply =>
    have replied := Engine.respond_obeys obey sealed context asks.1
    rw [reply] at replied
    exact ⟨asks.2 _, stack, replied⟩
  | @started _ _ context _ _ _ _ _ _ _ _ reply =>
    have replied := Engine.respond_obeys obey sealed context asks.1
    rw [reply] at replied
    exact ⟨replied.2.2, ⟨replied.2.1, asks.2, stack⟩, replied.1⟩
  | ended => exact ⟨stack.2.1 _, stack.2.2, stack.1.conclude _ sealed⟩

/-- Only an export that was asked for happens. -/
theorem Step.asked_of_exported {routines : Routines} {before after : Moment} {name : String}
    {content : Content} (step : Step routines before (some (.exported name content)) after)
    (asks : before.program.Asks allowed) :
    ∃ request, allowed request ∧ request.exported? = some (name, content) := by
  generalize told : some (Deed.exported name content) = deed at step
  cases step with
  | @answered _ _ request _ _ _ _ answer _ =>
    refine ⟨request, asks.1, ?_⟩
    cases request <;> simp_all [Request.deed?, Request.exported?]
  | started reply =>
    obtain ⟨forcing, _, impossible⟩ := Option.map_eq_some_iff.1 told.symm
    simp at impossible
  | @ended _ _ _ _ _ result pending _ _ _ =>
    obtain ⟨forcing, outcome, same⟩ := pending.ended_of_ended? told.symm
    simp at same

/-- Along a run, all programs go on obeying. -/
theorem Reaches.obeys {routines : Routines} (obey : routines.Obey reach allowed)
    {first last : Moment} {deeds : List Deed} (reached : Reaches routines first deeds last)
    (obeys : first.Obeys reach allowed) : last.Obeys reach allowed :=
  reached.keeps (fun now before => now.obeys obey before) obeys

/-- Where only values may be bound, only values are bound. -/
theorem Reaches.eager {routines : Routines} (obey : routines.Obey reach allowed)
    (eager : ∀ request, allowed request → request.IsEager) {first last : Moment}
    {deeds : List Deed} (reached : Reaches routines first deeds last)
    (obeys : first.Obeys reach allowed) : Exchange.Eager deeds := by
  induction reached with
  | refl => exact fun name routine => List.not_mem_nil
  | @step last next deeds deed before now ih =>
    intro name routine mem
    rcases List.mem_append.1 mem with last | earlier
    · rw [Option.mem_toList.1 last] at now
      obtain ⟨request, may, asked⟩ := now.asked_of_exported (before.obeys obey obeys).program
      exact (eager request may).exported_ne name routine asked
    · exact ih name routine earlier

/-- A run that begins with a program that obeys. -/
theorem start_obeys {α : Type} {context : ContextId} {program : Program α} {world : World}
    (asks : program.Asks allowed) (sealed : world.Sealed reach) :
    (start context program world).Obeys reach allowed := ⟨asks, trivial, sealed⟩

end Moment

end Interchange
