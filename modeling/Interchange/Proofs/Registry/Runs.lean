import Interchange.Proofs.Engine.Moment
import Interchange.Proofs.Registry.History

/-!
# What runs do to a registry

Whatever runs, scripts, functions or routines inside each other, a registry sees one call after
the other (`Moment.exchange_of_reaches`). So what holds of all orders of calls holds at every
moment of every run. Only a world whose engines share one registry is looked at; with two, each
sees some of the calls. What a look-up returns is what happens at the registry
(`Engine.importName_tells`). Main statement: every history of a registry is lawful, also the one
that any run makes (`lookUps_answered_by_history`).
-/
namespace Interchange

namespace World

/-- The engine at work and the first engine share one registry. -/
def HasOneRegistry (world : World) : Prop :=
  ∀ home, world.home = some home → home.registry = none

variable {world before after : World}

/-- The first engine works on the shared registry. -/
theorem HasOneRegistry.registry_atHome (one : world.HasOneRegistry) :
    world.atHome.registry = world.registry := by
  unfold atHome
  split
  · rfl
  · rename_i home waits
    simp [one home waits]

/-- While the first engine is at work, no other registry is there. -/
theorem HasOneRegistry.atHome (one : world.HasOneRegistry) : world.atHome.HasOneRegistry := by
  unfold World.atHome
  split
  · exact one
  · intro home waits
    simp at waits

/-- The shared registry is kept on the way back. -/
theorem HasOneRegistry.registry_backFrom (one : before.HasOneRegistry) :
    (before.backFrom after).registry = after.registry := by
  unfold backFrom
  split
  · rfl
  · rename_i home waits
    simp [one home waits]

/-- There is still one registry on the way back. -/
theorem HasOneRegistry.backFrom (one : before.HasOneRegistry) (oneAfter : after.HasOneRegistry) :
    (before.backFrom after).HasOneRegistry := by
  unfold World.backFrom
  split
  · exact oneAfter
  · rename_i home waits
    intro later laterWaits
    simp only [Option.some.injEq] at laterWaits
    rw [← laterWaits, one home waits, Option.map_none]

end World

/-- At most one thing happens. -/
inductive Exchange.Moves : Exchange → Option Deed → Exchange → Prop where
  /-- Nothing happens. -/
  | rest (exchange : Exchange) : Moves exchange none exchange
  /-- One thing happens. -/
  | step {exchange next : Exchange} {deed : Deed} (now : Step exchange deed next) :
      Moves exchange (some deed) next

/-- At most one more thing has happened. -/
theorem Exchange.Reaches.moves {first last next : Exchange} {deeds : List Deed}
    {deed : Option Deed} (before : Reaches first deeds last) (moves : Moves last deed next) :
    Reaches first (deed.toList ++ deeds) next := by
  cases moves with
  | rest => exact before
  | step now => exact before.step now

/-- Every world to return to has one registry. -/
def Pending.HasOneRegistry {β α : Type} : Pending β α → Prop
  | passing | settling .. | finishing .. => True
  | naming _ pending => pending.HasOneRegistry
  | returning before pending => before.HasOneRegistry ∧ pending.HasOneRegistry

/-- Every world to return to has one registry. -/
def Stack.HasOneRegistry {α : Type} : Stack α → Prop
  | bottom => True
  | frame _ pending _ rest => pending.HasOneRegistry ∧ rest.HasOneRegistry

/-- Concluding a request is at most the end of a routine for the registry. -/
theorem Pending.conclude_moves {β α : Type} {pending : Pending β α}
    (one : pending.HasOneRegistry) (result : β) {world : World}
    (oneWorld : world.HasOneRegistry) (forcings : List Forcing) :
    (pending.conclude result world).2.HasOneRegistry ∧
      Exchange.Moves ⟨world.registry, pending.forcing?.toList ++ forcings⟩
        (pending.ended? result) ⟨(pending.conclude result world).2.registry, forcings⟩ := by
  induction pending with
  | passing => exact ⟨oneWorld, .rest _⟩
  | settling name generation routine =>
    exact ⟨oneWorld, .step (.ended world.registry ⟨name, generation, routine⟩ forcings result)⟩
  | finishing context unit => exact ⟨oneWorld, .rest _⟩
  | naming child pending ih => exact ih one result
  | returning before pending ih =>
    obtain ⟨oneBefore, onePending⟩ := one
    obtain ⟨oneAfter, moves⟩ := ih onePending result
    refine ⟨oneBefore.backFrom oneAfter, ?_⟩
    rw [conclude, oneBefore.registry_backFrom]
    exact moves

namespace Engine

variable {world : World}

/-- What a reply does to a registry, at once or on the way to a program. -/
def Tells {α : Type} (registry : Registry) (deed? : α → Option Deed) : Reply α → Prop
  | .now answer after => after.HasOneRegistry ∧ ∀ forcings,
      Exchange.Moves ⟨registry, forcings⟩ (deed? answer) ⟨after.registry, forcings⟩
  | .after _ _ opened pending => opened.HasOneRegistry ∧ pending.HasOneRegistry ∧ ∀ forcings,
      Exchange.Moves ⟨registry, forcings⟩ (pending.forcing?.map .started)
        ⟨opened.registry, pending.forcing?.toList ++ forcings⟩

/-- A request that leaves the registry and the engines as they are. -/
theorem tells_of_now {α : Type} {deed? : α → Option Deed} {answer : α} {after : World}
    (one : world.HasOneRegistry) (quiet : deed? answer = none)
    (registry : after.registry = world.registry) (home : after.home = world.home) :
    Tells world.registry deed? (.now answer after) := by
  refine ⟨fun found waits => one found (home ▸ waits), fun forcings => ?_⟩
  rw [quiet, registry]
  exact .rest _

/-- Evaluating a unit leaves the registry to the unit. -/
theorem respondEvaluate_tells (one : world.HasOneRegistry) (context : ContextId)
    (unit : SourceUnit) :
    Tells world.registry (fun _ => none) (respondEvaluate context unit world) := by
  unfold respondEvaluate
  split
  · exact tells_of_now one rfl rfl rfl
  · split
    · exact tells_of_now one rfl rfl rfl
    · exact ⟨one, trivial, fun forcings => .rest _⟩

/-- Naming the context is nothing to the registry. -/
theorem Tells.name {reply : Reply (Except Fault Unit)}
    (tells : Tells world.registry (fun _ => none) reply) (child : ContextId) :
    Tells world.registry (fun _ => none) (reply.name child) := by
  cases reply with
  | now answer after => exact tells
  | after context program opened pending => exact tells

/-- Evaluating a unit in a new context leaves the registry to the unit. -/
theorem respondBelow_tells (one : world.HasOneRegistry) (parent : ContextId)
    (unit : SourceUnit) :
    Tells world.registry (fun _ => none) (respondBelow parent unit world) := by
  rcases createContext_cases (some parent) unit.language world with
    ⟨fault, refused⟩ | ⟨found, child, contexts, _, _, created⟩
  · simp only [respondBelow, refused]
    exact tells_of_now one rfl rfl rfl
  · simp only [respondBelow, created]
    have oneAfter : (world.withContexts contexts).HasOneRegistry := one
    exact (respondEvaluate_tells oneAfter child unit).name child

/-- Evaluating a source leaves the registry to the source. -/
theorem respondEval_tells (one : world.HasOneRegistry) (caller : ContextId)
    (language path : String) (line : Option Nat) :
    Tells world.registry (fun _ => none) (respondEval caller language path line world) := by
  unfold respondEval
  dsimp only
  split
  · exact tells_of_now one rfl rfl rfl
  · split
    · unfold noteMissing
      split
      · exact tells_of_now one rfl rfl rfl
      · exact tells_of_now one rfl rfl rfl
    · exact respondBelow_tells one caller _

/-- Acting for the first engine is nothing to the registry. -/
theorem Tells.back {α : Type} (one : world.HasOneRegistry) {reply : Reply α}
    (tells : Tells world.atHome.registry (fun _ => none) reply) :
    Tells world.registry (fun _ => none) (reply.back world) := by
  cases reply with
  | now answer after =>
    obtain ⟨oneAfter, moves⟩ := tells
    refine ⟨one.backFrom oneAfter, fun forcings => ?_⟩
    rw [one.registry_backFrom, ← one.registry_atHome]
    exact moves forcings
  | after context program opened pending =>
    obtain ⟨oneOpened, onePending, moves⟩ := tells
    refine ⟨oneOpened, ⟨one, onePending⟩, fun forcings => ?_⟩
    rw [← one.registry_atHome]
    exact moves forcings

/-- A look-up is answered as the registry says, or starts the routine that is bound. -/
theorem respondImport_tells (one : world.HasOneRegistry) (routines : Routines)
    (context : ContextId) (name : String) (line : Option Nat) :
    Tells world.registry (Request.deed? (.importName name line))
      (respondImport routines context name line world) := by
  unfold respondImport
  dsimp only
  cases found : world.registry.find? name with
  | none => exact ⟨one, fun forcings => .step (.unbound forcings context line found)⟩
  | some binding =>
    cases held : binding.slot with
    | ready value =>
      simp only [held]
      exact ⟨one, fun forcings => .step (.ready forcings context line found held)⟩
    | deferred routine =>
      simp only [held]
      exact ⟨one, trivial, fun forcings => .step (.started forcings context line found held)⟩
    | forcing routine =>
      simp only [held]
      exact ⟨one, fun forcings => .step (.cyclic forcings context line found held)⟩

/-- A look-up is answered at once or settles the binding that it starts the routine of. -/
theorem respondImport_cases (routines : Routines) (context : ContextId) (name : String)
    (line : Option Nat) (world : World) :
    (∃ answer after, respondImport routines context name line world = .now answer after) ∨
      ∃ program opened generation routine, respondImport routines context name line world =
        .after .host program opened (.settling name generation routine) := by
  unfold respondImport
  dsimp only
  cases world.registry.find? name with
  | none => exact .inl ⟨_, _, rfl⟩
  | some binding =>
    cases held : binding.slot with
    | ready value =>
      simp only [held]
      exact .inl ⟨_, _, rfl⟩
    | deferred routine =>
      simp only [held]
      exact .inr ⟨_, _, _, _, rfl⟩
    | forcing routine =>
      simp only [held]
      exact .inl ⟨_, _, rfl⟩

/-- Calling a function leaves the registry to its routine. -/
theorem respondCall_tells (one : world.HasOneRegistry) (routines : Routines)
    (function : Reference) (arguments : List Value) :
    Tells world.registry (fun _ => none) (respondCall routines function arguments world) := by
  unfold respondCall
  split
  · exact tells_of_now one rfl rfl rfl
  · refine ⟨one.atHome, ⟨one, trivial⟩, fun forcings => ?_⟩
    rw [one.registry_atHome]
    exact .rest _

/-- What a request is for the registry. -/
theorem respond_tells (one : world.HasOneRegistry) (routines : Routines) (context : ContextId)
    (request : Request) :
    Tells world.registry request.deed? (respond routines context request world) := by
  cases request with
  | inspect => exact tells_of_now one rfl rfl rfl
  | look query => exact tells_of_now one rfl rfl rfl
  | allocate pairs => exact tells_of_now one rfl rfl rfl
  | setField target name value =>
    simp only [respond]
    split <;> exact tells_of_now one rfl rfl rfl
  | call function arguments => exact respondCall_tells one routines function arguments
  | importName name line => exact respondImport_tells one routines context name line
  | exportValue name value line =>
    exact ⟨one, fun forcings =>
      .step (.exported world.registry forcings name (.value value) context line)⟩
  | exportLazy name routine =>
    exact ⟨one, fun forcings =>
      .step (.exported world.registry forcings name (.routine routine) context none)⟩
  | eval language path line => exact respondEval_tells one context language path line
  | evaluate target unit => exact respondEvaluate_tells one target unit
  | evalUnit unit => exact (respondBelow_tells one.atHome .host unit).back one
  | print line => exact tells_of_now one rfl rfl rfl
  | tally name => exact tells_of_now one rfl rfl rfl

end Engine

namespace Moment

/-- There is one registry, now and in every world to return to. -/
def HasOneRegistry (moment : Moment) : Prop :=
  moment.world.HasOneRegistry ∧ moment.stack.HasOneRegistry

/-- The registry with the routines at work. -/
def exchange (moment : Moment) : Exchange := ⟨moment.world.registry, moment.stack.forcings⟩

variable {routines : Routines}

/-- From one moment to the next, at most one thing happens at the registry, the one told. -/
theorem Step.moves {before after : Moment} {deed : Option Deed}
    (step : Step routines before deed after) (one : before.HasOneRegistry) :
    after.HasOneRegistry ∧ before.exchange.Moves deed after.exchange := by
  obtain ⟨oneWorld, oneStack⟩ := one
  cases step with
  | @answered α context request next stack world opened answer reply =>
    have tells := Engine.respond_tells oneWorld routines context request
    rw [reply] at tells
    exact ⟨⟨tells.1, oneStack⟩, tells.2 stack.forcings⟩
  | @started α β context inner request next stack world opened program pending reply =>
    have tells := Engine.respond_tells oneWorld routines context request
    rw [reply] at tells
    exact ⟨⟨tells.1, tells.2.1, oneStack⟩, tells.2.2 stack.forcings⟩
  | @ended α β γ inner context result pending next stack world =>
    obtain ⟨onePending, oneRest⟩ := oneStack
    obtain ⟨oneAfter, moves⟩ := pending.conclude_moves onePending result oneWorld stack.forcings
    exact ⟨⟨oneAfter, oneRest⟩, moves⟩

/-- Every run is a sequence of calls for the registry, the ones told. -/
theorem exchange_of_reaches {first last : Moment} {deeds : List Deed}
    (reached : Reaches routines first deeds last) (one : first.HasOneRegistry) :
    last.HasOneRegistry ∧ first.exchange.Reaches deeds last.exchange := by
  induction reached with
  | refl => exact ⟨one, .refl⟩
  | step _ now ih =>
    obtain ⟨oneLast, before⟩ := ih
    obtain ⟨oneNext, moves⟩ := now.moves oneLast
    exact ⟨oneNext, before.moves moves⟩

/-- A run that starts where its world has one registry. -/
theorem start_hasOneRegistry {α : Type} {context : ContextId} {program : Program α}
    {world : World} (one : world.HasOneRegistry) :
    (start context program world).HasOneRegistry := ⟨one, trivial⟩

end Moment

/-- What a look-up returns is what the registry tells, at once or at the end of the routine that it
starts. -/
theorem Engine.importName_tells {routines : Routines} {allowance : Nat} {context : ContextId}
    {name : String} {line : Option Nat} {world after : World} {answer : Except Fault Value}
    (one : world.HasOneRegistry) (outer : List Forcing)
    (answered : importName (Runner.within routines allowance) routines context name line world =
      some (answer, after)) :
    after.HasOneRegistry ∧ ∃ deeds, LookUp name answer deeds ∧
      Exchange.Reaches ⟨world.registry, outer⟩ deeds ⟨after.registry, outer⟩ := by
  have tells := respondImport_tells one routines context name line
  rw [importName_eq] at answered
  rcases respondImport_cases routines context name line world with
    ⟨given, opened, reply⟩ | ⟨program, opened, generation, routine, reply⟩
  · rw [reply] at tells answered
    obtain ⟨rfl, rfl⟩ := Prod.mk.inj (Option.some.inj answered)
    exact ⟨tells.1, _, .atOnce, Exchange.Reaches.refl.moves (tells.2 outer)⟩
  · rw [reply] at tells answered
    obtain ⟨oneOpened, _, begins⟩ := tells
    obtain ⟨⟨result, closed⟩, ran, concluded⟩ := Option.map_eq_some_iff.1 answered
    obtain ⟨rfl, rfl⟩ := Prod.mk.inj concluded
    obtain ⟨inner, reached⟩ := Moment.reaches_of_within ran
    -- The routine runs above the look-up, which waits with all the others.
    obtain ⟨⟨oneClosed, _⟩, happened⟩ :=
      Moment.exchange_of_reaches (reached .bottom) (Moment.start_hasOneRegistry oneOpened)
    let forcing : Forcing := ⟨name, generation, routine⟩
    have started : Exchange.Reaches ⟨world.registry, outer⟩ [.started forcing]
        ⟨opened.registry, forcing :: outer⟩ := Exchange.Reaches.refl.moves (begins outer)
    have ran : Exchange.Reaches ⟨opened.registry, forcing :: outer⟩ inner
        ⟨closed.registry, forcing :: outer⟩ := happened.waiting (forcing :: outer)
    exact ⟨oneClosed, _, .afterRun inner rfl,
      (started.trans ran).step (.ended closed.registry forcing outer result)⟩

/-- Whatever is asked of a registry and in whatever order, each look-up is answered by the latest
binding of its name: with the value, with the value of the one successful run of its routine,
with a cycle while that is running, and otherwise with the result of a run made now. A routine
that has succeeded never starts again, and the registry always holds what the latest bindings
say. This is so of all calls that nest, and of the calls of every run at every moment; a run
that ends has all its moments among these. What a look-up returns to its caller is the answer in
the history. -/
theorem lookUps_answered_by_history :
    (∀ journaling history exchange,
      Exchange.Reaches (.start journaling) history exchange →
        History.Lawful history ∧ History.Once history ∧ exchange.Follows history) ∧
    (∀ routines allowance context name line (world after : World) answer outer journaling history,
      world.HasOneRegistry →
      Exchange.Reaches (.start journaling) history ⟨world.registry, outer⟩ →
      Engine.importName (Runner.within routines allowance) routines context name line world =
        some (answer, after) →
      ∃ deeds, LookUp name answer deeds ∧
        Exchange.Reaches (.start journaling) (deeds ++ history) ⟨after.registry, outer⟩) ∧
    ∀ (routines : Routines) (α : Type) (context : ContextId) (program : Program α)
      (world : World) (journaling : Bool),
      world.registry = .start journaling → world.HasOneRegistry →
      (∀ history moment,
        Moment.Reaches routines (.start context program world) history moment →
          History.Lawful history ∧ History.Once history ∧ moment.exchange.Follows history) ∧
      ∀ allowance result after,
        Runner.within routines allowance α context program world = some (result, after) →
          ∃ history, Moment.Reaches routines (.start context program world) history
            ⟨context, .done result, .bottom, after⟩ := by
  have lawful : ∀ journaling history exchange,
      Exchange.Reaches (.start journaling) history exchange →
        History.Lawful history ∧ History.Once history ∧ exchange.Follows history := by
    intro journaling history exchange reached
    obtain ⟨lawful, follows⟩ := Exchange.follows_of_reaches reached
    exact ⟨lawful, lawful.once, follows⟩
  refine ⟨lawful, ?_, ?_⟩
  · intro routines allowance context name line world after answer outer journaling history one
      before answered
    obtain ⟨_, deeds, tells, reached⟩ := Engine.importName_tells one outer answered
    exact ⟨deeds, tells, before.trans reached⟩
  intro routines α context program world journaling fresh one
  constructor
  · intro history moment reached
    have calls := (Moment.exchange_of_reaches reached (Moment.start_hasOneRegistry one)).2
    have begins : (Moment.start context program world).exchange = .start journaling := by
      simp only [Moment.exchange, Moment.start, Stack.forcings, Exchange.start, fresh]
    exact lawful journaling history moment.exchange (begins ▸ calls)
  · intro allowance result after run
    obtain ⟨history, reached⟩ := Moment.reaches_of_within run
    exact ⟨history, reached .bottom⟩

/-- A world in which nothing has happened, with a registry that keeps a journal if told so. -/
def World.untouched (journaling : Bool) : World where
  engine := { languages := {}, loader := .memory [], maxDepth := 64 }
  registry := .start journaling

/-- An untouched world has one registry. -/
theorem World.untouched_hasOneRegistry (journaling : Bool) :
    (untouched journaling).HasOneRegistry := by
  intro home waits
  simp [untouched] at waits

/-- A routine that binds a name anew while it runs for the older binding of that name. -/
def rebinding : Routines := fun _ _ => do
  Program.exportValue "n" (.text "new") none
  return .ok (.text "old")

/-- Look a name up twice that is bound to a routine. -/
def lookUpTwice : Program (Except Fault Value × Except Fault Value) := do
  Program.exportLazy "n" 0
  let first ← Program.importName "n" none
  let second ← Program.importName "n" none
  return (first, second)

/-- The older value, then the newer one. -/
def oldThenNew : Except Fault Value × Except Fault Value := (.ok (.text "old"), .ok (.text "new"))

/-- The look-up that starts the routine is answered by the older binding, the next one by the
newer. -/
theorem lookUps_answered_while_rebinding :
    ∃ after history,
      Runner.within rebinding 2 _ .host lookUpTwice (.untouched true) = some (oldThenNew, after) ∧
      Moment.Reaches rebinding (.start .host lookUpTwice (.untouched true)) history
        ⟨.host, .done oldThenNew, .bottom, after⟩ ∧
      History.Lawful history ∧ History.Once history ∧
      Exchange.Follows ⟨after.registry, []⟩ history := by
  obtain ⟨told, ends⟩ := lookUps_answered_by_history.2.2 rebinding _ .host lookUpTwice
    (.untouched true) true rfl (World.untouched_hasOneRegistry true)
  obtain ⟨after, run⟩ : ∃ after, Runner.within rebinding 2 _ .host lookUpTwice
      (.untouched true) = some (oldThenNew, after) := ⟨_, rfl⟩
  obtain ⟨history, reached⟩ := ends 2 oldThenNew after run
  obtain ⟨lawful, once, follows⟩ := told history _ reached
  exact ⟨after, history, run, reached, lawful, once, follows⟩

end Interchange
