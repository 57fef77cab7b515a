import Interchange.Engine.Builder
import Interchange.Host.Routine
import Interchange.Proofs.Engine.Alone
import Interchange.Proofs.Engine.Course

/-!
# Contexts throughout all calls

Contexts can be created at any moment, also while scripts and functions are at work, and once a call
from outside has returned any other can be made (`Moment.Onwards`). Whatever is done in whatever
order, the tree of contexts stays in order (`contexts_stay_in_order`).
-/
namespace Interchange

namespace Moment

/-- What can come next for an engine. -/
inductive Onwards (routines : Routines) : Moment → Moment → Prop where
  /-- What runs goes on. -/
  | step {before after : Moment} {deed : Option Deed} (now : Step routines before deed after) :
      Onwards routines before after
  /-- A context is created, or not if its language or its parent is not known. -/
  | created {α : Type} (context : ContextId) (program : Program α) (stack : Stack α)
      (world : World) (parent : Option ContextId) (language : String) :
      Onwards routines ⟨context, program, stack, world⟩
        ⟨context, program, stack, (Engine.createContext parent language world).2⟩
  /-- Nothing runs any more, and something else is asked for. -/
  | called {α β : Type} (context caller : ContextId) (result : α) (program : Program β)
      (world : World) :
      Onwards routines ⟨context, .done result, .bottom, world⟩ ⟨caller, program, .bottom, world⟩

/-- One moment leads to another, by whatever is done in between. -/
inductive Leads (routines : Routines) (first : Moment) : Moment → Prop where
  /-- Nothing was done. -/
  | refl : Leads routines first first
  /-- One more thing was done. -/
  | next {last next : Moment} (before : Leads routines first last)
      (now : Onwards routines last next) : Leads routines first next

/-- The moment leads to one at which nothing runs and the world is the given one. -/
def LeadsToRest (routines : Routines) (moment : Moment) (after : World) : Prop :=
  ∃ last, Leads routines moment last ∧ last.IsOver ∧ last.world = after

variable {routines : Routines} {before after first middle last moment : Moment}

/-- What comes next keeps the engine and changes contexts one after the other. -/
theorem Onwards.census (now : Onwards routines before after) (alone : before.IsAlone) :
    after.IsAlone ∧ before.world.Continues after.world ∧
      Census.Reaches before.census after.census := by
  cases now with
  | step now => exact now.census alone
  | created context program stack world parent language =>
    obtain ⟨continues, census⟩ := Engine.createContext_counts alone.1 parent language
    exact ⟨⟨continues.alone, alone.2⟩, continues, census stack.units⟩
  | called context caller result program world => exact ⟨alone, alone.1.continues, .refl⟩

/-- Whatever is done keeps the engine and changes contexts one after the other. -/
theorem Leads.census (led : Leads routines first last) (alone : first.IsAlone) :
    last.IsAlone ∧ first.world.Continues last.world ∧
      Census.Reaches first.census last.census := by
  induction led with
  | refl => exact ⟨alone, alone.1.continues, .refl⟩
  | next _ now ih =>
    obtain ⟨aloneLast, continues, census⟩ := ih
    obtain ⟨aloneNext, onwards, more⟩ := now.census aloneLast
    exact ⟨aloneNext, continues.trans onwards, census.trans more⟩

/-- What runs leads from one of its moments to the next. -/
theorem Leads.reaches {deeds : List Deed} (led : Leads routines first middle)
    (reached : Reaches routines middle deeds last) : Leads routines first last := by
  induction reached with
  | refl => exact led
  | step _ now ih => exact ih.next (.step now)

/-- A request that is made when nothing runs, and that is answered, leads to rest. -/
theorem IsOver.leadsToRest (finished : moment.IsOver) {allowance : Nat} (caller : ContextId)
    (request : Request) {answer : request.Answer} {after : World}
    (answered : Engine.answer (Runner.within routines allowance) routines caller request
      moment.world = some (answer, after)) : LeadsToRest routines moment after := by
  obtain ⟨α, context, result, world, rfl⟩ := finished
  rw [← Runner.within_send] at answered
  obtain ⟨deeds, reached⟩ := reaches_of_within answered
  have asked : Leads routines ⟨context, .done result, .bottom, world⟩
      ⟨caller, Program.send request, .bottom, world⟩ :=
    Leads.refl.next (.called context caller result (Program.send request) world)
  exact ⟨_, asked.reaches (reached .bottom), ⟨_, caller, answer, after, rfl⟩, rfl⟩

end Moment

namespace Engine

variable {world : World}

/-- A running context is not available to any other unit. -/
theorem evaluate_of_running {number : Nat} {context : Context}
    (found : world.engine.contexts.contexts[number]? = some context)
    (running : context.session = none) (run : Runner) (unit : SourceUnit) :
    evaluate run ⟨number⟩ unit world = some (.error (.contextUnavailable ⟨number⟩), world) := by
  have refused : world.engine.contexts.begin ⟨number⟩ unit.path =
      (.error (.contextUnavailable ⟨number⟩), world.engine.contexts) := by
    simp only [ContextTree.begin, ContextTree.get, found, running, Fault.orElse]
  simp only [evaluate, refused]
  rfl

/-- A source that a context asks for is found relative to the source of the context. -/
theorem evalAt_of_source {caller : ContextId} {source : String}
    (evaluating : world.engine.contexts.sourceOf caller = some source) (run : Runner)
    {language path : String} (line : Option Nat) {found : Language} {text : String}
    (known : world.engine.languages.get language = .ok found)
    (loaded : world.engine.loader.load (SourcePath.resolve (some source) path) = .ok text) :
    evalAt run caller language path line world =
      evaluateBelow run caller ⟨language, SourcePath.resolve (some source) path, text⟩ world := by
  simp only [evalAt, evaluating, known, loaded]

/-- A context that is created has the next number. -/
theorem createContext_cases_ok {parent : Option ContextId} {language : String} {id : ContextId}
    {after : World} (created : createContext parent language world = (.ok id, after)) :
    id.raw = world.engine.contexts.count ∧
      ∃ context, after.engine.contexts.contexts[id.raw]? = some context ∧
        context.parent = parent ∧ context.language = some language ∧
        context.status = .created := by
  rcases createContext_cases parent language world with
    ⟨fault, refused⟩ | ⟨found, child, contexts, _, made, done⟩
  · rw [refused] at created
    simp at created
  · rw [done] at created
    obtain ⟨same, rfl⟩ := Prod.mk.inj created
    obtain rfl := Except.ok.inj same
    obtain ⟨context, depth, rfl, rfl, _, new⟩ := ContextTree.create_cases made
    have there := world.engine.contexts.contexts_add_self context
    exact ⟨rfl, context, there, new.parent, new.language, new.status⟩

end Engine

/-- The contexts of a world are in order while units are evaluated, and what the engine does with
them tells so. -/
structure World.InOrder (world : World) (units : List (ContextId × SourceUnit)) : Prop where
  /-- The tree is in order, and the contexts of the units are running. -/
  orderly : Census.Orderly ⟨world.engine.contexts, units⟩
  /-- A context that is created has the next number. -/
  numbered : ∀ parent language id after,
    Engine.createContext parent language world = (.ok id, after) →
      id.raw = world.engine.contexts.count ∧
      ∃ context, after.engine.contexts.contexts[id.raw]? = some context ∧
        context.parent = parent ∧ context.language = some language ∧ context.status = .created
  /-- The children of a context are those it asked for, in the order of their creation. -/
  children : ∀ parent, (world.engine.contexts.children parent).Pairwise (·.raw < ·.raw) ∧
    ∀ child, child ∈ world.engine.contexts.children parent ↔
      ∃ context, world.engine.contexts.contexts[child.raw]? = some context ∧
        context.parent = some parent
  /-- Nothing else can be evaluated in a running context, and trying changes nothing. -/
  unavailable : ∀ (number : Nat) context,
    world.engine.contexts.contexts[number]? = some context → context.status = .running →
      ∀ run unit, Engine.evaluate run ⟨number⟩ unit world =
        some (.error (.contextUnavailable ⟨number⟩), world)
  /-- A source that a context asks for is found relative to the unit that is evaluated in it. -/
  relative : ∀ caller unit, (caller, unit) ∈ units → ∀ run language path line found text,
    world.engine.languages.get language = .ok found →
    world.engine.loader.load (SourcePath.resolve (some unit.path) path) = .ok text →
      Engine.evalAt run caller language path line world = Engine.evaluateBelow run caller
        ⟨language, SourcePath.resolve (some unit.path) path, text⟩ world

/-- What an orderly tree means for the engine. -/
theorem Census.Orderly.inOrder {world : World} {units : List (ContextId × SourceUnit)}
    (orderly : Census.Orderly ⟨world.engine.contexts, units⟩) : world.InOrder units where
  orderly := orderly
  numbered _ _ _ _ created := Engine.createContext_cases_ok created
  children parent :=
    ⟨orderly.numbered.children_increasing parent, fun _ => orderly.numbered.mem_children⟩
  unavailable number context found running run unit := by
    have taken := (orderly.places number context found).session.1 running
    exact Engine.evaluate_of_running found taken run unit
  relative caller unit mem run language path line found text known loaded := by
    obtain ⟨context, there, source⟩ := orderly.sources caller unit mem
    have evaluating : world.engine.contexts.sourceOf caller = some unit.path :=
      Option.bind_eq_some_iff.2 ⟨context, there, source⟩
    exact Engine.evalAt_of_source evaluating run line known loaded

/-- While no unit is evaluated, only the host is running. -/
theorem Census.Orderly.running_iff {tree : ContextTree} (orderly : Census.Orderly ⟨tree, []⟩)
    {number : Nat} {context : Context} (found : tree.contexts[number]? = some context) :
    context.status = .running ↔ number = 0 := by
  rw [(orderly.places number context found).running, List.map_nil, List.mem_singleton]
  exact ⟨congrArg ContextId.raw, congrArg ContextId.mk⟩

/-- Whatever is evaluated for the host, or for a context, comes to rest when it has an outcome. -/
structure Moment.ReturnsToRest (routines : Routines) (moment : Moment) : Prop where
  /-- A unit in a context that is already there. -/
  evaluate : ∀ allowance context unit outcome after,
    Engine.evaluate (Runner.within routines allowance) context unit moment.world =
      some (outcome, after) → LeadsToRest routines moment after
  /-- A source. -/
  evalAt : ∀ allowance caller language path line outcome after,
    Engine.evalAt (Runner.within routines allowance) caller language path line moment.world =
      some (outcome, after) → LeadsToRest routines moment after
  /-- A file. -/
  evalFile : ∀ allowance path outcome after,
    Engine.evalFile (Runner.within routines allowance) path moment.world =
      some (outcome, after) → LeadsToRest routines moment after
  /-- A unit in a new context. -/
  evalUnit : ∀ allowance unit outcome after,
    Engine.evalUnit (Runner.within routines allowance) unit moment.world =
      some (outcome, after) → LeadsToRest routines moment after

/-- When nothing runs, whatever is evaluated comes to rest. -/
theorem Moment.IsOver.returnsToRest {routines : Routines} {moment : Moment}
    (finished : moment.IsOver) (alone : moment.IsAlone) : moment.ReturnsToRest routines where
  evaluate allowance context unit outcome after evaluated :=
    finished.leadsToRest .host (.evaluate context unit) evaluated
  evalAt allowance caller language path line outcome after evaluated :=
    finished.leadsToRest caller (.eval language path line) evaluated
  evalFile allowance path outcome after evaluated := by
    unfold Engine.evalFile at evaluated
    split at evaluated
    · obtain ⟨_, rfl⟩ := Prod.mk.inj (Option.some.inj evaluated)
      exact ⟨moment, .refl, finished, rfl⟩
    · rename_i language _
      exact finished.leadsToRest .host (.eval language.id path none) evaluated
  evalUnit allowance unit outcome after evaluated := by
    have answered : Engine.answer (Runner.within routines allowance) routines .host
        (.evalUnit unit) moment.world = some (outcome, after) := by
      simp only [Engine.answer, Action.home, alone.1.atHome, evaluated, Option.map_some,
        alone.1.backFrom]
    exact finished.leadsToRest .host (.evalUnit unit) answered

/-- Whatever is asked of an engine that begins with the host alone, in whatever order and from
wherever, its contexts are in order at every moment: each has the number of its place and lies below
an older one and one deeper, at depth one without a parent and at depth zero if it is the host; a
context is running exactly while it has no session, that is, if it is the host or a unit is
evaluated in it. No context is removed or as new again. When a call from outside has returned,
whatever its outcome, only the host is running. -/
theorem contexts_stay_in_order {routines : Routines} {world : World} (alone : world.IsAlone)
    (fresh : world.engine.contexts = .initial) {α : Type} {context : ContextId}
    {program : Program α} {moment : Moment}
    (led : Moment.Leads routines (.start context program world) moment) :
    moment.world.InOrder moment.stack.units ∧
    (∀ next, Moment.Leads routines moment next →
      moment.world.engine.contexts.GrownTo next.world.engine.contexts) ∧
    (moment.stack.IsBottom → ∀ (number : Nat) context,
      moment.world.engine.contexts.contexts[number]? = some context →
      (context.status = .running ↔ number = 0)) ∧
    (moment.IsOver → moment.ReturnsToRest routines) := by
  have first : (Moment.start context program world).census = ⟨.initial, []⟩ := by
    rw [Moment.census, Moment.start, fresh, Stack.units]
  obtain ⟨aloneNow, _, census⟩ := led.census ⟨alone, trivial⟩
  have orderly : moment.census.Orderly := census.orderly (first ▸ Census.initial_orderly)
  refine ⟨orderly.inOrder, fun next later => ?_, fun bottom number context found => ?_,
    fun finished => finished.returnsToRest aloneNow⟩
  · exact (later.census aloneNow).2.2.grown
  · obtain ⟨_, _, stack, _⟩ := moment
    cases stack with
    | bottom => exact Census.Orderly.running_iff orderly found
    | frame => exact bottom.elim

/-- The host has no parent and does not lie at depth one. -/
theorem host_depth_ne_one :
    ∃ context, ContextTree.initial.contexts[0]? = some context ∧ context.parent = none ∧
      context.depth ≠ 1 := ⟨_, rfl, rfl, by decide⟩

/-- A world with a source that evaluates one that is no script. -/
def World.withBrokenChild : World where
  engine := {
    languages := ({} : Builder).bundledLanguages.languages
    loader := .memory
      [("child.jss", "nonsense"), ("parent.lisp", "(eval jsonscript \"child.jss\")")]
    maxDepth := 64 }

/-- When an evaluation has failed in a context below another one, only the host is running. -/
theorem only_host_running_after_failure :
    ∃ fault after,
      Engine.evalAt (Runner.within (Host.routines []) 2) .host "lisp" "parent.lisp" none
        .withBrokenChild = some (.error fault, after) ∧
      after.engine.contexts.count = 3 ∧
      ∀ (number : Nat) context, after.engine.contexts.contexts[number]? = some context →
        (context.status = .running ↔ number = 0) := by
  have run : (Engine.evalAt (Runner.within (Host.routines []) 2) .host "lisp" "parent.lisp" none
      .withBrokenChild).map (fun ended => (ended.1.isOk, ended.2.engine.contexts.count)) =
        some (false, 3) := by
    decide +kernel
  obtain ⟨⟨outcome, after⟩, evaluated, same⟩ := Option.map_eq_some_iff.1 run
  obtain ⟨failed, three⟩ := Prod.mk.inj same
  have alone : World.withBrokenChild.IsAlone := rfl
  have idle : Moment.Leads (Host.routines []) (.start .host (.done ()) .withBrokenChild)
      (.start .host (.done ()) .withBrokenChild) := .refl
  have returns := (contexts_stay_in_order alone rfl idle).2.2.2
    ⟨Unit, .host, (), .withBrokenChild, rfl⟩
  obtain ⟨last, led, ⟨_, _, _, _, rfl⟩, rfl⟩ := returns.evalAt 2 .host _ _ _ outcome after evaluated
  have rest := (contexts_stay_in_order alone rfl led).2.2.1 trivial
  cases outcome with
  | ok child => simp [Except.isOk, Except.toBool] at failed
  | error fault => exact ⟨fault, _, evaluated, three, rest⟩

end Interchange
