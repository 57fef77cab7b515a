import Interchange.Proofs.Context.Census
import Interchange.Proofs.Engine.Moment

/-!
# One engine at work

Where there is no other engine, whatever runs changes nothing about the engine but its contexts, its
output and the sources it could not load (`World.Continues`), and it changes the contexts only by
creating them and by evaluating units in them, the one that began last ending first
(`Moment.Step.census`).
-/
namespace Interchange

namespace World

variable {world middle before after : World}

/-- There is one engine. -/
def IsAlone (world : World) : Prop := world.home = none

/-- The only engine is the first one. -/
theorem IsAlone.atHome (alone : world.IsAlone) : world.atHome = world := by
  unfold World.atHome
  rw [alone]

/-- There is no engine to return to. -/
theorem IsAlone.backFrom (alone : before.IsAlone) : before.backFrom after = after := by
  unfold World.backFrom
  rw [alone]

/-- The engine is the same one, with the same languages, sources and limit, and still alone. -/
structure Continues (before after : World) : Prop where
  /-- There is still one engine. -/
  alone : after.IsAlone
  /-- The languages it knows. -/
  languages : after.engine.languages = before.engine.languages
  /-- Where it gets sources from. -/
  loader : after.engine.loader = before.engine.loader
  /-- How deep contexts may lie. -/
  maxDepth : after.engine.maxDepth = before.engine.maxDepth

/-- Nothing was done. -/
theorem IsAlone.continues (alone : world.IsAlone) : world.Continues world := ⟨alone, rfl, rfl, rfl⟩

/-- One thing was done after the other. -/
theorem Continues.trans (first : before.Continues middle) (second : middle.Continues after) :
    before.Continues after :=
  ⟨second.alone, second.languages.trans first.languages, second.loader.trans first.loader,
    second.maxDepth.trans first.maxDepth⟩

/-- The contexts of an engine are not what makes it another one. -/
theorem IsAlone.withContexts (alone : world.IsAlone) (contexts : ContextTree) :
    world.Continues (world.withContexts contexts) := ⟨alone, rfl, rfl, rfl⟩

end World

/-- There is one engine in every world to return to. -/
def Pending.IsAlone {β α : Type} : Pending β α → Prop
  | passing | settling .. | finishing .. => True
  | naming _ pending => pending.IsAlone
  | returning before pending => before.IsAlone ∧ pending.IsAlone

/-- The unit whose end is awaited, with its context. -/
def Pending.unit? {β α : Type} : Pending β α → Option (ContextId × SourceUnit)
  | passing => none
  | settling .. => none
  | finishing context unit => some (context, unit)
  | naming _ pending => pending.unit?
  | returning _ pending => pending.unit?

namespace Stack

/-- There is one engine in every world to return to. -/
def IsAlone {α : Type} : Stack α → Prop
  | bottom => True
  | frame _ pending _ rest => pending.IsAlone ∧ rest.IsAlone

/-- The units under evaluation, each with its context, the innermost first. -/
def units {α : Type} : Stack α → List (ContextId × SourceUnit)
  | bottom => []
  | frame _ pending _ rest => pending.unit?.toList ++ rest.units

end Stack

/-- Concluding a request is at most the end of a unit for the contexts. -/
theorem Pending.conclude_census {β α : Type} {pending : Pending β α} (alone : pending.IsAlone)
    (result : β) {world : World} (aloneWorld : world.IsAlone)
    (units : List (ContextId × SourceUnit)) :
    world.Continues (pending.conclude result world).2 ∧
      Census.Reaches ⟨world.engine.contexts, pending.unit?.toList ++ units⟩
        ⟨(pending.conclude result world).2.engine.contexts, units⟩ := by
  induction pending with
  | passing => exact ⟨aloneWorld.continues, .refl⟩
  | settling name generation routine => exact ⟨⟨aloneWorld, rfl, rfl, rfl⟩, .refl⟩
  | finishing context unit =>
    obtain ⟨session, outcome⟩ := result
    exact ⟨aloneWorld.withContexts _, .single (.ended _ context unit units session outcome.isOk)⟩
  | naming child pending ih => exact ih alone result
  | returning before pending ih =>
    obtain ⟨aloneBefore, alonePending⟩ := alone
    rw [conclude, aloneBefore.backFrom]
    exact ih alonePending result

namespace Engine

variable {world : World} {α : Type}

/-- What a reply does to the contexts, at once or on the way to a program. -/
def Counts (world : World) : Reply α → Prop
  | .now _ after => world.Continues after ∧ ∀ units,
      Census.Reaches ⟨world.engine.contexts, units⟩ ⟨after.engine.contexts, units⟩
  | .after _ _ opened pending => world.Continues opened ∧ pending.IsAlone ∧ ∀ units,
      Census.Reaches ⟨world.engine.contexts, units⟩
        ⟨opened.engine.contexts, pending.unit?.toList ++ units⟩

/-- A request that leaves the contexts as they are. -/
theorem counts_of_now {answer : α} {after : World} (continues : world.Continues after)
    (contexts : after.engine.contexts = world.engine.contexts) :
    Counts world (.now answer after) := by
  refine ⟨continues, fun units => ?_⟩
  rw [contexts]
  exact .refl

/-- What was done before a reply. -/
theorem Counts.after {opened : World} (continues : world.Continues opened)
    (census : ∀ units, Census.Reaches ⟨world.engine.contexts, units⟩
      ⟨opened.engine.contexts, units⟩) {reply : Reply α} (counts : Counts opened reply) :
    Counts world reply := by
  cases reply with
  | now answer after =>
    exact ⟨continues.trans counts.1, fun units => (census units).trans (counts.2 units)⟩
  | after context program begun pending =>
    exact ⟨continues.trans counts.1, counts.2.1, fun units =>
      (census units).trans (counts.2.2 units)⟩

/-- Naming the context is nothing to the contexts. -/
theorem Counts.name {reply : Reply (Except Fault Unit)} (counts : Counts world reply)
    (child : ContextId) : Counts world (reply.name child) := by
  cases reply with
  | now answer after => exact counts
  | after context program opened pending => exact counts

/-- With one engine there is nothing to return to. -/
theorem Counts.back (alone : world.IsAlone) {reply : Reply α} (counts : Counts world reply) :
    Counts world (reply.back world) := by
  cases reply with
  | now answer after =>
    rw [Reply.back, alone.backFrom]
    exact counts
  | after context program opened pending => exact ⟨counts.1, ⟨alone, counts.2.1⟩, counts.2.2⟩

/-- A context begins a unit, if it can, and ends it at once if it lies too deep. -/
theorem respondEvaluate_counts (alone : world.IsAlone) (context : ContextId)
    (unit : SourceUnit) : Counts world (respondEvaluate context unit world) := by
  unfold respondEvaluate
  split
  · rename_i fault contexts refused
    obtain rfl := ContextTree.begin_of_refused refused
    exact counts_of_now alone.continues rfl
  · rename_i session depth contexts began
    have begun (units : List (ContextId × SourceUnit)) :
        Census.Step ⟨world.engine.contexts, units⟩ ⟨contexts, (context, unit) :: units⟩ :=
      .begun unit units began
    split
    · refine ⟨alone.withContexts _, fun units => ?_⟩
      exact (Census.Reaches.single (begun units)).step
        (.ended contexts context unit units session false)
    · exact ⟨alone.withContexts _, trivial, fun units => .single (begun units)⟩

/-- A context is created. -/
theorem createContext_counts (alone : world.IsAlone) (parent : Option ContextId)
    (language : String) :
    world.Continues (createContext parent language world).2 ∧ ∀ units,
      Census.Reaches ⟨world.engine.contexts, units⟩
        ⟨(createContext parent language world).2.engine.contexts, units⟩ := by
  rcases createContext_cases parent language world with
    ⟨fault, refused⟩ | ⟨found, child, contexts, _, made, created⟩
  · rw [refused]
    exact ⟨alone.continues, fun units => .refl⟩
  · rw [created]
    exact ⟨alone.withContexts contexts, fun units => .single (.created units made)⟩

/-- A context is created, and then begins a unit. -/
theorem respondBelow_counts (alone : world.IsAlone) (parent : ContextId) (unit : SourceUnit) :
    Counts world (respondBelow parent unit world) := by
  obtain ⟨continues, census⟩ := createContext_counts alone (some parent) unit.language
  unfold respondBelow
  split
  · rename_i fault after created
    rw [created] at continues census
    exact ⟨continues, census⟩
  · rename_i child after created
    rw [created] at continues census
    exact ((respondEvaluate_counts continues.alone child unit).name child).after continues census

/-- A source is evaluated in a new context, if there is one. -/
theorem respondEval_counts (alone : world.IsAlone) (caller : ContextId)
    (language path : String) (line : Option Nat) :
    Counts world (respondEval caller language path line world) := by
  unfold respondEval
  dsimp only
  split
  · exact counts_of_now alone.continues rfl
  · split
    · unfold noteMissing
      split
      · exact counts_of_now ⟨alone, rfl, rfl, rfl⟩ rfl
      · exact counts_of_now alone.continues rfl
    · exact respondBelow_counts alone caller _

/-- Looking a name up is nothing to the contexts. -/
theorem respondImport_counts (alone : world.IsAlone) (routines : Routines) (context : ContextId)
    (name : String) (line : Option Nat) :
    Counts world (respondImport routines context name line world) := by
  have same (registry : Registry) : world.Continues { world with registry } :=
    ⟨alone, rfl, rfl, rfl⟩
  unfold respondImport
  dsimp only
  split
  · exact counts_of_now (same _) rfl
  · split
    · exact counts_of_now (same _) rfl
    · exact counts_of_now (same _) rfl
    · exact ⟨same _, trivial, fun units => .refl⟩

/-- Calling a function is nothing to the contexts. -/
theorem respondCall_counts (alone : world.IsAlone) (routines : Routines) (function : Reference)
    (arguments : List Value) : Counts world (respondCall routines function arguments world) := by
  unfold respondCall
  split
  · exact counts_of_now alone.continues rfl
  · rw [alone.atHome]
    exact ⟨alone.continues, ⟨alone, trivial⟩, fun units => .refl⟩

/-- What a request does to the contexts. -/
theorem respond_counts (alone : world.IsAlone) (routines : Routines) (context : ContextId)
    (request : Request) : Counts world (respond routines context request world) := by
  cases request with
  | inspect => exact counts_of_now alone.continues rfl
  | look query => exact counts_of_now alone.continues rfl
  | allocate pairs => exact counts_of_now ⟨alone, rfl, rfl, rfl⟩ rfl
  | setField target name value =>
    simp only [respond]
    split
    · exact counts_of_now ⟨alone, rfl, rfl, rfl⟩ rfl
    · exact counts_of_now alone.continues rfl
  | call function arguments => exact respondCall_counts alone routines function arguments
  | importName name line => exact respondImport_counts alone routines context name line
  | exportValue name value line => exact counts_of_now ⟨alone, rfl, rfl, rfl⟩ rfl
  | exportLazy name routine => exact counts_of_now ⟨alone, rfl, rfl, rfl⟩ rfl
  | eval language path line => exact respondEval_counts alone context language path line
  | evaluate target unit => exact respondEvaluate_counts alone target unit
  | evalUnit unit =>
    have counts := respondBelow_counts alone .host unit
    rw [respond, alone.atHome]
    exact counts.back alone
  | print line => exact counts_of_now ⟨alone, rfl, rfl, rfl⟩ rfl
  | tally name => exact counts_of_now ⟨alone, rfl, rfl, rfl⟩ rfl

end Engine

namespace Moment

variable {routines : Routines}

/-- There is one engine, now and in every world to return to. -/
def IsAlone (moment : Moment) : Prop := moment.world.IsAlone ∧ moment.stack.IsAlone

/-- The contexts with the units under evaluation. -/
def census (moment : Moment) : Census := ⟨moment.world.engine.contexts, moment.stack.units⟩

/-- From one moment to the next, the engine stays the same, and contexts are created, begin and end
units one after the other. -/
theorem Step.census {before after : Moment} {deed : Option Deed}
    (step : Step routines before deed after) (alone : before.IsAlone) :
    after.IsAlone ∧ before.world.Continues after.world ∧
      Census.Reaches before.census after.census := by
  obtain ⟨aloneWorld, aloneStack⟩ := alone
  cases step with
  | @answered α context request next stack world opened answer reply =>
    have counts := Engine.respond_counts aloneWorld routines context request
    rw [reply] at counts
    exact ⟨⟨counts.1.alone, aloneStack⟩, counts.1, counts.2 stack.units⟩
  | @started α β context inner request next stack world opened program pending reply =>
    have counts := Engine.respond_counts aloneWorld routines context request
    rw [reply] at counts
    exact ⟨⟨counts.1.alone, counts.2.1, aloneStack⟩, counts.1, counts.2.2 stack.units⟩
  | @ended α β γ inner context result pending next stack world =>
    obtain ⟨alonePending, aloneRest⟩ := aloneStack
    obtain ⟨continues, census⟩ := pending.conclude_census alonePending result aloneWorld stack.units
    exact ⟨⟨continues.alone, aloneRest⟩, continues, census⟩

/-- Along a run, the engine stays the same, and contexts are created, begin and end units. -/
theorem Reaches.census {first last : Moment} {deeds : List Deed}
    (reached : Reaches routines first deeds last) (alone : first.IsAlone) :
    last.IsAlone ∧ first.world.Continues last.world ∧
      Census.Reaches first.census last.census := by
  induction reached with
  | refl => exact ⟨alone, alone.1.continues, .refl⟩
  | step _ now ih =>
    obtain ⟨aloneLast, continues, census⟩ := ih
    obtain ⟨aloneNext, onwards, more⟩ := now.census aloneLast
    exact ⟨aloneNext, continues.trans onwards, census.trans more⟩

end Moment

end Interchange
