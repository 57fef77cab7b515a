import Interchange.Context.Tree
import Interchange.Loader
import Interchange.Registry

/-!
# Engines and their world

An engine has its languages, its loader, its contexts and its output. The registry and the
shared objects lie outside it, since several engines can share them; together they are the
world that programs act on. A world has one engine at work. The first engine is the home of all
host functions and of the units that lazily exported computations evaluate; while another
engine is at work it waits in `World.home`.
-/
namespace Interchange

/-- Where printed lines go. -/
structure Sink where
  /-- The lines printed so far, each with its line end. -/
  printed : List String := []
  /-- Whether every attempt to print fails. -/
  isBroken : Bool := false

/-- Print a line. -/
def Sink.print (sink : Sink) (line : String) : Except Fault Unit × Sink :=
  if sink.isBroken then (.error (.output .sinkClosed), sink)
  else (.ok (), { sink with printed := sink.printed ++ [line ++ "\n"] })

/-- One engine. -/
structure Engine where
  /-- The languages it knows. -/
  languages : LanguageTable
  /-- Where it gets sources from. -/
  loader : Loader
  /-- How deep contexts may lie below the root to evaluate anything. -/
  maxDepth : Nat
  /-- Its contexts. -/
  contexts : ContextTree := .initial
  /-- The sources it could not load, in order. -/
  missing : List MissingSource := []
  /-- Its output. -/
  output : Sink := {}

/-- The first engine while another one is at work. -/
structure Home where
  /-- The engine. -/
  engine : Engine
  /-- Its registry, unless it shares the one at work. -/
  registry : Option Registry

/-- Everything that programs act on. -/
structure World where
  /-- The engine at work. -/
  engine : Engine
  /-- The registry of the engine at work. -/
  registry : Registry := {}
  /-- The shared objects. -/
  heap : Heap := {}
  /-- How often something was counted under a name. -/
  tallies : Fields Nat := []
  /-- The first engine, if another one is at work. -/
  home : Option Home := none

namespace World

/-- The world with other contexts. -/
def withContexts (world : World) (contexts : ContextTree) : World :=
  { world with engine := { world.engine with contexts } }

/-- What the engine at work and its registry tell of themselves. -/
def tell (world : World) : (query : Query) → query.Answer
  | .context id => (world.engine.contexts.get id).map Context.toContextInfo
  | .children id => world.engine.contexts.children id
  | .contextCount => world.engine.contexts.count
  | .languages => world.engine.languages.ids
  | .report => .ofEvents world.registry.events world.engine.missing
  | .names => world.registry.names
  | .originOf name => world.registry.originOf name
  | .isJournaling => world.registry.isJournaling
  | .events => world.registry.events

/-- The world in which the first engine is at work. -/
def atHome (world : World) : World :=
  match world.home with
  | none => world
  | some home =>
    { world with
      engine := home.engine
      registry := home.registry.getD world.registry
      home := none }

/-- No other engine waits then. -/
theorem home_atHome (world : World) : world.atHome.home = none := by
  cases waits : world.home <;> simp only [atHome, waits]

/-- Return to the engine that was at work before the first engine took its place. -/
def backFrom (before after : World) : World :=
  match before.home with
  | none => after
  | some home =>
    { after with
      engine := before.engine
      registry := if home.registry.isSome then before.registry else after.registry
      home := some ⟨after.engine, home.registry.map fun _ => after.registry⟩ }

end World

/-- What can act on a world, with a result of its own; `none` if programs were at work inside
each other more deeply than was allowed. -/
abbrev Action (α : Type) := World → Option (α × World)

/-- How programs run inside a program: each with the context it belongs to. -/
abbrev Runner := (α : Type) → ContextId → Program α → Action α

/-- Act with the first engine at work. -/
def Action.home {α : Type} (action : Action α) : Action α := fun world =>
  (action world.atHome).map fun (result, after) => (result, World.backFrom world after)

end Interchange
