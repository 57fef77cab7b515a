import Interchange.Engine.World

/-!
# Evaluating units

A unit is evaluated in a context: the context gives its session away, the session's program
runs, and the context takes the session back, whatever the outcome (`Engine.evaluate`). A fault
of the unit is wrapped, so that it tells where it happened; a refusal to begin is not. A source
that a running unit asks for is found relative to that unit and evaluated in a new context
(`Engine.evalAt`).
-/
namespace Interchange.Engine

/-- Make a context that evaluates a language. -/
def createContext (parent : Option ContextId) (language : String) (world : World) :
    Except Fault ContextId × World :=
  match world.engine.languages.get language with
  | .error fault => (.error fault, world)
  | .ok found =>
    let (created, contexts) := world.engine.contexts.create parent language found.session
    (created, world.withContexts contexts)

/-- Evaluate a unit in a context. -/
def evaluate (run : Runner) (context : ContextId) (unit : SourceUnit) :
    Action (Except Fault Unit) := fun world =>
  match world.engine.contexts.begin context unit.path with
  | (.error fault, contexts) => some (.error fault, world.withContexts contexts)
  | (.ok (session, depth), contexts) =>
    if world.engine.maxDepth < depth then
      some (.error (.depthExceeded world.engine.maxDepth),
        world.withContexts (contexts.finish context session false))
    else
      (run _ context (session.evaluate ⟨context, unit.language, unit.path⟩ unit.text)
          (world.withContexts contexts)).map fun ((session, result), world) =>
        (result.mapError (.evaluation unit.language unit.path context),
          world.withContexts (world.engine.contexts.finish context session result.isOk))

/-- Evaluate a unit in a new context below a parent. -/
def evaluateBelow (run : Runner) (parent : ContextId) (unit : SourceUnit) :
    Action (Except Fault ContextId) := fun world =>
  match createContext (some parent) unit.language world with
  | (.error fault, world) => some (.error fault, world)
  | (.ok child, world) =>
    (evaluate run child unit world).map fun (result, world) =>
      (result.map fun _ => child, world)

/-- Take note of a source that could not be found. The loaders there are refuse a source for no
other reason; one of a host could, and what it refuses for another reason is not noted. -/
def noteMissing (caller : ContextId) (path : String) (line : Option Nat) (fault : Fault)
    (world : World) : World :=
  match fault with
  | .sourceNotFound .. =>
    { world with
      engine := { world.engine with
        missing := world.engine.missing ++ [⟨caller, path, line⟩] } }
  | _ => world

/-- Evaluate a source for a context, from a statement on a line if there is one. The path is
relative to the source of the unit that asks. -/
def evalAt (run : Runner) (caller : ContextId) (language path : String) (line : Option Nat) :
    Action (Except Fault ContextId) := fun world =>
  let path := SourcePath.resolve (world.engine.contexts.sourceOf caller) path
  match world.engine.languages.get language with
  | .error fault => some (.error fault, world)
  | .ok _ =>
    match world.engine.loader.load path with
    | .error fault => some (.error fault, noteMissing caller path line fault world)
    | .ok text => evaluateBelow run caller ⟨language, path, text⟩ world

/-- Evaluate a file for the host; its extension tells the language. -/
def evalFile (run : Runner) (path : String) : Action (Except Fault ContextId) := fun world =>
  match world.engine.languages.forPath path with
  | .error fault => some (.error fault, world)
  | .ok language => evalAt run .host language.id path none world

/-- Evaluate a unit in a new context below the host. -/
def evalUnit (run : Runner) (unit : SourceUnit) : Action (Except Fault ContextId) :=
  evaluateBelow run .host unit

end Interchange.Engine
