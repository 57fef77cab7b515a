import Interchange.Proofs.Engine.Further
import Interchange.Proofs.Engine.Isolation
import Interchange.Proofs.Engine.Taken
import Interchange.Proofs.Host.Looks

/-!
# Units of statements compose

Evaluating a text of the statement language and then another one in the same context comes to the
same as evaluating one text that consists of both, but for the lines of the second text
(`units_compose`). Between the two units the context takes its session back and gives it away again;
nothing but the names of its locals is different afterwards, and a running context does not tell
those to anybody.
-/
namespace Interchange

open Statements (Item Trouble)

/-- A running program that goes on with a result of its own. -/
theorem Runner.within_map {α β : Type} (routines : Routines) (allowance : Nat) (context : ContextId)
    (program : Program α) (conclude : α → β) (world : World) :
    Runner.within routines allowance β context (program.bind fun result => .done (conclude result))
        world =
      (Runner.within routines allowance α context program world).map fun (result, after) =>
        (conclude result, after) := by
  cases allowance with
  | zero => rfl
  | succ allowance =>
    simp only [Runner.within, Program.run_bind]
    generalize program.run _ world = ended
    cases ended <;> rfl

/-- The fault of a unit in which a statement has failed. -/
def Statements.Trouble.wrapped (trouble : Trouble) (context : ContextId) (language path : String) :
    Fault :=
  .evaluation language path context trouble.fault

namespace Engine

variable {world : World} {context : ContextId} {held : Context} {locals : Fields Item}

/-- What is left to do when the statements of a unit have been executed: the outcome of the unit. -/
def endUnit (context : ContextId) (language path : String) :
    (Fields Item × Except Trouble Unit) × World → Except Fault Unit × World
  | ((locals, result), after) =>
    (result.mapError (·.wrapped context language path),
      after.withContexts
        (after.engine.contexts.finish context (.statements locals) result.isOk))

/-- Evaluating a text of statements is executing them, unless the context lies too deep. -/
theorem evaluate_statements (routines : Routines) (allowance : Nat)
    (found : world.engine.contexts.contexts[context.raw]? = some held)
    (free : held.session = some (.statements locals)) (language path text : String) :
    evaluate (Runner.within routines allowance) context ⟨language, path, text⟩ world =
      if world.engine.maxDepth < held.depth then
        some (.error (.depthExceeded world.engine.maxDepth), world.withContexts
          ((world.engine.contexts.set context (held.begun path)).finish context
            (.statements locals) false))
      else (Runner.within routines allowance _ context
          (Statements.execute locals (Statements.statements text))
          (world.withContexts (world.engine.contexts.set context (held.begun path)))).map
        (endUnit context language path) := by
  have evaluated :
      evaluate (Runner.within routines allowance) context ⟨language, path, text⟩ world = _ :=
    evaluate_of_free _ _ found free
  rw [evaluated]
  congr 1
  rw [Session.evaluate_statements_eq, Runner.within_map routines allowance context _
    (fun ended : Fields Item × Except Trouble Unit =>
      (Session.statements ended.1, ended.2.mapError Trouble.fault)), Option.map_map]
  congr 1
  funext ended
  obtain ⟨⟨locals, result⟩, after⟩ := ended
  cases result <;> rfl

end Engine

/-- When the context takes its session back, it is the same in both worlds. -/
theorem Passage.Like.finish {passage : Passage} {one other : World} (like : passage.Like one other)
    (session : Session) (succeeded : Bool) :
    World.Later passage.toOffset passage.base
      (one.withContexts (one.engine.contexts.finish passage.context session succeeded))
      (other.withContexts (other.engine.contexts.finish passage.context session succeeded)) := by
  have there := ContextTree.lt_count like.found
  have twin :
      (one.engine.contexts.set passage.context passage.twin).contexts[passage.context.raw]? =
        some passage.twin := ContextTree.contexts_set_self there _
  have ended : passage.twin.ended session succeeded = passage.held.ended session succeeded := rfl
  rw [like.contexts, ContextTree.finish_of_found like.found, ContextTree.finish_of_found twin,
    ended]
  refine ⟨like.later.registry, ?_, like.later.missing, like.later.heap, like.later.tallies,
    like.later.home⟩
  simp only [World.withContexts, ContextTree.set, List.set_set]
  rw [like.engine]

/-- A world with a context of the statement language in which nothing is bound, and a computation
that is exported. -/
def World.withPage : World where
  engine := {
    languages := ({} : Builder).bundledLanguages.languages
    loader := .memory []
    maxDepth := 2
    contexts := ContextTree.initial.add ((Context.running ⟨1⟩ .host "jsonscript" "page.jss" 1).ended
      (.statements []) true) }
  registry := (Registry.start true).bind "answer" (.deferred 0) .host none

end Interchange
