import Interchange.Proofs.Engine.Alone
import Interchange.Proofs.Engine.Asking
import Interchange.Proofs.Engine.Course
import Interchange.Proofs.Guests.Scripts

/-!
# Routines that come back

Routines that evaluate nothing and always end (`Routines.ComeBack`) are nothing to the contexts.
While one of them is at work, it may be that another engine is, namely the first one; what counts
for the scripts that wait is the engine that they come back to (`Stack.engine`), and a harmless
request, whatever routines it sets off, leaves that engine as it is (`Engine.respond_isHarmless`).
-/
namespace Interchange

/-- The engines have the same contexts, languages and limit. -/
structure Engine.Alike (one other : Engine) : Prop where
  /-- The contexts. -/
  contexts : one.contexts = other.contexts
  /-- The languages. -/
  languages : one.languages = other.languages
  /-- How deep contexts may lie. -/
  maxDepth : one.maxDepth = other.maxDepth

/-- Every engine is like itself. -/
theorem Engine.Alike.refl (engine : Engine) : engine.Alike engine := ⟨rfl, rfl, rfl⟩

/-- The engine that is at work when what is left to do has been done, if the given one is at work
before. -/
def Pending.engine {β α : Type} : Pending β α → Engine → Engine
  | passing, engine | settling .., engine | finishing .., engine => engine
  | naming _ pending, engine => pending.engine engine
  | returning before pending, engine =>
    match before.home with
    | none => pending.engine engine
    | some _ => before.engine

/-- The engine that is at work when no program waits any more, if the given one is at work now. -/
def Stack.engine {α : Type} : Stack α → Engine → Engine
  | bottom, engine => engine
  | frame _ pending _ rest, engine => rest.engine (pending.engine engine)

namespace Engine.Alike

variable {one other : Engine}

/-- What is left to do leads from alike engines to alike ones. -/
theorem pending (alike : one.Alike other) {β α : Type} (pending : Pending β α) :
    (pending.engine one).Alike (pending.engine other) := by
  induction pending with
  | passing => exact alike
  | settling name generation routine => exact alike
  | finishing context unit => exact alike
  | naming child pending ih => exact ih
  | returning before pending ih =>
    simp only [Pending.engine]
    split
    · exact ih
    · exact .refl before.engine

/-- Programs that wait come back from alike engines to alike ones. -/
theorem stack (alike : one.Alike other) {α : Type} (stack : Stack α) :
    (stack.engine one).Alike (stack.engine other) := by
  induction stack generalizing one other with
  | bottom => exact alike
  | frame context pending next rest ih => exact ih (alike.pending pending)

end Engine.Alike

/-- Where no unit is ended, doing what is left to do leads to the engine that was to be expected. -/
theorem Pending.conclude_alike {β α : Type} {pending : Pending β α} (idle : pending.unit? = none)
    (result : β) (world : World) :
    (pending.conclude result world).2.engine.Alike (pending.engine world.engine) := by
  induction pending with
  | passing => exact .refl world.engine
  | settling name generation routine => exact .refl world.engine
  | finishing context unit => simp [unit?] at idle
  | naming child pending ih => exact ih idle result
  | returning before pending ih =>
    cases waits : before.home with
    | none => simpa only [conclude, engine, World.backFrom, waits] using ih idle result
    | some home =>
      simp only [conclude, engine, World.backFrom, waits]
      exact .refl before.engine

/-- The reply leaves the engine as it is, and it starts a routine in reach if anything. -/
inductive Reply.IsHarmless (routines : Routines) (reach : Nat → Prop) (world : World) {α : Type} :
    Reply α → Prop where
  /-- The request is answered at once. -/
  | now {answer : α} {after : World} (alike : after.engine.Alike world.engine) :
      IsHarmless routines reach world (.now answer after)
  /-- A routine is started. -/
  | after {routine : Nat} {arguments : List Value} {opened : World}
      {pending : Pending (Except Fault Value) α} (inReach : reach routine)
      (idle : pending.unit? = none)
      (alike : (pending.engine opened.engine).Alike world.engine) :
      IsHarmless routines reach world (.after .host (routines routine arguments) opened pending)

namespace Engine

variable {routines : Routines} {reach : Nat → Prop} {world : World}

/-- Looking a name up is harmless. -/
theorem respondImport_isHarmless (sealed : world.Sealed reach) (context : ContextId)
    (name : String) (line : Option Nat) :
    (respondImport routines context name line world).IsHarmless routines reach world := by
  unfold respondImport
  dsimp only
  split
  · exact .now (.refl _)
  · rename_i binding found
    split
    · exact .now (.refl _)
    · exact .now (.refl _)
    · rename_i routine held
      exact .after (sealed.registry.routine found held) rfl (.refl _)

/-- Calling a function is harmless: when its routine comes back the same engine is at work. -/
theorem respondCall_isHarmless (sealed : world.Sealed reach) (function : Reference)
    (arguments : List Value) :
    (respondCall routines function arguments world).IsHarmless routines reach world := by
  unfold respondCall
  split
  · exact .now (.refl _)
  · rename_i routine callable
    refine .after (sealed.heap.routine callable) rfl ?_
    simp only [Pending.engine]
    split
    · rename_i alone
      simp only [World.atHome, alone]
      exact .refl _
    · exact .refl _

/-- A request that evaluates nothing is harmless. -/
theorem respond_isHarmless (sealed : world.Sealed reach) (context : ContextId)
    {request : Request} (quiet : request.IsQuiet reach) :
    (respond routines context request world).IsHarmless routines reach world := by
  cases request with
  | inspect => exact .now (.refl _)
  | look query => exact .now (.refl _)
  | allocate pairs => exact .now (.refl _)
  | setField target name value =>
    simp only [respond]
    split
    · exact .now (.refl _)
    · exact .now (.refl _)
  | call function arguments => exact respondCall_isHarmless sealed function arguments
  | importName name line => exact respondImport_isHarmless sealed context name line
  | exportValue name value line => exact .now (.refl _)
  | exportLazy name routine => exact .now (.refl _)
  | eval language path line => exact quiet.elim
  | evaluate target unit => exact quiet.elim
  | evalUnit unit => exact quiet.elim
  | print line => exact .now ⟨rfl, rfl, rfl⟩
  | tally name => exact .now (.refl _)

end Engine

/-- The routines in reach evaluate nothing, bring only routines in reach into play, and end. -/
structure Routines.ComeBack (routines : Routines) (reach : Nat → Prop) : Prop where
  /-- What they ask for. -/
  quiet : ∀ routine, reach routine → ∀ arguments,
    (routines routine arguments).Asks (Request.IsQuiet reach)
  /-- That they end. -/
  ends : ∀ routine, reach routine → ∀ arguments world, world.Sealed reach →
    (routines routine arguments).Ends routines .host world

namespace Routines.ComeBack

variable {routines : Routines} {reach : Nat → Prop}

/-- What all programs ask for while only routines are at work that come back: scripts what scripts
ask for, and routines nothing but harmless things. -/
theorem obey (back : routines.ComeBack reach) :
    routines.Obey reach fun request => request.IsQuiet reach ∨ request.IsScripted where
  handsOver request may := by cases request <;> simp_all [Request.HandsOver, Request.IsQuiet,
    Request.IsScripted]
  thunks routine inReach := (back.quiet routine inReach []).mono fun _ quiet => .inl quiet
  functions _ arguments _ routine inReach :=
    (back.quiet routine inReach arguments).mono fun _ quiet => .inl quiet
  scripts _ _ _ session scope text :=
    (session.evaluate_asks scope text).mono fun _ scripted => .inr scripted

/-- A harmless reply is carried out. -/
theorem ends_reply (back : routines.ComeBack reach) {world : World} {α : Type} {reply : Reply α}
    {allowed : Request → Prop} (harmless : reply.IsHarmless routines reach world)
    (obeys : reply.Obeys reach allowed) : reply.Ends routines := by
  cases harmless with
  | now => exact Reply.ends_now routines _ _
  | after inReach => exact Reply.ends_after (back.ends _ inReach _ _ obeys.1) _

end Routines.ComeBack

end Interchange
