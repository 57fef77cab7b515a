import Interchange.Engine.Running
import Interchange.Proofs.Guests.Plain
import Interchange.Proofs.Registry.Operations

/-!
# Routines that evaluate nothing

Which routines can be run at all is decided by the registries and the shared objects
(`World.Sealed`). If all routines in reach are quiet, then every harmless request, whatever
routines it sets off, leaves the contexts of the engine alone, is refused only in plain ways and
brings no other routine within reach (`Engine.answer_settled`).
-/
namespace Interchange

/-- The routine of the slot, if it has one, is among the given ones. -/
def Slot.Holds (reach : Nat → Prop) : Slot → Prop
  | ready _ => True
  | deferred routine => reach routine
  | forcing routine => reach routine

/-- All routines of the registry are among the given ones. -/
def Registry.Holds (reach : Nat → Prop) (registry : Registry) : Prop :=
  ∀ name binding, registry.find? name = some binding → binding.slot.Holds reach

/-- All routines of the functions among the shared objects are among the given ones. -/
def Heap.Holds (reach : Nat → Prop) (heap : Heap) : Prop :=
  ∀ name routine, SharedObject.function name routine ∈ heap.objects → reach routine

/-- Only the given routines can be run: the registry at work, the one that waits and the shared
objects hold no others. -/
structure World.Sealed (reach : Nat → Prop) (world : World) : Prop where
  /-- The registry at work. -/
  registry : world.registry.Holds reach
  /-- The registry of the first engine, if it has its own. -/
  home : ∀ home registry, world.home = some home → home.registry = some registry →
    registry.Holds reach
  /-- The shared objects. -/
  heap : world.heap.Holds reach

/-- All routines in reach evaluate nothing, fail only in plain ways of their own and bring only
routines in reach into play. -/
def Routines.AreQuiet (routines : Routines) (reach : Nat → Prop) : Prop :=
  ∀ routine, reach routine → ∀ arguments, (routines routine arguments).IsQuiet reach

variable {reach : Nat → Prop}

namespace Registry.Holds

variable {registry : Registry}

/-- Binding a name to a routine in reach or to a value. -/
theorem bind (held : registry.Holds reach) {slot : Slot} (inReach : slot.Holds reach)
    (name : String) (origin : ContextId) (line : Option Nat) :
    (registry.bind name slot origin line).Holds reach := by
  intro other binding found
  rw [find?_bind] at found
  split at found
  · obtain rfl := Option.some.inj found
    exact inReach
  · exact held other binding found

/-- Binding a name to a value. -/
theorem bindValue (held : registry.Holds reach) (name : String) (value : Value)
    (origin : ContextId) (line : Option Nat) :
    (registry.bind name (.ready value) origin line).Holds reach := by
  have holds : (Slot.ready value).Holds reach := trivial
  exact held.bind holds name origin line

/-- Binding a name to a routine in reach. -/
theorem bindRoutine (held : registry.Holds reach) {routine : Nat} (inReach : reach routine)
    (name : String) (origin : ContextId) (line : Option Nat) :
    (registry.bind name (.deferred routine) origin line).Holds reach := by
  have holds : (Slot.deferred routine).Holds reach := inReach
  exact held.bind holds name origin line

/-- A routine that a name is bound to is in reach. -/
theorem routine (held : registry.Holds reach) {name : String} {binding : Binding} {routine : Nat}
    (found : registry.find? name = some binding) (idle : binding.slot = .deferred routine) :
    reach routine := by
  have holds := held name binding found
  rwa [idle] at holds

/-- Looking a name up. -/
theorem lookUp (held : registry.Holds reach) (name : String) (context : ContextId)
    (line : Option Nat) : (registry.lookUp name context line).2.Holds reach := held

/-- Letting a binding hold a routine in reach. -/
theorem replace (held : registry.Holds reach) {slot : Slot} (inReach : slot.Holds reach)
    (name : String) : (registry.replace name slot).Holds reach := by
  intro other binding found
  rw [find?_replace] at found
  split at found
  · obtain ⟨old, _, rfl⟩ := Option.map_eq_some_iff.1 found
    exact inReach
  · exact held other binding found

/-- Marking the binding whose routine in reach starts. -/
theorem started (held : registry.Holds reach) {routine : Nat} (inReach : reach routine)
    (name : String) : (registry.replace name (.forcing routine)).Holds reach := by
  have holds : (Slot.forcing routine).Holds reach := inReach
  exact held.replace holds name

/-- Settling the binding that a routine in reach ran for. -/
theorem settle (held : registry.Holds reach) {routine : Nat} (inReach : reach routine)
    (name : String) (generation : Nat) (outcome : Except Fault Value) :
    (registry.settle name generation routine outcome).Holds reach := by
  intro other binding found
  rw [find?_settle] at found
  split at found
  · obtain ⟨old, there, rfl⟩ := Option.map_eq_some_iff.1 found
    split
    · cases outcome with
      | ok value => trivial
      | error fault => exact inReach
    · exact held name old there
  · exact held other binding found

end Registry.Holds

namespace Heap.Holds

variable {heap after : Heap}

/-- Making a shared record. -/
theorem allocateRecord (held : heap.Holds reach) (origin : ContextId)
    (pairs : List (String × Value)) : (heap.allocateRecord origin pairs).2.Holds reach := by
  intro name routine mem
  simp only [Heap.allocateRecord, Heap.allocate, List.mem_append, List.mem_singleton,
    reduceCtorEq, or_false] at mem
  exact held name routine mem

/-- Setting a field. -/
theorem setField (held : heap.Holds reach) {reference : Reference} {name : String}
    {value : Value} (set : heap.setField reference name value = .ok after) :
    after.Holds reach := by
  unfold Heap.setField at set
  split at set
  · obtain rfl := Except.ok.inj set
    intro other routine mem
    rcases List.mem_or_eq_of_mem_set mem with there | same
    · exact held other routine there
    · simp at same
  · simp at set

/-- The routine of a function is in reach. -/
theorem routine (held : heap.Holds reach) {function : Reference} {routine : Nat}
    (callable : heap.routine function = .ok routine) : reach routine := by
  unfold Heap.routine at callable
  split at callable
  · rename_i name number object
    obtain rfl := Except.ok.inj callable
    exact held name number (List.mem_of_getElem? object)
  · simp at callable

end Heap.Holds

namespace World

variable {world before after : World}

/-- What a request leaves that evaluates nothing: the contexts and languages of the engine are the
same, and only the given routines can be run. -/
structure Settled (reach : Nat → Prop) (before after : World) : Prop where
  /-- The contexts of the engine. -/
  contexts : after.engine.contexts = before.engine.contexts
  /-- The languages of the engine. -/
  languages : after.engine.languages = before.engine.languages
  /-- The routines that can be run. -/
  sealed : after.Sealed reach

/-- One after another. -/
theorem Settled.trans {middle : World} (first : before.Settled reach middle)
    (second : middle.Settled reach after) : before.Settled reach after :=
  ⟨second.contexts.trans first.contexts, second.languages.trans first.languages, second.sealed⟩

/-- Contexts hold no routines. -/
theorem Sealed.withContexts (sealed : world.Sealed reach) (contexts : ContextTree) :
    (world.withContexts contexts).Sealed reach :=
  ⟨sealed.registry, sealed.home, sealed.heap⟩

/-- What can be run while the first engine is at work. -/
theorem Sealed.atHome (sealed : world.Sealed reach) : world.atHome.Sealed reach := by
  unfold World.atHome
  split
  · exact sealed
  · rename_i home waits
    refine ⟨?_, by simp, sealed.heap⟩
    cases own : home.registry with
    | none => exact sealed.registry
    | some registry => exact sealed.home home registry waits own

/-- What was done while the first engine was at work is settled on the way back. -/
theorem Settled.back (sealed : before.Sealed reach) (settled : before.atHome.Settled reach after) :
    before.Settled reach (before.backFrom after) := by
  unfold World.backFrom
  split
  · rename_i alone
    simpa only [World.atHome, alone] using settled
  · rename_i home waits
    refine ⟨rfl, rfl, ⟨?_, ?_, settled.sealed.heap⟩⟩
    · dsimp only
      split
      · exact sealed.registry
      · exact settled.sealed.registry
    · intro later registry same own
      obtain rfl := Option.some.inj same
      simp only [Option.map_eq_some_iff] at own
      obtain ⟨_, _, rfl⟩ := own
      exact settled.sealed.registry

end World

/-- Running a quiet program settles everything and fails in plain ways. -/
def Runner.Settles (reach : Nat → Prop) (run : Runner) : Prop :=
  ∀ (context : ContextId) (program : Program (Except Fault Value)) (world after : World)
    (outcome : Except Fault Value), program.IsQuiet reach → world.Sealed reach →
    run _ context program world = some (outcome, after) →
    world.Settled reach after ∧ Fault.Plainly outcome

namespace Engine

variable {run : Runner} {routines : Routines} {world after : World} {context : ContextId}

/-- Looking a name up settles everything, also if a routine has to run. -/
theorem importName_settled (settles : run.Settles reach) (quiet : routines.AreQuiet reach)
    (sealed : world.Sealed reach) {name : String} {line : Option Nat}
    {answer : Except Fault Value}
    (answered : importName run routines context name line world = some (answer, after)) :
    world.Settled reach after ∧ Fault.Plainly answer := by
  have recorded : World.Sealed reach
      { world with registry := (world.registry.lookUp name context line).2 } :=
    ⟨sealed.registry.lookUp name context line, sealed.home, sealed.heap⟩
  simp only [importName, Registry.lookUp_fst] at answered
  split at answered
  · obtain ⟨rfl, rfl⟩ := Prod.mk.inj (Option.some.inj answered)
    exact ⟨⟨rfl, rfl, recorded⟩, Fault.plainly_error trivial⟩
  · rename_i binding found
    split at answered
    · obtain ⟨rfl, rfl⟩ := Prod.mk.inj (Option.some.inj answered)
      exact ⟨⟨rfl, rfl, recorded⟩, Fault.plainly_ok _⟩
    · obtain ⟨rfl, rfl⟩ := Prod.mk.inj (Option.some.inj answered)
      exact ⟨⟨rfl, rfl, recorded⟩, Fault.plainly_error trivial⟩
    · rename_i routine held
      have inReach : reach routine := sealed.registry.routine found held
      obtain ⟨⟨outcome, ended⟩, ran, same⟩ := Option.map_eq_some_iff.1 answered
      obtain ⟨rfl, rfl⟩ := Prod.mk.inj same
      have forcing : World.Sealed reach { world with
          registry := (world.registry.lookUp name context line).2.replace name
            (.forcing routine) } :=
        ⟨recorded.registry.started inReach name, sealed.home, sealed.heap⟩
      obtain ⟨settled, plain⟩ := settles _ _ _ _ _ (quiet routine inReach []) forcing ran
      refine ⟨⟨settled.contexts, settled.languages, ⟨?_, settled.sealed.home,
        settled.sealed.heap⟩⟩, plain⟩
      exact settled.sealed.registry.settle inReach name _ _

/-- Calling a function settles everything. -/
theorem call_settled (settles : run.Settles reach) (quiet : routines.AreQuiet reach)
    (sealed : world.Sealed reach) {function : Reference} {arguments : List Value}
    {answer : Except Fault Value}
    (answered : call run routines function arguments world = some (answer, after)) :
    world.Settled reach after ∧ Fault.Plainly answer := by
  unfold call at answered
  split at answered
  · rename_i fault refused
    obtain ⟨rfl, rfl⟩ := Prod.mk.inj (Option.some.inj answered)
    refine ⟨⟨rfl, rfl, sealed⟩, ?_⟩
    exact Fault.plainly_error (world.heap.plainly_routine function fault (by rw [refused]; rfl))
  · rename_i routine callable
    obtain ⟨⟨outcome, ended⟩, ran, same⟩ := Option.map_eq_some_iff.1 answered
    obtain ⟨rfl, rfl⟩ := Prod.mk.inj same
    obtain ⟨settled, plain⟩ := settles _ _ _ _ _
      (quiet routine (sealed.heap.routine callable) arguments) sealed.atHome ran
    exact ⟨settled.back sealed, plain⟩

/-- Every harmless request settles everything and is refused only in plain ways. -/
theorem answer_settled (settles : run.Settles reach) (quiet : routines.AreQuiet reach)
    (sealed : world.Sealed reach) {request : Request} (harmless : request.IsQuiet reach)
    {answer : request.Answer}
    (answered : Engine.answer run routines context request world = some (answer, after)) :
    world.Settled reach after ∧ request.Plainly answer := by
  cases request with
  | inspect =>
    obtain ⟨rfl, rfl⟩ := Prod.mk.inj (Option.some.inj answered)
    exact ⟨⟨rfl, rfl, sealed⟩, by simp [Request.Plainly, Request.refusal?]⟩
  | look query =>
    obtain ⟨rfl, rfl⟩ := Prod.mk.inj (Option.some.inj answered)
    exact ⟨⟨rfl, rfl, sealed⟩, by simp [Request.Plainly, Request.refusal?]⟩
  | allocate pairs =>
    obtain ⟨rfl, rfl⟩ := Prod.mk.inj (Option.some.inj answered)
    exact ⟨⟨rfl, rfl, sealed.registry, sealed.home, sealed.heap.allocateRecord context pairs⟩,
      by simp [Request.Plainly, Request.refusal?]⟩
  | setField target name value =>
    simp only [Engine.answer] at answered
    split at answered
    · rename_i heap set
      obtain ⟨rfl, rfl⟩ := Prod.mk.inj (Option.some.inj answered)
      exact ⟨⟨rfl, rfl, sealed.registry, sealed.home, sealed.heap.setField set⟩,
        Fault.plainly_ok ()⟩
    · rename_i fault refused
      obtain ⟨rfl, rfl⟩ := Prod.mk.inj (Option.some.inj answered)
      have plain := world.heap.plainly_setField target name value fault (by rw [refused]; rfl)
      exact ⟨⟨rfl, rfl, sealed⟩, Fault.plainly_error (α := Unit) plain⟩
  | call function arguments => exact call_settled settles quiet sealed answered
  | importName name line => exact importName_settled settles quiet sealed answered
  | exportValue name value line =>
    obtain ⟨rfl, rfl⟩ := Prod.mk.inj (Option.some.inj answered)
    have bound := sealed.registry.bindValue name value context line
    exact ⟨⟨rfl, rfl, bound, sealed.home, sealed.heap⟩,
      by simp [Request.Plainly, Request.refusal?]⟩
  | exportLazy name routine =>
    obtain ⟨rfl, rfl⟩ := Prod.mk.inj (Option.some.inj answered)
    have bound := sealed.registry.bindRoutine harmless name context none
    exact ⟨⟨rfl, rfl, bound, sealed.home, sealed.heap⟩,
      by simp [Request.Plainly, Request.refusal?]⟩
  | eval language path line => exact harmless.elim
  | evaluate target unit => exact harmless.elim
  | evalUnit unit => exact harmless.elim
  | print line =>
    obtain ⟨rfl, rfl⟩ := Prod.mk.inj (Option.some.inj answered)
    refine ⟨⟨rfl, rfl, sealed.registry, sealed.home, sealed.heap⟩, ?_⟩
    change Fault.Plainly (world.engine.output.print line).1
    unfold Sink.print
    split
    · exact Fault.plainly_error trivial
    · exact Fault.plainly_ok ()
  | tally name =>
    obtain ⟨rfl, rfl⟩ := Prod.mk.inj (Option.some.inj answered)
    exact ⟨⟨rfl, rfl, sealed.registry, sealed.home, sealed.heap⟩,
      by simp [Request.Plainly, Request.refusal?]⟩

/-- However many quiet programs run inside each other, they settle everything. -/
theorem within_settles (quiet : routines.AreQuiet reach) (allowance : Nat) :
    (Runner.within routines allowance).Settles reach := by
  induction allowance with
  | zero =>
    intro context program world after outcome _ _ ran
    simp [Runner.within] at ran
  | succ allowance inside =>
    intro context program world after outcome passes sealed ran
    simp only [Runner.within] at ran
    unfold Program.IsQuiet at passes
    induction passes generalizing world with
    | done plain =>
      obtain ⟨rfl, rfl⟩ := Prod.mk.inj (Option.some.inj ran)
      exact ⟨⟨rfl, rfl, sealed⟩, plain⟩
    | quiet harmless _ ih =>
      obtain ⟨⟨answer, between⟩, answered, rest⟩ := Option.bind_eq_some_iff.1 ran
      obtain ⟨settled, plain⟩ := answer_settled inside quiet sealed harmless answered
      obtain ⟨later, ends⟩ := ih answer plain between settled.sealed rest
      exact ⟨settled.trans later, ends⟩
    | eval allowed => exact allowed.elim

end Engine

end Interchange
