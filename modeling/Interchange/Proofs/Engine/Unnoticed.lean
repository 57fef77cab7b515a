import Interchange.Proofs.Engine.Likeness
import Interchange.Proofs.Guests.Passing

/-!
# What routines do not notice

A routine that leaves engines alone sees of them nothing but where its lines are printed. Whatever
else is changed about the engine (`Engine.Change`), the routine comes to the same result, and the
same is changed afterwards (`Routines.AskQuietly.unnoticed`). So it changes nothing about the engine
itself (`Routines.AskQuietly.unchanged`).
-/
namespace Interchange

/-- A change of an engine besides its output. -/
structure Engine.Change where
  /-- The engine after the change. -/
  apply : Engine → Engine
  /-- The output stays as it is. -/
  output : ∀ engine, (apply engine).output = engine.output
  /-- Printing before the change is printing after it. -/
  prints : ∀ engine output, apply { engine with output } = { apply engine with output }

/-- Nothing is changed. -/
def Engine.Change.none : Engine.Change := ⟨id, fun _ => rfl, fun _ _ => rfl⟩

namespace World

/-- The world in which the engine at work is changed. -/
def under (change : Engine.Change) (world : World) : World :=
  { world with engine := change.apply world.engine }

/-- The change of the engine that comes to work when the first engine takes its place: none, if that
is another one. -/
def changeAtHome (change : Engine.Change) (world : World) : Engine.Change :=
  match world.home with
  | none => change
  | some _ => .none

variable (change : Engine.Change)

/-- The first engine takes the place of a changed engine. -/
theorem under_atHome (world : World) :
    (world.under change).atHome = world.atHome.under (world.changeAtHome change) := by
  cases waits : world.home with
  | none => simp only [atHome, under, changeAtHome, waits]
  | some home => simp only [atHome, under, changeAtHome, waits, Engine.Change.none, id]

/-- What is told of registries is the same. -/
theorem tell_under (world : World) {query : Query} (registry : query.AsksRegistry) :
    (world.under change).atHome.tell query = world.atHome.tell query := by
  rw [under_atHome]
  cases query <;> first | rfl | exact registry.elim

/-- The changed engine comes back. -/
theorem under_backFrom (before after : World) :
    (before.under change).backFrom (after.under (before.changeAtHome change)) =
      (before.backFrom after).under change := by
  cases waits : before.home with
  | none => simp only [backFrom, under, changeAtHome, waits]
  | some home => simp only [backFrom, under, changeAtHome, waits, Engine.Change.none, id]

end World

/-- The routines in reach leave engines alone and bring only routines in reach into play. -/
def Routines.AskQuietly (routines : Routines) (reach : Nat → Prop) : Prop :=
  ∀ routine, reach routine → ∀ arguments,
    (routines routine arguments).Asks (Request.IsQuiet reach)

/-- Worlds whose engines differ by a change, with no other routines than those in reach. -/
def Likeness.unnoticed (reach : Nat → Prop) : Likeness where
  Way := Engine.Change
  like change one other := one.Sealed reach ∧ other = one.under change
  may _ _ := Request.IsQuiet reach

namespace Routines.AskQuietly

variable {routines : Routines} {reach : Nat → Prop}

/-- Where all programs ask quietly, they ask for harmless things only. -/
theorem obey (quiet : routines.AskQuietly reach) : routines.Obey reach (Request.IsQuiet reach) where
  handsOver request may := by cases request <;> trivial
  thunks routine inReach := quiet routine inReach []
  functions _ arguments _ routine inReach := quiet routine inReach arguments
  scripts request may evaluates := by
    cases request <;> first | exact may.elim | exact evaluates.elim

variable {world : World}

/-- A look-up does not notice a change, nor does a routine that it starts. -/
theorem respondImport_unnoticed (quiet : routines.AskQuietly reach) (sealed : world.Sealed reach)
    (change : Engine.Change) (context : ContextId) (name : String) (line : Option Nat) :
    (Engine.respondImport routines context name line world).Like (.unnoticed reach) change
      (Engine.respondImport routines context name line (world.under change)) := by
  have obeys := Engine.respondImport_obeys sealed quiet.obey.thunks context name line
  have registry : (world.under change).registry = world.registry := rfl
  unfold Engine.respondImport at obeys ⊢
  rw [registry]
  dsimp only at obeys ⊢
  split at obeys
  · exact .now ⟨obeys, rfl⟩
  · split at obeys
    · exact .now ⟨obeys, rfl⟩
    · exact .now ⟨obeys, rfl⟩
    · obtain ⟨sealedOpened, sealedPending, asks⟩ := obeys
      refine .after change ⟨sealedOpened, rfl⟩ asks ?_
      rintro outcome one other ⟨sealed, rfl⟩
      exact ⟨rfl, sealedPending.conclude outcome sealed, rfl⟩

/-- A call does not notice a change, nor does the function. -/
theorem respondCall_unnoticed (quiet : routines.AskQuietly reach) (sealed : world.Sealed reach)
    (change : Engine.Change) (function : Reference) (arguments : List Value) :
    (Engine.respondCall routines function arguments world).Like (.unnoticed reach) change
      (Engine.respondCall routines function arguments (world.under change)) := by
  have obeys := Engine.respondCall_obeys sealed function arguments
    fun routine inReach => quiet routine inReach arguments
  have heap : (world.under change).heap = world.heap := rfl
  unfold Engine.respondCall at obeys ⊢
  rw [heap]
  split at obeys
  · exact .now ⟨obeys, rfl⟩
  · obtain ⟨sealedOpened, sealedPending, asks⟩ := obeys
    refine .after (world.changeAtHome change) ⟨sealedOpened, world.under_atHome change⟩ asks ?_
    rintro outcome one other ⟨sealed, rfl⟩
    exact ⟨rfl, sealedPending.conclude outcome sealed, World.under_backFrom change world one⟩

/-- A harmless request does not notice a change, nor do the routines that it sets off. -/
theorem holds (quiet : routines.AskQuietly reach) : (Likeness.unnoticed reach).Holds routines := by
  rintro change context request world other may ⟨sealed, rfl⟩
  have obeys := Engine.respond_obeys quiet.obey sealed context may
  cases request with
  | call function arguments => exact quiet.respondCall_unnoticed sealed change function arguments
  | importName name line => exact quiet.respondImport_unnoticed sealed change context name line
  | eval language path line => exact may.elim
  | evaluate target unit => exact may.elim
  | evalUnit unit => exact may.elim
  | look query =>
    have told := World.tell_under change world may
    simp only [Engine.respond, told] at obeys ⊢
    exact .now ⟨obeys, rfl⟩
  | setField target name value =>
    have heap : (world.under change).heap = world.heap := rfl
    simp only [Engine.respond, heap] at obeys ⊢
    split at obeys <;> exact .now ⟨obeys, rfl⟩
  | print line =>
    have output : (world.under change).engine.output = world.engine.output :=
      change.output world.engine
    simp only [Engine.respond, output] at obeys ⊢
    exact .now ⟨obeys, congrArg (fun engine => { world with engine })
      (change.prints world.engine _).symm⟩
  | _ => exact .now ⟨obeys, rfl⟩

/-- However many routines run inside each other, a harmless request does not notice a change, and it
brings no other routine within reach. -/
theorem unnoticed (quiet : routines.AskQuietly reach) {allowance : Nat} {context : ContextId}
    {request : Request} {answer : request.Answer} {after : World}
    (answered : Engine.answer (Runner.within routines allowance) routines context request world =
      some (answer, after))
    (may : request.IsQuiet reach) (sealed : world.Sealed reach) (change : Engine.Change) :
    after.Sealed reach ∧
      Engine.answer (Runner.within routines allowance) routines context request
        (world.under change) = some (answer, after.under change) := by
  rw [Engine.answer_eq] at answered ⊢
  have ends := quiet.holds.complete allowance
    (quiet.holds change context request world _ may ⟨sealed, rfl⟩)
  rw [answered] at ends
  obtain ⟨_, _, carried, rfl, sealedAfter, rfl⟩ := ends.of_some
  exact ⟨sealedAfter, carried⟩

/-- What is not noticed is not changed: a harmless request changes nothing about an engine but its
output. -/
theorem unchanged (quiet : routines.AskQuietly reach) {allowance : Nat} {context : ContextId}
    {request : Request} {answer : request.Answer} {after : World}
    (answered : Engine.answer (Runner.within routines allowance) routines context request world =
      some (answer, after))
    (may : request.IsQuiet reach) (sealed : world.Sealed reach) :
    after.engine = { world.engine with output := after.engine.output } := by
  -- The engine is made what it is already, and that is what it is afterwards.
  let change : Engine.Change := ⟨fun engine => { world.engine with output := engine.output },
    fun _ => rfl, fun _ _ => rfl⟩
  have again : _ = some (answer, after.under change) :=
    (quiet.unnoticed answered may sealed change).2
  rw [show world.under change = world from rfl, answered] at again
  exact congrArg World.engine (Prod.mk.inj (Option.some.inj again)).2

end Routines.AskQuietly

end Interchange
