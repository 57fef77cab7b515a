import Interchange.Proofs.Engine.Reply
import Interchange.Proofs.Registry.Exchange

/-!
# Runs, moment by moment

A run of programs inside each other as a machine: at every moment one program is at work, and
the programs that wait for it are on a stack with what is left to do for each of them. A run
that ends passes through exactly these moments (`Moment.reaches_of_within`), and the moments of a
run that never ends are there as well, so what holds at every moment holds throughout every run.
-/
namespace Interchange

/-- The programs that wait for the result of another one, the innermost first. -/
inductive Stack : Type → Type 1 where
  /-- No program waits. -/
  | bottom {α : Type} : Stack α
  /-- A program of a context waits for the answer to a request. -/
  | frame {α β γ : Type} (context : ContextId) (pending : Pending α γ) (next : γ → Program β)
      (rest : Stack β) : Stack α

/-- One moment of a run: the program at work, what waits for it, and the world. -/
structure Moment : Type 1 where
  /-- The type of the result of the program at work. -/
  {α : Type}
  /-- The context of the program at work. -/
  context : ContextId
  /-- What the program at work still has to do. -/
  program : Program α
  /-- The programs that wait. -/
  stack : Stack α
  /-- The world. -/
  world : World

/-- The routine whose end is awaited. -/
def Pending.forcing? {β α : Type} : Pending β α → Option Forcing
  | passing => none
  | settling name generation routine => some ⟨name, generation, routine⟩
  | finishing .. => none
  | naming _ pending => pending.forcing?
  | returning _ pending => pending.forcing?

/-- What the end of the awaited program is for the registry. -/
def Pending.ended? {β α : Type} : Pending β α → β → Option Deed
  | passing, _ => none
  | settling name generation routine, outcome => some (.ended ⟨name, generation, routine⟩ outcome)
  | finishing .., _ => none
  | naming _ pending, result => pending.ended? result
  | returning _ pending, result => pending.ended? result

/-- What a request that is answered at once is for the registry. -/
def Request.deed? : (request : Request) → request.Answer → Option Deed
  | .importName name _, answer => some (.answered name answer)
  | .exportValue name value _, _ => some (.exported name (.value value))
  | .exportLazy name routine, _ => some (.exported name (.routine routine))
  | _, _ => none

/-- The routines at work for bindings, the innermost first. -/
def Stack.forcings {α : Type} : Stack α → List Forcing
  | bottom => []
  | frame _ pending _ rest => pending.forcing?.toList ++ rest.forcings

/-- No program waits for the one at work. -/
def Stack.IsBottom {α : Type} : Stack α → Prop
  | bottom => True
  | frame .. => False

/-- The moment after a reply to a program that goes on with the answer. -/
def Reply.moment {γ α : Type} (context : ContextId) (next : γ → Program α) (stack : Stack α) :
    Reply γ → Moment
  | now answer world => ⟨context, next answer, stack, world⟩
  | after inner program opened pending =>
    ⟨inner, program, .frame context pending next stack, opened⟩

namespace Moment

/-- One moment follows another; what happens at the registry in between is told. -/
inductive Step (routines : Routines) : Moment → Option Deed → Moment → Prop where
  /-- A request is answered at once. -/
  | answered {α : Type} {context : ContextId} {request : Request}
      {next : request.Answer → Program α} {stack : Stack α} {world after : World}
      {answer : request.Answer}
      (reply : Engine.respond routines context request world = .now answer after) :
      Step routines ⟨context, .ask request next, stack, world⟩ (request.deed? answer)
        ⟨context, next answer, stack, after⟩
  /-- A request starts another program. -/
  | started {α β : Type} {context inner : ContextId} {request : Request}
      {next : request.Answer → Program α} {stack : Stack α} {world opened : World}
      {program : Program β} {pending : Pending β request.Answer}
      (reply : Engine.respond routines context request world =
        .after inner program opened pending) :
      Step routines ⟨context, .ask request next, stack, world⟩
        (pending.forcing?.map .started)
        ⟨inner, program, .frame context pending next stack, opened⟩
  /-- A program has ended, and the one that waits for it goes on. -/
  | ended {α β γ : Type} {inner context : ContextId} {result : β} {pending : Pending β γ}
      {next : γ → Program α} {stack : Stack α} {world : World} :
      Step routines ⟨inner, .done result, .frame context pending next stack, world⟩
        (pending.ended? result)
        ⟨context, next (pending.conclude result world).1, stack,
          (pending.conclude result world).2⟩

/-- A moment is reached from another one; what has happened at the registry is told
backwards. -/
inductive Reaches (routines : Routines) (first : Moment) : List Deed → Moment → Prop where
  /-- No time has passed. -/
  | refl : Reaches routines first [] first
  /-- One more moment has passed. -/
  | step {last next : Moment} {deeds : List Deed} {deed : Option Deed}
      (before : Reaches routines first deeds last) (now : Step routines last deed next) :
      Reaches routines first (deed.toList ++ deeds) next

namespace Reaches

variable {routines : Routines} {first middle last : Moment} {deeds later : List Deed}

/-- One moment follows another. -/
theorem single {deed : Option Deed} (now : Step routines first deed last) :
    Reaches routines first deed.toList last := by
  simpa using Reaches.refl.step now

/-- Reaching one moment from another is transitive. -/
theorem trans (before : Reaches routines first deeds middle)
    (after : Reaches routines middle later last) :
    Reaches routines first (later ++ deeds) last := by
  induction after with
  | refl => exact before
  | step _ now ih =>
    rw [List.append_assoc]
    exact ih.step now

/-- What is kept from each moment to the next is kept from the first to the last. -/
theorem keeps {P : Moment → Prop}
    (kept : ∀ {before deed after}, Step routines before deed after → P before → P after)
    (reached : Reaches routines first deeds last) (initial : P first) : P last := by
  induction reached with
  | refl => exact initial
  | step _ now ih => exact kept now ih

end Reaches

/-- The first moment of a run. -/
def start {α : Type} (context : ContextId) (program : Program α) (world : World) : Moment :=
  ⟨context, program, .bottom, world⟩

/-- A request is answered at once or starts another program. -/
theorem Step.asked (routines : Routines) (context : ContextId) (request : Request)
    (world : World) :
    ∃ deed, ∀ {α : Type} (next : request.Answer → Program α) (stack : Stack α),
      Step routines ⟨context, .ask request next, stack, world⟩ deed
        ((Engine.respond routines context request world).moment context next stack) := by
  cases reply : Engine.respond routines context request world with
  | now answer after => exact ⟨_, fun next stack => .answered reply⟩
  | after inner program opened pending => exact ⟨_, fun next stack => .started reply⟩

/-- A reply that is carried out leads to the moment at which the program that asked goes on. -/
theorem reaches_of_complete {routines : Routines} {run : Runner}
    (inside : ∀ {β : Type} {context : ContextId} {program : Program β} {world after : World}
      {result : β}, run β context program world = some (result, after) →
        ∃ deeds, ∀ stack : Stack β, Reaches routines ⟨context, program, stack, world⟩ deeds
          ⟨context, .done result, stack, after⟩)
    {γ : Type} {reply : Reply γ} {answer : γ} {after : World}
    (completed : reply.complete run = some (answer, after)) :
    ∃ deeds, ∀ {α : Type} (context : ContextId) (next : γ → Program α) (stack : Stack α),
      Reaches routines (reply.moment context next stack) deeds
        ⟨context, next answer, stack, after⟩ := by
  cases reply with
  | now given opened =>
    obtain ⟨rfl, rfl⟩ := Prod.mk.inj (Option.some.inj completed)
    exact ⟨[], fun context next stack => .refl⟩
  | after inner program opened pending =>
    obtain ⟨⟨value, closed⟩, ran, concluded⟩ := Option.map_eq_some_iff.1 completed
    obtain ⟨deeds, within⟩ := inside ran
    obtain rfl : (pending.conclude value closed).1 = answer := congrArg Prod.fst concluded
    obtain rfl : (pending.conclude value closed).2 = after := congrArg Prod.snd concluded
    exact ⟨_, fun context next stack =>
      (within (.frame context pending next stack)).trans (Reaches.single .ended)⟩

/-- A run that ends passes from its first moment, whatever waits for it, to a last one with its
result and its world. -/
theorem reaches_of_within {routines : Routines} {allowance : Nat} {α : Type}
    {context : ContextId} {program : Program α} {world after : World} {result : α}
    (run : Runner.within routines allowance α context program world = some (result, after)) :
    ∃ deeds, ∀ stack : Stack α,
      Reaches routines ⟨context, program, stack, world⟩ deeds
        ⟨context, .done result, stack, after⟩ := by
  induction allowance generalizing α context program world after result with
  | zero => simp [Runner.within] at run
  | succ allowance inside =>
    simp only [Runner.within] at run
    induction program generalizing world with
    | done value =>
      simp only [Program.run, Option.some.injEq, Prod.mk.injEq] at run
      obtain ⟨rfl, rfl⟩ := run
      exact ⟨[], fun stack => .refl⟩
    | ask request next ih =>
      simp only [Program.run, Engine.answer_eq, Option.bind_eq_some_iff, Prod.exists] at run
      obtain ⟨answer, between, replied, rest⟩ := run
      obtain ⟨deed, asked⟩ := Step.asked routines context request world
      obtain ⟨middle, completed⟩ := reaches_of_complete inside replied
      obtain ⟨later, followed⟩ := ih answer rest
      exact ⟨_, fun stack => ((Reaches.single (asked next stack)).trans
        (completed context next stack)).trans (followed stack)⟩

end Moment

end Interchange
