import Interchange.Proofs.Engine.Transparency

/-!
# Operations at any moment

Operations from outside come one after the other, when nothing runs, or in the midst of a run, when
a function of the host makes use of an engine (`Moment.Undergoes`). Each of them is told with the
world that it found. Operations that are performed one after the other are the case in which nothing
runs in between (`Moment.undergoes_of_performAll`), so what is kept by every moment and every
operation is kept by every sequence of calls.
-/
namespace Interchange

namespace Operation

/-- How an operation is answered. -/
def reply (routines : Routines) (world : World) :
    (operation : Operation) → Reply operation.Answer
  | ask context request => Engine.respond routines context request world
  | create parent language =>
    .now (Engine.createContext parent language world).1
      (Engine.createContext parent language world).2
  | evaluate call => call.reply world

/-- Performing an operation is carrying its reply out. -/
theorem perform_eq (run : Runner) (routines : Routines) (operation : Operation) (world : World) :
    operation.perform run routines world = (operation.reply routines world).complete run := by
  cases operation with
  | ask context request => exact Engine.answer_eq run routines context request world
  | create parent language => rfl
  | evaluate call => exact call.carryOut_eq run world

end Operation

namespace Moment

/-- The moment at which nothing runs. -/
def idle (world : World) : Moment := .start .host (Program.done ()) world

/-- The moment at which an operation has been begun; what was at work goes on when it is over. -/
def interrupted (routines : Routines) (moment : Moment) (operation : Operation) : Moment :=
  (operation.reply routines moment.world).moment moment.context (fun _ => moment.program)
    moment.stack

/-- From one moment to another, by what runs and by operations from outside, which are told with the
worlds that they found. -/
inductive Undergoes (routines : Routines) (first : Moment) :
    List (Operation × World) → Moment → Prop where
  /-- Nothing was done. -/
  | refl : Undergoes routines first [] first
  /-- What runs went on. -/
  | step {last next : Moment} {doings : List (Operation × World)} {deed : Option Deed}
      (before : Undergoes routines first doings last) (now : Step routines last deed next) :
      Undergoes routines first doings next
  /-- An operation was begun. -/
  | performed {last : Moment} {doings : List (Operation × World)}
      (before : Undergoes routines first doings last) (operation : Operation) :
      Undergoes routines first (doings ++ [(operation, last.world)])
        (last.interrupted routines operation)

namespace Undergoes

variable {routines : Routines} {first middle last : Moment}
  {doings later : List (Operation × World)}

/-- What runs leads on. -/
theorem reaches (before : Undergoes routines first doings middle) {deeds : List Deed}
    (reached : Reaches routines middle deeds last) : Undergoes routines first doings last := by
  induction reached with
  | refl => exact before
  | step _ now ih => exact ih.step now

/-- One thing was done after the other. -/
theorem trans (before : Undergoes routines first doings middle)
    (after : Undergoes routines middle later last) :
    Undergoes routines first (doings ++ later) last := by
  induction after with
  | refl => rwa [List.append_nil]
  | step _ now ih => exact ih.step now
  | performed _ operation ih =>
    rw [← List.append_assoc]
    exact ih.performed operation

end Undergoes

/-- An operation that comes to its end leads from rest to rest. -/
theorem undergoes_of_perform {routines : Routines} {allowance : Nat} {operation : Operation}
    {world after : World} {answer : operation.Answer}
    (performed : operation.perform (Runner.within routines allowance) routines world =
      some (answer, after)) :
    Undergoes routines (idle world) [(operation, world)] (idle after) := by
  rw [Operation.perform_eq] at performed
  obtain ⟨deeds, led⟩ := reaches_of_complete reaches_of_within performed
  exact (Undergoes.refl.performed operation).reaches (led .host (fun _ => .done ()) .bottom)

/-- Operations that are performed one after the other lead from rest to rest. -/
theorem undergoes_of_performAll {routines : Routines} {allowance : Nat}
    {operations : List Operation} {world after : World}
    {answers : List ((operation : Operation) × operation.Answer)}
    (performed : Operation.performAll (Runner.within routines allowance) routines operations world =
      some (answers, after)) :
    ∃ doings, doings.map Prod.fst = operations ∧
      Undergoes routines (idle world) doings (idle after) := by
  induction operations generalizing world answers with
  | nil =>
    obtain ⟨_, rfl⟩ := Prod.mk.inj (Option.some.inj performed)
    exact ⟨[], rfl, .refl⟩
  | cons operation operations ih =>
    obtain ⟨⟨answer, between⟩, first, rest⟩ := Option.bind_eq_some_iff.1 performed
    obtain ⟨⟨others, last⟩, remaining, same⟩ := Option.map_eq_some_iff.1 rest
    obtain ⟨_, rfl⟩ := Prod.mk.inj same
    obtain ⟨doings, told, later⟩ := ih remaining
    refine ⟨(operation, world) :: doings, ?_, (undergoes_of_perform first).trans later⟩
    rw [List.map_cons, told]

end Moment

end Interchange
