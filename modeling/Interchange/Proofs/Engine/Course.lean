import Interchange.Proofs.Engine.Moment

/-!
# Runs are decided

What a run comes to depends neither on the allowance, if that is large enough
(`Runner.within_mono`), nor on anything else: every moment has at most one that follows it
(`Moment.Step.unique`), so a run that is over went through all the moments that can be reached
(`Moment.Reaches.toEnd`).
-/
namespace Interchange

/-- A program that has ended with some answers ends in the same way with answers that agree. -/
theorem Program.run_mono {α : Type} {answer wider : (request : Request) → Action request.Answer}
    (agrees : ∀ request world answered, answer request world = some answered →
      wider request world = some answered)
    {program : Program α} {world : World} {ended : α × World}
    (ran : program.run answer world = some ended) : program.run wider world = some ended := by
  induction program generalizing world with
  | done result => exact ran
  | ask request next ih =>
    obtain ⟨⟨reply, between⟩, answered, rest⟩ := Option.bind_eq_some_iff.1 ran
    exact Option.bind_eq_some_iff.2 ⟨_, agrees request world _ answered, ih reply rest⟩

/-- A reply that was carried out is carried out in the same way by a runner that agrees. -/
theorem Reply.complete_mono {α : Type} {run wider : Runner}
    (agrees : ∀ β context (program : Program β) world ended,
      run β context program world = some ended → wider β context program world = some ended)
    {reply : Reply α} {ended : α × World} (completed : reply.complete run = some ended) :
    reply.complete wider = some ended := by
  cases reply with
  | now answer world => exact completed
  | after context program world pending =>
    obtain ⟨inner, ran, same⟩ := Option.map_eq_some_iff.1 completed
    exact Option.map_eq_some_iff.2 ⟨inner, agrees _ _ _ _ _ ran, same⟩

/-- What has ended with an allowance ends in the same way with every larger one. -/
theorem Runner.within_mono {routines : Routines} {allowance larger : Nat}
    (le : allowance ≤ larger) {α : Type} {context : ContextId} {program : Program α}
    {world : World} {ended : α × World}
    (ran : Runner.within routines allowance α context program world = some ended) :
    Runner.within routines larger α context program world = some ended := by
  induction allowance generalizing larger α context program world ended with
  | zero => simp [Runner.within] at ran
  | succ allowance inside =>
    cases larger with
    | zero => omega
    | succ larger =>
      refine Program.run_mono (fun request world answered replied => ?_) ran
      rw [Engine.answer_eq] at replied ⊢
      exact Reply.complete_mono
        (fun β context program world ended => inside (Nat.le_of_succ_le_succ le)) replied

/-- What was carried out with an allowance is carried out in the same way with every larger one. -/
theorem Reply.complete_within_mono {routines : Routines} {allowance larger : Nat}
    (le : allowance ≤ larger) {α : Type} {reply : Reply α} {ended : α × World}
    (completed : reply.complete (Runner.within routines allowance) = some ended) :
    reply.complete (Runner.within routines larger) = some ended :=
  reply.complete_mono (fun _ _ _ _ _ ran => Runner.within_mono le ran) completed

/-- The program ends if enough programs may be at work inside each other. -/
def Program.Ends (routines : Routines) {α : Type} (context : ContextId) (program : Program α)
    (world : World) : Prop :=
  ∃ allowance ended, Runner.within routines allowance α context program world = some ended

/-- The reply is carried out if enough programs may be at work inside each other. -/
def Reply.Ends (routines : Routines) {α : Type} (reply : Reply α) : Prop :=
  ∃ allowance ended, reply.complete (Runner.within routines allowance) = some ended

/-- A program that has ended has ended. -/
theorem Program.ends_done (routines : Routines) {α : Type} (context : ContextId) (result : α)
    (world : World) : (Program.done result).Ends routines context world := ⟨1, _, rfl⟩

/-- A reply that starts no program is carried out. -/
theorem Reply.ends_now (routines : Routines) {α : Type} (answer : α) (world : World) :
    (Reply.now answer world).Ends routines := ⟨0, _, rfl⟩

/-- A reply is carried out if the program ends that it starts. -/
theorem Reply.ends_after {routines : Routines} {α β : Type} {inner : ContextId}
    {program : Program β} {opened : World} (ends : program.Ends routines inner opened)
    (pending : Pending β α) : (Reply.after inner program opened pending).Ends routines := by
  obtain ⟨allowance, ended, ran⟩ := ends
  exact ⟨allowance, _, Option.map_eq_some_iff.2 ⟨ended, ran, rfl⟩⟩

/-- A program ends if its first request is answered and what is left of it ends after that. -/
theorem Program.Ends.ask {routines : Routines} {α : Type} {context : ContextId}
    {request : Request} {next : request.Answer → Program α} {world between : World}
    {answer : request.Answer} {allowance : Nat}
    (answered : (Engine.respond routines context request world).complete
      (Runner.within routines allowance) = some (answer, between))
    (rest : (next answer).Ends routines context between) :
    (Program.ask request next).Ends routines context world := by
  obtain ⟨more, ended, ran⟩ := rest
  have first : Engine.answer (Runner.within routines (max allowance more)) routines context request
      world = some (answer, between) := by
    rw [Engine.answer_eq]
    exact Reply.complete_within_mono (Nat.le_max_left _ _) answered
  have last : Runner.within routines (max allowance more + 1) α context (next answer) between =
      some ended := Runner.within_mono (by omega) ran
  exact ⟨max allowance more + 1, ended, Option.bind_eq_some_iff.2 ⟨_, first, last⟩⟩

/-- Running one request is having it answered. -/
theorem Runner.within_send (routines : Routines) (allowance : Nat) (context : ContextId)
    (request : Request) (world : World) :
    Runner.within routines (allowance + 1) _ context (Program.send request) world =
      Engine.answer (Runner.within routines allowance) routines context request world := by
  simp only [Runner.within, Program.send, Program.run]
  cases Engine.answer (Runner.within routines allowance) routines context request world <;> rfl

namespace Moment

variable {routines : Routines} {first last other : Moment} {deeds otherDeeds : List Deed}

/-- What happens next is decided. -/
theorem Step.unique {before after next : Moment} {deed told : Option Deed}
    (one : Step routines before deed after) (another : Step routines before told next) :
    next = after ∧ told = deed := by
  cases one with
  | answered reply =>
    cases another with
    | answered again =>
      rw [reply] at again
      cases again
      exact ⟨rfl, rfl⟩
    | started again =>
      rw [reply] at again
      cases again
  | started reply =>
    cases another with
    | answered again =>
      rw [reply] at again
      cases again
    | started again =>
      rw [reply] at again
      cases again
      exact ⟨rfl, rfl⟩
  | ended =>
    cases another with
    | ended => exact ⟨rfl, rfl⟩

/-- The program at work has ended and nothing waits for it. -/
def IsOver (moment : Moment) : Prop :=
  ∃ (α : Type) (context : ContextId) (result : α) (world : World),
    moment = ⟨context, .done result, .bottom, world⟩

/-- Nothing follows when a run is over. -/
theorem IsOver.no_step (finished : first.IsOver) {deed : Option Deed} :
    ¬ Step routines first deed last := by
  obtain ⟨α, context, result, world, rfl⟩ := finished
  intro now
  cases now

/-- A moment that is reached is the first one or is reached from the one that follows that. -/
theorem Reaches.head_cases (reached : Reaches routines first deeds last) :
    last = first ∨ ∃ deed next later, Step routines first deed next ∧
      Reaches routines next later last := by
  induction reached with
  | refl => exact .inl rfl
  | step before now ih =>
    right
    rcases ih with rfl | ⟨deed, next, later, begins, rest⟩
    · exact ⟨_, _, _, now, .refl⟩
    · exact ⟨deed, next, _, begins, rest.step now⟩

/-- A run that is over once went through every moment that it can reach. -/
theorem Reaches.toEnd (reached : Reaches routines first deeds last)
    (ended : Reaches routines first otherDeeds other) (finished : other.IsOver) :
    ∃ later, Reaches routines last later other := by
  induction reached with
  | refl => exact ⟨_, ended⟩
  | step _ now ih =>
    obtain ⟨later, rest⟩ := ih
    rcases rest.head_cases with rfl | ⟨deed, next, after, begins, onwards⟩
    · exact absurd now finished.no_step
    · obtain ⟨rfl, _⟩ := begins.unique now
      exact ⟨after, onwards⟩

/-- A run is over in one way only. -/
theorem Reaches.over_unique (ended : Reaches routines first deeds last)
    (again : Reaches routines first otherDeeds other) (finished : last.IsOver)
    (overAgain : other.IsOver) : other = last := by
  obtain ⟨later, onwards⟩ := ended.toEnd again overAgain
  rcases onwards.head_cases with same | ⟨deed, next, _, begins, _⟩
  · exact same
  · exact absurd begins finished.no_step

end Moment

end Interchange
