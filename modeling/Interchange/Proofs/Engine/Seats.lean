import Interchange.Proofs.Engine.Alone

/-!
# Who is at work while a context has given its session away

A program that another one waits for acts for the host or in the context of the unit that it
evaluates (`Moment.Step.seats`). A context that has given its session away begins no unit
(`Census.Step.outside`), so nobody else acts for it while the program that has the session waits
(`Moment.context_ne_of_outside`).
-/
namespace Interchange

/-- A context has given its session away, but not for one of the units. -/
structure Census.Outside (census : Census) (id : ContextId) : Prop where
  /-- It has no session to begin a unit with. -/
  taken : ∃ context, census.tree.contexts[id.raw]? = some context ∧ context.session = none
  /-- None of the units is evaluated in it. -/
  apart : ∀ unit, (id, unit) ∉ census.units

/-- Whatever happens to other contexts, such a context stays aside. -/
theorem Census.Step.outside {before next : Census} {id : ContextId} (step : Step before next)
    (outside : before.Outside id) : next.Outside id := by
  obtain ⟨⟨context, found, taken⟩, apart⟩ := outside
  cases step with
  | created units made =>
    obtain ⟨added, _, _, rfl, _, _⟩ := ContextTree.create_cases made
    have there := ContextTree.lt_count found
    exact ⟨⟨context, (ContextTree.contexts_add_of_lt added there).trans found, taken⟩, apart⟩
  | @begun tree after other session depth unit units began =>
    obtain ⟨entry, held, own, _, rfl⟩ := ContextTree.begin_cases began
    -- A context that begins a unit has a session to give to it.
    have different : id.raw ≠ other.raw := by
      intro same
      rw [← same, found] at held
      rw [Option.some.inj held, own] at taken
      cases taken
    refine ⟨⟨context, (ContextTree.contexts_set_of_ne different _).trans found, taken⟩, ?_⟩
    intro unit mem
    rcases List.mem_cons.1 mem with same | later
    · exact different (congrArg ContextId.raw (Prod.mk.inj same).1)
    · exact apart unit later
  | ended tree other unit units session succeeded =>
    -- The unit that ends is one of those that are evaluated.
    have different : id.raw ≠ other.raw := by
      intro same
      have named : id = other := congrArg ContextId.mk same
      exact apart unit (named ▸ List.mem_cons_self)
    refine ⟨⟨context, (ContextTree.contexts_finish_of_ne session succeeded different).trans found,
      taken⟩, fun unit mem => apart unit (List.mem_cons_of_mem _ mem)⟩

/-- Whatever happens to other contexts, one thing after the other. -/
theorem Census.Reaches.outside {before last : Census} {id : ContextId}
    (reached : Reaches before last) (outside : before.Outside id) : last.Outside id := by
  induction reached with
  | refl => exact outside
  | step _ now ih => exact now.outside ih

/-- The program that a reply starts acts for the host or in the context of the unit that it
evaluates. -/
def Reply.Seats {α : Type} : Reply α → Prop
  | now .. => True
  | after inner _ _ pending => inner = .host ∨ ∃ unit, pending.unit? = some (inner, unit)

/-- Every program that another one waits for acts for the host or in the context of the unit that it
evaluates. -/
def Stack.Seats {α : Type} (inner : ContextId) : Stack α → Prop
  | bottom => True
  | frame context pending _ rest =>
    (inner = .host ∨ ∃ unit, pending.unit? = some (inner, unit)) ∧ rest.Seats context

namespace Engine

variable {world : World}

/-- Naming the context is nothing to the program. -/
theorem seats_name {reply : Reply (Except Fault Unit)} (seats : reply.Seats) (child : ContextId) :
    (reply.name child).Seats := by
  cases reply with
  | now answer after => trivial
  | after context program opened pending => exact seats

/-- Nor is returning to the engine at work before. -/
theorem seats_back {α : Type} {reply : Reply α} (seats : reply.Seats) (world : World) :
    (reply.back world).Seats := by
  cases reply with
  | now answer after => trivial
  | after context program opened pending => exact seats

/-- A unit is evaluated in its context. -/
theorem respondEvaluate_seats (context : ContextId) (unit : SourceUnit) (world : World) :
    (respondEvaluate context unit world).Seats := by
  unfold respondEvaluate
  split
  · trivial
  · split
    · trivial
    · exact .inr ⟨unit, rfl⟩

/-- Also if that is a new one. -/
theorem respondBelow_seats (caller : ContextId) (unit : SourceUnit) (world : World) :
    (respondBelow caller unit world).Seats := by
  unfold respondBelow
  split
  · trivial
  · exact seats_name (respondEvaluate_seats _ unit _) _

/-- What a request starts acts for the host or in the context of a unit. -/
theorem respond_seats (routines : Routines) (context : ContextId) (request : Request)
    (world : World) : (respond routines context request world).Seats := by
  cases request with
  | setField target name value =>
    simp only [respond]
    split <;> trivial
  | call function arguments =>
    simp only [respond, respondCall]
    split
    · trivial
    · exact .inl rfl
  | importName name line =>
    simp only [respond, respondImport]
    split
    · trivial
    · split
      · trivial
      · trivial
      · exact .inl rfl
  | eval language path line =>
    simp only [respond, respondEval]
    split
    · trivial
    · split
      · trivial
      · exact respondBelow_seats context _ world
  | evaluate target unit => exact respondEvaluate_seats target unit world
  | evalUnit unit => exact seats_back (respondBelow_seats .host unit world.atHome) world
  | _ => trivial

end Engine

namespace Moment

variable {routines : Routines}

/-- From each moment to the next every program keeps its seat. -/
theorem Step.seats {before after : Moment} {deed : Option Deed}
    (step : Step routines before deed after) (seats : before.stack.Seats before.context) :
    after.stack.Seats after.context := by
  cases step with
  | answered reply => exact seats
  | @started α β context inner request next stack world opened program pending reply =>
    have started := Engine.respond_seats routines context request world
    rw [reply] at started
    exact ⟨started, seats⟩
  | ended => exact seats.2

/-- While programs wait, no program is at work in a context that stays aside. -/
theorem context_ne_of_outside {moment : Moment} {id : ContextId}
    (seats : moment.stack.Seats moment.context) (waiting : ¬ moment.stack.IsBottom)
    (guest : id ≠ .host) (outside : moment.census.Outside id) : moment.context ≠ id := by
  obtain ⟨context, program, stack, world⟩ := moment
  rintro rfl
  cases stack with
  | bottom => exact waiting trivial
  | frame caller pending next rest =>
    rcases seats.1 with host | ⟨unit, evaluated⟩
    · exact guest host
    · refine outside.apart unit (List.mem_append_left _ ?_)
      rw [evaluated]
      exact List.mem_cons_self

end Moment

end Interchange
