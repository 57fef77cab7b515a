import Interchange.Proofs.Engine.Asking

/-!
# Runs in worlds that are alike

Two worlds can be alike in that programs do not see the difference between them. What has to be
shown for that is said of single replies (`Likeness.Holds`): in worlds that are alike a request is
answered in the same way, or the same program is started, and when that has ended the worlds are
alike again. Then whole runs come to the same results in worlds that are alike again
(`Likeness.Holds.within`). There can be several ways to be alike, since another engine is at work
while a function runs; what differs may be out of sight then.
-/
namespace Interchange

/-- Ways for two worlds to be alike, and what programs may ask for in such worlds. -/
structure Likeness where
  /-- The ways. -/
  Way : Type
  /-- Whether worlds are alike in a way. -/
  like : Way → World → World → Prop
  /-- What the programs of a context may ask for. -/
  may : Way → ContextId → Request → Prop

namespace Likeness

variable {α β : Type} (likeness : Likeness)

/-- Neither comes to an end, or both do so with results that agree, in worlds that are alike. -/
def Ends (way : likeness.Way) (agree : α → β → Prop) :
    Option (α × World) → Option (β × World) → Prop :=
  Option.Rel fun one other => agree one.1 other.1 ∧ likeness.like way one.2 other.2

end Likeness

variable {likeness : Likeness} {way inner : likeness.Way} {α : Type}

namespace Likeness.Ends

variable {β γ δ : Type} {agree : α → β → Prop} {agreeAfter : γ → δ → Prop}
  {one : Option (α × World)} {other : Option (β × World)}

/-- Going on after ends that are alike. -/
theorem bind {next : α × World → Option (γ × World)} {follow : β × World → Option (δ × World)}
    (ends : likeness.Ends inner agree one other)
    (goesOn : ∀ result twin after behind, agree result twin → likeness.like inner after behind →
      likeness.Ends way agreeAfter (next (result, after)) (follow (twin, behind))) :
    likeness.Ends way agreeAfter (one.bind next) (other.bind follow) := by
  cases ends with
  | none => exact .none
  | some alike => exact goesOn _ _ _ _ alike.1 alike.2

/-- Concluding so that the conclusions are related. -/
theorem rel_map {conclude : α × World → γ} {follow : β × World → δ}
    (ends : likeness.Ends way agree one other)
    (concluded : ∀ result twin after behind, agree result twin → likeness.like way after behind →
      agreeAfter (conclude (result, after)) (follow (twin, behind))) :
    Option.Rel agreeAfter (one.map conclude) (other.map follow) := by
  cases ends with
  | none => exact .none
  | some alike => exact .some (concluded _ _ _ _ alike.1 alike.2)

/-- Concluding after ends that are alike. -/
theorem map {conclude : α × World → γ × World} {follow : β × World → δ × World}
    (ends : likeness.Ends inner agree one other)
    (concluded : ∀ result twin after behind, agree result twin →
      likeness.like inner after behind →
      agreeAfter (conclude (result, after)).1 (follow (twin, behind)).1 ∧
      likeness.like way (conclude (result, after)).2 (follow (twin, behind)).2) :
    likeness.Ends way agreeAfter (one.map conclude) (other.map follow) :=
  ends.rel_map concluded

/-- Where one comes to an end, so does the other. -/
theorem of_some {result : α} {after : World}
    (ends : likeness.Ends way agree (some (result, after)) other) :
    ∃ twin behind, other = some (twin, behind) ∧ agree result twin ∧
      likeness.like way after behind := by
  cases ends with
  | @some _ ended alike => exact ⟨ended.1, ended.2, rfl, alike⟩

end Likeness.Ends

/-- The replies are the same but for worlds that are alike. -/
inductive Reply.Like (likeness : Likeness) (way : likeness.Way) {α : Type} :
    Reply α → Reply α → Prop where
  /-- Both answer at once. -/
  | now {answer : α} {one other : World} (like : likeness.like way one other) :
      Like likeness way (.now answer one) (.now answer other)
  /-- Both start the same program. The worlds may be alike in another way while it runs. -/
  | after {β : Type} {context : ContextId} {program : Program β} {one other : World}
      {pending rest : Pending β α} (inner : likeness.Way) (like : likeness.like inner one other)
      (asks : program.Asks (likeness.may inner context))
      (concluded : ∀ result one other, likeness.like inner one other →
        (pending.conclude result one).1 = (rest.conclude result other).1 ∧
        likeness.like way (pending.conclude result one).2 (rest.conclude result other).2) :
      Like likeness way (.after context program one pending) (.after context program other rest)

namespace Reply.Like

/-- Telling of the same context. -/
theorem name {reply twin : Reply (Except Fault Unit)} (like : reply.Like likeness way twin)
    (child : ContextId) : (reply.name child).Like likeness way (twin.name child) := by
  cases like with
  | now like => exact .now like
  | after inner like asks concluded =>
    refine .after inner like asks fun result one other like => ?_
    obtain ⟨same, alike⟩ := concluded result one other like
    exact ⟨congrArg (Except.map fun _ => child) same, alike⟩

/-- Returning to engines that are alike. -/
theorem back {reply twin : Reply α} (like : reply.Like likeness inner twin) {before behind : World}
    (returns : ∀ one other, likeness.like inner one other →
      likeness.like way (before.backFrom one) (behind.backFrom other)) :
    (reply.back before).Like likeness way (twin.back behind) := by
  cases like with
  | now like => exact .now (returns _ _ like)
  | after further like asks concluded =>
    refine .after further like asks fun result one other like => ?_
    obtain ⟨same, alike⟩ := concluded result one other like
    exact ⟨same, returns _ _ alike⟩

/-- Replies that are alike are carried out alike if running programs is alike. -/
theorem complete {run : Runner}
    (runs : ∀ {β : Type} {way : likeness.Way} {context : ContextId} {program : Program β}
      {one other : World}, program.Asks (likeness.may way context) → likeness.like way one other →
        likeness.Ends way Eq (run β context program one) (run β context program other))
    {reply twin : Reply α} (like : reply.Like likeness way twin) :
    likeness.Ends way Eq (reply.complete run) (twin.complete run) := by
  cases like with
  | now like => exact .some ⟨rfl, like⟩
  | after inner like asks concluded =>
    refine (runs asks like).map fun result twin after behind same like => ?_
    obtain rfl := same
    exact concluded result after behind like

end Reply.Like

/-- Whatever programs may ask for, the replies in worlds that are alike are alike. -/
def Likeness.Holds (likeness : Likeness) (routines : Routines) : Prop :=
  ∀ (way : likeness.Way) (context : ContextId) (request : Request) (one other : World),
    likeness.may way context request → likeness.like way one other →
    (Engine.respond routines context request one).Like likeness way
      (Engine.respond routines context request other)

/-- However many programs run inside each other, runs in worlds that are alike are alike. -/
theorem Likeness.Holds.within {routines : Routines} (holds : likeness.Holds routines)
    (allowance : Nat) {context : ContextId} {program : Program α} {one other : World}
    (asks : program.Asks (likeness.may way context)) (like : likeness.like way one other) :
    likeness.Ends way Eq (Runner.within routines allowance α context program one)
      (Runner.within routines allowance α context program other) := by
  induction allowance generalizing α way context program one other with
  | zero => exact .none
  | succ allowance inside =>
    simp only [Runner.within]
    induction program generalizing one other with
    | done result => exact .some ⟨rfl, like⟩
    | ask request next ih =>
      have answered : likeness.Ends way Eq
          (Engine.answer (Runner.within routines allowance) routines context request one)
          (Engine.answer (Runner.within routines allowance) routines context request other) := by
        rw [Engine.answer_eq, Engine.answer_eq]
        exact (holds way context request one other asks.1 like).complete inside
      refine answered.bind fun answer twin after behind same like => ?_
      obtain rfl := same
      exact ih answer (asks.2 answer) like

/-- However many programs run inside each other, replies that are alike are carried out alike. -/
theorem Likeness.Holds.complete {routines : Routines} (holds : likeness.Holds routines)
    (allowance : Nat) {reply twin : Reply α} (like : reply.Like likeness way twin) :
    likeness.Ends way Eq (reply.complete (Runner.within routines allowance))
      (twin.complete (Runner.within routines allowance)) :=
  like.complete fun asks alike => holds.within allowance asks alike

end Interchange
