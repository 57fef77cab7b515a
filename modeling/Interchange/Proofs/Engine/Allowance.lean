import Interchange.Proofs.Engine.Calls

/-!
# How much scripts need

Where no routine can be run, a request is answered at once or starts a script that lies one deeper
(`Engine.respond_now`). So no more programs are at work inside each other than contexts may lie
below each other, and an allowance of that size is enough (`Engine.exists_complete_below`).
-/
namespace Interchange

/-- No routine. -/
abbrev noRoutine (_ : Nat) : Prop := False

/-- No routine has to come back. -/
theorem Routines.comeBack_noRoutine (routines : Routines) : routines.ComeBack noRoutine :=
  ⟨fun _ impossible => impossible.elim, fun _ impossible => impossible.elim⟩

/-- Scripts in a context of a depth end within an allowance. -/
def Routines.ScriptsFit (routines : Routines) (limit depth allowance : Nat) : Prop :=
  ∀ {α : Type} {fault? : α → Option Fault} {program : Program α} {context : ContextId}
    {world : World} {first : Nat}, program.Heeds (.harmless noRoutine) fault? →
    world.Sealed noRoutine → world.engine.Serves context depth limit first [] →
    ∃ ended, Runner.within routines allowance _ context program world = some ended

section Fitting

variable {routines : Routines} {limit depth allowance first : Nat} {world : World}
  {caller : ContextId}

namespace Engine

/-- Where no routine can be run, a harmless request is answered at once. -/
theorem respond_now (sealed : world.Sealed noRoutine) (routines : Routines) (context : ContextId)
    {request : Request} (quiet : request.IsQuiet noRoutine) :
    ∃ answer after, respond routines context request world = .now answer after := by
  cases request with
  | setField target name value =>
    rw [respond]
    split <;> exact ⟨_, _, rfl⟩
  | call function arguments =>
    rw [respond, respondCall]
    split
    · exact ⟨_, _, rfl⟩
    · rename_i routine callable
      exact (sealed.heap.routine callable).elim
  | importName name line =>
    rw [respond, respondImport]
    split
    · exact ⟨_, _, rfl⟩
    · rename_i binding found
      split
      · exact ⟨_, _, rfl⟩
      · exact ⟨_, _, rfl⟩
      · rename_i routine idle
        exact (sealed.registry.routine found idle).elim
  | eval language path line => exact quiet.elim
  | evaluate context unit => exact quiet.elim
  | evalUnit unit => exact quiet.elim
  | _ => exact ⟨_, _, rfl⟩

/-- A unit is evaluated within an allowance if scripts that lie one deeper fit into it. -/
theorem exists_complete_below
    (deeper : depth < limit → routines.ScriptsFit limit (depth + 1) allowance)
    (sealed : world.Sealed noRoutine) (serves : world.engine.Serves caller depth limit first [])
    (unit : SourceUnit) :
    ∃ ended, (respondBelow caller unit world).complete (Runner.within routines allowance) =
      some ended := by
  cases known : world.engine.languages.get unit.language with
  | error fault =>
    rw [respondBelow_of_unknown known]
    exact ⟨_, rfl⟩
  | ok found =>
    have below : world.engine.contexts.depthBelow (some caller) = .ok (depth + 1) :=
      serves.descends.depthBelow
    rw [respondBelow_of_known known below]
    split
    · split
      · exact ⟨_, rfl⟩
      · rename_i shallow
        have further : depth < limit := serves.limit ▸ Nat.le_of_not_lt shallow
        have heeds := serves.bundled.script_heeds known noRoutine
          ⟨⟨world.engine.contexts.count⟩, unit.language, unit.path⟩ unit.text
        obtain ⟨ended, ran⟩ := deeper further heeds (sealed.withContexts _)
          (serves.inside unit.language unit.path)
        exact ⟨_, by rw [Reply.complete, ran]; rfl⟩
    · exact ⟨_, rfl⟩

/-- A source is evaluated within an allowance if scripts that lie one deeper fit into it. -/
theorem exists_complete_eval
    (deeper : depth < limit → routines.ScriptsFit limit (depth + 1) allowance)
    (sealed : world.Sealed noRoutine) (serves : world.engine.Serves caller depth limit first [])
    (language path : String) (line : Option Nat) :
    ∃ ended, (respondEval caller language path line world).complete
      (Runner.within routines allowance) = some ended := by
  unfold respondEval
  dsimp only
  split
  · exact ⟨_, rfl⟩
  · split
    · exact ⟨_, rfl⟩
    · exact exists_complete_below deeper sealed serves _

end Engine

/-- A program ends if its first request is answered and what is left of it ends after that. -/
theorem Runner.within_ask {α : Type} {context : ContextId} {request : Request}
    {next : request.Answer → Program α} {between : World} {answer : request.Answer}
    (answered : (Engine.respond routines context request world).complete
      (Runner.within routines allowance) = some (answer, between))
    (rest : ∃ ended, Runner.within routines (allowance + 1) _ context (next answer) between =
      some ended) :
    ∃ ended, Runner.within routines (allowance + 1) _ context (.ask request next) world =
      some ended := by
  rw [← Engine.answer_eq] at answered
  obtain ⟨ended, ran⟩ := rest
  exact ⟨ended, Option.bind_eq_some_iff.2 ⟨_, answered, ran⟩⟩

/-- Scripts fit into one more than those need that lie one deeper. -/
theorem Routines.scriptsFit_of_deeper
    (deeper : depth < limit → routines.ScriptsFit limit (depth + 1) allowance) :
    routines.ScriptsFit limit depth (allowance + 1) := by
  intro α fault? program context world first heeds sealed serves
  induction heeds generalizing world with
  | done => exact ⟨_, rfl⟩
  | @ask request next quiet rest ih =>
    obtain ⟨answer, between, now⟩ := Engine.respond_now sealed routines context quiet
    have completed : (Engine.respond routines context request world).complete
        (Runner.within routines allowance) = some (answer, between) := by
      rw [now, Reply.complete]
    obtain ⟨sealedBetween, servesBetween⟩ :=
      Engine.serves_answered routines.comeBack_noRoutine sealed serves (.ask quiet rest) completed
    exact Runner.within_ask completed (ih answer (fun _ _ => trivial) sealedBetween servesBetween)
  | @eval language path line next rest refused ih =>
    obtain ⟨⟨answer, between⟩, completed⟩ :=
      Engine.exists_complete_eval deeper sealed serves language path line
    obtain ⟨sealedBetween, servesBetween⟩ :=
      Engine.serves_answered routines.comeBack_noRoutine sealed serves (.eval rest refused)
        completed
    refine Runner.within_ask completed ?_
    cases answer with
    | ok child => exact ih child sealedBetween servesBetween
    | error fault =>
      obtain ⟨result, ends, _⟩ := refused fault
      rw [ends]
      exact ⟨_, rfl⟩

/-- Scripts fit into an allowance of as many programs as contexts may lie deeper, and one. -/
theorem Routines.scriptsFit (routines : Routines) (enough : limit ≤ depth + allowance) :
    routines.ScriptsFit limit depth (allowance + 1) := by
  induction allowance generalizing depth with
  | zero => exact scriptsFit_of_deeper fun room => by omega
  | succ less ih => exact scriptsFit_of_deeper fun room => ih (by omega)

/-- Every call ends within an allowance of as many programs as contexts may lie below the
caller. -/
theorem Call.exists_carryOut (call : Call) (routines : Routines) (sealed : world.Sealed noRoutine)
    (serves : world.engine.Serves call.caller depth limit first [])
    (enough : limit ≤ depth + allowance) :
    ∃ ended, call.carryOut (Runner.within routines allowance) world = some ended := by
  have deeper (room : depth < limit) : routines.ScriptsFit limit (depth + 1) allowance := by
    obtain ⟨less, rfl⟩ : ∃ less, allowance = less + 1 := ⟨allowance - 1, by omega⟩
    exact routines.scriptsFit (by omega)
  rw [call.carryOut_eq]
  rcases call.reply_cases world with ⟨fault, refused⟩ | ⟨language, path, line, same⟩ | ⟨unit, same⟩
  · rw [refused]
    exact ⟨_, rfl⟩
  · rw [same]
    exact Engine.exists_complete_eval deeper sealed serves language path line
  · rw [same]
    exact Engine.exists_complete_below deeper sealed serves unit

end Fitting

end Interchange
