import Interchange.Proofs.Context.Descent
import Interchange.Proofs.Engine.Faults
import Interchange.Proofs.Engine.Routines

/-!
# How deep scripts go

A call from outside evaluates a source or a unit in a new context below its caller, the script of
that context may ask for the next source, and so on (`Stack.AwaitsScript`). As long as no routine
calls back, the contexts that run under the call lie on one way down from the caller, at every
moment and no deeper than the limit (`Moment.Reaches.isUnderCall`). A script that fails takes all
scripts that wait for it with it (`Stack.AwaitsScript.unwinds`).
-/
namespace Interchange

/-- The guard of scripts that make harmless requests and may be told any fault. -/
def Guard.harmless (reach : Nat → Prop) : Guard where
  may := Request.IsQuiet reach
  binds _ := True
  kind _ := True
  common common := common.isQuiet reach
  exported _ _ _ := trivial
  plain _ := trivial

/-- Scripts of a bundled language make harmless requests. -/
theorem LanguageTable.IsBundled.script_heeds {table : LanguageTable} (bundled : table.IsBundled)
    {id : String} {language : Language} (known : table.get id = .ok language)
    (reach : Nat → Prop) (scope : Scope) (text : String) :
    (language.session.evaluate scope text).Heeds (.harmless reach)
      fun ended => Fault.of? ended.2 :=
  Session.evaluate_heeds (fun _ => trivial) (bundled.session known) scope text

namespace Stack

/-- The contexts of the units under evaluation, the innermost first. -/
def running {α : Type} (stack : Stack α) : List ContextId := stack.units.map Prod.fst

variable (reach : Nat → Prop) (caller : ContextId) {ω : Type} (whole? : ω → Option Fault)

/-- The stack waits for the script of its innermost context, which the script above it has asked
for, and so on up to the program of the caller. Whoever waits goes on as scripts do, or ends at once
with the fault that it is told. What counts as the fault of each end is given. -/
inductive AwaitsScript : {α : Type} → (α → Option Fault) → Stack α → Prop where
  /-- The program of the caller is at work. -/
  | outermost : AwaitsScript whole? bottom
  /-- A script is at work that was asked for. -/
  | script {β : Type} {fault? : β → Option Fault} {child : ContextId} {unit : SourceUnit}
      {next : Except Fault ContextId → Program β} {rest : Stack β}
      (waits : AwaitsScript fault? rest)
      (goesOn : ∀ child, (next (.ok child)).Heeds (.harmless reach) fault?)
      (stops : ∀ fault, ∃ result, next (.error fault) = .done result ∧
        fault? result = some fault) :
      AwaitsScript (fun ended => Fault.of? ended.2)
        (frame (rest.running.headD caller) (.naming child (.finishing child unit)) next rest)

/-- The stack waits for a routine that a script has set off, or another routine. -/
inductive AwaitsRoutine : {α : Type} → Stack α → Prop where
  /-- A script has set it off. -/
  | script {α β γ : Type} {pending : Pending α γ} {fault? : β → Option Fault}
      {next : γ → Program β} {rest : Stack β} (waits : AwaitsScript reach caller whole? fault? rest)
      (idle : pending.unit? = none)
      (goesOn : ∀ answer, (next answer).Heeds (.harmless reach) fault?) :
      AwaitsRoutine (frame (rest.running.headD caller) pending next rest)
  /-- A routine has set it off. -/
  | routine {α β γ : Type} {pending : Pending α γ} {next : γ → Program β} {rest : Stack β}
      (waits : AwaitsRoutine rest) (idle : pending.unit? = none)
      (goesOn : ∀ answer, (next answer).Asks (Request.IsQuiet reach)) :
      AwaitsRoutine (frame .host pending next rest)

end Stack

/-- The program at work is the script of the innermost context or one of the routines that it has
set off. -/
inductive Moment.AtWork (reach : Nat → Prop) (caller : ContextId) {ω : Type}
    (whole? : ω → Option Fault) : Moment → Prop where
  /-- The script of the innermost context. -/
  | script {α : Type} {fault? : α → Option Fault} {program : Program α} {stack : Stack α}
      {world : World} (heeds : program.Heeds (.harmless reach) fault?)
      (waits : stack.AwaitsScript reach caller whole? fault?) :
      AtWork reach caller whole? ⟨stack.running.headD caller, program, stack, world⟩
  /-- A routine, which belongs to the host. -/
  | routine {α : Type} {program : Program α} {stack : Stack α} {world : World}
      (asks : program.Asks (Request.IsQuiet reach))
      (waits : stack.AwaitsRoutine reach caller whole?) :
      AtWork reach caller whole? ⟨.host, program, stack, world⟩

/-- The engine of a call, whose contexts are running one below the other. -/
structure Engine.Serves (caller : ContextId) (depth limit first : Nat) (engine : Engine)
    (running : List ContextId) : Prop where
  /-- The contexts lie on one way down from the caller. -/
  descends : engine.contexts.Descends caller depth first running
  /-- The way does not lead deeper than contexts may lie. -/
  shallow : running ≠ [] → depth + running.length ≤ limit
  /-- The languages are bundled ones. -/
  bundled : engine.languages.IsBundled
  /-- How deep contexts may lie. -/
  limit : engine.maxDepth = limit

section Call

variable {reach : Nat → Prop} {caller : ContextId} {ω : Type} {whole? : ω → Option Fault}
  {depth limit first : Nat} {running : List ContextId}

namespace Engine

/-- An engine like one that serves the call serves it as well. -/
theorem Alike.serves {one other : Engine} (alike : one.Alike other)
    (serves : other.Serves caller depth limit first running) :
    one.Serves caller depth limit first running :=
  ⟨alike.contexts ▸ serves.descends, serves.shallow, alike.languages ▸ serves.bundled,
    alike.maxDepth.trans serves.limit⟩

/-- The innermost context that ends its unit leaves those above it running. -/
theorem Serves.ended {world : World} {id : ContextId}
    (serves : world.engine.Serves caller depth limit first (id :: running)) (session : Session)
    (succeeded : Bool) :
    (world.withContexts (world.engine.contexts.finish id session succeeded)).engine.Serves caller
      depth limit first running := by
  refine ⟨serves.descends.ended session succeeded, fun _ => ?_, serves.bundled, serves.limit⟩
  have deeper := serves.shallow (List.cons_ne_nil _ _)
  rw [List.length_cons] at deeper
  omega

end Engine

/-- While scripts wait for each other, the engine at work is the one of the call. -/
theorem Stack.AwaitsScript.engine_eq {α : Type} {fault? : α → Option Fault} {stack : Stack α}
    (waits : stack.AwaitsScript reach caller whole? fault?) (engine : Engine) :
    stack.engine engine = engine := by
  induction waits with
  | outermost => rfl
  | script _ _ _ ih => exact ih

/-- A moment of a call: scripts and routines are at work as they should be, and the engine of the
call has the contexts of the scripts running. -/
structure Moment.IsUnderCall (reach : Nat → Prop) (caller : ContextId) (depth limit first : Nat)
    {ω : Type} (whole? : ω → Option Fault) (moment : Moment) : Prop where
  /-- The program at work. -/
  atWork : moment.AtWork reach caller whole?
  /-- The engine of the call. -/
  serves : (moment.stack.engine moment.world.engine).Serves caller depth limit first
    moment.stack.running

namespace Moment

variable {routines : Routines} {before after last : Moment} {deed : Option Deed}
  {deeds : List Deed}

/-- A script of the call that has the engine for itself. -/
theorem isUnderCall_script {α : Type} {fault? : α → Option Fault} {program : Program α}
    {stack : Stack α} {world : World} (heeds : program.Heeds (.harmless reach) fault?)
    (waits : stack.AwaitsScript reach caller whole? fault?)
    (serves : world.engine.Serves caller depth limit first stack.running) :
    IsUnderCall reach caller depth limit first whole?
      ⟨stack.running.headD caller, program, stack, world⟩ :=
  ⟨.script heeds waits, (waits.engine_eq world.engine).symm ▸ serves⟩

end Moment

section Asking

variable {β : Type} {fault? : β → Option Fault} {rest : Stack β}
  {next : Except Fault ContextId → Program β} {world : World}

/-- A script that is refused what it asked for ends. -/
theorem Reply.isUnderCall_refused (waits : rest.AwaitsScript reach caller whole? fault?)
    (stops : ∀ fault, ∃ result, next (.error fault) = .done result ∧ fault? result = some fault)
    (serves : world.engine.Serves caller depth limit first rest.running) (fault : Fault) :
    ((Reply.now (.error fault) world).moment (rest.running.headD caller) next rest).IsUnderCall
      reach caller depth limit first whole? := by
  obtain ⟨result, ends, _⟩ := stops fault
  refine Moment.isUnderCall_script ?_ waits serves
  rw [ends]
  exact .done fun _ _ => trivial

/-- A unit that is evaluated below the innermost context is evaluated under the call. -/
theorem Engine.respondBelow_isUnderCall (waits : rest.AwaitsScript reach caller whole? fault?)
    (goesOn : ∀ child, (next (.ok child)).Heeds (.harmless reach) fault?)
    (stops : ∀ fault, ∃ result, next (.error fault) = .done result ∧ fault? result = some fault)
    (serves : world.engine.Serves caller depth limit first rest.running) (unit : SourceUnit) :
    ((respondBelow (rest.running.headD caller) unit world).moment (rest.running.headD caller) next
      rest).IsUnderCall reach caller depth limit first whole? := by
  cases known : world.engine.languages.get unit.language with
  | error fault =>
    rw [respondBelow_of_unknown known]
    exact Reply.isUnderCall_refused waits stops serves fault
  | ok found =>
    have begun := serves.descends.begun unit.language unit.path
    rw [respondBelow_of_known known serves.descends.depthBelow]
    split
    · split
      · apply Reply.isUnderCall_refused waits stops
        exact ⟨begun.ended found.session false, serves.shallow, serves.bundled, serves.limit⟩
      · rename_i shallow
        have inside : (Stack.frame (rest.running.headD caller)
            (.naming ⟨world.engine.contexts.count⟩ (.finishing ⟨world.engine.contexts.count⟩ unit))
            next rest).AwaitsScript reach caller whole? fun ended => Fault.of? ended.2 :=
          .script waits goesOn stops
        have heeds := serves.bundled.script_heeds known reach
          ⟨⟨world.engine.contexts.count⟩, unit.language, unit.path⟩ unit.text
        refine Moment.isUnderCall_script heeds inside ⟨begun, fun _ => ?_, serves.bundled,
          serves.limit⟩
        exact serves.limit ▸ Nat.le_of_not_lt shallow
    · exact Reply.isUnderCall_refused waits stops serves _

/-- A source that the innermost context asks for is evaluated under the call. -/
theorem Engine.respondEval_isUnderCall (waits : rest.AwaitsScript reach caller whole? fault?)
    (goesOn : ∀ child, (next (.ok child)).Heeds (.harmless reach) fault?)
    (stops : ∀ fault, ∃ result, next (.error fault) = .done result ∧ fault? result = some fault)
    (serves : world.engine.Serves caller depth limit first rest.running)
    (language path : String) (line : Option Nat) :
    ((respondEval (rest.running.headD caller) language path line world).moment
      (rest.running.headD caller) next rest).IsUnderCall reach caller depth limit first whole? := by
  unfold respondEval
  dsimp only
  split
  · exact Reply.isUnderCall_refused waits stops serves _
  · split
    · refine Reply.isUnderCall_refused waits stops ?_ _
      unfold noteMissing
      split
      · exact ⟨serves.descends, serves.shallow, serves.bundled, serves.limit⟩
      · exact serves
    · exact respondBelow_isUnderCall waits goesOn stops serves _

end Asking

namespace Moment

variable {routines : Routines}

/-- A harmless request leaves the engine of the call as it is. -/
theorem serves_harmless {α γ : Type} {stack : Stack α} {world : World} {reply : Reply γ}
    (serves : (stack.engine world.engine).Serves caller depth limit first stack.running)
    (harmless : reply.IsHarmless routines reach world) (context : ContextId)
    (next : γ → Program α) :
    ((reply.moment context next stack).stack.engine
      (reply.moment context next stack).world.engine).Serves caller depth limit first
        (reply.moment context next stack).stack.running := by
  cases harmless with
  | now alike => exact (alike.stack stack).serves serves
  | after inReach idle alike =>
    simp only [Reply.moment, Stack.engine, Stack.running, Stack.units, idle]
    exact (alike.stack stack).serves serves

/-- After a harmless request of a script, the script goes on, or a routine comes to work. -/
theorem atWork_script (back : routines.ComeBack reach) {α γ : Type} {fault? : α → Option Fault}
    {stack : Stack α} {world : World} {reply : Reply γ}
    (harmless : reply.IsHarmless routines reach world) {next : γ → Program α}
    (waits : stack.AwaitsScript reach caller whole? fault?)
    (goesOn : ∀ answer, (next answer).Heeds (.harmless reach) fault?) :
    (reply.moment (stack.running.headD caller) next stack).AtWork reach caller whole? := by
  cases harmless with
  | now => exact .script (goesOn _) waits
  | after inReach idle => exact .routine (back.quiet _ inReach _) (.script waits idle goesOn)

/-- After a harmless request of a routine, it goes on, or another one comes to work. -/
theorem atWork_routine (back : routines.ComeBack reach) {α γ : Type} {stack : Stack α}
    {world : World} {reply : Reply γ} (harmless : reply.IsHarmless routines reach world)
    {next : γ → Program α} (waits : stack.AwaitsRoutine reach caller whole?)
    (goesOn : ∀ answer, (next answer).Asks (Request.IsQuiet reach)) :
    (reply.moment .host next stack).AtWork reach caller whole? := by
  cases harmless with
  | now => exact .routine (goesOn _) waits
  | after inReach idle => exact .routine (back.quiet _ inReach _) (.routine waits idle goesOn)

/-- Whatever the program at work asks for, the call goes on in order. -/
theorem IsUnderCall.asked (back : routines.ComeBack reach) {α : Type} {context : ContextId}
    {request : Request} {next : request.Answer → Program α} {stack : Stack α} {world : World}
    (under : IsUnderCall reach caller depth limit first whole?
      ⟨context, .ask request next, stack, world⟩) (sealed : world.Sealed reach) :
    IsUnderCall reach caller depth limit first whole?
      ((Engine.respond routines context request world).moment context next stack) := by
  obtain ⟨atWork, serves⟩ := under
  have harmless (asker : ContextId) (quiet : request.IsQuiet reach) :
      (Engine.respond routines asker request world).IsHarmless routines reach world :=
    Engine.respond_isHarmless sealed asker quiet
  cases atWork with
  | script heeds waits =>
    cases heeds with
    | ask quiet rest =>
      have goesOn (answer : request.Answer) := rest answer fun _ _ => trivial
      exact ⟨atWork_script back (harmless _ quiet) waits goesOn,
        serves_harmless serves (harmless _ quiet) _ next⟩
    | eval rest refused =>
      rw [waits.engine_eq] at serves
      exact Engine.respondEval_isUnderCall waits rest refused serves _ _ _
  | routine asks waits =>
    exact ⟨atWork_routine back (harmless _ asks.1) waits asks.2,
      serves_harmless serves (harmless _ asks.1) _ next⟩

/-- When the program at work has ended, the call goes on in order. -/
theorem IsUnderCall.ended {α β γ : Type} {inner context : ContextId} {result : β}
    {pending : Pending β γ} {next : γ → Program α} {stack : Stack α} {world : World}
    (under : IsUnderCall reach caller depth limit first whole?
      ⟨inner, .done result, .frame context pending next stack, world⟩) :
    IsUnderCall reach caller depth limit first whole?
      ⟨context, next (pending.conclude result world).1, stack,
        (pending.conclude result world).2⟩ := by
  obtain ⟨atWork, serves⟩ := under
  -- A routine gives the engine of the call back as it was.
  have settled (idle : pending.unit? = none) :
      (stack.engine (pending.conclude result world).2.engine).Serves caller depth limit first
        stack.running := by
    simp only [Stack.engine, Stack.running, Stack.units, idle] at serves
    exact ((pending.conclude_alike idle result world).stack stack).serves serves
  cases atWork with
  | script heeds waits =>
    cases waits with
    | script waits goesOn stops =>
      obtain ⟨session, outcome⟩ := result
      have inner : (stack.engine world.engine).Serves caller depth limit first
          (_ :: stack.running) := serves
      rw [waits.engine_eq] at inner
      have left := inner.ended session outcome.isOk
      cases outcome with
      | ok value => exact isUnderCall_script (goesOn _) waits left
      | error fault => exact Reply.isUnderCall_refused waits stops left _
  | routine asks waits =>
    cases waits with
    | script waits idle goesOn => exact ⟨.script (goesOn _) waits, settled idle⟩
    | routine waits idle goesOn => exact ⟨.routine (goesOn _) waits, settled idle⟩

/-- From one moment of a call to the next, the call goes on in order. -/
theorem Step.isUnderCall (back : routines.ComeBack reach) {before after : Moment}
    {deed : Option Deed} (step : Step routines before deed after)
    (sealed : before.world.Sealed reach)
    (under : before.IsUnderCall reach caller depth limit first whole?) :
    after.IsUnderCall reach caller depth limit first whole? := by
  cases step with
  | answered reply =>
    have asked := under.asked back sealed
    rwa [reply] at asked
  | started reply =>
    have asked := under.asked back sealed
    rwa [reply] at asked
  | ended => exact under.ended

/-- At every moment of a call, the call is in order and no other routines can be run. -/
theorem Reaches.isUnderCall (back : routines.ComeBack reach) {start last : Moment}
    {deeds : List Deed} (reached : Reaches routines start deeds last)
    (obeys : start.Obeys reach fun request => request.IsQuiet reach ∨ request.IsScripted)
    (under : start.IsUnderCall reach caller depth limit first whole?) :
    last.IsUnderCall reach caller depth limit first whole? ∧ last.world.Sealed reach := by
  induction reached with
  | refl => exact ⟨under, obeys.sealed⟩
  | step before now ih =>
    have obeysLast := before.obeys back.obey obeys
    have obeysNext := now.obeys back.obey obeysLast
    exact ⟨now.isUnderCall back obeysLast.sealed ih.1, obeysNext.sealed⟩

end Moment

/-- The fault of a script that fails comes up to the program of the caller, with the contexts on the
way added to it. -/
theorem Stack.AwaitsScript.unwinds {α : Type} {fault? : α → Option Fault} {stack : Stack α}
    (waits : stack.AwaitsScript reach caller whole? fault?) (routines : Routines) {result : α}
    {fault : Fault} (failed : fault? result = some fault) (world : World) :
    ∃ deeds last after failure,
      Moment.Reaches routines ⟨stack.running.headD caller, .done result, stack, world⟩ deeds
        ⟨caller, .done last, .bottom, after⟩ ∧
      whole? last = some failure ∧ failure.root = fault.root := by
  induction waits generalizing fault world with
  | outermost => exact ⟨[], result, world, fault, .refl, failed, rfl⟩
  | @script β faultAbove? child unit next rest waits goesOn stops ih =>
    obtain ⟨session, outcome⟩ := result
    obtain rfl : outcome = .error fault := by
      cases outcome with
      | ok value => simp [Fault.of?] at failed
      | error cause => exact congrArg Except.error (Option.some.inj failed)
    obtain ⟨result, ends, told⟩ := stops (.evaluation unit.language unit.path child fault)
    obtain ⟨deeds, last, after, failure, reached, same, root⟩ := ih told
      (world.withContexts (world.engine.contexts.finish child session false))
    have ended : Moment.Step routines
        ⟨child, .done (session, .error fault),
          .frame (rest.running.headD caller) (.naming child (.finishing child unit)) next rest,
          world⟩ none ⟨rest.running.headD caller, .done result, rest,
            world.withContexts (world.engine.contexts.finish child session false)⟩ := by
      rw [← ends]
      exact .ended
    exact ⟨_, last, after, failure, (Moment.Reaches.single ended).trans reached, same, root⟩

end Call

end Interchange
