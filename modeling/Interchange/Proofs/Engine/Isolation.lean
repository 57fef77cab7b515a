import Interchange.Proofs.Context.Census
import Interchange.Proofs.Context.Places
import Interchange.Proofs.Engine.Faults
import Interchange.Proofs.Engine.Unnoticed
import Interchange.Proofs.Guests.Scripts

/-!
# Contexts keep to themselves

An evaluation adds contexts and changes none that was there, but for the one that it was asked to
evaluate a unit in; and it does the same, with the same contexts added, whatever the locals and the
sessions of the other contexts are (`Action.Isolated`). So nothing that is bound in one context can
be seen in another one. A new context starts without bindings (`Engine.evaluateBelow_fresh`).

The proof is an induction on how many programs run inside each other. Requests that leave engines
alone overlook the contexts altogether (`Engine.answer_overlooks`); a request that evaluates a
source asks the tree for no more than the places of contexts (`ContextTree.SamePlaces`).
-/
namespace Interchange

namespace Action

variable {α : Type}

/-- What an action does from a world to another one it does whatever contexts there are. -/
def Overlooks (action : Action α) (world : World) (result : α) (after : World) : Prop :=
  ∀ contexts, action (world.withContexts contexts) = some (result, after.withContexts contexts)

/-- What an action does from a world to another one is to add contexts and leave those that are
there as they are, and it does this whatever their locals and sessions are. -/
def Isolated (action : Action α) (world : World) (result : α) (after : World) : Prop :=
  ∃ added, after.engine.contexts = world.engine.contexts.append added ∧
    ∀ other, world.engine.contexts.SamePlaces other →
      action (world.withContexts other) = some (result, after.withContexts (other.append added))

/-- What an action does from a world to another one is to replace a context and to add others, and
it does this whatever the locals and sessions of the other contexts are that were there. -/
def IsolatedBut (context : ContextId) (action : Action α) (world : World) (result : α)
    (after : World) : Prop :=
  ∃ own added, after.engine.contexts = (world.engine.contexts.set context own).append added ∧
    ∀ other, world.engine.contexts.SamePlaces other →
      other.contexts[context.raw]? = world.engine.contexts.contexts[context.raw]? →
      action (world.withContexts other) =
        some (result, after.withContexts ((other.set context own).append added))

/-- What overlooks contexts and leaves them alone is isolated. -/
theorem Overlooks.isolated {action : Action α} {world after : World} {result : α}
    (overlooks : action.Overlooks world result after)
    (contexts : after.engine.contexts = world.engine.contexts) :
    action.Isolated world result after := by
  refine ⟨[], ?_, fun other _ => ?_⟩
  · rw [contexts, ContextTree.append_nil]
  · rw [ContextTree.append_nil]
    exact overlooks other

end Action

variable {reach : Nat → Prop}

/-- A request that leaves engines alone, or one to evaluate a source in a new context. -/
def Request.IsTame (reach : Nat → Prop) (request : Request) : Prop :=
  request.IsQuiet reach ∨ ∃ language path line, request = .eval language path line

/-- Scripts make no other requests. -/
theorem Request.IsScripted.isTame {request : Request} (scripted : request.IsScripted) :
    request.IsTame reach := by
  cases request with
  | eval language path line => exact .inr ⟨language, path, line, rfl⟩
  | _ => first | exact .inl trivial | exact scripted.elim

/-- Running a program that makes tame requests is isolated from the contexts that are there, and
brings no routine into reach. -/
def Runner.Isolates (reach : Nat → Prop) (run : Runner) : Prop :=
  ∀ (α : Type) (context : ContextId) (program : Program α) (world after : World) (result : α),
    program.Asks (Request.IsTame reach) → world.Sealed reach →
    run α context program world = some (result, after) →
    after.Sealed reach ∧ (run α context program).Isolated world result after

/-- The engine with other contexts. -/
def Engine.Change.contexts (contexts : ContextTree) : Engine.Change where
  apply engine := { engine with contexts }
  output _ := rfl
  prints _ _ := rfl

namespace Engine

variable {run : Runner} {routines : Routines} {world after : World} {context caller : ContextId}

/-- A request that leaves engines alone overlooks the contexts and leaves them as they are, also
if routines have to run. -/
theorem answer_overlooks (quiet : routines.AskQuietly reach) {allowance : Nat}
    (sealed : world.Sealed reach) {request : Request} (harmless : request.IsQuiet reach)
    {answer : request.Answer}
    (answered : Engine.answer (Runner.within routines allowance) routines context request world =
      some (answer, after)) :
    after.Sealed reach ∧
      (Engine.answer (Runner.within routines allowance) routines context request).Isolated world
        answer after := by
  have unnoticed contexts := quiet.unnoticed answered harmless sealed (.contexts contexts)
  have unchanged := quiet.unchanged answered harmless sealed
  have overlooks : (Engine.answer (Runner.within routines allowance) routines context
      request).Overlooks world answer after := fun contexts => (unnoticed contexts).2
  exact ⟨(unnoticed world.engine.contexts).1,
    overlooks.isolated (by rw [unchanged])⟩

/-- The reply about a unit in a new context tells of the contexts that are there only by their
places. -/
theorem respondBelow_samePlaces {unit : SourceUnit} {found : Language} {depth : Nat}
    (known : world.engine.languages.get unit.language = .ok found)
    (below : world.engine.contexts.depthBelow (some caller) = .ok depth) {other : ContextTree}
    (same : world.engine.contexts.SamePlaces other) :
    respondBelow caller unit (world.withContexts other) =
      if world.engine.contexts.count < ContextTree.capacity then
        if world.engine.maxDepth < depth then
          .now (.error (.depthExceeded world.engine.maxDepth)) (world.withContexts (other.append
            [(Context.running ⟨world.engine.contexts.count⟩ caller unit.language unit.path
              depth).ended found.session false]))
        else .after ⟨world.engine.contexts.count⟩
          (found.session.evaluate
            ⟨⟨world.engine.contexts.count⟩, unit.language, unit.path⟩ unit.text)
          (world.withContexts (other.add
            (.running ⟨world.engine.contexts.count⟩ caller unit.language unit.path depth)))
          (.naming ⟨world.engine.contexts.count⟩
            (.finishing ⟨world.engine.contexts.count⟩ unit))
      else .now (.error (.depthExceeded world.engine.contexts.count))
        (world.withContexts (other.append [])) := by
  have reply := @respondBelow_of_known (world.withContexts other) caller unit found known depth
    ((same.depthBelow caller).trans below)
  have count : (world.withContexts other).engine.contexts.count = world.engine.contexts.count :=
    same.count
  have ended : ∀ context, (other.add context).finish ⟨world.engine.contexts.count⟩ found.session
      false = other.append [context.ended found.session false] := by
    intro context
    rw [← same.count]
    exact other.finish_append context [] found.session false
  rw [count] at reply
  rw [← ended, ContextTree.append_nil]
  exact reply

/-- Evaluating a unit in a new context that does not lie too deep is running its program, whatever
the bindings of the contexts that are there. -/
theorem evaluateBelow_samePlaces (run : Runner) {unit : SourceUnit} {found : Language} {depth : Nat}
    (known : world.engine.languages.get unit.language = .ok found)
    (below : world.engine.contexts.depthBelow (some caller) = .ok depth)
    (room : world.engine.contexts.count < ContextTree.capacity)
    (shallow : ¬ world.engine.maxDepth < depth) {other : ContextTree}
    (same : world.engine.contexts.SamePlaces other) :
    evaluateBelow run caller unit (world.withContexts other) =
      (run _ ⟨world.engine.contexts.count⟩ (found.session.evaluate
          ⟨⟨world.engine.contexts.count⟩, unit.language, unit.path⟩ unit.text)
        (world.withContexts (other.add
          (.running ⟨world.engine.contexts.count⟩ caller unit.language unit.path depth)))).map
      fun ((session, result), after) =>
        ((result.mapError (.evaluation unit.language unit.path
            ⟨world.engine.contexts.count⟩)).map fun _ => ⟨world.engine.contexts.count⟩,
          after.withContexts
            (after.engine.contexts.finish ⟨world.engine.contexts.count⟩ session result.isOk)) := by
  rw [evaluateBelow_eq, respondBelow_samePlaces known below same, if_pos room, if_neg shallow]
  rfl

/-- A unit that is not evaluated, or not further, with the same contexts added to all trees. -/
theorem evaluateBelow_isolated_of_now (sealed : world.Sealed reach) {unit : SourceUnit}
    {outcome : Except Fault ContextId}
    (evaluated : evaluateBelow run caller unit world = some (outcome, after))
    (answer : Except Fault ContextId) (added : List Context)
    (always : ∀ other, world.engine.contexts.SamePlaces other →
      respondBelow caller unit (world.withContexts other) =
        .now answer (world.withContexts (other.append added))) :
    after.Sealed reach ∧ (evaluateBelow run caller unit).Isolated world outcome after := by
  have here : respondBelow caller unit world =
      .now answer (world.withContexts (world.engine.contexts.append added)) :=
    always _ (.refl _)
  rw [evaluateBelow_eq, here] at evaluated
  obtain ⟨rfl, rfl⟩ := Prod.mk.inj (Option.some.inj evaluated)
  refine ⟨sealed.withContexts _, added, rfl, fun other same => ?_⟩
  rw [evaluateBelow_eq, always other same]
  rfl

/-- A unit that is evaluated in a new context: the contexts that its script adds come after the one
that runs it. -/
theorem evaluateBelow_isolated_of_shallow (isolates : run.Isolates reach)
    (sealed : world.Sealed reach) {unit : SourceUnit} {found : Language} {depth : Nat}
    (known : world.engine.languages.get unit.language = .ok found)
    (below : world.engine.contexts.depthBelow (some caller) = .ok depth)
    (room : world.engine.contexts.count < ContextTree.capacity)
    (shallow : ¬ world.engine.maxDepth < depth) {outcome : Except Fault ContextId}
    (evaluated : evaluateBelow run caller unit world = some (outcome, after)) :
    after.Sealed reach ∧ (evaluateBelow run caller unit).Isolated world outcome after := by
  have here : evaluateBelow run caller unit world = _ :=
    evaluateBelow_samePlaces run known below room shallow (.refl _)
  rw [here] at evaluated
  obtain ⟨⟨⟨session, result⟩, inside⟩, ran, ended⟩ := Option.map_eq_some_iff.1 evaluated
  obtain ⟨rfl, rfl⟩ := Prod.mk.inj ended
  have tame : (found.session.evaluate ⟨⟨world.engine.contexts.count⟩, unit.language, unit.path⟩
      unit.text).Asks (Request.IsTame reach) :=
    (Session.evaluate_asks _ _ _).mono fun _ scripted => scripted.isTame
  obtain ⟨sealedInside, added, contexts, again⟩ :=
    isolates _ _ _ _ _ _ tame (sealed.withContexts _) ran
  have finished : ∀ other : ContextTree, other.count = world.engine.contexts.count →
      ((other.add (.running ⟨world.engine.contexts.count⟩ caller unit.language unit.path
        depth)).append added).finish ⟨world.engine.contexts.count⟩ session result.isOk =
      other.append ((Context.running ⟨world.engine.contexts.count⟩ caller unit.language unit.path
        depth).ended session result.isOk :: added) := by
    intro other count
    rw [ContextTree.add_append, ← count, ContextTree.finish_append]
  refine ⟨sealedInside.withContexts _, (Context.running ⟨world.engine.contexts.count⟩ caller
    unit.language unit.path depth).ended session result.isOk :: added, ?_, fun other same => ?_⟩
  · show inside.engine.contexts.finish _ session result.isOk = _
    rw [contexts]
    exact finished world.engine.contexts rfl
  · rw [evaluateBelow_samePlaces run known below room shallow same]
    refine Option.map_eq_some_iff.2 ⟨_, again _ (same.add _), ?_⟩
    rw [← finished other same.count]
    rfl

/-- Evaluating a unit in a new context is isolated from the contexts that are there. -/
theorem evaluateBelow_isolated (isolates : run.Isolates reach) (sealed : world.Sealed reach)
    {unit : SourceUnit} {outcome : Except Fault ContextId}
    (evaluated : evaluateBelow run caller unit world = some (outcome, after)) :
    after.Sealed reach ∧ (evaluateBelow run caller unit).Isolated world outcome after := by
  cases known : world.engine.languages.get unit.language with
  | error fault =>
    refine evaluateBelow_isolated_of_now sealed evaluated (.error fault) [] fun other _ => ?_
    rw [ContextTree.append_nil]
    have unknown : (world.withContexts other).engine.languages.get unit.language =
        .error fault := known
    exact respondBelow_of_unknown unknown caller
  | ok found =>
    cases below : world.engine.contexts.depthBelow (some caller) with
    | error fault =>
      refine evaluateBelow_isolated_of_now sealed evaluated (.error fault) [] fun other same => ?_
      have nowhere : (world.withContexts other).engine.contexts.depthBelow (some caller) =
          .error fault := (same.depthBelow caller).trans below
      rw [ContextTree.append_nil]
      exact @respondBelow_of_nowhere (world.withContexts other) caller unit found known fault
        nowhere
    | ok depth =>
      have reply (other : ContextTree) (same : world.engine.contexts.SamePlaces other) :=
        respondBelow_samePlaces known below same
      by_cases room : world.engine.contexts.count < ContextTree.capacity
      · by_cases deep : world.engine.maxDepth < depth
        · exact evaluateBelow_isolated_of_now sealed evaluated _ _ fun other same =>
            (reply other same).trans ((if_pos room).trans (if_pos deep))
        · exact evaluateBelow_isolated_of_shallow isolates sealed known below room deep evaluated
      · exact evaluateBelow_isolated_of_now sealed evaluated _ _ fun other same =>
          (reply other same).trans (if_neg room)

/-- Evaluating a source is isolated from the contexts that are there. -/
theorem evalAt_isolated (isolates : run.Isolates reach) (sealed : world.Sealed reach)
    {language path : String} {line : Option Nat} {outcome : Except Fault ContextId}
    (evaluated : evalAt run caller language path line world = some (outcome, after)) :
    after.Sealed reach ∧ (evalAt run caller language path line).Isolated world outcome after := by
  have source : ∀ other, world.engine.contexts.SamePlaces other →
      (world.withContexts other).engine.contexts.sourceOf caller =
        world.engine.contexts.sourceOf caller := fun other same => same.sourceOf caller
  have languages : ∀ other, (world.withContexts other).engine.languages =
      world.engine.languages := fun _ => rfl
  have loader : ∀ other, (world.withContexts other).engine.loader = world.engine.loader :=
    fun _ => rfl
  cases known : world.engine.languages.get language with
  | error fault =>
    simp only [evalAt, known] at evaluated
    obtain ⟨rfl, rfl⟩ := Prod.mk.inj (Option.some.inj evaluated)
    refine ⟨sealed, [], (ContextTree.append_nil _).symm, fun other same => ?_⟩
    simp only [evalAt, languages, known, ContextTree.append_nil]
  | ok found =>
    cases loaded : world.engine.loader.load
        (SourcePath.resolve (world.engine.contexts.sourceOf caller) path) with
    | error fault =>
      simp only [evalAt, known, loaded] at evaluated
      obtain ⟨rfl, rfl⟩ := Prod.mk.inj (Option.some.inj evaluated)
      have noted : ∀ path line contexts, noteMissing caller path line fault
          (world.withContexts contexts) =
            (noteMissing caller path line fault world).withContexts contexts := by
        intro path line contexts
        cases fault <;> rfl
      refine ⟨?_, [], ?_, fun other same => ?_⟩
      · cases fault <;> exact ⟨sealed.registry, sealed.home, sealed.heap⟩
      · rw [ContextTree.append_nil]
        cases fault <;> rfl
      · simp only [evalAt, languages, loader, source other same, known, loaded, noted,
          ContextTree.append_nil]
    | ok text =>
      simp only [evalAt, known, loaded] at evaluated
      obtain ⟨sealedAfter, added, contexts, again⟩ :=
        evaluateBelow_isolated isolates sealed evaluated
      refine ⟨sealedAfter, added, contexts, fun other same => ?_⟩
      simp only [evalAt, languages, loader, source other same, known, loaded]
      exact again other same

/-- An isolated answer to a request, and after it the isolated rest of the program. -/
theorem isolated_ask {α : Type} {answer : (request : Request) → Action request.Answer}
    {request : Request} {next : request.Answer → Program α} {between : World}
    {given : request.Answer} {result : α} (first : (answer request).Isolated world given between)
    (rest : Action.Isolated ((next given).run answer) between result after) :
    Action.Isolated ((Program.ask request next).run answer) world result after := by
  obtain ⟨added, contexts, again⟩ := first
  obtain ⟨later, contextsAfter, againAfter⟩ := rest
  refine ⟨added ++ later, ?_, fun other same => ?_⟩
  · rw [contextsAfter, contexts, ContextTree.append_append]
  · have places : between.engine.contexts.SamePlaces (other.append added) :=
      contexts ▸ same.append added
    have followed := againAfter _ places
    rw [ContextTree.append_append] at followed
    exact Option.bind_eq_some_iff.2 ⟨_, again other same, followed⟩

/-- A tame request is isolated from the contexts that are there, if the programs are that it sets
off. -/
theorem answer_isolated (quiet : routines.AskQuietly reach) {allowance : Nat}
    (inside : (Runner.within routines allowance).Isolates reach) (sealed : world.Sealed reach)
    {request : Request} (tame : request.IsTame reach) {answer : request.Answer}
    (answered : Engine.answer (Runner.within routines allowance) routines context request world =
      some (answer, after)) :
    after.Sealed reach ∧
      (Engine.answer (Runner.within routines allowance) routines context request).Isolated world
        answer after := by
  rcases tame with harmless | ⟨language, path, line, rfl⟩
  · exact answer_overlooks quiet sealed harmless answered
  · exact evalAt_isolated inside sealed answered

/-- However many programs run inside each other, they are isolated from the contexts that were
there. -/
theorem within_isolates (quiet : routines.AskQuietly reach) (allowance : Nat) :
    (Runner.within routines allowance).Isolates reach := by
  induction allowance with
  | zero =>
    intro α context program world after result _ _ ran
    simp [Runner.within] at ran
  | succ allowance inside =>
    intro α context program world after result asks sealed ran
    simp only [Runner.within] at ran
    show _ ∧ Action.Isolated (program.run _) world result after
    induction program generalizing world with
    | done =>
      obtain ⟨rfl, rfl⟩ := Prod.mk.inj (Option.some.inj ran)
      exact ⟨sealed, Action.Overlooks.isolated (fun contexts => rfl) rfl⟩
    | ask request next ih =>
      obtain ⟨⟨answer, between⟩, answered, rest⟩ := Option.bind_eq_some_iff.1 ran
      obtain ⟨sealedBetween, first⟩ := answer_isolated quiet inside sealed asks.1 answered
      obtain ⟨sealedAfter, later⟩ := ih answer between (asks.2 answer) sealedBetween rest
      exact ⟨sealedAfter, isolated_ask first later⟩

/-- Evaluating a unit in a context that has its session is running its program, unless the context
lies too deep. -/
theorem evaluate_of_free (run : Runner) (unit : SourceUnit) {held : Context} {session : Session}
    {contexts : ContextTree} (found : contexts.contexts[context.raw]? = some held)
    (free : held.session = some session) :
    evaluate run context unit (world.withContexts contexts) =
      if world.engine.maxDepth < held.depth then
        some (.error (.depthExceeded world.engine.maxDepth), world.withContexts
          ((contexts.set context (held.begun unit.path)).finish context session false))
      else (run _ context (session.evaluate ⟨context, unit.language, unit.path⟩ unit.text)
          (world.withContexts (contexts.set context (held.begun unit.path)))).map
        fun ((session, result), after) =>
          (result.mapError (.evaluation unit.language unit.path context),
            after.withContexts (after.engine.contexts.finish context session result.isOk)) := by
  have begun := ContextTree.begin_of_free found free unit.path
  have tree : (world.withContexts contexts).engine.contexts = contexts := rfl
  simp only [evaluate, tree, begun]
  rfl

/-- Evaluating a unit in a context that begins none is refused. -/
theorem evaluate_of_error (run : Runner) {unit : SourceUnit} {contexts : ContextTree}
    {fault : Fault} (refused : contexts.begin context unit.path = (.error fault, contexts)) :
    evaluate run context unit (world.withContexts contexts) =
      some (.error fault, world.withContexts contexts) := by
  have tree : (world.withContexts contexts).engine.contexts = contexts := rfl
  simp only [evaluate, tree, refused]
  rfl

/-- A refusal to evaluate a unit that depends on its context alone changes nothing. -/
theorem evaluate_isolated_of_error {unit : SourceUnit} {outcome : Except Fault Unit}
    (evaluated : evaluate run context unit world = some (outcome, after)) (fault : Fault)
    (own : Context) (refused : ∀ other : ContextTree,
      other.contexts[context.raw]? = world.engine.contexts.contexts[context.raw]? →
        other.begin context unit.path = (.error fault, other) ∧ other.set context own = other) :
    (evaluate run context unit).IsolatedBut context world outcome after := by
  obtain ⟨here, kept⟩ := refused _ rfl
  have result : evaluate run context unit world = _ := evaluate_of_error run here
  rw [result] at evaluated
  obtain ⟨rfl, rfl⟩ := Prod.mk.inj (Option.some.inj evaluated)
  refine ⟨own, [], ?_, fun other _ same => ?_⟩
  · rw [ContextTree.append_nil, kept]
    rfl
  · obtain ⟨there, keptThere⟩ := refused other same
    rw [ContextTree.append_nil, keptThere, evaluate_of_error run there]
    rfl

/-- A context that lies too deep ends its unit at once, and that is all that changes. -/
theorem evaluate_isolated_of_deep {unit : SourceUnit} {held : Context} {session : Session}
    (found : world.engine.contexts.contexts[context.raw]? = some held)
    (free : held.session = some session) (deep : world.engine.maxDepth < held.depth)
    {outcome : Except Fault Unit}
    (evaluated : evaluate run context unit world = some (outcome, after)) :
    (evaluate run context unit).IsolatedBut context world outcome after := by
  have there := ContextTree.lt_count found
  have here : evaluate run context unit world = _ := evaluate_of_free run unit found free
  rw [here, if_pos deep] at evaluated
  obtain ⟨rfl, rfl⟩ := Prod.mk.inj (Option.some.inj evaluated)
  have finished : ∀ other : ContextTree, context.raw < other.count →
      (other.set context (held.begun unit.path)).finish context session false =
        (other.set context ((held.begun unit.path).ended session false)).append [] := by
    intro other there
    have ended := ContextTree.finish_set_append there (held.begun unit.path) [] session false
    rwa [ContextTree.append_nil] at ended
  refine ⟨_, [], finished _ there, fun other same own => ?_⟩
  rw [evaluate_of_free run unit (own.trans found) free, if_pos deep,
    finished other (same.count ▸ there)]
  rfl

/-- A context that evaluates a unit is replaced by what it has become, and the contexts that its
script adds come after all that were there. -/
theorem evaluate_isolated_of_shallow (isolates : run.Isolates reach) (sealed : world.Sealed reach)
    {unit : SourceUnit} {held : Context} {session : Session}
    (found : world.engine.contexts.contexts[context.raw]? = some held)
    (free : held.session = some session) (shallow : ¬ world.engine.maxDepth < held.depth)
    {outcome : Except Fault Unit}
    (evaluated : evaluate run context unit world = some (outcome, after)) :
    (evaluate run context unit).IsolatedBut context world outcome after := by
  have there := ContextTree.lt_count found
  have here : evaluate run context unit world = _ := evaluate_of_free run unit found free
  rw [here, if_neg shallow] at evaluated
  obtain ⟨⟨⟨last, result⟩, inside⟩, ran, ended⟩ := Option.map_eq_some_iff.1 evaluated
  obtain ⟨rfl, rfl⟩ := Prod.mk.inj ended
  have tame : (session.evaluate ⟨context, unit.language, unit.path⟩ unit.text).Asks
      (Request.IsTame reach) :=
    (Session.evaluate_asks _ _ _).mono fun _ scripted => scripted.isTame
  obtain ⟨-, added, contexts, again⟩ := isolates _ _ _ _ _ _ tame (sealed.withContexts _) ran
  have finished : ∀ other : ContextTree, context.raw < other.count →
      ((other.set context (held.begun unit.path)).append added).finish context last result.isOk =
        (other.set context ((held.begun unit.path).ended last result.isOk)).append added :=
    fun other there => ContextTree.finish_set_append there _ added last result.isOk
  refine ⟨(held.begun unit.path).ended last result.isOk, added, ?_, fun other same own => ?_⟩
  · show inside.engine.contexts.finish context last result.isOk = _
    rw [contexts]
    exact finished _ there
  · rw [evaluate_of_free run unit (own.trans found) free, if_neg shallow]
    refine Option.map_eq_some_iff.2 ⟨_, again _ (same.set context _), ?_⟩
    rw [← finished other (same.count ▸ there)]
    rfl

/-- Evaluating a unit in a context that is there changes no other one, and is isolated from all
others. -/
theorem evaluate_isolated (isolates : run.Isolates reach) (sealed : world.Sealed reach)
    {unit : SourceUnit} {outcome : Except Fault Unit}
    (evaluated : evaluate run context unit world = some (outcome, after)) :
    (evaluate run context unit).IsolatedBut context world outcome after := by
  cases found : world.engine.contexts.contexts[context.raw]? with
  | none =>
    refine evaluate_isolated_of_error evaluated (.unknownContext context)
      (.running context .host unit.language unit.path 0) fun other same => ?_
    have nowhere := same.trans found
    exact ⟨ContextTree.begin_of_none nowhere _, ContextTree.set_of_none nowhere _⟩
  | some held =>
    cases free : held.session with
    | none =>
      refine evaluate_isolated_of_error evaluated (.contextUnavailable context) held
        fun other same => ?_
      have found := same.trans found
      exact ⟨ContextTree.begin_of_taken found free _, ContextTree.set_self found⟩
    | some session =>
      by_cases deep : world.engine.maxDepth < held.depth
      · exact evaluate_isolated_of_deep found free deep evaluated
      · exact evaluate_isolated_of_shallow isolates sealed found free deep evaluated

/-- Evaluating a unit in a new context is refused, or it is nothing else than evaluating the unit
in the context of the next number, which is there now and has nothing bound in it. -/
theorem evaluateBelow_fresh (run : Runner) (bundled : world.engine.languages.IsBundled)
    (caller : ContextId) (unit : SourceUnit) :
    (∃ fault, evaluateBelow run caller unit world = some (.error fault, world)) ∨
      ∃ fresh session, fresh.locals = [] ∧ fresh.session = some session ∧
        session.localNames = [] ∧
        evaluateBelow run caller unit world =
          (evaluate run ⟨world.engine.contexts.count⟩ unit
            (world.withContexts (world.engine.contexts.add fresh))).map fun (result, after) =>
              (result.map fun _ => ⟨world.engine.contexts.count⟩, after) := by
  rcases createContext_cases (some caller) unit.language world with
    ⟨fault, refused⟩ | ⟨found, child, contexts, known, made, created⟩
  · exact .inl ⟨fault, by rw [evaluateBelow, refused]⟩
  · obtain ⟨fresh, _, rfl, rfl, _, new⟩ := ContextTree.create_cases made
    have unbound : found.session.localNames = [] := by
      rcases bundled unit.language found known with rfl | rfl <;> rfl
    refine .inr ⟨fresh, found.session, new.locals, new.session, unbound, ?_⟩
    simp only [evaluateBelow, created]

end Engine

/-- Contexts keep to themselves when an engine evaluates something, if no routine in reach calls
back into an engine; how such routines fail does not matter. An evaluation for any caller, whether
it succeeds or fails, adds contexts and leaves those that were there as they were; one in a context
that is there replaces that context besides. Both do the very same, with the same contexts added,
whatever is bound in the other contexts that were there, so none of it is read. The same holds of
what is left of a script at any moment, with the contexts that are there by then, those among them
that it has asked for itself. A context that is added for a bundled language starts with nothing
bound in it. -/
theorem contexts_keep_to_themselves (routines : Routines) (reach : Nat → Prop) (allowance : Nat)
    (world : World) (quiet : routines.AskQuietly reach) (sealed : world.Sealed reach)
    (bundled : world.engine.languages.IsBundled) :
    (∀ caller language path line outcome after,
      Engine.evalAt (Runner.within routines allowance) caller language path line world =
        some (outcome, after) →
      (Engine.evalAt (Runner.within routines allowance) caller language path line).Isolated world
        outcome after) ∧
    (∀ context unit outcome after,
      Engine.evaluate (Runner.within routines allowance) context unit world =
        some (outcome, after) →
      (Engine.evaluate (Runner.within routines allowance) context unit).IsolatedBut context world
        outcome after) ∧
    (∀ (α : Type) (context : ContextId) (script : Program α) (result : α) (after : World),
      script.Asks (Request.IsTame reach) →
      Runner.within routines allowance α context script world = some (result, after) →
      (Runner.within routines allowance α context script).Isolated world result after) ∧
    ∀ caller unit,
      (∃ fault, Engine.evaluateBelow (Runner.within routines allowance) caller unit world =
        some (.error fault, world)) ∨
      ∃ fresh session, fresh.locals = [] ∧ fresh.session = some session ∧
        session.localNames = [] ∧
        Engine.evaluateBelow (Runner.within routines allowance) caller unit world =
          (Engine.evaluate (Runner.within routines allowance) ⟨world.engine.contexts.count⟩ unit
            (world.withContexts (world.engine.contexts.add fresh))).map fun (result, after) =>
              (result.map fun _ => ⟨world.engine.contexts.count⟩, after) := by
  have isolates := Engine.within_isolates quiet allowance
  refine ⟨?_, ?_, ?_, fun caller unit => Engine.evaluateBelow_fresh _ bundled caller unit⟩
  · intro caller language path line outcome after evaluated
    exact (Engine.evalAt_isolated isolates sealed evaluated).2
  · intro context unit outcome after evaluated
    exact Engine.evaluate_isolated isolates sealed evaluated
  · intro α context script result after asks ran
    exact (isolates α context script world after result asks sealed ran).2

/-- A world with a context in which a secret is bound, and with a source that asks for it. -/
def World.withSecret : World where
  engine := {
    languages := ({} : Builder).bundledLanguages.languages
    loader := .memory [("peek.lisp", "(print secret)")]
    maxDepth := 64
    contexts := ContextTree.initial.add ((Context.running ⟨1⟩ .host "lisp" "secret.lisp" 1).ended
      (.forms [("secret", .integer (.word 42))]) true) }

/-- A secret is found in its own context and not in a new one, whatever it is. -/
theorem secret_keeps_to_its_context :
    (∃ after, Engine.evalAt (Runner.within (Host.routines []) 4) .host "lisp" "peek.lisp" none
        .withSecret = some (.error (.evaluation "lisp" "peek.lisp" ⟨2⟩
          (.guest "lisp" "Unbound variable: secret")), after) ∧
      (Engine.evalAt (Runner.within (Host.routines []) 4) .host "lisp" "peek.lisp" none).Isolated
        .withSecret (.error (.evaluation "lisp" "peek.lisp" ⟨2⟩
          (.guest "lisp" "Unbound variable: secret"))) after) ∧
    ∃ after, Engine.evaluate (Runner.within (Host.routines []) 4) ⟨1⟩
        ⟨"lisp", "again.lisp", "(print secret)"⟩ .withSecret = some (.ok (), after) ∧
      (Engine.evaluate (Runner.within (Host.routines []) 4) ⟨1⟩
        ⟨"lisp", "again.lisp", "(print secret)"⟩).IsolatedBut ⟨1⟩ .withSecret (.ok ()) after := by
  have peeked : (Engine.evalAt (Runner.within (Host.routines []) 4) .host "lisp" "peek.lisp" none
      .withSecret).map Prod.fst = some (.error (.evaluation "lisp" "peek.lisp" ⟨2⟩
        (.guest "lisp" "Unbound variable: secret"))) := by
    decide +kernel
  have printed : (Engine.evaluate (Runner.within (Host.routines []) 4) ⟨1⟩
      ⟨"lisp", "again.lisp", "(print secret)"⟩ .withSecret).map Prod.fst = some (.ok ()) := by
    decide +kernel
  obtain ⟨⟨_, after⟩, evaluated, rfl⟩ := Option.map_eq_some_iff.1 peeked
  obtain ⟨⟨_, afterwards⟩, again, rfl⟩ := Option.map_eq_some_iff.1 printed
  have quiet : (Host.routines []).AskQuietly fun _ => False := fun _ impossible => impossible.elim
  have sealed : World.withSecret.Sealed fun _ => False := by
    refine ⟨fun _ _ impossible => ?_, fun _ _ impossible => ?_, fun _ _ impossible => ?_⟩
    · simp [World.withSecret, Registry.find?, Fields.find?] at impossible
    · simp [World.withSecret] at impossible
    · simp [World.withSecret] at impossible
  have apart := contexts_keep_to_themselves (Host.routines []) (fun _ => False) 4 .withSecret quiet
    sealed Builder.bundledLanguages_isBundled
  exact ⟨⟨after, evaluated, apart.1 _ _ _ _ _ _ evaluated⟩,
    afterwards, again, apart.2.1 _ _ _ _ again⟩

end Interchange
