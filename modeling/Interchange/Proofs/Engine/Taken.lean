import Interchange.Proofs.Context.Census
import Interchange.Proofs.Context.Places
import Interchange.Proofs.Engine.Reply

/-!
# Contexts that have given their session away

While a context has given its session away, nobody can begin another unit in it, so whatever
programs do meanwhile, it stays as it is, and so does the limit on depth (`Runner.within_keeps`).
What happens in the first engine while it takes the place of the one at work is nothing to the
latter.
-/
namespace Interchange

/-- Whether another engine waits, and if so, whether it has a registry of its own. -/
def World.waiting (world : World) : Option Bool := world.home.map fun home => home.registry.isSome

/-- The engine at work has the context in the place of a number. The limit on depth is the one in a
world before, and another engine waits as there. -/
structure Context.StaysAt (held : Context) (context : ContextId) (before world : World) : Prop where
  /-- The context. -/
  found : world.engine.contexts.contexts[context.raw]? = some held
  /-- The limit. -/
  limit : world.engine.maxDepth = before.engine.maxDepth
  /-- The engine that waits. -/
  waits : world.waiting = before.waiting

/-- What is kept at once is kept by a reply, and if another program runs first, that either keeps it
too or is nothing to it. -/
inductive Reply.Keeps (kept : World → Prop) {α : Type} : Reply α → Prop where
  /-- The answer comes at once. -/
  | now {answer : α} {world : World} (keeps : kept world) : Keeps kept (.now answer world)
  /-- A program runs in the same engine. -/
  | inside {β : Type} {context : ContextId} {program : Program β} {opened : World}
      {pending : Pending β α} (keeps : kept opened)
      (concluded : ∀ result after, kept after → kept (pending.conclude result after).2) :
      Keeps kept (.after context program opened pending)
  /-- A program runs while another engine is at work. -/
  | away {β : Type} {context : ContextId} {program : Program β} {opened : World}
      {pending : Pending β α}
      (concluded : ∀ result after, kept (pending.conclude result after).2) :
      Keeps kept (.after context program opened pending)

namespace Reply.Keeps

variable {kept : World → Prop} {α : Type}

/-- Telling of a context keeps what was kept. -/
theorem name {reply : Reply (Except Fault Unit)} (keeps : reply.Keeps kept) (child : ContextId) :
    (reply.name child).Keeps kept := by
  cases keeps with
  | now keeps => exact .now keeps
  | inside keeps concluded => exact .inside keeps concluded
  | away concluded => exact .away concluded

/-- Returning to the engine that was at work keeps what that engine has. -/
theorem back {before : World} (reply : Reply α) (returns : ∀ after, kept (before.backFrom after)) :
    (reply.back before).Keeps kept := by
  cases reply with
  | now answer world => exact .now (returns world)
  | after context program opened pending => exact .away fun _ _ => returns _

/-- If no other engine has given way, there is none to return to. -/
theorem alone {reply : Reply α} (keeps : reply.Keeps kept) {before : World}
    (alone : before.home = none) : (reply.back before).Keeps kept := by
  have same (after : World) : before.backFrom after = after := by
    simp only [World.backFrom, alone]
  cases keeps with
  | now keeps => exact .now (same _ ▸ keeps)
  | inside keeps concluded =>
    refine .inside keeps fun result after inside => ?_
    rw [Pending.conclude, same]
    exact concluded result after inside
  | away concluded =>
    refine .away fun result after => ?_
    rw [Pending.conclude, same]
    exact concluded result after

/-- If running programs keeps it, so does carrying the reply out. -/
theorem complete {reply : Reply α} (keeps : reply.Keeps kept) {run : Runner}
    (runs : ∀ {β : Type} {context : ContextId} {program : Program β} {world after : World}
      {result : β}, kept world → run β context program world = some (result, after) → kept after)
    {answer : α} {after : World} (completed : reply.complete run = some (answer, after)) :
    kept after := by
  cases keeps with
  | now keeps =>
    obtain ⟨rfl, rfl⟩ := Prod.mk.inj (Option.some.inj completed)
    exact keeps
  | @inside _ _ _ _ pending keeps concluded =>
    obtain ⟨⟨result, inside⟩, ran, ended⟩ := Option.map_eq_some_iff.1 completed
    obtain rfl : (pending.conclude result inside).2 = after := congrArg Prod.snd ended
    exact concluded result inside (runs keeps ran)
  | @away _ _ _ _ pending concluded =>
    obtain ⟨⟨result, inside⟩, _, ended⟩ := Option.map_eq_some_iff.1 completed
    obtain rfl : (pending.conclude result inside).2 = after := congrArg Prod.snd ended
    exact concluded result inside

end Reply.Keeps

variable {context : ContextId} {held : Context} {before world : World}

/-- Returning to the engine at work, if another one waits. -/
theorem Context.StaysAt.backFrom {home : Home} (keeps : held.StaysAt context before world)
    (waits : world.home = some home) (after : World) :
    held.StaysAt context before (world.backFrom after) := by
  refine ⟨?_, ?_, ?_⟩
  · simp only [World.backFrom, waits]
    exact keeps.found
  · simp only [World.backFrom, waits]
    exact keeps.limit
  · rw [← keeps.waits]
    simp only [World.backFrom, World.waiting, waits, Option.map_some, Option.isSome_map]

namespace Engine

/-- Other contexts are created beside it. -/
theorem createContext_stays (keeps : held.StaysAt context before world) (parent : Option ContextId)
    (language : String) : held.StaysAt context before (createContext parent language world).2 := by
  rcases createContext_cases parent language world with
    ⟨fault, refused⟩ | ⟨found, child, contexts, _, made, created⟩
  · rw [refused]
    exact keeps
  · obtain ⟨added, _, _, rfl, _, _⟩ := ContextTree.create_cases made
    rw [created]
    have there := ContextTree.lt_count keeps.found
    exact ⟨(ContextTree.contexts_add_of_lt added there).trans keeps.found, keeps.limit, keeps.waits⟩

/-- Units are evaluated in other contexts, and in this one none. -/
theorem respondEvaluate_keeps (keeps : held.StaysAt context before world)
    (taken : held.session = none)
    (target : ContextId) (unit : SourceUnit) :
    (respondEvaluate target unit world).Keeps (held.StaysAt context before) := by
  rcases begun : world.engine.contexts.begin target unit.path with
    ⟨fault | ⟨session, depth⟩, contexts⟩
  · rw [respondEvaluate_of_refused begun]
    exact .now keeps
  · have other : context.raw ≠ target.raw := by
      intro same
      rw [ContextTree.begin_of_taken (same ▸ keeps.found) taken] at begun
      cases (Prod.mk.inj begun).1
    have finished (world : World) (keeps : held.StaysAt context before world) (session : Session)
        (succeeded : Bool) : held.StaysAt context before
          (world.withContexts (world.engine.contexts.finish target session succeeded)) :=
      ⟨(ContextTree.contexts_finish_of_ne session succeeded other).trans keeps.found, keeps.limit,
        keeps.waits⟩
    have opened : held.StaysAt context before (world.withContexts contexts) := by
      obtain ⟨_, _, _, _, rfl⟩ := ContextTree.begin_cases begun
      exact ⟨(ContextTree.contexts_set_of_ne other _).trans keeps.found, keeps.limit, keeps.waits⟩
    simp only [respondEvaluate, begun]
    split
    · exact .now (finished _ opened session false)
    · exact .inside opened fun result after inside => finished after inside result.1 _

/-- Units are evaluated in new contexts. -/
theorem respondBelow_keeps (keeps : held.StaysAt context before world) (taken : held.session = none)
    (parent : ContextId) (unit : SourceUnit) :
    (respondBelow parent unit world).Keeps (held.StaysAt context before) := by
  have created := createContext_stays keeps (some parent) unit.language
  unfold respondBelow
  split
  · rename_i fault after refused
    rw [refused] at created
    exact .now created
  · rename_i child after made
    rw [made] at created
    exact (respondEvaluate_keeps created taken child unit).name child

/-- Sources are evaluated. -/
theorem respondEval_keeps (keeps : held.StaysAt context before world) (taken : held.session = none)
    (caller : ContextId) (language path : String) (line : Option Nat) :
    (respondEval caller language path line world).Keeps (held.StaysAt context before) := by
  unfold respondEval
  dsimp only
  split
  · exact .now keeps
  · split
    · unfold noteMissing
      split
      · exact .now ⟨keeps.found, keeps.limit, keeps.waits⟩
      · exact .now keeps
    · exact respondBelow_keeps keeps taken caller _

/-- Whatever is asked for, the context stays as it is. -/
theorem respond_keeps (routines : Routines) (keeps : held.StaysAt context before world)
    (taken : held.session = none) (asker : ContextId) (request : Request) :
    (respond routines asker request world).Keeps (held.StaysAt context before) := by
  cases request with
  | inspect => exact .now keeps
  | look query => exact .now keeps
  | allocate pairs => exact .now ⟨keeps.found, keeps.limit, keeps.waits⟩
  | setField target name value =>
    simp only [respond]
    split
    · exact .now ⟨keeps.found, keeps.limit, keeps.waits⟩
    · exact .now keeps
  | call function arguments =>
    simp only [respond, respondCall]
    split
    · exact .now keeps
    · cases waits : world.home with
      | none =>
        have same : world.atHome = world := by simp only [World.atHome, waits]
        rw [same]
        exact .inside keeps fun result after inside => by
          simpa only [Pending.conclude, World.backFrom, waits] using inside
      | some home => exact .away fun result after => keeps.backFrom waits _
  | importName name line =>
    simp only [respond, respondImport]
    split
    · exact .now ⟨keeps.found, keeps.limit, keeps.waits⟩
    · split
      · exact .now ⟨keeps.found, keeps.limit, keeps.waits⟩
      · exact .now ⟨keeps.found, keeps.limit, keeps.waits⟩
      · exact .inside ⟨keeps.found, keeps.limit, keeps.waits⟩ fun result after inside =>
          ⟨inside.found, inside.limit, inside.waits⟩
  | exportValue name value line => exact .now ⟨keeps.found, keeps.limit, keeps.waits⟩
  | exportLazy name routine => exact .now ⟨keeps.found, keeps.limit, keeps.waits⟩
  | eval language path line => exact respondEval_keeps keeps taken asker language path line
  | evaluate target unit => exact respondEvaluate_keeps keeps taken target unit
  | evalUnit unit =>
    simp only [respond]
    cases waits : world.home with
    | none =>
      have same : world.atHome = world := by simp only [World.atHome, waits]
      rw [same]
      exact (respondBelow_keeps keeps taken .host unit).alone waits
    | some home => exact Reply.Keeps.back _ fun after => keeps.backFrom waits after
  | print line => exact .now ⟨keeps.found, keeps.limit, keeps.waits⟩
  | tally name => exact .now ⟨keeps.found, keeps.limit, keeps.waits⟩

end Engine

/-- However many programs run inside each other, the context stays as it is. -/
theorem Runner.within_keeps {routines : Routines} (taken : held.session = none) (allowance : Nat)
    {α : Type} {asker : ContextId} {program : Program α} {after : World} {result : α}
    (keeps : held.StaysAt context before world)
    (ran : Runner.within routines allowance α asker program world = some (result, after)) :
    held.StaysAt context before after := by
  induction allowance generalizing α asker program world result after with
  | zero => cases ran
  | succ allowance inside =>
    simp only [Runner.within] at ran
    induction program generalizing world with
    | done result =>
      obtain ⟨rfl, rfl⟩ := Prod.mk.inj (Option.some.inj ran)
      exact keeps
    | ask request next ih =>
      obtain ⟨⟨answer, between⟩, answered, rest⟩ := Option.bind_eq_some_iff.1 ran
      rw [Engine.answer_eq] at answered
      have keeps := Engine.respond_keeps routines keeps taken asker request
      exact ih answer (keeps.complete inside answered) rest

end Interchange
