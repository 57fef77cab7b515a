import Interchange.Proofs.Engine.Seats
import Interchange.Proofs.Registry.Operations

/-!
# What requests leave in the journal

The journal and the list of missing sources only grow, and what a request adds to them is known
when it is made (`Request.events`, `Request.missing`): a look-up and an export add one event each, a
source that cannot be loaded is added to the missing ones, and nothing else leaves a note, nor does
the end of a program (`Engine.respond_notes`, `Moment.Step.notes`). Notes are taken for the context
of the program that makes the request, and while a context has given its session to a program, by no
other one (`Moment.Reaches.notes`).
-/
namespace Interchange

/-- The context whose program did what is recorded. -/
def Event.context : Event → ContextId
  | exported _ context _ _ _ => context
  | imported _ context _ _ => context

/-- The line that was told with what is recorded. -/
def Event.line? : Event → Option Nat
  | exported _ _ _ _ line => line
  | imported _ _ _ line => line

/-- The events that a request of a context adds to a journal. -/
def Request.events (request : Request) (context : ContextId) (world : World) : List Event :=
  match request with
  | importName name line => [.imported name context (world.registry.contains name) line]
  | exportValue name _ line =>
    [.exported name context (world.registry.originOf name) false line]
  | exportLazy name _ => [.exported name context (world.registry.originOf name) true none]
  | _ => []

/-- The sources that are missing when a context makes a request. -/
def Request.missing (request : Request) (context : ContextId) (world : World) :
    List MissingSource :=
  match request with
  | eval language path line =>
    match world.engine.languages.get language, world.engine.loader.load
        (SourcePath.resolve (world.engine.contexts.sourceOf context) path) with
    | .ok _, .error _ =>
      [⟨context, SourcePath.resolve (world.engine.contexts.sourceOf context) path, line⟩]
    | _, _ => []
  | _ => []

/-- Nothing is about to be noted. -/
def Request.LeavesNoNote (request : Request) (context : ContextId) (world : World) : Prop :=
  request.events context world = [] ∧ request.missing context world = []

namespace World

variable {before middle after : World} {events more : List Event}
  {sources others : List MissingSource}

/-- Between two worlds the registry at work has noted events, if it keeps a journal, and the engine
at work has noted missing sources. -/
structure Notes (before after : World) (events : List Event) (sources : List MissingSource) :
    Prop where
  /-- The journal has grown by the events. -/
  journal : after.registry.journal = before.registry.journal.map (· ++ events)
  /-- The list of missing sources has grown by the sources. -/
  missing : after.engine.missing = before.engine.missing ++ sources

/-- Nothing was noted. -/
theorem notes_nothing (journal : after.registry.journal = before.registry.journal)
    (missing : after.engine.missing = before.engine.missing) : before.Notes after [] [] := by
  refine ⟨?_, missing.trans (List.append_nil _).symm⟩
  rw [journal]
  cases before.registry.journal with
  | none => rfl
  | some noted => exact congrArg some (List.append_nil noted).symm

/-- What was noted later was added later. -/
theorem Notes.trans (first : before.Notes middle events sources)
    (second : middle.Notes after more others) :
    before.Notes after (events ++ more) (sources ++ others) := by
  constructor
  · rw [second.journal, first.journal, Option.map_map]
    exact congrArg (Option.map · _) (funext fun noted => List.append_assoc noted events more)
  · rw [second.missing, first.missing, List.append_assoc]

/-- Whatever the first engine does without noting anything, nothing has been noted by the one at
work before. -/
theorem Notes.backFrom (notes : before.atHome.Notes after [] []) :
    before.Notes (before.backFrom after) [] [] := by
  obtain ⟨journal, missing⟩ := notes
  unfold World.backFrom
  unfold World.atHome at journal missing
  cases waits : before.home with
  | none =>
    rw [waits] at journal missing
    exact ⟨journal, missing⟩
  | some home =>
    rw [waits] at journal
    dsimp only at journal ⊢
    refine ⟨?_, (List.append_nil _).symm⟩
    -- Without a registry of its own the first engine notes in the one at work.
    cases own : home.registry with
    | none =>
      rw [own] at journal
      exact journal
    | some registry => exact (notes_nothing rfl rfl : before.Notes before [] []).journal

end World

/-- A source that is not loaded is not there. -/
theorem Loader.load_error {loader : Loader} {path : String} {fault : Fault}
    (failed : loader.load path = .error fault) :
    ∃ place cause, fault = .sourceNotFound place cause := by
  unfold load at failed
  split at failed
  · rename_i texts
    cases found : Fields.find? ((memory texts).fullPath path) texts with
    | none =>
      rw [found] at failed
      exact ⟨_, _, (Except.error.inj failed).symm⟩
    | some text =>
      rw [found] at failed
      cases failed
  · rename_i disk root
    cases read : disk.read ((files disk root).fullPath path) with
    | ok text =>
      rw [read] at failed
      cases failed
    | error cause =>
      rw [read] at failed
      exact ⟨_, _, (Except.error.inj failed).symm⟩

namespace Engine

variable {world : World} {α : Type} {events : List Event} {sources : List MissingSource}

/-- What is noted before a reply, or before the program that it waits for. -/
def Noted (base : World) (events : List Event) (sources : List MissingSource) : Reply α → Prop
  | .now _ after => base.Notes after events sources
  | .after _ _ opened _ => base.Notes opened events sources

/-- Naming the context leaves no note. -/
theorem Noted.name {reply : Reply (Except Fault Unit)} (noted : Noted world events sources reply)
    (child : ContextId) : Noted world events sources (reply.name child) := by
  cases reply with
  | now answer after => exact noted
  | after context program opened pending => exact noted

/-- What was noted before a reply is noted with it where nothing was noted on the way to it. -/
theorem Noted.after {base : World} {reply : Reply α} (before : base.Notes world [] [])
    (noted : Noted world events sources reply) : Noted base events sources reply := by
  cases reply with
  | now answer after => exact before.trans noted
  | after context program opened pending => exact before.trans noted

/-- A unit begins without a note. -/
theorem respondEvaluate_notes (context : ContextId) (unit : SourceUnit) (world : World) :
    Noted world [] [] (respondEvaluate context unit world) := by
  unfold respondEvaluate
  split
  · exact World.notes_nothing rfl rfl
  · split
    · exact World.notes_nothing rfl rfl
    · exact World.notes_nothing rfl rfl

/-- So it does in a new context. -/
theorem respondBelow_notes (caller : ContextId) (unit : SourceUnit) (world : World) :
    Noted world [] [] (respondBelow caller unit world) := by
  rcases createContext_cases (some caller) unit.language world with
    ⟨fault, refused⟩ | ⟨found, child, contexts, _, _, created⟩
  · simp only [respondBelow, refused]
    exact World.notes_nothing rfl rfl
  · simp only [respondBelow, created]
    have nothing : world.Notes (world.withContexts contexts) [] [] := World.notes_nothing rfl rfl
    have begun := respondEvaluate_notes child unit (world.withContexts contexts)
    exact (begun.after nothing).name child

/-- A source that cannot be loaded is missing. -/
theorem respondEval_notes (caller : ContextId) (language path : String) (line : Option Nat)
    (world : World) :
    Noted world [] (Request.missing (.eval language path line) caller world)
      (respondEval caller language path line world) := by
  cases known : world.engine.languages.get language with
  | error fault =>
    simp only [respondEval, Request.missing, known]
    exact World.notes_nothing rfl rfl
  | ok found =>
    cases loaded : world.engine.loader.load
        (SourcePath.resolve (world.engine.contexts.sourceOf caller) path) with
    | ok text =>
      simp only [respondEval, Request.missing, known, loaded]
      exact respondBelow_notes caller _ world
    | error fault =>
      obtain ⟨place, cause, rfl⟩ := Loader.load_error loaded
      simp only [respondEval, Request.missing, known, loaded]
      exact ⟨(World.notes_nothing rfl rfl : world.Notes world [] []).journal, rfl⟩

/-- A look-up is one event. -/
theorem respondImport_notes (routines : Routines) (context : ContextId) (name : String)
    (line : Option Nat) (world : World) :
    Noted world [.imported name context (world.registry.contains name) line] []
      (respondImport routines context name line world) := by
  have noted {registry : Registry}
      (same : registry.journal = (world.registry.lookUp name context line).2.journal) :
      world.Notes { world with registry }
        [.imported name context (world.registry.contains name) line] [] :=
    ⟨same.trans (Registry.journal_lookUp world.registry name context line),
      (List.append_nil _).symm⟩
  unfold respondImport
  dsimp only
  split
  · exact noted rfl
  · split
    · exact noted rfl
    · exact noted rfl
    · exact noted (Registry.journal_replace ..)

/-- What a request leaves in the journal and among the missing sources is known when it is made. For
a function of the host, and for what is evaluated for the host, the first engine goes to work, and
that leaves no note. -/
theorem respond_notes (routines : Routines) (context : ContextId) (request : Request)
    (world : World) :
    ∃ base, (base = world ∨ base = world.atHome ∧ request.LeavesNoNote context world) ∧
      Noted base (request.events context world) (request.missing context world)
        (respond routines context request world) := by
  have nothing : world.Notes world [] [] := World.notes_nothing rfl rfl
  cases request with
  | inspect => exact ⟨world, .inl rfl, nothing⟩
  | look query => exact ⟨world, .inl rfl, nothing⟩
  | allocate pairs => exact ⟨world, .inl rfl, World.notes_nothing rfl rfl⟩
  | setField target name value =>
    refine ⟨world, .inl rfl, ?_⟩
    simp only [respond]
    split <;> exact World.notes_nothing rfl rfl
  | call function arguments =>
    simp only [respond, respondCall]
    split
    · exact ⟨world, .inl rfl, nothing⟩
    · exact ⟨world.atHome, .inr ⟨rfl, rfl, rfl⟩, World.notes_nothing rfl rfl⟩
  | importName name line =>
    exact ⟨world, .inl rfl, respondImport_notes routines context name line world⟩
  | exportValue name value line =>
    exact ⟨world, .inl rfl, Registry.journal_bind world.registry name (.ready value) context line,
      (List.append_nil _).symm⟩
  | exportLazy name routine =>
    exact ⟨world, .inl rfl, Registry.journal_bind world.registry name (.deferred routine) context
      none, (List.append_nil _).symm⟩
  | eval language path line =>
    exact ⟨world, .inl rfl, respondEval_notes context language path line world⟩
  | evaluate target unit => exact ⟨world, .inl rfl, respondEvaluate_notes target unit world⟩
  | evalUnit unit =>
    have noted := respondBelow_notes .host unit world.atHome
    rw [respond]
    cases replied : respondBelow .host unit world.atHome with
    | now answer after =>
      rw [replied] at noted
      exact ⟨world, .inl rfl, World.Notes.backFrom noted⟩
    | after inner program opened pending =>
      rw [replied] at noted
      exact ⟨world.atHome, .inr ⟨rfl, rfl, rfl⟩, noted⟩
  | print line => exact ⟨world, .inl rfl, World.notes_nothing rfl rfl⟩
  | tally name => exact ⟨world, .inl rfl, World.notes_nothing rfl rfl⟩

end Engine

/-- Events are noted for the context that makes the request. -/
theorem Request.context_of_mem_events {request : Request} {context : ContextId} {world : World}
    {event : Event} (mem : event ∈ request.events context world) : event.context = context := by
  cases request with
  | importName name line => exact List.mem_singleton.1 mem ▸ rfl
  | exportValue name value line => exact List.mem_singleton.1 mem ▸ rfl
  | exportLazy name routine => exact List.mem_singleton.1 mem ▸ rfl
  | _ => exact absurd mem List.not_mem_nil

/-- Sources are missing for the context that makes the request. -/
theorem Request.context_of_mem_missing {request : Request} {context : ContextId} {world : World}
    {source : MissingSource} (mem : source ∈ request.missing context world) :
    source.context = context := by
  cases request with
  | eval language path line =>
    simp only [missing] at mem
    split at mem
    · exact List.mem_singleton.1 mem ▸ rfl
    · exact absurd mem List.not_mem_nil
  | _ => exact absurd mem List.not_mem_nil

/-- Where there is one engine, concluding a request leaves no note. -/
theorem Pending.conclude_notes {β α : Type} {pending : Pending β α} (alone : pending.IsAlone)
    (result : β) (world : World) : world.Notes (pending.conclude result world).2 [] [] := by
  induction pending with
  | passing => exact World.notes_nothing rfl rfl
  | settling name generation routine =>
    exact World.notes_nothing (Registry.journal_settle ..) rfl
  | finishing context unit => exact World.notes_nothing rfl rfl
  | naming child pending ih => exact ih alone result
  | returning before pending ih =>
    obtain ⟨aloneBefore, alonePending⟩ := alone
    rw [conclude, aloneBefore.backFrom]
    exact ih alonePending result

namespace Moment

variable {routines : Routines}

/-- The events that are about to be noted. -/
def events (moment : Moment) : List Event :=
  match moment.program with
  | .done _ => []
  | .ask request _ => request.events moment.context moment.world

/-- The sources that are about to be missing. -/
def missing (moment : Moment) : List MissingSource :=
  match moment.program with
  | .done _ => []
  | .ask request _ => request.missing moment.context moment.world

/-- Events are about to be noted for the context at work. -/
theorem context_of_mem_events {moment : Moment} {event : Event} (mem : event ∈ moment.events) :
    event.context = moment.context := by
  obtain ⟨context, program, stack, world⟩ := moment
  cases program with
  | done result => exact absurd mem List.not_mem_nil
  | ask request next => exact Request.context_of_mem_events mem

/-- Sources are about to be missing for the context at work. -/
theorem context_of_mem_missing {moment : Moment} {source : MissingSource}
    (mem : source ∈ moment.missing) : source.context = moment.context := by
  obtain ⟨context, program, stack, world⟩ := moment
  cases program with
  | done result => exact absurd mem List.not_mem_nil
  | ask request next => exact Request.context_of_mem_missing mem

/-- A request leaves its notes with the engine at work, or with the first engine as it goes to
work. -/
theorem Step.notes_of_ask {α : Type} {context : ContextId} {request : Request}
    {next : request.Answer → Program α} {stack : Stack α} {world : World} {deed : Option Deed}
    {after : Moment} (step : Step routines ⟨context, .ask request next, stack, world⟩ deed after) :
    ∃ base, (base = world ∨ base = world.atHome ∧ request.LeavesNoNote context world) ∧
      base.Notes after.world (request.events context world) (request.missing context world) := by
  obtain ⟨base, place, noted⟩ := Engine.respond_notes routines context request world
  refine ⟨base, place, ?_⟩
  cases step with
  | answered reply =>
    rw [reply] at noted
    exact noted
  | started reply =>
    rw [reply] at noted
    exact noted

/-- Where there is one engine, each step leaves the notes that were to be expected. -/
theorem Step.notes {before after : Moment} {deed : Option Deed}
    (step : Step routines before deed after) (alone : before.IsAlone) :
    before.world.Notes after.world before.events before.missing := by
  obtain ⟨aloneWorld, aloneStack⟩ := alone
  obtain ⟨context, program, stack, world⟩ := before
  cases program with
  | ask request next =>
    obtain ⟨base, rfl | ⟨home, -⟩, noted⟩ := step.notes_of_ask
    · exact noted
    · rw [home, aloneWorld.atHome] at noted
      exact noted
  | done result =>
    cases step with
    | ended => exact Pending.conclude_notes aloneStack.1 result world

/-- A moment on the way of a run at which no program waits. -/
structure OnTheWay (routines : Routines) (first last moment : Moment) : Prop where
  /-- It is reached. -/
  reached : ∃ deeds, Reaches routines first deeds moment
  /-- The run goes on from it. -/
  goesOn : ∃ deeds, Reaches routines moment deeds last
  /-- The outermost program is at work. -/
  own : moment.stack.IsBottom

/-- It stays on the way as the run goes on. -/
theorem OnTheWay.step {first last next moment : Moment} {deed : Option Deed}
    (onTheWay : OnTheWay routines first last moment) (now : Step routines last deed next) :
    OnTheWay routines first next moment := by
  obtain ⟨deeds, rest⟩ := onTheWay.goesOn
  exact ⟨onTheWay.reached, ⟨_, rest.step now⟩, onTheWay.own⟩

/-- Where there is one engine, what is noted for a context that has given its session to a program
is noted by that program, at moments at which no program waits. -/
theorem Reaches.notes {α : Type} {whole : Program α} {owner : ContextId} {world : World}
    {deeds : List Deed} {last : Moment}
    (reached : Reaches routines (.start owner whole world) deeds last) (alone : world.IsAlone)
    (guest : owner ≠ .host)
    (taken : ∃ context, world.engine.contexts.contexts[owner.raw]? = some context ∧
      context.session = none) :
    ∃ events sources, world.Notes last.world events sources ∧
      (∀ event ∈ events, event.context = owner → ∃ moment,
        OnTheWay routines (.start owner whole world) last moment ∧ event ∈ moment.events) ∧
      ∀ source ∈ sources, source.context = owner → ∃ moment,
        OnTheWay routines (.start owner whole world) last moment ∧ source ∈ moment.missing := by
  induction reached with
  | refl =>
    exact ⟨[], [], World.notes_nothing rfl rfl, fun _ mem => absurd mem List.not_mem_nil,
      fun _ mem => absurd mem List.not_mem_nil⟩
  | @step last next deeds deed before now ih =>
    obtain ⟨events, sources, noted, causedEvents, causedSources⟩ := ih
    obtain ⟨aloneLast, -, census⟩ := before.census ⟨alone, trivial⟩
    have outside : last.census.Outside owner :=
      census.outside ⟨taken, fun _ => List.not_mem_nil⟩
    have seats : last.stack.Seats last.context := before.keeps Step.seats trivial
    -- No program that another one waits for acts for the owner, which could not begin a unit.
    have own (same : last.context = owner) :
        OnTheWay routines (.start owner whole world) next last := by
      refine ⟨⟨_, before⟩, ⟨_, .single now⟩, ?_⟩
      by_contra waiting
      exact context_ne_of_outside seats waiting guest outside same
    refine ⟨_, _, noted.trans (now.notes aloneLast), ?_, ?_⟩
    · intro event mem named
      rcases List.mem_append.1 mem with early | late
      · obtain ⟨moment, onTheWay, caused⟩ := causedEvents event early named
        exact ⟨moment, onTheWay.step now, caused⟩
      · exact ⟨last, own ((context_of_mem_events late).symm.trans named), late⟩
    · intro source mem named
      rcases List.mem_append.1 mem with early | late
      · obtain ⟨moment, onTheWay, caused⟩ := causedSources source early named
        exact ⟨moment, onTheWay.step now, caused⟩
      · exact ⟨last, own ((context_of_mem_missing late).symm.trans named), late⟩

end Moment

end Interchange
