import Interchange.Proofs.Context.Places
import Interchange.Proofs.Engine.Outside
import Interchange.Proofs.Engine.Routines

/-!
# Contexts that a report names

The journal and the list of missing sources name contexts, and so does every finding of a report.
What programs ask for is noted for the context that they belong to, which is there; contexts are
never removed, and each engine notes what happens in its own registry. So everything that is noted
names contexts that are there (`Moment.Attributes`), at every moment and whatever is asked for from
outside (`findings_name_contexts`). There is one exception: a source that cannot be loaded is noted
as missing before it is found out that the context that asks for it from outside is none
(`Operation.Strays`).
-/
namespace Interchange

/-- The contexts that an event names. -/
def Event.contexts : Event → List ContextId
  | exported _ context overwrote _ _ => context :: overwrote.toList
  | imported _ context _ _ => [context]

/-- A finding is about a context that an event names or that asked for a missing source. -/
theorem Report.context_of_mem_findings {events : List Event} {missing : List MissingSource}
    {finding : Finding} (mem : finding ∈ (ofEvents events missing).findings) :
    (∃ event ∈ events, finding.context ∈ event.contexts) ∨
      ∃ source ∈ missing, finding.context = source.context := by
  rcases mem_findings_iff.1 mem with unbound | ⟨source, asked, rfl⟩ | ⟨event, there, warns⟩ | unread
  · obtain ⟨before, name, context, line, later, rfl, rfl⟩ := exists_of_mem_unresolvedImports unbound
    refine .inl ⟨.imported name context false line, ?_, List.mem_cons_self⟩
    exact List.mem_append_right before List.mem_cons_self
  · exact .inr ⟨source, asked, rfl⟩
  · refine .inl ⟨event, there, ?_⟩
    unfold overwrite? at warns
    split at warns
    · obtain rfl := Option.some.inj warns
      exact List.mem_cons_self
    · cases warns
  · obtain ⟨name, context, line, rfl⟩ := exists_of_mem_unusedExports unread
    obtain ⟨last, _, _⟩ := mem_unusedExports_iff.1 ⟨line, unread⟩
    obtain ⟨event, backwards, exports⟩ := List.exists_of_findSome?_eq_some last
    refine .inl ⟨event, List.mem_reverse.1 backwards, ?_⟩
    cases event with
    | imported => cases exports
    | exported other exporter overwrote deferred place =>
      simp only [Event.exporter?] at exports
      split at exports
      · obtain rfl := Option.some.inj exports
        exact List.mem_cons_self
      · cases exports

/-- The registry names only contexts with a number below a bound. -/
structure Registry.NamesBelow (registry : Registry) (count : Nat) : Prop where
  /-- As origins of bindings. -/
  origins : ∀ name id, registry.originOf name = some id → id.raw < count
  /-- In the events of its journal. -/
  events : ∀ event ∈ registry.events, ∀ id ∈ event.contexts, id.raw < count

namespace Registry

variable {registry : Registry} {count : Nat}

/-- A registry in which nothing has happened names none. -/
theorem start_namesBelow (journaling : Bool) (count : Nat) :
    (start journaling).NamesBelow count := by
  constructor
  · intro name id impossible
    cases impossible
  · intro event mem
    cases journaling with
    | false => exact absurd mem List.not_mem_nil
    | true => exact absurd mem List.not_mem_nil

/-- An event of a longer journal is an older one or the last one. -/
theorem mem_events_of_journal {after : Registry} {event found : Event}
    (longer : after.journal = registry.journal.map (· ++ [event])) (mem : found ∈ after.events) :
    found ∈ registry.events ∨ found = event := by
  rw [events, longer] at mem
  cases kept : registry.journal with
  | none =>
    rw [kept] at mem
    exact absurd mem List.not_mem_nil
  | some events =>
    rw [kept] at mem
    rw [Registry.events, kept]
    exact (List.mem_append.1 mem).imp_right List.mem_singleton.1

namespace NamesBelow

variable (below : registry.NamesBelow count)
include below

/-- There may be more contexts. -/
theorem mono {more : Nat} (le : count ≤ more) : registry.NamesBelow more where
  origins name id origin := Nat.lt_of_lt_of_le (below.origins name id origin) le
  events event mem id named := Nat.lt_of_lt_of_le (below.events event mem id named) le

/-- A context binds a name. -/
theorem bind {origin : ContextId} (there : origin.raw < count) (name : String) (slot : Slot)
    (line : Option Nat) : (registry.bind name slot origin line).NamesBelow count := by
  constructor
  · intro other id origin
    rw [originOf_bind] at origin
    split at origin
    · exact Option.some.inj origin ▸ there
    · exact below.origins other id origin
  · intro event mem id named
    rcases mem_events_of_journal (journal_bind registry name slot origin line) mem with old | rfl
    · exact below.events event old id named
    · rcases List.mem_cons.1 named with rfl | overwrote
      · exact there
      · exact below.origins name id (Option.mem_toList.1 overwrote)

/-- A context looks a name up. -/
theorem lookUp {context : ContextId} (there : context.raw < count) (name : String)
    (line : Option Nat) : (registry.lookUp name context line).2.NamesBelow count := by
  refine ⟨below.origins, fun event mem id named => ?_⟩
  rcases mem_events_of_journal (journal_lookUp registry name context line) mem with old | rfl
  · exact below.events event old id named
  · exact List.mem_singleton.1 named ▸ there

/-- What a binding holds is replaced. -/
theorem replace (name : String) (slot : Slot) : (registry.replace name slot).NamesBelow count := by
  refine ⟨fun other id origin => ?_, fun event mem => ?_⟩
  · rw [originOf_replace] at origin
    exact below.origins other id origin
  · rw [Registry.events, journal_replace] at mem
    exact below.events event mem

/-- A routine ends. -/
theorem settle (name : String) (generation routine : Nat) (outcome : Except Fault Value) :
    (registry.settle name generation routine outcome).NamesBelow count := by
  refine ⟨fun other id origin => ?_, fun event mem => ?_⟩
  · rw [originOf_settle] at origin
    exact below.origins other id origin
  · rw [Registry.events, journal_settle] at mem
    exact below.events event mem

end NamesBelow

end Registry

/-- What an engine and its registry have noted names contexts of the engine. Missing sources may
have been asked for by others as well, if those are strays. -/
structure Engine.Attributes (engine : Engine) (registry : Registry)
    (stray : ContextId → Prop) : Prop where
  /-- The host is there. -/
  host : 0 < engine.contexts.count
  /-- In the registry. -/
  registry : registry.NamesBelow engine.contexts.count
  /-- As missing sources. -/
  missing : ∀ source ∈ engine.missing,
    source.context.raw < engine.contexts.count ∨ stray source.context

/-- The same holds of the engine at work and of the first engine while that waits, each with a
registry of its own. -/
structure World.Attributes (world : World) (stray : ContextId → Prop) : Prop where
  /-- The engine at work. -/
  engine : world.engine.Attributes world.registry stray
  /-- The first engine. -/
  home : ∀ home, world.home = some home → ∃ registry, home.registry = some registry ∧
    home.engine.Attributes registry stray

namespace World.Attributes

variable {world : World} {stray : ContextId → Prop} (attributes : world.Attributes stray)
include attributes

/-- Contexts are added or changed. -/
theorem withContexts {contexts : ContextTree}
    (le : world.engine.contexts.count ≤ contexts.count) :
    (world.withContexts contexts).Attributes stray where
  engine :=
    { host := Nat.lt_of_lt_of_le attributes.engine.host le
      registry := attributes.engine.registry.mono le
      missing := fun source mem =>
        (attributes.engine.missing source mem).imp_left fun lt => Nat.lt_of_lt_of_le lt le }
  home := attributes.home

/-- Something happens in the registry. -/
theorem withRegistry {registry : Registry}
    (below : registry.NamesBelow world.engine.contexts.count) :
    World.Attributes { world with registry } stray where
  engine := ⟨attributes.engine.host, below, attributes.engine.missing⟩
  home := attributes.home

/-- The first engine goes to work. -/
theorem atHome : world.atHome.Attributes stray := by
  unfold World.atHome
  split
  · exact attributes
  · rename_i home waits
    obtain ⟨registry, own, waiting⟩ := attributes.home home waits
    rw [own]
    exact ⟨waiting, fun _ impossible => by cases impossible⟩

/-- The engine that was at work before goes to work again, and the first one waits. -/
theorem backFrom {after : World} (inside : after.Attributes stray) :
    (world.backFrom after).Attributes stray := by
  unfold World.backFrom
  split
  · exact inside
  · rename_i home waits
    obtain ⟨registry, own, _⟩ := attributes.home home waits
    rw [own, Option.isSome_some, if_pos rfl, Option.map_some]
    refine ⟨attributes.engine, fun other same => ?_⟩
    obtain rfl := Option.some.inj same
    exact ⟨_, rfl, inside.engine⟩

end World.Attributes

/-- The engines to return to have noted only what names their contexts. -/
def Pending.Attributes (stray : ContextId → Prop) {β α : Type} : Pending β α → Prop
  | passing | settling .. | finishing .. => True
  | naming _ pending => pending.Attributes stray
  | returning before pending => before.Attributes stray ∧ pending.Attributes stray

/-- How many contexts there are when what is left to do has been done only depends on how many there
are before, and grows with it. -/
theorem Pending.count_engine_mono {β α : Type} (pending : Pending β α) {one other : Engine}
    (le : one.contexts.count ≤ other.contexts.count) :
    (pending.engine one).contexts.count ≤ (pending.engine other).contexts.count := by
  induction pending with
  | passing => exact le
  | settling name generation routine => exact le
  | finishing context unit => exact le
  | naming child pending ih => exact ih
  | returning before pending ih =>
    simp only [engine]
    split
    · exact ih
    · exact Nat.le_refl _

/-- Doing what is left to do keeps to contexts that are there, and leads to the engine that was to
be expected. -/
theorem Pending.Attributes.conclude {stray : ContextId → Prop} {β α : Type}
    {pending : Pending β α} (attributes : pending.Attributes stray) {world : World}
    (now : world.Attributes stray) (result : β) :
    (pending.conclude result world).2.Attributes stray ∧
      (pending.conclude result world).2.engine.contexts.count =
        (pending.engine world.engine).contexts.count := by
  induction pending with
  | passing => exact ⟨now, rfl⟩
  | settling name generation routine =>
    exact ⟨now.withRegistry (now.engine.registry.settle name generation routine result), rfl⟩
  | finishing context unit =>
    have count := world.engine.contexts.count_finish context result.1 result.2.isOk
    exact ⟨now.withContexts (Nat.le_of_eq count.symm), count⟩
  | naming child pending ih => exact ih attributes result
  | returning before pending ih =>
    obtain ⟨inside, count⟩ := ih attributes.2 result
    refine ⟨attributes.1.backFrom inside, ?_⟩
    cases waits : before.home with
    | none => simpa only [Pending.conclude, engine, World.backFrom, waits] using count
    | some home => simp only [Pending.conclude, engine, World.backFrom, waits]

/-- The programs that wait belong to contexts that are there, if the given engine is at work before
the first of them goes on. -/
def Stack.Attributes (stray : ContextId → Prop) {α : Type} : Stack α → Engine → Prop
  | bottom, _ => True
  | frame context pending _ rest, engine =>
    pending.Attributes stray ∧ context.raw < (pending.engine engine).contexts.count ∧
      rest.Attributes stray (pending.engine engine)

/-- There may be more contexts. -/
theorem Stack.Attributes.mono {stray : ContextId → Prop} {α : Type} {stack : Stack α}
    {one other : Engine} (le : one.contexts.count ≤ other.contexts.count)
    (attributes : stack.Attributes stray one) : stack.Attributes stray other := by
  induction stack generalizing one other with
  | bottom => trivial
  | frame context pending next rest ih =>
    obtain ⟨returns, there, others⟩ := attributes
    have grown := pending.count_engine_mono le
    exact ⟨returns, Nat.lt_of_lt_of_le there grown, ih grown others⟩

/-- The reply notes only what names contexts that are there, and no context of the engine that is
asked goes away. -/
def Reply.Attributes (stray : ContextId → Prop) (engine : Engine) {α : Type} : Reply α → Prop
  | now _ left => left.Attributes stray ∧ engine.contexts.count ≤ left.engine.contexts.count
  | after inner _ opened pending =>
    (opened.Attributes stray ∧ inner.raw < opened.engine.contexts.count) ∧
      pending.Attributes stray ∧
      engine.contexts.count ≤ (pending.engine opened.engine).contexts.count

/-- At this moment everything that is noted names contexts that are there, and so will what the
programs at work ask for. -/
structure Moment.Attributes (stray : ContextId → Prop) (moment : Moment) : Prop where
  /-- What is noted. -/
  world : moment.world.Attributes stray
  /-- The context of the program at work is there. -/
  context : moment.context.raw < moment.world.engine.contexts.count
  /-- And those of the programs that wait. -/
  stack : moment.stack.Attributes stray moment.world.engine

section Replies

variable {stray : ContextId → Prop} {world : World}

/-- A reply leads to a moment at which everything noted names contexts that are there. -/
theorem Reply.Attributes.moment {γ α : Type} {reply : Reply γ} {context : ContextId}
    {stack : Stack α} (attributes : reply.Attributes stray world.engine)
    (there : context.raw < world.engine.contexts.count)
    (waiting : stack.Attributes stray world.engine) (next : γ → Program α) :
    (reply.moment context next stack).Attributes stray := by
  cases reply with
  | now answer after =>
    obtain ⟨noted, le⟩ := attributes
    exact ⟨noted, Nat.lt_of_lt_of_le there le, waiting.mono le⟩
  | after inner program opened pending =>
    obtain ⟨⟨noted, inside⟩, returns, le⟩ := attributes
    exact ⟨noted, inside, returns, Nat.lt_of_lt_of_le there le, waiting.mono le⟩

/-- The engine that is asked had fewer contexts earlier. -/
theorem Reply.Attributes.weaken {one other : Engine} {α : Type} {reply : Reply α}
    (attributes : reply.Attributes stray other)
    (le : one.contexts.count ≤ other.contexts.count) : reply.Attributes stray one := by
  cases reply with
  | now answer left => exact ⟨attributes.1, Nat.le_trans le attributes.2⟩
  | after inner program opened pending =>
    obtain ⟨inside, returns, grown⟩ := attributes
    exact ⟨inside, returns, Nat.le_trans le grown⟩

/-- Naming a context notes nothing. -/
theorem Reply.Attributes.name {engine : Engine} {reply : Reply (Except Fault Unit)}
    (attributes : reply.Attributes stray engine) (child : ContextId) :
    (reply.name child).Attributes stray engine := by
  cases reply with
  | now answer after => exact attributes
  | after inner program opened pending => exact attributes

/-- What the first engine has done is done, and the engine at work before is as it was. -/
theorem Reply.Attributes.back {α : Type} {reply : Reply α} (noted : world.Attributes stray)
    (attributes : reply.Attributes stray world.atHome.engine) :
    (reply.back world).Attributes stray world.engine := by
  cases reply with
  | now answer after =>
    obtain ⟨inside, le⟩ := attributes
    refine ⟨noted.backFrom inside, ?_⟩
    cases waits : world.home with
    | none =>
      rw [World.IsAlone.atHome waits] at le
      rwa [World.IsAlone.backFrom waits]
    | some home => simp only [World.backFrom, waits, Nat.le_refl]
  | after inner program opened pending =>
    obtain ⟨inside, returns, le⟩ := attributes
    refine ⟨inside, ⟨noted, returns⟩, ?_⟩
    cases waits : world.home with
    | none =>
      rw [World.IsAlone.atHome waits] at le
      simpa only [Pending.engine, waits] using le
    | some home => simp only [Pending.engine, waits, Nat.le_refl]

end Replies

namespace Engine

variable {stray : ContextId → Prop} {world : World}

/-- A unit is evaluated in a context that is there. -/
theorem respondEvaluate_attributes (attributes : world.Attributes stray) (context : ContextId)
    (unit : SourceUnit) :
    (respondEvaluate context unit world).Attributes stray world.engine := by
  rcases begun : world.engine.contexts.begin context unit.path with
    ⟨fault | ⟨session, depth⟩, contexts⟩
  · rw [respondEvaluate_of_refused begun]
    exact ⟨attributes, Nat.le_refl _⟩
  · obtain ⟨entry, found, _, _, replaced⟩ := ContextTree.begin_cases begun
    have there := ContextTree.lt_count found
    have count : contexts.count = world.engine.contexts.count := by
      rw [replaced]
      exact List.length_set
    rw [respondEvaluate_of_begin unit world begun]
    split
    · have finished := contexts.count_finish context session false
      have le := Nat.le_of_eq (finished.trans count).symm
      exact ⟨attributes.withContexts le, le⟩
    · have le := Nat.le_of_eq count.symm
      exact ⟨⟨attributes.withContexts le, Nat.lt_of_lt_of_le there le⟩, trivial, le⟩

/-- A context is created, or not. -/
theorem createContext_attributes (attributes : world.Attributes stray)
    (parent : Option ContextId) (language : String) :
    (createContext parent language world).2.Attributes stray ∧
      world.engine.contexts.count ≤
        (createContext parent language world).2.engine.contexts.count := by
  rcases createContext_cases parent language world with
    ⟨fault, refused⟩ | ⟨found, child, contexts, _, made, created⟩
  · rw [refused]
    exact ⟨attributes, Nat.le_refl _⟩
  · obtain ⟨added, _, _, rfl, _, _⟩ := ContextTree.create_cases made
    have count := world.engine.contexts.count_add added
    have le : world.engine.contexts.count ≤ (world.engine.contexts.add added).count := by
      omega
    rw [created]
    exact ⟨attributes.withContexts le, le⟩

/-- A unit is evaluated in a new context. -/
theorem respondBelow_attributes (attributes : world.Attributes stray) (parent : ContextId)
    (unit : SourceUnit) : (respondBelow parent unit world).Attributes stray world.engine := by
  obtain ⟨noted, le⟩ := createContext_attributes attributes (some parent) unit.language
  unfold respondBelow
  split
  · rename_i fault left refused
    rw [refused] at noted le
    exact ⟨noted, le⟩
  · rename_i child opened created
    rw [created] at noted le
    have evaluated := (respondEvaluate_attributes noted child unit).name child
    exact evaluated.weaken le

/-- A source is evaluated for a context that is there; if the context is not there and the source
cannot be loaded, the context is a stray. -/
theorem respondEval_attributes (attributes : world.Attributes stray) {caller : ContextId}
    {language path : String}
    (named : caller.raw < world.engine.contexts.count ∨ ∀ found fault,
      world.engine.languages.get language = .ok found →
      world.engine.loader.load (SourcePath.resolve (world.engine.contexts.sourceOf caller) path) =
        .error fault → stray caller) (line : Option Nat) :
    (respondEval caller language path line world).Attributes stray world.engine := by
  cases known : world.engine.languages.get language with
  | error fault =>
    simp only [respondEval, known]
    exact ⟨attributes, Nat.le_refl _⟩
  | ok found =>
    cases loaded : world.engine.loader.load
        (SourcePath.resolve (world.engine.contexts.sourceOf caller) path) with
    | error fault =>
      obtain ⟨place, cause, rfl⟩ := Loader.load_error loaded
      simp only [respondEval, known, loaded]
      refine ⟨⟨⟨attributes.engine.host, attributes.engine.registry, ?_⟩, attributes.home⟩,
        Nat.le_refl _⟩
      intro source mem
      rcases List.mem_append.1 mem with old | new
      · exact attributes.engine.missing source old
      · obtain rfl := List.mem_singleton.1 new
        exact named.imp_right fun strays => strays found _ known loaded
    | ok text =>
      simp only [respondEval, known, loaded]
      exact respondBelow_attributes attributes caller _

/-- A name is looked up by a context that is there; a routine acts for the host. -/
theorem respondImport_attributes (attributes : world.Attributes stray) (routines : Routines)
    {context : ContextId} (there : context.raw < world.engine.contexts.count) (name : String)
    (line : Option Nat) :
    (respondImport routines context name line world).Attributes stray world.engine := by
  have looked := attributes.engine.registry.lookUp there name line
  unfold respondImport
  dsimp only
  split
  · exact ⟨attributes.withRegistry looked, Nat.le_refl _⟩
  · split
    · exact ⟨attributes.withRegistry looked, Nat.le_refl _⟩
    · exact ⟨attributes.withRegistry looked, Nat.le_refl _⟩
    · rename_i routine held
      have forcing := looked.replace name (.forcing routine)
      exact ⟨⟨attributes.withRegistry forcing, attributes.engine.host⟩, trivial, Nat.le_refl _⟩

/-- A function acts for the host of the first engine. -/
theorem respondCall_attributes (attributes : world.Attributes stray) (routines : Routines)
    (function : Reference) (arguments : List Value) :
    (respondCall routines function arguments world).Attributes stray world.engine := by
  unfold respondCall
  split
  · exact ⟨attributes, Nat.le_refl _⟩
  · rename_i routine callable
    have atHome := attributes.atHome
    refine ⟨⟨atHome, atHome.engine.host⟩, ⟨attributes, trivial⟩, ?_⟩
    cases waits : world.home with
    | none =>
      rw [World.IsAlone.atHome waits]
      simp only [Pending.engine, waits, Nat.le_refl]
    | some home => simp only [Pending.engine, waits, Nat.le_refl]

/-- Whatever a program of a context asks for that is there, only contexts are noted that are
there. -/
theorem respond_attributes (attributes : world.Attributes stray) (routines : Routines)
    {context : ContextId} (there : context.raw < world.engine.contexts.count)
    (request : Request) :
    (respond routines context request world).Attributes stray world.engine := by
  have bound (name : String) (slot : Slot) (line : Option Nat) :
      (bindName context name slot line world).Attributes stray :=
    attributes.withRegistry (attributes.engine.registry.bind there name slot line)
  cases request with
  | inspect => exact ⟨attributes, Nat.le_refl _⟩
  | look query => exact ⟨attributes, Nat.le_refl _⟩
  | allocate pairs => exact ⟨⟨attributes.engine, attributes.home⟩, Nat.le_refl _⟩
  | setField target name value =>
    simp only [respond]
    split
    · exact ⟨⟨attributes.engine, attributes.home⟩, Nat.le_refl _⟩
    · exact ⟨attributes, Nat.le_refl _⟩
  | call function arguments => exact respondCall_attributes attributes routines function arguments
  | importName name line => exact respondImport_attributes attributes routines there name line
  | exportValue name value line => exact ⟨bound name (.ready value) line, Nat.le_refl _⟩
  | exportLazy name routine => exact ⟨bound name (.deferred routine) none, Nat.le_refl _⟩
  | eval language path line => exact respondEval_attributes attributes (.inl there) line
  | evaluate target unit => exact respondEvaluate_attributes attributes target unit
  | evalUnit unit => exact (respondBelow_attributes attributes.atHome .host unit).back attributes
  | print line =>
    refine ⟨⟨⟨attributes.engine.host, attributes.engine.registry, attributes.engine.missing⟩,
      attributes.home⟩, Nat.le_refl _⟩
  | tally name => exact ⟨⟨attributes.engine, attributes.home⟩, Nat.le_refl _⟩

end Engine

/-- From outside, what is asked for in the name of a context is asked for in that of the host: a
program of its own is what any other context has. -/
def Operation.IsPublic : Operation → Prop
  | ask context _ => context = .host
  | create .. => True
  | evaluate _ => True

/-- A source that cannot be loaded is asked for from outside in the name of a context that is not
there. -/
inductive Operation.Strays (world : World) : Operation → ContextId → Prop where
  /-- Its language is known, so that the source is noted as missing. -/
  | asks {caller : ContextId} {language path : String} {found : Language} {fault : Fault}
      (nowhere : world.engine.contexts.count ≤ caller.raw)
      (known : world.engine.languages.get language = .ok found)
      (missing : world.engine.loader.load
        (SourcePath.resolve (world.engine.contexts.sourceOf caller) path) = .error fault)
      (line : Option Nat) : Strays world (.evaluate (.source caller language path line)) caller

section Undergoing

variable {stray : ContextId → Prop} {routines : Routines}

/-- From outside only contexts are noted that are there, but for strays. -/
theorem Operation.reply_attributes {world : World} (attributes : world.Attributes stray)
    {operation : Operation} (isPublic : operation.IsPublic)
    (strays : ∀ id, operation.Strays world id → stray id) :
    (operation.reply routines world).Attributes stray world.engine := by
  cases operation with
  | ask context request =>
    obtain rfl : context = .host := isPublic
    exact Engine.respond_attributes attributes routines attributes.engine.host request
  | create parent language => exact Engine.createContext_attributes attributes parent language
  | evaluate call =>
    cases call with
    | source caller language path line =>
      refine Engine.respondEval_attributes attributes ?_ line
      by_cases there : caller.raw < world.engine.contexts.count
      · exact .inl there
      · refine .inr fun found fault known missing => strays caller ?_
        exact .asks (Nat.le_of_not_lt there) known missing line
    | file path =>
      cases known : world.engine.languages.forPath path with
      | error fault =>
        simp only [reply, Call.reply, known]
        exact ⟨attributes, Nat.le_refl _⟩
      | ok language =>
        simp only [reply, Call.reply, known]
        exact Engine.respondEval_attributes attributes (.inl attributes.engine.host) none
    | text unit => exact Engine.respondBelow_attributes attributes .host unit

namespace Moment

/-- From each moment to the next only contexts are noted that are there. -/
theorem Step.attributes {before after : Moment} {deed : Option Deed}
    (now : Step routines before deed after) (attributes : before.Attributes stray) :
    after.Attributes stray := by
  obtain ⟨noted, there, waiting⟩ := attributes
  cases now with
  | @answered α context request next stack world left answer reply =>
    have replied := Engine.respond_attributes noted routines there request
    rw [reply] at replied
    exact replied.moment there waiting next
  | @started α β context inner request next stack world opened program pending reply =>
    have replied := Engine.respond_attributes noted routines there request
    rw [reply] at replied
    exact replied.moment there waiting next
  | @ended α β γ inner context result pending next stack world =>
    obtain ⟨returns, below, rest⟩ := waiting
    obtain ⟨after, count⟩ := returns.conclude noted result
    have le := Nat.le_of_eq count.symm
    exact ⟨after, Nat.lt_of_lt_of_le below le, rest.mono le⟩

/-- Whatever is asked for from outside, only contexts are noted that are there, but for the strays
among those who asked. -/
theorem Undergoes.attributes {first last : Moment} {doings : List (Operation × World)}
    (undergone : Undergoes routines first doings last) (attributes : first.Attributes stray)
    (isPublic : ∀ doing ∈ doings, doing.1.IsPublic)
    (strays : ∀ doing ∈ doings, ∀ id, doing.1.Strays doing.2 id → stray id) :
    last.Attributes stray := by
  induction undergone with
  | refl => exact attributes
  | step _ now ih => exact now.attributes (ih isPublic strays)
  | performed _ operation ih =>
    rw [List.forall_mem_append] at isPublic strays
    obtain ⟨noted, there, waiting⟩ := ih isPublic.1 strays.1
    have asked := isPublic.2 _ List.mem_cons_self
    have known := strays.2 _ List.mem_cons_self
    exact (Operation.reply_attributes noted asked known).moment there waiting _

end Moment

end Undergoing

/-- An engine that has done nothing yet, with a registry of its own. -/
structure Engine.IsFresh (engine : Engine) (registry : Registry) : Prop where
  /-- There is the host alone. -/
  contexts : engine.contexts = .initial
  /-- No source is missing. -/
  missing : engine.missing = []
  /-- Nothing has happened in the registry. -/
  registry : ∃ journaling, registry = .start journaling

/-- Such an engine has noted nothing. -/
theorem Engine.IsFresh.attributes {engine : Engine} {registry : Registry}
    (fresh : engine.IsFresh registry) (stray : ContextId → Prop) :
    engine.Attributes registry stray := by
  obtain ⟨journaling, rfl⟩ := fresh.registry
  refine ⟨?_, Registry.start_namesBelow journaling _, ?_⟩
  · rw [fresh.contexts]
    exact Nat.zero_lt_one
  · intro source mem
    rw [fresh.missing] at mem
    exact absurd mem List.not_mem_nil

/-- A context with a number that is in use is there. -/
theorem ContextTree.get_of_lt {tree : ContextTree} {id : ContextId} (lt : id.raw < tree.count) :
    ∃ context, tree.get id = .ok context := by
  have found : tree.contexts[id.raw]? = some (tree.contexts.get ⟨id.raw, lt⟩) :=
    List.getElem?_eq_getElem lt
  refine ⟨tree.contexts.get ⟨id.raw, lt⟩, ?_⟩
  rw [get, found]
  rfl

/-- Whatever is asked of an engine with a registry of its own, in whatever order, by its scripts, by
functions of the host or from outside, with any arguments: the events of the journal name only
contexts that are there, and so do the missing sources and all findings of the report, but for
contexts in whose name a source was asked for from outside when they were not there and the source
could not be loaded. -/
theorem findings_name_contexts {routines : Routines} {world : World}
    (fresh : world.engine.IsFresh world.registry)
    (home : ∀ home, world.home = some home →
      ∃ registry, home.registry = some registry ∧ home.engine.IsFresh registry)
    {doings : List (Operation × World)} {moment : Moment}
    (undergone : Moment.Undergoes routines (.idle world) doings moment)
    (isPublic : ∀ doing ∈ doings, doing.1.IsPublic) :
    (∀ event ∈ moment.world.registry.events, ∀ id ∈ event.contexts,
      ∃ context, moment.world.engine.contexts.get id = .ok context) ∧
    (∀ source ∈ moment.world.engine.missing,
      (∃ context, moment.world.engine.contexts.get source.context = .ok context) ∨
        ∃ doing ∈ doings, doing.1.Strays doing.2 source.context) ∧
    ∀ finding ∈ moment.world.report.findings,
      (∃ context, moment.world.engine.contexts.get finding.context = .ok context) ∨
        ∃ doing ∈ doings, doing.1.Strays doing.2 finding.context := by
  have start : (Moment.idle world).Attributes fun id =>
      ∃ doing ∈ doings, doing.1.Strays doing.2 id := by
    refine ⟨⟨fresh.attributes _, fun first waits => ?_⟩, (fresh.attributes fun _ => False).host,
      trivial⟩
    obtain ⟨registry, own, freshHome⟩ := home first waits
    exact ⟨registry, own, freshHome.attributes _⟩
  have attributes := undergone.attributes start isPublic fun doing mem id strays =>
    ⟨doing, mem, strays⟩
  have events : ∀ event ∈ moment.world.registry.events, ∀ id ∈ event.contexts,
      ∃ context, moment.world.engine.contexts.get id = .ok context := by
    intro event mem id named
    exact ContextTree.get_of_lt (attributes.world.engine.registry.events event mem id named)
  have missing : ∀ source ∈ moment.world.engine.missing,
      (∃ context, moment.world.engine.contexts.get source.context = .ok context) ∨
        ∃ doing ∈ doings, doing.1.Strays doing.2 source.context := by
    intro source mem
    exact (attributes.world.engine.missing source mem).imp_left ContextTree.get_of_lt
  refine ⟨events, missing, fun finding mem => ?_⟩
  rcases Report.context_of_mem_findings mem with ⟨event, there, named⟩ | ⟨source, there, same⟩
  · exact .inl (events event there finding.context named)
  · rw [same]
    exact missing source there

/-- A context is created, asks for a source that is not there, and the host looks a name up that is
not bound. -/
def mishaps : List Operation :=
  [.create none "lisp", .evaluate (.source ⟨1⟩ "lisp" "gone.lisp" none),
    .ask .host (.importName "nobody" none)]

/-- Both findings on this are about contexts that are there. -/
theorem mishaps_name_contexts :
    ∃ doings moment, doings.map Prod.fst = mishaps ∧
      Moment.Undergoes (Host.routines []) (.idle .withoutSources) doings moment ∧
      moment.world.engine.missing = [⟨⟨1⟩, "gone.lisp", none⟩] ∧
      ∀ finding ∈ moment.world.report.findings,
        ∃ context, moment.world.engine.contexts.get finding.context = .ok context := by
  have start : Moment.Undergoes (Host.routines []) (.idle .withoutSources) []
      (.idle .withoutSources) := .refl
  have undergone := ((start.performed (.create none "lisp")).performed
    (.evaluate (.source ⟨1⟩ "lisp" "gone.lisp" none))).performed
      (.ask .host (.importName "nobody" none))
  have fresh : World.withoutSources.engine.IsFresh World.withoutSources.registry :=
    ⟨rfl, rfl, true, rfl⟩
  have findings := (findings_name_contexts fresh (fun _ impossible => by cases impossible) undergone
    (by simp [Operation.IsPublic])).2.2
  refine ⟨_, _, rfl, undergone, by decide +kernel, fun finding mem => ?_⟩
  refine (findings finding mem).resolve_right ?_
  generalize finding.context = id
  rintro ⟨doing, there, strays⟩
  simp only [List.nil_append, List.cons_append, List.mem_cons, List.not_mem_nil, or_false] at there
  rcases there with rfl | rfl | rfl
  · cases strays
  · cases strays with
    | asks nowhere => exact absurd nowhere (by decide)
  · cases strays

/-- A source that is not there is asked for in the name of a context that is not there either: the
report has a finding about this context. -/
theorem stray_is_reported :
    ∃ after finding, (Operation.evaluate (.source ⟨99⟩ "lisp" "gone.lisp" none)).perform
        (Runner.within (Host.routines []) 1) (Host.routines []) .withoutSources =
          some (.error (.sourceNotFound "gone.lisp" none), after) ∧
      finding ∈ after.report.findings ∧ finding.context = ⟨99⟩ ∧
      after.engine.contexts.get ⟨99⟩ = .error (.unknownContext ⟨99⟩) := by
  refine ⟨_, Report.missingFile ⟨⟨99⟩, "gone.lisp", none⟩, rfl, ?_, ?_, ?_⟩
  · exact Report.mem_findings_iff.2 (.inr (.inl ⟨_, List.mem_cons_self, rfl⟩))
  · rfl
  · rfl

end Interchange
