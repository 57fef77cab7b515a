import Interchange.Proofs.Context.Census
import Interchange.Proofs.Context.Places
import Interchange.Proofs.Engine.Journals
import Interchange.Proofs.Guests.Lines
import Mathlib.Data.List.Forall2

/-!
# Programs further down

A program of a running context does the same if it tells of later lines. What comes of that are
later lines in the journal and in the missing sources, where those are of that context
(`World.Later`). The names of the locals that the context had when it last ended a unit may be other
ones too (`Passage.Like`). A routine could ask for those, for the journal or for the report, and
that would show the difference (`World.Shows`). If routines do not, programs of other contexts see
none (`Passage.holds`), and the program of the context comes to the same end
(`Passage.Like.within`).
-/
namespace Interchange

/-- How much later the lines are that a context tells. -/
structure Offset where
  /-- The context. -/
  context : ContextId
  /-- The number of lines. -/
  lines : Nat

namespace Offset

variable (offset : Offset)

/-- A line that some context tells: a later one if it is that context. -/
def line (teller : ContextId) (line : Option Nat) : Option Nat :=
  if teller = offset.context then line.map (· + offset.lines) else line

/-- An event with the line that it tells then. -/
def event : Event → Event
  | .exported name origin overwrote deferred line =>
    .exported name origin overwrote deferred (offset.line origin line)
  | .imported name context resolved line =>
    .imported name context resolved (offset.line context line)

/-- A missing source with the line that it tells then. -/
def source (source : MissingSource) : MissingSource :=
  { source with line := offset.line source.context source.line }

/-- Another context tells the same line. -/
theorem line_of_ne {teller : ContextId} (other : teller ≠ offset.context) (line : Option Nat) :
    offset.line teller line = line := if_neg other

/-- The context tells a later line. -/
theorem line_self (line : Option Nat) :
    offset.line offset.context line = line.map (· + offset.lines) := if_pos rfl

/-- Where no line is told, none is. -/
theorem line_none (teller : ContextId) : offset.line teller none = none := by
  unfold line
  split <;> rfl

end Offset

/-- Two lists go on from the same one, by elements that agree. -/
def Grows {α : Type} (agree : α → α → Prop) (base one other : List α) : Prop :=
  ∃ added twins, one = base ++ added ∧ other = base ++ twins ∧ List.Forall₂ agree added twins

namespace Grows

variable {α : Type} {agree : α → α → Prop} {base one other : List α}

/-- Nothing has been added yet. -/
theorem refl (agree : α → α → Prop) (base : List α) : Grows agree base base base :=
  ⟨[], [], (List.append_nil base).symm, (List.append_nil base).symm, .nil⟩

/-- Two elements that agree are added. -/
theorem snoc (grows : Grows agree base one other) {element twin : α} (agrees : agree element twin) :
    Grows agree base (one ++ [element]) (other ++ [twin]) := by
  obtain ⟨added, twins, rfl, rfl, pairs⟩ := grows
  exact ⟨added ++ [element], twins ++ [twin], List.append_assoc .., List.append_assoc ..,
    List.rel_append pairs (.cons agrees .nil)⟩

/-- Two elements that agree are added where there are lists. -/
theorem snoc_map {one other : Option (List α)} (grow : Option.Rel (Grows agree base) one other)
    {element twin : α} (agrees : agree element twin) :
    Option.Rel (Grows agree base) (one.map (· ++ [element])) (other.map (· ++ [twin])) := by
  cases grow with
  | none => exact .none
  | some grows => exact .some (grows.snoc agrees)

end Grows

namespace World

/-- Another engine waits that has the same registry as the one at work. -/
def SharesRegistry (world : World) : Prop :=
  ∃ home, world.home = some home ∧ home.registry = none

/-- The query is about a unit that a context of the engine at work is evaluating: about the names of
its locals, or about the lines that it tells in the journal and in the report, as far as those are
what the first engine tells of. -/
def Shows (world : World) (context : ContextId) : Query → Prop
  | .context id => world.home = none ∧ id = context
  | .report => world.home = none ∨ world.SharesRegistry
  | .events => world.home = none ∨ world.SharesRegistry
  | _ => False

/-- How events agree: the second one tells the line that is told further down. An engine that waits
and has the same registry numbers its own contexts, so an event may also be one of those. -/
def Tells (base : World) (offset : Offset) (event twin : Event) : Prop :=
  twin = offset.event event ∨ base.SharesRegistry ∧ twin = event

/-- The worlds are the same, but that the second one tells of later lines in what has come about
since a world before. -/
structure Later (offset : Offset) (base one other : World) : Prop where
  /-- What names are bound to, and the events that were recorded since. -/
  registry : one.registry.Beside
    (Option.Rel (Grows (base.Tells offset) base.registry.events)) other.registry
  /-- The engine at work: its contexts and its output. -/
  engine : other.engine = { one.engine with missing := other.engine.missing }
  /-- The sources that it could not load since. -/
  missing : Grows (fun source twin => twin = offset.source source) base.engine.missing
    one.engine.missing other.engine.missing
  /-- The shared objects. -/
  heap : other.heap = one.heap
  /-- What was counted. -/
  tallies : other.tallies = one.tallies
  /-- The engine that waits. -/
  home : other.home = one.home

/-- Nothing has come about yet. -/
theorem Later.refl (offset : Offset) (base : World) : Later offset base base base := by
  refine ⟨⟨?_, rfl⟩, rfl, .refl _ _, rfl, rfl, rfl⟩
  cases kept : base.registry.journal with
  | none => exact .none
  | some events =>
    have same : base.registry.events = events := by
      rw [Registry.events, kept, Option.getD_some]
    rw [same]
    exact .some (.refl _ _)

end World

/-- A run of a program of a context that is compared with one further down. -/
structure Passage extends Offset where
  /-- The context is not the host. -/
  guest : context ≠ .host
  /-- The world from which on the worlds are compared. -/
  base : World
  /-- What the tree tells of the context. -/
  held : Context
  /-- It is running. -/
  taken : held.session = none
  /-- The names of the locals that the tree tells in the other run. -/
  names : List String

namespace Passage

variable (passage : Passage)

/-- What may be looked at: whatever does not show the unit of the context. -/
def seen (query : Query) : Prop := ¬passage.base.Shows passage.context query

/-- What the tree tells of the context in the other run. -/
def twin : Context := { passage.held with locals := passage.names }

/-- The worlds are the same, but that the second one tells of later lines and of other locals of the
context. -/
structure Like (one other : World) : Prop where
  /-- What the tree tells of the context. -/
  found : one.engine.contexts.contexts[passage.context.raw]? = some passage.held
  /-- The limit on depth stays as it is. -/
  limit : one.engine.maxDepth = passage.base.engine.maxDepth
  /-- So do the registries. -/
  shares : one.SharesRegistry → passage.base.SharesRegistry
  /-- So does the engine that waits, if there is one. -/
  alone : one.home = none → passage.base.home = none
  /-- The rest is the same, but for later lines. -/
  later : World.Later passage.toOffset passage.base
    (one.withContexts (one.engine.contexts.set passage.context passage.twin)) other

/-- Journals one of which tells of later lines, if events of other contexts may have the same number
of a context. -/
def journals (shares : passage.base.SharesRegistry) : JournalRelation passage.seen where
  relates := Option.Rel (Grows (passage.base.Tells passage.toOffset) passage.base.registry.events)
  recorded _ _ _ grow := Grows.snoc_map grow (.inr ⟨shares, rfl⟩)
  events shown := shown.elim (absurd (.inr shares)) (absurd (.inr shares))
  kept _ _ _ grow := by cases grow <;> rfl

end Passage

/-- The same journals. -/
def JournalRelation.same (seen : Query → Prop) : JournalRelation seen where
  relates := Eq
  recorded := by rintro one _ event rfl; rfl
  events _ _ _ := id
  kept _ _ _ := congrArg Option.isSome

/-- Worlds one of which tells of later lines of a context, and, while another engine is at work,
worlds that are the same but for their journals. -/
@[reducible] def Likeness.further (passage : Passage) : Likeness where
  Way := Option (JournalRelation passage.seen)
  like
    | none => passage.Like
    | some relation => World.Beside relation
  may
    | none, context, request =>
      (context ≠ passage.context ∨ request.line? = none) ∧ request.LooksOnlyAt passage.seen
    | some _, _, request => request.LooksOnlyAt passage.seen

/-- What is the same beside other journals is so while another engine is at work. -/
theorem Reply.Like.embed {α : Type} {passage : Passage} {relation : JournalRelation passage.seen}
    {reply twin : Reply α} (like : reply.Like (.journals passage.seen) relation twin) :
    reply.Like (.further passage) (some relation) twin := by
  cases like with
  | now beside => exact .now beside
  | after inner beside asks concluded => exact .after (some inner) beside asks concluded

namespace Passage.Like

variable {passage : Passage} {one other : World}

/-- The engine is the same but for that context and the missing sources. -/
theorem engine (like : passage.Like one other) :
    other.engine = { one.engine with
      contexts := one.engine.contexts.set passage.context passage.twin
      missing := other.engine.missing } := like.later.engine

/-- The contexts are the same but for that one. -/
theorem contexts (like : passage.Like one other) :
    other.engine.contexts = one.engine.contexts.set passage.context passage.twin :=
  congrArg Engine.contexts like.engine

/-- The places of all contexts are the same. -/
theorem places (like : passage.Like one other) :
    one.engine.contexts.SamePlaces other.engine.contexts := by
  rw [like.contexts]
  exact .replaced like.found rfl

/-- Other contexts are put in the place of those that are there. -/
theorem withContexts (like : passage.Like one other) {contexts : ContextTree}
    (found : contexts.contexts[passage.context.raw]? = some passage.held) :
    passage.Like (one.withContexts contexts)
      (other.withContexts (contexts.set passage.context passage.twin)) := by
  refine ⟨found, like.limit, like.shares, like.alone, like.later.registry, ?_, like.later.missing,
    like.later.heap, like.later.tallies, like.later.home⟩
  simp only [World.withContexts]
  rw [like.engine]

/-- Registries are put in the place of those that are there. -/
theorem withRegistry (like : passage.Like one other) {registry twin : Registry}
    (beside : registry.Beside (Option.Rel (Grows (passage.base.Tells passage.toOffset)
      passage.base.registry.events)) twin) :
    passage.Like { one with registry } { other with registry := twin } :=
  ⟨like.found, like.limit, like.shares, like.alone, beside, like.later.engine, like.later.missing,
    like.later.heap, like.later.tallies, like.later.home⟩

/-- Shared objects are put in the place of those that are there. -/
theorem withHeap (like : passage.Like one other) (heap : Heap) :
    passage.Like { one with heap } { other with heap } :=
  ⟨like.found, like.limit, like.shares, like.alone, like.later.registry, like.later.engine,
    like.later.missing, rfl, like.later.tallies, like.later.home⟩

/-- While another engine is at work, the worlds are alike in some way, and they are alike in the
first way again when the engine comes back. -/
theorem away (like : passage.Like one other) :
    ∃ way : (Likeness.further passage).Way,
      (Likeness.further passage).like way one.atHome other.atHome ∧
      (∀ request, request.LooksOnlyAt passage.seen →
        (Likeness.further passage).may way .host request) ∧
      ∀ after behind, (Likeness.further passage).like way after behind →
        passage.Like (one.backFrom after) (other.backFrom behind) := by
  have homes : other.home = one.home := like.later.home
  cases waits : one.home with
  | none =>
    refine ⟨none, ?_, fun _ may => ⟨.inl passage.guest.symm, may⟩, fun after behind alike => ?_⟩
    · simp only [World.atHome, homes, waits]
      exact like
    · simp only [World.backFrom, homes, waits]
      exact alike
  | some home =>
    obtain ⟨engine, own⟩ := home
    cases own with
    | none =>
      have shares : passage.base.SharesRegistry := like.shares ⟨_, waits, rfl⟩
      refine ⟨some (passage.journals shares), ?_, fun _ may => may, fun after behind alike => ?_⟩
      · simp only [World.atHome, homes, waits]
        exact ⟨rfl, like.later.registry, like.later.heap, like.later.tallies, .none⟩
      · have beside : after.Beside (passage.journals shares) behind := alike
        simp only [World.backFrom, homes, waits]
        refine ⟨like.found, like.limit, fun _ => shares, fun none => absurd none (by simp),
          beside.registry, like.later.engine, like.later.missing, beside.heap, beside.tallies, ?_⟩
        simp only [World.withContexts, beside.engine, Option.map_none]
    | some registry =>
      refine ⟨some (.same _), ?_, fun _ may => may, fun after behind alike => ?_⟩
      · simp only [World.atHome, homes, waits]
        exact ⟨rfl, ⟨rfl, rfl⟩, like.later.heap, like.later.tallies, .none⟩
      · have beside : after.Beside (.same passage.seen) behind := alike
        have registries : behind.registry = after.registry := by
          have journals : after.registry.journal = behind.registry.journal := beside.registry.1
          rw [beside.registry.2, ← journals]
        simp only [World.backFrom, homes, waits]
        refine ⟨like.found, like.limit, ?_, fun none => absurd none (by simp),
          like.later.registry, like.later.engine, like.later.missing, beside.heap, beside.tallies,
          ?_⟩
        · rintro ⟨_, same, none⟩
          obtain rfl := Option.some.inj same
          cases none
        · simp only [World.withContexts, beside.engine, registries, Option.map_some]

/-- What may be looked at is told in the same way, if no other engine waits. -/
theorem tell_alone (like : passage.Like one other) (alone : one.home = none) {query : Query}
    (may : passage.seen query) : other.tell query = one.tell query := by
  have registry : one.registry.Beside _ other.registry := like.later.registry
  have base := like.alone alone
  cases query with
  | context id =>
    have apart : passage.context.raw ≠ id.raw :=
      fun same => may ⟨base, (congrArg ContextId.mk same).symm⟩
    simp only [World.tell, like.contexts, ContextTree.get, ContextTree.set,
      List.getElem?_set_ne apart]
  | children id => exact like.places.children id
  | contextCount => exact like.places.count
  | languages =>
    have languages : other.engine.languages = one.engine.languages := by
      rw [like.engine]
    simp only [World.tell, languages]
  | report => exact absurd (.inl base) may
  | names =>
    have bindings : other.registry.bindings = one.registry.bindings := by
      rw [registry.2]
    simp only [World.tell, Registry.names, bindings]
  | originOf name => exact registry.originOf name
  | isJournaling =>
    have kept := registry.1
    simp only [World.tell, Registry.isJournaling]
    generalize one.registry.journal = journal at kept ⊢
    generalize other.registry.journal = twin at kept ⊢
    cases kept <;> rfl
  | events => exact absurd (.inl base) may

/-- What may be looked at is told in the same way. -/
theorem tell (like : passage.Like one other) {query : Query} (may : passage.seen query) :
    other.atHome.tell query = one.atHome.tell query := by
  obtain ⟨way, alike, _, _⟩ := like.away
  cases way with
  | none =>
    have atHome : passage.Like one.atHome other.atHome := alike
    exact atHome.tell_alone one.home_atHome may
  | some relation =>
    have beside : one.atHome.Beside relation other.atHome := alike
    exact beside.tell may

end Passage.Like

namespace Engine

variable {passage : Passage} {one other : World}

/-- A context is created. -/
theorem createContext_further (like : passage.Like one other) (parent : ContextId)
    (language : String) :
    (createContext (some parent) language other).1 = (createContext (some parent) language one).1 ∧
      passage.Like (createContext (some parent) language one).2
        (createContext (some parent) language other).2 := by
  have languages : other.engine.languages = one.engine.languages := by
    rw [like.engine]
  have below := like.places.depthBelow parent
  simp only [createContext, languages]
  cases known : one.engine.languages.get language with
  | error fault => exact ⟨rfl, like⟩
  | ok found =>
    cases depth : one.engine.contexts.depthBelow (some parent) with
    | error fault =>
      simp only [ContextTree.create, below, depth]
      refine ⟨trivial, ?_⟩
      rw [like.contexts]
      exact like.withContexts like.found
    | ok depth' =>
      by_cases room : one.engine.contexts.count < ContextTree.capacity
      · have there : passage.context.raw < one.engine.contexts.count :=
          ContextTree.lt_count like.found
        have created := ContextTree.create_of_depthBelow depth room language found.session
        have twin := ContextTree.create_of_depthBelow (below.trans depth)
          (like.places.count.symm ▸ room) language found.session
        simp only [created, twin, like.places.count]
        refine ⟨trivial, ?_⟩
        rw [like.contexts, ContextTree.add_set there]
        exact like.withContexts ((ContextTree.contexts_add_of_lt _ there).trans like.found)
      · simp only [ContextTree.create, below, depth, like.places.count, if_neg room]
        refine ⟨trivial, ?_⟩
        rw [like.contexts]
        exact like.withContexts like.found

/-- A unit is evaluated in a context. -/
theorem respondEvaluate_further (like : passage.Like one other) (target : ContextId)
    (unit : SourceUnit) :
    (respondEvaluate target unit one).Like (.further passage) none
      (respondEvaluate target unit other) := by
  have limit : other.engine.maxDepth = one.engine.maxDepth := by
    rw [like.engine]
  by_cases same : target = passage.context
  · -- The context has given its session away in both worlds.
    subst same
    have there := ContextTree.lt_count like.found
    have twin : other.engine.contexts.contexts[passage.context.raw]? = some passage.twin := by
      rw [like.contexts]
      exact ContextTree.contexts_set_self there _
    simp only [respondEvaluate, ContextTree.begin_of_taken like.found passage.taken,
      ContextTree.begin_of_taken twin passage.taken]
    exact .now like
  · have apart : passage.context.raw ≠ target.raw :=
      fun equal => same (congrArg ContextId.mk equal).symm
    have begins :
        (one.engine.contexts.set passage.context passage.twin).begin target unit.path = _ :=
      ContextTree.begin_set same passage.twin unit.path
    rw [← like.contexts] at begins
    simp only [respondEvaluate, begins, limit]
    rcases begun : one.engine.contexts.begin target unit.path with
      ⟨fault | ⟨session, depth⟩, opened⟩
    · obtain rfl := ContextTree.begin_of_refused begun
      exact .now (like.withContexts like.found)
    · have found : opened.contexts[passage.context.raw]? = some passage.held := by
        obtain ⟨_, _, _, _, rfl⟩ := ContextTree.begin_cases begun
        exact (List.getElem?_set_ne apart.symm).trans like.found
      dsimp only
      split
      · rw [ContextTree.finish_set same]
        refine .now (like.withContexts ?_)
        rw [ContextTree.contexts_finish_of_ne session false apart]
        exact found
      · refine .after none (like.withContexts found)
          ((Session.evaluate_looksOnlyAt passage.seen _ _ _).mono fun _ may => ⟨.inl same, may⟩) ?_
        rintro ⟨session, outcome⟩ one other inside
        have like : passage.Like one other := inside
        simp only [Pending.conclude, like.contexts, ContextTree.finish_set same]
        refine ⟨trivial, like.withContexts ?_⟩
        rw [ContextTree.contexts_finish_of_ne session _ apart]
        exact like.found

/-- A unit is evaluated in a new context. -/
theorem respondBelow_further (like : passage.Like one other) (parent : ContextId)
    (unit : SourceUnit) :
    (respondBelow parent unit one).Like (.further passage) none
      (respondBelow parent unit other) := by
  obtain ⟨same, created⟩ := createContext_further like parent unit.language
  rcases here : createContext (some parent) unit.language one with ⟨outcome, after⟩
  rcases there : createContext (some parent) unit.language other with ⟨twin, behind⟩
  rw [here, there] at same created
  obtain rfl : twin = outcome := same
  simp only [respondBelow, here, there]
  cases twin with
  | error fault => exact .now created
  | ok child => exact (respondEvaluate_further created child unit).name child

/-- A source is evaluated, for a statement that may be further down. -/
theorem respondEval_further (like : passage.Like one other) (caller : ContextId)
    (language path : String) (line : Option Nat) :
    (respondEval caller language path line one).Like (.further passage) none
      (respondEval caller language path (passage.line caller line) other) := by
  have languages : other.engine.languages = one.engine.languages := by
    rw [like.engine]
  have loader : other.engine.loader = one.engine.loader := by
    rw [like.engine]
  simp only [respondEval, like.places.sourceOf, languages, loader]
  split
  · exact .now like
  · split
    · refine .now ?_
      unfold noteMissing
      split
      · refine ⟨like.found, like.limit, like.shares, like.alone, like.later.registry, ?_,
          like.later.missing.snoc rfl, like.later.heap, like.later.tallies, like.later.home⟩
        simp only [World.withContexts]
        rw [like.engine]
      · exact like
    · exact respondBelow_further like caller _

/-- A name is looked up, for a statement that may be further down. -/
theorem respondImport_further (like : passage.Like one other) {routines : Routines}
    (looks : routines.LookOnlyAt passage.seen) (context : ContextId) (name : String)
    (line : Option Nat) :
    (respondImport routines context name line one).Like (.further passage) none
      (respondImport routines context name (passage.line context line) other) := by
  have beside := like.later.registry
  have journals : Option.Rel
      (Grows (passage.base.Tells passage.toOffset) passage.base.registry.events)
      (one.registry.lookUp name context line).2.journal
      (other.registry.lookUp name context (passage.line context line)).2.journal := by
    rw [Registry.journal_lookUp, Registry.journal_lookUp, beside.contains]
    exact Grows.snoc_map beside.1 (.inl rfl)
  have lookedUp := beside.lookUp journals
  have found : other.registry.find? name = one.registry.find? name := beside.find? name
  simp only [respondImport, found]
  split
  · exact .now (like.withRegistry lookedUp)
  · split
    · exact .now (like.withRegistry lookedUp)
    · exact .now (like.withRegistry lookedUp)
    · rename_i routine _
      refine .after none (like.withRegistry (lookedUp.replace name _))
        ((looks routine []).mono fun _ may => ⟨.inl passage.guest.symm, may⟩) ?_
      intro outcome one other inside
      have like : passage.Like one other := inside
      exact ⟨rfl, like.withRegistry (like.later.registry.settle name _ _ outcome)⟩

/-- A name is bound, for a statement that may be further down. -/
theorem bindName_further (like : passage.Like one other) (context : ContextId) (name : String)
    (slot : Slot) (line : Option Nat) :
    passage.Like (bindName context name slot line one)
      (bindName context name slot (passage.line context line) other) := by
  refine like.withRegistry (like.later.registry.bind ?_)
  rw [Registry.journal_bind, Registry.journal_bind, like.later.registry.originOf]
  exact Grows.snoc_map like.later.registry.1 (.inl rfl)

/-- A function is called. -/
theorem respondCall_further (like : passage.Like one other) {routines : Routines}
    (looks : routines.LookOnlyAt passage.seen) (function : Reference) (arguments : List Value) :
    (respondCall routines function arguments one).Like (.further passage) none
      (respondCall routines function arguments other) := by
  have heap : other.heap = one.heap := like.later.heap
  simp only [respondCall, heap]
  split
  · exact .now like
  · obtain ⟨way, alike, may, back⟩ := like.away
    exact .after way alike ((looks _ _).mono may)
      fun outcome after behind inside => ⟨rfl, back after behind inside⟩

/-- The host evaluates a unit in a new context. -/
theorem respondEvalUnit_further (like : passage.Like one other) (unit : SourceUnit) :
    ((respondBelow .host unit one.atHome).back one).Like (.further passage) none
      ((respondBelow .host unit other.atHome).back other) := by
  obtain ⟨way, alike, _, back⟩ := like.away
  have below : (respondBelow .host unit one.atHome).Like (.further passage) way
      (respondBelow .host unit other.atHome) := by
    cases way with
    | none => exact respondBelow_further alike .host unit
    | some relation => exact (respondBelow_beside alike .host unit).embed
  exact below.back back

end Engine

namespace Passage

variable (passage : Passage)

/-- Programs of other contexts do not see a difference, nor does what tells no line. -/
theorem holds {routines : Routines} (looks : routines.LookOnlyAt passage.seen) :
    (Likeness.further passage).Holds routines := by
  rintro (_ | relation) context request one other may alike
  · have like : passage.Like one other := alike
    have lines : ∀ line, request.line? = line → passage.line context line = line := by
      rintro line rfl
      rcases may.1 with other | plain
      · exact passage.line_of_ne other _
      · rw [plain, passage.line_none]
    have heap : other.heap = one.heap := like.later.heap
    have tallies : other.tallies = one.tallies := like.later.tallies
    cases request with
    | inspect =>
      simp only [Engine.respond, heap]
      exact .now like
    | look query =>
      simp only [Engine.respond, like.tell may.2]
      exact .now like
    | allocate pairs =>
      simp only [Engine.respond, heap]
      exact .now (like.withHeap _)
    | setField target name value =>
      simp only [Engine.respond, heap]
      split
      · exact .now (like.withHeap _)
      · exact .now like
    | call function arguments => exact Engine.respondCall_further like looks function arguments
    | importName name line =>
      have further := Engine.respondImport_further like looks context name line
      rwa [lines line rfl] at further
    | exportValue name value line =>
      have further := Engine.bindName_further like context name (.ready value) line
      rw [lines line rfl] at further
      exact .now further
    | exportLazy name routine =>
      have further := Engine.bindName_further like context name (.deferred routine) none
      rw [passage.line_none] at further
      exact .now further
    | eval language path line =>
      have further := Engine.respondEval_further like context language path line
      rwa [lines line rfl] at further
    | evaluate target unit => exact Engine.respondEvaluate_further like target unit
    | evalUnit unit => exact Engine.respondEvalUnit_further like unit
    | print line =>
      have output : other.engine.output = one.engine.output := by
        rw [like.engine]
      simp only [Engine.respond, output]
      refine .now ⟨like.found, like.limit, like.shares, like.alone, like.later.registry, ?_,
        like.later.missing, like.later.heap, like.later.tallies, like.later.home⟩
      simp only [World.withContexts]
      rw [like.engine]
    | tally name =>
      simp only [Engine.respond, tallies]
      exact .now ⟨like.found, like.limit, like.shares, like.alone, like.later.registry,
        like.later.engine, like.later.missing, like.later.heap, rfl, like.later.home⟩
  · exact (Likeness.journals_holds looks relation context request one other may alike).embed

variable {passage} {α β : Type} {agree : α → β → Prop} {one other : World}

/-- However many programs run inside each other, what a program of the context does is done further
down too. -/
theorem Like.within (like : passage.Like one other) {routines : Routines}
    (looks : routines.LookOnlyAt passage.seen) (allowance : Nat) {program : Program α}
    {twin : Program β} (later : program.Later passage.lines agree twin) :
    (Likeness.further passage).Ends none agree
      (Runner.within routines allowance α passage.context program one)
      (Runner.within routines allowance β passage.context twin other) := by
  cases allowance with
  | zero => exact .none
  | succ allowance =>
    have holds := passage.holds looks
    have further (line : Nat) :
        passage.line passage.context (some line) = some (line + passage.lines) := by
      rw [passage.line_self, Option.map_some]
    simp only [Runner.within]
    induction later generalizing one other with
    | done agrees => exact .some ⟨agrees, like⟩
    | @ask request next follow plain scripted rest ih =>
      have may := scripted.looksOnlyAt passage.seen
      have answered := holds.complete allowance
        (holds none passage.context request one other ⟨.inr plain, may⟩ like)
      simp only [Program.run, Engine.answer_eq]
      refine answered.bind fun answer twin after behind same like => ?_
      obtain rfl := same
      exact ih answer like
    | @importName name line next follow rest ih =>
      have reply := Engine.respondImport_further like looks passage.context name (some line)
      rw [further] at reply
      simp only [Program.run, Engine.answer_eq]
      refine (holds.complete allowance reply).bind fun answer twin after behind same like => ?_
      obtain rfl := same
      exact ih answer like
    | @exportValue name value line next follow rest ih =>
      have bound := Engine.bindName_further like passage.context name (.ready value) (some line)
      rw [further] at bound
      exact ih () bound
    | @eval language path line next follow rest ih =>
      have reply := Engine.respondEval_further like passage.context language path (some line)
      rw [further] at reply
      simp only [Program.run, Engine.answer_eq]
      refine (holds.complete allowance reply).bind fun answer twin after behind same like => ?_
      obtain rfl := same
      exact ih answer like

end Passage

end Interchange
