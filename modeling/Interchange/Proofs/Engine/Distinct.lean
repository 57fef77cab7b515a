import Interchange.Proofs.Context.Places
import Interchange.Proofs.Engine.Objects
import Interchange.Proofs.Guests.HandedOver
import Interchange.Proofs.Host.Distinct

/-!
# Data never repeat a field

The records of the form language are lists of fields, and nothing in them forbids that a name
stands twice. It never does: the values that are bound, those in shared objects and the locals of
all sessions have distinct names to begin with, programs hand over only such values as long as they
are told only such values, and so every moment leads to another one of which the same holds
(`Moment.Step.distinct`). Therefore data of the form language are always read as the values that
they stand for (`forms_repeat_no_field`).
-/
namespace Interchange

open Fault

/-- A value that is held has no name twice in a record. -/
def Slot.NamesDistinct : Slot → Prop
  | ready value => value.NamesDistinct
  | deferred _ => True
  | forcing _ => True

/-- No value that is bound has a name twice in a record. -/
def Registry.NamesDistinct (registry : Registry) : Prop :=
  ∀ name binding, registry.find? name = some binding → binding.slot.NamesDistinct

namespace Registry.NamesDistinct

variable {registry : Registry}

/-- Binding a name. -/
theorem bind (distinct : registry.NamesDistinct) {slot : Slot} (given : slot.NamesDistinct)
    (name : String) (origin : ContextId) (line : Option Nat) :
    (registry.bind name slot origin line).NamesDistinct := by
  intro other binding found
  rw [find?_bind] at found
  split at found
  · exact Option.some.inj found ▸ given
  · exact distinct other binding found

/-- Letting a binding hold something else. -/
theorem replace (distinct : registry.NamesDistinct) {slot : Slot} (given : slot.NamesDistinct)
    (name : String) : (registry.replace name slot).NamesDistinct := by
  intro other binding found
  rw [find?_replace] at found
  split at found
  · obtain ⟨_, _, rfl⟩ := Option.map_eq_some_iff.1 found
    exact given
  · exact distinct other binding found

/-- Settling the binding that a routine ran for. -/
theorem settle (distinct : registry.NamesDistinct) {outcome : Except Fault Value}
    (comes : ComesTo Value.NamesDistinct outcome) (name : String) (generation routine : Nat) :
    (registry.settle name generation routine outcome).NamesDistinct := by
  intro other binding found
  rw [find?_settle] at found
  split at found
  · obtain ⟨old, there, rfl⟩ := Option.map_eq_some_iff.1 found
    split
    · cases outcome with
      | ok value => exact comes value rfl
      | error fault => trivial
    · exact distinct name old there
  · exact distinct other binding found

end Registry.NamesDistinct

namespace Heap.NamesDistinct

variable {heap after : Heap}

/-- Making a shared record. -/
theorem allocateRecord (held : heap.NamesDistinct) (origin : ContextId)
    {pairs : List (String × Value)} (given : ∀ pair ∈ pairs, pair.2.NamesDistinct) :
    (heap.allocateRecord origin pairs).2.NamesDistinct := by
  intro object mem value inside
  rcases List.mem_append.1 mem with old | new
  · exact held object old value inside
  · obtain rfl := List.mem_singleton.1 new
    obtain ⟨field, there, rfl⟩ := List.mem_map.1 inside
    exact given field ((Fields.ofPairs_of_pairs pairs).2 field there)

/-- Setting a field. -/
theorem setField (held : heap.NamesDistinct) {target : Reference} {name : String} {value : Value}
    (given : value.NamesDistinct) (set : heap.setField target name value = .ok after) :
    after.NamesDistinct := by
  unfold Heap.setField at set
  split at set
  · rename_i fields there
    obtain rfl := Except.ok.inj set
    intro object mem part inside
    rcases List.mem_or_eq_of_mem_set mem with old | rfl
    · exact held object old part inside
    · obtain ⟨field, put, rfl⟩ := List.mem_map.1 inside
      rcases Fields.mem_of_mem_put put with rfl | old
      · exact given
      · exact held _ (List.mem_of_getElem? there) field.2 (List.mem_map_of_mem old)
  · cases set

end Heap.NamesDistinct

/-- No local of the form language has a name twice in a record, in any session that the contexts
keep. -/
def ContextTree.NamesDistinct (tree : ContextTree) : Prop :=
  ∀ context ∈ tree.contexts, ∀ session, context.session = some session → session.NamesDistinct

namespace ContextTree.NamesDistinct

variable {tree after : ContextTree}

/-- A context is replaced. -/
theorem set (distinct : tree.NamesDistinct) (id : ContextId) {context : Context}
    (kept : ∀ session, context.session = some session → session.NamesDistinct) :
    (tree.set id context).NamesDistinct := by
  intro other mem session holds
  rcases List.mem_or_eq_of_mem_set mem with old | rfl
  · exact distinct other old session holds
  · exact kept session holds

/-- A context is created. -/
theorem create (distinct : tree.NamesDistinct) {parent : Option ContextId} {language : String}
    {session : Session} (given : session.NamesDistinct) {id : ContextId}
    (created : tree.create parent language session = (.ok id, after)) : after.NamesDistinct := by
  obtain ⟨context, _, _, rfl, _, fresh⟩ := create_cases created
  intro other mem own holds
  rcases List.mem_append.1 mem with old | new
  · exact distinct other old own holds
  · obtain rfl := List.mem_singleton.1 new
    obtain rfl := Option.some.inj (fresh.session.symm.trans holds)
    exact given

/-- A context begins to evaluate a unit: its session has such locals. -/
theorem begin (distinct : tree.NamesDistinct) {id : ContextId} {source : String}
    {session : Session} {depth : Nat}
    (began : tree.begin id source = (.ok (session, depth), after)) :
    session.NamesDistinct ∧ after.NamesDistinct := by
  obtain ⟨context, found, holds, _, rfl⟩ := begin_cases began
  refine ⟨distinct context (List.mem_of_getElem? found) session holds, distinct.set id ?_⟩
  intro session impossible
  cases impossible

/-- A context ends a unit. -/
theorem finish (distinct : tree.NamesDistinct) (id : ContextId) {session : Session}
    (left : session.NamesDistinct) (succeeded : Bool) :
    (tree.finish id session succeeded).NamesDistinct := by
  unfold ContextTree.finish
  split
  · exact distinct
  · refine distinct.set id fun other same => ?_
    exact Option.some.inj same ▸ left

end ContextTree.NamesDistinct

/-- Neither the contexts of the engine nor those to be created have locals of the form language with
a name twice in a record. -/
structure Engine.NamesDistinct (engine : Engine) : Prop where
  /-- What new contexts begin with. -/
  languages : ∀ id language, engine.languages.get id = .ok language → language.session.NamesDistinct
  /-- What the contexts keep. -/
  contexts : engine.contexts.NamesDistinct

/-- Nothing in the world has a name twice in a record. -/
structure World.NamesDistinct (world : World) : Prop where
  /-- The sessions of the engine at work. -/
  engine : world.engine.NamesDistinct
  /-- The values that are bound. -/
  registry : world.registry.NamesDistinct
  /-- The values in shared objects. -/
  heap : world.heap.NamesDistinct
  /-- The first engine, while it waits. -/
  home : ∀ home, world.home = some home → home.engine.NamesDistinct ∧
    ∀ registry, home.registry = some registry → registry.NamesDistinct

namespace World.NamesDistinct

variable {world : World} (distinct : world.NamesDistinct)
include distinct

/-- Contexts change. -/
theorem withContexts {contexts : ContextTree} (kept : contexts.NamesDistinct) :
    (world.withContexts contexts).NamesDistinct :=
  ⟨⟨distinct.engine.languages, kept⟩, distinct.registry, distinct.heap, distinct.home⟩

/-- Something happens in the registry. -/
theorem withRegistry {registry : Registry} (kept : registry.NamesDistinct) :
    World.NamesDistinct { world with registry } :=
  ⟨distinct.engine, kept, distinct.heap, distinct.home⟩

/-- Shared objects change. -/
theorem withHeap {heap : Heap} (kept : heap.NamesDistinct) :
    World.NamesDistinct { world with heap } :=
  ⟨distinct.engine, distinct.registry, kept, distinct.home⟩

/-- The first engine goes to work. -/
theorem atHome : world.atHome.NamesDistinct := by
  unfold World.atHome
  split
  · exact distinct
  · rename_i home waits
    obtain ⟨engine, registry⟩ := distinct.home home waits
    refine ⟨engine, ?_, distinct.heap, fun _ impossible => by cases impossible⟩
    dsimp only
    cases own : home.registry with
    | none => exact distinct.registry
    | some kept => exact registry kept own

/-- The engine that was at work before goes to work again, and the first one waits. -/
theorem backFrom {after : World} (inside : after.NamesDistinct) :
    (world.backFrom after).NamesDistinct := by
  unfold World.backFrom
  split
  · exact inside
  · rename_i home waits
    refine ⟨distinct.engine, ?_, inside.heap, fun other same => ?_⟩
    · dsimp only
      split
      · exact distinct.registry
      · exact inside.registry
    · obtain rfl := Option.some.inj same
      refine ⟨inside.engine, fun registry own => ?_⟩
      obtain ⟨_, _, rfl⟩ := Option.map_eq_some_iff.1 own
      exact inside.registry

end World.NamesDistinct

namespace Pending

/-- The results with which no name comes to stand twice in a record. -/
def Takes {β α : Type} : Pending β α → β → Prop
  | passing, outcome => ComesTo Value.NamesDistinct outcome
  | settling .., outcome => ComesTo Value.NamesDistinct outcome
  | finishing .., ended => ended.1.NamesDistinct
  | naming _ pending, result => pending.Takes result
  | returning _ pending, result => pending.Takes result

/-- Nothing in the worlds to return to has a name twice in a record. -/
def NamesDistinct {β α : Type} : Pending β α → Prop
  | passing | settling .. | finishing .. => True
  | naming _ pending => pending.NamesDistinct
  | returning before pending => before.NamesDistinct ∧ pending.NamesDistinct

/-- When what is left to do has been done, nothing in the world has a name twice in a record. -/
theorem NamesDistinct.conclude {β α : Type} {pending : Pending β α}
    (returns : pending.NamesDistinct) {result : β} (takes : pending.Takes result) {world : World}
    (distinct : world.NamesDistinct) : (pending.conclude result world).2.NamesDistinct := by
  induction pending with
  | passing => exact distinct
  | settling name generation routine =>
    exact distinct.withRegistry (distinct.registry.settle takes name generation routine)
  | finishing context unit =>
    exact distinct.withContexts (distinct.engine.contexts.finish context takes result.2.isOk)
  | naming child pending ih => exact ih returns takes
  | returning before pending ih => exact returns.1.backFrom (ih returns.2 takes)

end Pending

/-- The reply is of a kind, now or when the program that it starts has ended; nothing in the world
has a name twice in a record, and the program keeps it so. -/
def Reply.Distinct {α : Type} (kind : α → Prop) : Reply α → Prop
  | now answer left => kind answer ∧ left.NamesDistinct
  | after _ program opened pending =>
    opened.NamesDistinct ∧ pending.NamesDistinct ∧ program.Distinct pending.Takes ∧
      ∀ result world, pending.Takes result → kind (pending.conclude result world).1

namespace Reply.Distinct

variable {α : Type} {kind : α → Prop}

/-- The kind may be wider. -/
theorem mono {wider : α → Prop} {reply : Reply α} (distinct : reply.Distinct kind)
    (wide : ∀ answer, kind answer → wider answer) : reply.Distinct wider := by
  cases reply with
  | now answer left => exact ⟨wide answer distinct.1, distinct.2⟩
  | after inner program opened pending =>
    obtain ⟨inside, returns, keeps, answers⟩ := distinct
    exact ⟨inside, returns, keeps, fun result world takes => wide _ (answers result world takes)⟩

/-- Answering with a context changes no value. -/
theorem name {reply : Reply (Except Fault Unit)} (distinct : reply.Distinct fun _ => True)
    (child : ContextId) : (reply.name child).Distinct fun _ => True := by
  cases reply with
  | now answer left => exact distinct
  | after inner program opened pending =>
    obtain ⟨inside, returns, keeps, _⟩ := distinct
    exact ⟨inside, returns, keeps, fun _ _ _ => trivial⟩

/-- Returning to the engine that was at work before. -/
theorem back {world : World} (before : world.NamesDistinct) {reply : Reply α}
    (distinct : reply.Distinct kind) : (reply.back world).Distinct kind := by
  cases reply with
  | now answer left => exact ⟨distinct.1, before.backFrom distinct.2⟩
  | after inner program opened pending =>
    obtain ⟨inside, returns, keeps, answers⟩ := distinct
    exact ⟨inside, ⟨before, returns⟩, keeps, fun result after takes =>
      answers result after takes⟩

end Reply.Distinct

namespace Engine

variable {world : World} (distinct : world.NamesDistinct)
include distinct

/-- A script is started with locals that have no name twice in a record. -/
theorem respondEvaluate_distinct (context : ContextId) (unit : SourceUnit) :
    (respondEvaluate context unit world).Distinct fun _ => True := by
  rcases began : world.engine.contexts.begin context unit.path with
    ⟨fault | ⟨session, depth⟩, contexts⟩
  · rw [respondEvaluate_of_refused began]
    exact ⟨trivial, distinct⟩
  · simp only [respondEvaluate, began]
    obtain ⟨locals, kept⟩ := distinct.engine.contexts.begin began
    split
    · exact ⟨trivial, distinct.withContexts (kept.finish context locals false)⟩
    · exact ⟨distinct.withContexts kept, trivial, Session.evaluate_distinct locals _ _,
        fun _ _ _ => trivial⟩

/-- A context is created, or not. -/
theorem createContext_distinct (parent : Option ContextId) (language : String) :
    (createContext parent language world).2.NamesDistinct := by
  rcases createContext_cases parent language world with
    ⟨fault, refused⟩ | ⟨found, child, contexts, known, made, created⟩
  · rw [refused]
    exact distinct
  · rw [created]
    have begins := distinct.engine.languages language found known
    exact distinct.withContexts (distinct.engine.contexts.create begins made)

/-- A unit is evaluated in a new context. -/
theorem respondBelow_distinct (parent : ContextId) (unit : SourceUnit) :
    (respondBelow parent unit world).Distinct fun _ => True := by
  have opens := createContext_distinct distinct (some parent) unit.language
  unfold respondBelow
  split
  · rename_i fault left refused
    rw [refused] at opens
    exact ⟨trivial, opens⟩
  · rename_i child opened created
    rw [created] at opens
    exact (respondEvaluate_distinct opens child unit).name child

/-- A source is evaluated. -/
theorem respondEval_distinct (caller : ContextId) (language path : String) (line : Option Nat) :
    (respondEval caller language path line world).Distinct fun _ => True := by
  unfold respondEval
  dsimp only
  split
  · exact ⟨trivial, distinct⟩
  · split
    · unfold noteMissing
      split
      · exact ⟨trivial, ⟨⟨distinct.engine.languages, distinct.engine.contexts⟩, distinct.registry,
          distinct.heap, distinct.home⟩⟩
      · exact ⟨trivial, distinct⟩
    · exact respondBelow_distinct distinct caller _

/-- A name is looked up. -/
theorem respondImport_distinct {routines : Routines} (keep : routines.KeepDistinct)
    (context : ContextId) (name : String) (line : Option Nat) :
    (respondImport routines context name line world).Distinct (ComesTo Value.NamesDistinct) := by
  have looked : (world.registry.lookUp name context line).2.NamesDistinct := distinct.registry
  unfold respondImport
  dsimp only
  split
  · exact ⟨comesTo_error _, distinct.withRegistry looked⟩
  · rename_i binding found
    have held := distinct.registry name binding found
    split
    · rename_i value ready
      rw [ready] at held
      exact ⟨comesTo_ok held, distinct.withRegistry looked⟩
    · exact ⟨comesTo_error _, distinct.withRegistry looked⟩
    · rename_i routine _
      have running : (Slot.forcing routine).NamesDistinct := trivial
      exact ⟨distinct.withRegistry (looked.replace running name), trivial,
        keep routine [] fun _ mem => absurd mem List.not_mem_nil, fun _ _ comes => comes⟩

/-- A function is called. -/
theorem respondCall_distinct {routines : Routines} (keep : routines.KeepDistinct)
    (function : Reference) {arguments : List Value}
    (given : ∀ argument ∈ arguments, argument.NamesDistinct) :
    (respondCall routines function arguments world).Distinct (ComesTo Value.NamesDistinct) := by
  unfold respondCall
  split
  · exact ⟨comesTo_error _, distinct⟩
  · rename_i routine _
    exact ⟨distinct.atHome, ⟨distinct, trivial⟩, keep routine arguments given,
      fun _ _ comes => comes⟩

/-- Whatever is asked for with values that have no name twice in a record is answered with such
values. -/
theorem respond_distinct {routines : Routines} (keep : routines.KeepDistinct) (context : ContextId)
    {request : Request} (given : request.NamesDistinct) :
    (respond routines context request world).Distinct request.AnswersDistinct := by
  cases request with
  | inspect => exact ⟨distinct.heap, distinct⟩
  | look query => exact ⟨trivial, distinct⟩
  | allocate pairs =>
    exact ⟨trivial, distinct.withHeap (distinct.heap.allocateRecord context given)⟩
  | setField target name value =>
    simp only [respond]
    split
    · rename_i heap set
      exact ⟨trivial, distinct.withHeap (distinct.heap.setField given set)⟩
    · exact ⟨trivial, distinct⟩
  | call function arguments => exact respondCall_distinct distinct keep function given
  | importName name line => exact respondImport_distinct distinct keep context name line
  | exportValue name value line =>
    have held : (Slot.ready value).NamesDistinct := given
    exact ⟨trivial, distinct.withRegistry (distinct.registry.bind held name context line)⟩
  | exportLazy name routine =>
    have held : (Slot.deferred routine).NamesDistinct := trivial
    exact ⟨trivial, distinct.withRegistry (distinct.registry.bind held name context none)⟩
  | eval language path line => exact respondEval_distinct distinct context language path line
  | evaluate target unit => exact respondEvaluate_distinct distinct target unit
  | evalUnit unit => exact (respondBelow_distinct distinct.atHome .host unit).back distinct
  | print line =>
    exact ⟨trivial, ⟨⟨distinct.engine.languages, distinct.engine.contexts⟩, distinct.registry,
      distinct.heap, distinct.home⟩⟩
  | tally name =>
    exact ⟨trivial, ⟨distinct.engine, distinct.registry, distinct.heap, distinct.home⟩⟩

end Engine

/-- What is asked for from outside hands over no value with a name twice in a record. -/
def Operation.NamesDistinct : Operation → Prop
  | ask _ request => request.NamesDistinct
  | create .. => True
  | evaluate _ => True

/-- Operations from outside keep names distinct. -/
theorem Operation.reply_distinct {routines : Routines} (keep : routines.KeepDistinct)
    {world : World} (distinct : world.NamesDistinct) {operation : Operation}
    (given : operation.NamesDistinct) :
    (operation.reply routines world).Distinct fun _ => True := by
  cases operation with
  | ask context request =>
    exact (Engine.respond_distinct distinct keep context given).mono fun _ _ => trivial
  | create parent language =>
    exact ⟨trivial, Engine.createContext_distinct distinct parent language⟩
  | evaluate call =>
    cases call with
    | source caller language path line =>
      exact Engine.respondEval_distinct distinct caller language path line
    | file path =>
      rw [reply, Call.reply]
      cases world.engine.languages.forPath path with
      | error fault => exact ⟨trivial, distinct⟩
      | ok language => exact Engine.respondEval_distinct distinct .host language.id path none
    | text unit => exact Engine.respondBelow_distinct distinct .host unit

/-- The results with which a program lets those go on that wait for it; what it comes to if none
waits is given. -/
def Stack.Takes (final : (α : Type) → α → Prop) {α : Type} : Stack α → α → Prop
  | bottom, result => final α result
  | frame _ pending _ _, result => pending.Takes result

/-- The programs that wait keep names distinct when they go on. -/
def Stack.Distinct (final : (α : Type) → α → Prop) {α : Type} : Stack α → Prop
  | bottom => True
  | frame _ pending next rest =>
    pending.NamesDistinct ∧
      (∀ result world, pending.Takes result →
        (next (pending.conclude result world).1).Distinct (rest.Takes final)) ∧
      rest.Distinct final

/-- At this moment nothing has a name twice in a record, and the programs at work and those that
wait keep it so; the last one comes to what is given. -/
structure Moment.Distinct (final : (α : Type) → α → Prop) (moment : Moment) : Prop where
  /-- The program at work. -/
  program : moment.program.Distinct (moment.stack.Takes final)
  /-- The programs that wait. -/
  stack : moment.stack.Distinct final
  /-- The world. -/
  world : moment.world.NamesDistinct

section Moments

variable {final : (α : Type) → α → Prop} {routines : Routines}

/-- A reply leads to a moment at which nothing has a name twice in a record. -/
theorem Reply.Distinct.moment {γ α : Type} {kind : γ → Prop} {reply : Reply γ}
    (distinct : reply.Distinct kind) (context : ContextId) {next : γ → Program α} {stack : Stack α}
    (goesOn : ∀ answer, kind answer → (next answer).Distinct (stack.Takes final))
    (waiting : stack.Distinct final) : (reply.moment context next stack).Distinct final := by
  cases reply with
  | now answer left => exact ⟨goesOn answer distinct.1, waiting, distinct.2⟩
  | after inner program opened pending =>
    obtain ⟨inside, returns, keeps, answers⟩ := distinct
    exact ⟨keeps, ⟨returns, fun result world takes => goesOn _ (answers result world takes),
      waiting⟩, inside⟩

namespace Moment

/-- From each moment to the next, names stay distinct. -/
theorem Step.distinct (keep : routines.KeepDistinct) {before after : Moment} {deed : Option Deed}
    (now : Step routines before deed after) (distinct : before.Distinct final) :
    after.Distinct final := by
  obtain ⟨keeps, waiting, world⟩ := distinct
  cases now with
  | @answered α context request next stack world left answer reply =>
    have replied := Engine.respond_distinct world keep context keeps.1
    rw [reply] at replied
    exact replied.moment context keeps.2 waiting
  | @started α β context inner request next stack world opened program pending reply =>
    have replied := Engine.respond_distinct world keep context keeps.1
    rw [reply] at replied
    exact replied.moment context keeps.2 waiting
  | @ended α β γ inner context result pending next stack world =>
    obtain ⟨returns, goesOn, rest⟩ := waiting
    exact ⟨goesOn result _ keeps, rest, returns.conclude keeps world⟩

/-- Whatever is asked for from outside with values that have no name twice in a record, names stay
distinct. -/
theorem Undergoes.distinct (keep : routines.KeepDistinct) {first last : Moment}
    {doings : List (Operation × World)} (undergone : Undergoes routines first doings last)
    (distinct : first.Distinct final) (given : ∀ doing ∈ doings, doing.1.NamesDistinct) :
    last.Distinct final := by
  induction undergone with
  | refl => exact distinct
  | step _ now ih => exact now.distinct keep (ih given)
  | performed _ operation ih =>
    rw [List.forall_mem_append] at given
    obtain ⟨keeps, waiting, world⟩ := ih given.1
    have asked := given.2 _ List.mem_cons_self
    exact (operation.reply_distinct keep world asked).moment _ (fun _ _ => keeps) waiting

end Moment

end Moments

/-- A datum with pairwise distinct names in every record, at any depth, that is read as the value
that it stands for. -/
structure Forms.Datum.IsSound (heap : Heap) (datum : Datum) : Prop where
  /-- No record in it has a name twice. -/
  distinct : datum.NamesDistinct
  /-- It is read as its value is, if it has one. -/
  reads : ∀ value, datum.toValue = .ok value → datum.ReadsAs heap value
  /-- It has none exactly if nil or a truth value occurs in it. -/
  refused : (∃ fault, datum.toValue = .error fault) ↔ datum.LacksValue

/-- Distinct names are enough. -/
theorem Forms.Datum.NamesDistinct.isSound {datum : Datum} (distinct : datum.NamesDistinct)
    {heap : Heap} (held : heap.NamesDistinct) : datum.IsSound heap :=
  ⟨distinct, fun _ given => distinct.readsAs held given, datum.toValue_error_iff⟩

/-- An engine that has evaluated nothing yet, with languages whose contexts begin without locals. -/
structure Engine.BeginsEmpty (engine : Engine) : Prop where
  /-- There is the host alone. -/
  contexts : engine.contexts = .initial
  /-- No language gives its contexts locals to begin with. -/
  languages : ∀ id language, engine.languages.get id = .ok language →
    language.session.localNames = []

/-- Such an engine holds no data. -/
theorem Engine.BeginsEmpty.namesDistinct {engine : Engine} (begins : engine.BeginsEmpty) :
    engine.NamesDistinct := by
  constructor
  · intro id language known
    have empty := begins.languages id language known
    cases session : language.session with
    | forms locals =>
      rw [session] at empty
      obtain rfl : locals = [] := List.map_eq_nil_iff.1 empty
      exact fun entry mem => absurd mem List.not_mem_nil
    | statements locals => trivial
    | probe => trivial
  · intro context mem session holds
    rw [begins.contexts] at mem
    obtain rfl := List.mem_singleton.1 mem
    cases holds

/-- The engines of the world begin to evaluate; no value that is bound or that a shared object holds
has a name twice in a record, which the type of values sees to. -/
structure World.BeginsEmpty (world : World) : Prop where
  /-- The engine at work. -/
  engine : world.engine.BeginsEmpty
  /-- The values that are bound. -/
  registry : world.registry.NamesDistinct
  /-- The values in shared objects. -/
  heap : world.heap.NamesDistinct
  /-- The first engine, while it waits. -/
  home : ∀ home, world.home = some home → home.engine.BeginsEmpty ∧
    ∀ registry, home.registry = some registry → registry.NamesDistinct

/-- Nothing in such a world has a name twice in a record. -/
theorem World.BeginsEmpty.namesDistinct {world : World} (begins : world.BeginsEmpty) :
    world.NamesDistinct :=
  ⟨begins.engine.namesDistinct, begins.registry, begins.heap, fun home waits =>
    (begins.home home waits).imp_left Engine.BeginsEmpty.namesDistinct⟩

/-- The engines: the one at work, and the first one while it waits. -/
def World.engines (world : World) : List Engine :=
  world.engine :: (world.home.map Home.engine).toList

/-- Nothing in the sessions of any engine has a name twice in a record. -/
theorem World.NamesDistinct.of_mem_engines {world : World} (distinct : world.NamesDistinct)
    {engine : Engine} (mem : engine ∈ world.engines) : engine.NamesDistinct := by
  rcases List.mem_cons.1 mem with rfl | waits
  · exact distinct.engine
  · obtain ⟨home, there, rfl⟩ := Option.map_eq_some_iff.1 (Option.mem_toList.1 waits)
    exact (distinct.home home there).1

open Forms

/-- Whatever scripts are evaluated and whatever is asked for from outside: at every moment all
locals of all sessions of the form language have pairwise distinct names in every record at every
depth, are read as the values that they stand for, and stand for none exactly if nil or a truth
value occurs in them. The same holds of what any form comes to that is evaluated in such a session,
after any others of its script, and of all locals that it leaves. -/
theorem forms_repeat_no_field {routines : Routines} (keep : routines.KeepDistinct) {world : World}
    (begins : world.BeginsEmpty) {doings : List (Operation × World)} {moment : Moment}
    (undergone : Moment.Undergoes routines (.idle world) doings moment)
    (given : ∀ doing ∈ doings, doing.1.NamesDistinct) :
    (∀ engine ∈ moment.world.engines, ∀ context ∈ engine.contexts.contexts, ∀ locals,
      context.session = some (.forms locals) →
        ∀ entry ∈ locals, entry.2.IsSound moment.world.heap) ∧
    ∀ {id : ContextId} {source : String} {locals : Fields Datum} {depth : Nat}
      {contexts : ContextTree},
      moment.world.engine.contexts.begin id source = (.ok (.forms locals, depth), contexts) →
      ∀ {before : List (Nat × Sexp)} {line : Nat} {form : Sexp} {further : List (Operation × World)}
        {outcome : Except Trouble Datum} {left : Fields Datum} {after : World},
        Moment.Undergoes routines
          (.start id ((evalUnit before >>= fun _ => eval line form).run.run locals)
            (moment.world.withContexts contexts))
          further (.start id (.done (outcome, left)) after) →
        (∀ doing ∈ further, doing.1.NamesDistinct) →
        (∀ datum, outcome = .ok datum → datum.IsSound after.heap) ∧
          ∀ entry ∈ left, entry.2.IsSound after.heap := by
  have start : (Moment.idle world).Distinct fun _ _ => True :=
    ⟨trivial, trivial, begins.namesDistinct⟩
  have now := (undergone.distinct keep start given).world
  constructor
  · intro engine mem context there locals session entry held
    have distinct := (now.of_mem_engines mem).contexts context there _ session
    exact (distinct entry held).isSound now.heap
  · intro id source locals depth contexts began before line form further outcome left after run
      asked
    obtain ⟨held, kept⟩ := now.engine.contexts.begin began
    let final (α : Type) (result : α) : Prop :=
      ∀ same : α = (Except Trouble Datum × Fields Datum),
        ComesTo Datum.NamesDistinct (cast same result).1 ∧ LocalsDistinct (cast same result).2
    have forms := (evalUnit_preserves before).bind fun _ _ => eval_preserves line form
    have opened : (Moment.start id ((evalUnit before >>= fun _ => eval line form).run.run locals)
        (moment.world.withContexts contexts)).Distinct final :=
      ⟨(forms locals held).mono fun result right same => right, trivial, now.withContexts kept⟩
    have ended := run.distinct keep opened asked
    obtain ⟨comes, leaves⟩ := ended.program rfl
    exact ⟨fun datum same => (comes datum same).isSound ended.world.heap,
      fun entry mem => (leaves entry mem).isSound ended.world.heap⟩

/-- The bundled languages give their contexts no locals to begin with. -/
theorem World.withoutSources_beginsEmpty : World.withoutSources.BeginsEmpty where
  engine := by
    refine ⟨rfl, fun id language known => ?_⟩
    have mem := Fields.mem_of_find? (orElse_ok_iff.1 known)
    have bundled : World.withoutSources.engine.languages.languages =
        [("jsonscript", .statements), ("lisp", .forms)] := rfl
    rw [bundled] at mem
    simp only [List.mem_cons, Prod.mk.injEq, List.not_mem_nil, or_false] at mem
    rcases mem with ⟨_, rfl⟩ | ⟨_, rfl⟩
    · rfl
    · rfl
  registry := by
    intro name binding found
    cases found
  heap := fun object mem => absurd mem List.not_mem_nil
  home := by
    intro home waits
    cases waits

/-- A script that gives a record one of its fields twice. -/
def fieldGivenTwice : SourceUnit :=
  ⟨"lisp", "twice.lisp", "(define p (record (a 1) (b 2) (a 3)))"⟩

/-- A form that does so as well. -/
def fieldGivenTwiceForm : Sexp :=
  .list (.symbol "record" :: [.list [.symbol "a", .string "one"] none,
    .list [.symbol "a", .string "two"] none]) none

/-- The form comes to a record of one field. -/
theorem run_fieldGivenTwiceForm (locals : Fields Datum) :
    (evalUnit [] >>= fun _ => eval 1 fieldGivenTwiceForm).run.run locals =
      .done (.ok (.record [("a", .string "two")]), locals) := by
  rw [fieldGivenTwiceForm, eval_record]
  simp only [evalFields, eval]
  rfl

/-- The written form of a local of the form language. -/
def Session.writtenDatum? (name : String) : Session → Option String
  | forms locals => (locals.find? name).map Datum.written
  | statements _ => none
  | probe => none

/-- The script leaves a record of two fields in its session, and what the form comes to in that
session is sound as well. -/
theorem field_given_twice_stands_once :
    ∃ after context locals,
      (Operation.evaluate (.text fieldGivenTwice)).perform
        (Runner.within (Host.routines [.function .args]) 3) (Host.routines [.function .args])
        .withoutSources = some (.ok ⟨1⟩, after) ∧
      after.engine.contexts.contexts[1]? = some context ∧
      context.session = some (.forms locals) ∧
      (locals.find? "p").map Datum.written = some "#record((a 3) (b 2))" ∧
      (∀ entry ∈ locals, entry.2.IsSound after.heap) ∧
      (Datum.record [("a", .string "two")]).IsSound after.heap := by
  have run : ((Operation.evaluate (.text fieldGivenTwice)).perform
      (Runner.within (Host.routines [.function .args]) 3) (Host.routines [.function .args])
      .withoutSources).map (fun ended => (ended.1,
        (ended.2.engine.contexts.contexts[1]?.bind Context.session).bind
          (Session.writtenDatum? "p"))) = some (.ok ⟨1⟩, some "#record((a 3) (b 2))") := by
    decide +kernel
  obtain ⟨⟨answer, after⟩, performed, same⟩ := Option.map_eq_some_iff.1 run
  obtain ⟨rfl, written⟩ := Prod.mk.inj same
  obtain ⟨session, held, written⟩ := Option.bind_eq_some_iff.1 written
  obtain ⟨context, there, holds⟩ := Option.bind_eq_some_iff.1 held
  cases session with
  | statements locals => cases written
  | probe => cases written
  | forms locals =>
    have keep : (Host.routines [.function .args]).KeepDistinct :=
      Host.routines_keepDistinct (by simp [Host.Routine.NamesDistinct])
    obtain ⟨sound, forms⟩ := forms_repeat_no_field keep World.withoutSources_beginsEmpty
      (Moment.undergoes_of_perform performed) (by simp [Operation.NamesDistinct])
    have locally := sound after.engine List.mem_cons_self context (List.mem_of_getElem? there)
      locals holds
    have began : after.engine.contexts.begin ⟨1⟩ "more.lisp" = (.ok _, _) :=
      ContextTree.begin_of_free there holds "more.lisp"
    have ended : Moment.Undergoes (Host.routines [.function .args])
        (.start ⟨1⟩ ((evalUnit [] >>= fun _ => eval 1 fieldGivenTwiceForm).run.run locals)
          (after.withContexts (after.engine.contexts.set ⟨1⟩ (context.begun "more.lisp")))) []
        (.start ⟨1⟩ (.done ((.ok (.record [("a", .string "two")]) : Except Trouble Datum), locals))
          (after.withContexts (after.engine.contexts.set ⟨1⟩ (context.begun "more.lisp")))) := by
      rw [run_fieldGivenTwiceForm]
      exact .refl
    obtain ⟨comes, _⟩ := forms began ended fun _ mem => absurd mem List.not_mem_nil
    exact ⟨after, context, locals, performed, there, holds, written, locally, comes _ rfl⟩

end Interchange
