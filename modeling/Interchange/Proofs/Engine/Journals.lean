import Interchange.Proofs.Engine.Likeness
import Interchange.Proofs.Guests.Scripts

/-!
# Runs beside other journals

Only who asks for the events or for a report is told what is in a journal, scripts ask for neither,
and what is recorded does not depend on what was recorded before. So where routines do not look at
what differs (`Routines.LookOnlyAt`), a run comes to the same result whatever the journals of its
world are, and what is recorded in the one journal is recorded in the other
(`Likeness.journals_holds`). How the journals are related is left open, as long as that outlives
recording the same in both (`JournalRelation`).
-/
namespace Interchange

/-- If the request looks at something, it may be seen. -/
def Request.LooksOnlyAt (seen : Query → Prop) : Request → Prop
  | look query => seen query
  | _ => True

/-- Scripts look at nothing. -/
theorem Request.IsScripted.looksOnlyAt {request : Request} (scripted : request.IsScripted)
    (seen : Query → Prop) : request.LooksOnlyAt seen := by
  cases request <;> first | exact scripted.elim | trivial

/-- The routines look at nothing but what may be seen. -/
def Routines.LookOnlyAt (routines : Routines) (seen : Query → Prop) : Prop :=
  ∀ routine arguments, (routines routine arguments).Asks (Request.LooksOnlyAt seen)

/-- More may be seen. -/
theorem Routines.LookOnlyAt.mono {routines : Routines} {seen wider : Query → Prop}
    (looks : routines.LookOnlyAt seen) (wide : ∀ query, seen query → wider query) :
    routines.LookOnlyAt wider := by
  refine fun routine arguments => (looks routine arguments).mono fun request may => ?_
  cases request with
  | look query => exact wide query may
  | _ => trivial

/-- A relation of journals that outlives recording the same in both, where what may be seen of
related journals is the same. -/
structure JournalRelation (seen : Query → Prop) where
  /-- Whether journals are related. -/
  relates : Option (List Event) → Option (List Event) → Prop
  /-- They are also when the same was recorded in both. -/
  recorded : ∀ one other event, relates one other →
    relates (one.map (· ++ [event])) (other.map (· ++ [event]))
  /-- The events may be seen, by themselves or in a report, only where they are the same. -/
  events : seen .events ∨ seen .report → ∀ one other, relates one other → one = other
  /-- Whether there is a journal may be seen only where that is the same. -/
  kept : seen .isJournaling → ∀ one other, relates one other → one.isSome = other.isSome

namespace Registry

/-- The registries are the same but for their journals, and those are related. -/
def Beside (relates : Option (List Event) → Option (List Event) → Prop) (one other : Registry) :
    Prop :=
  relates one.journal other.journal ∧ other = { one with journal := other.journal }

variable {relates : Option (List Event) → Option (List Event) → Prop} {one other : Registry}

/-- The bindings are the same. -/
theorem Beside.find? (beside : one.Beside relates other) (name : String) :
    other.find? name = one.find? name := by
  rw [beside.2]
  rfl

/-- The same names are bound. -/
theorem Beside.contains (beside : one.Beside relates other) (name : String) :
    other.contains name = one.contains name := by
  simp only [Registry.contains, beside.find?]

/-- The names come from the same contexts. -/
theorem Beside.originOf (beside : one.Beside relates other) (name : String) :
    other.originOf name = one.originOf name := by
  simp only [Registry.originOf, beside.find?]

/-- A name is bound in both registries, whatever is recorded about that. -/
theorem Beside.bind (beside : one.Beside relates other) {name : String} {slot : Slot}
    {origin : ContextId} {line twin : Option Nat}
    (recorded : relates (one.bind name slot origin line).journal
      (other.bind name slot origin twin).journal) :
    (one.bind name slot origin line).Beside relates (other.bind name slot origin twin) := by
  refine ⟨recorded, ?_⟩
  have journal : (other.bind name slot origin twin).journal =
    other.journal.map (· ++ [.exported name origin (other.originOf name) slot.isDeferred twin]) :=
      rfl
  rw [journal, beside.originOf]
  rw [beside.2]
  rfl

/-- A name is looked up in both registries, whatever is recorded about that. -/
theorem Beside.lookUp (beside : one.Beside relates other) {name : String} {context : ContextId}
    {line twin : Option Nat}
    (recorded : relates (one.lookUp name context line).2.journal
      (other.lookUp name context twin).2.journal) :
    (one.lookUp name context line).2.Beside relates (other.lookUp name context twin).2 := by
  refine ⟨recorded, ?_⟩
  rw [beside.2]
  rfl

/-- A binding is replaced in both registries. -/
theorem Beside.replace (beside : one.Beside relates other) (name : String) (slot : Slot) :
    (one.replace name slot).Beside relates (other.replace name slot) := by
  refine ⟨by simpa only [journal_replace] using beside.1, ?_⟩
  simp only [Registry.replace, beside.find?]
  split
  · exact beside.2
  · rw [beside.2]

/-- A binding is settled in both registries. -/
theorem Beside.settle (beside : one.Beside relates other) (name : String)
    (generation routine : Nat) {ε : Type} (result : Except ε Value) :
    (one.settle name generation routine result).Beside relates
      (other.settle name generation routine result) := by
  simp only [Registry.settle, beside.find?]
  split
  · exact beside
  · split
    · exact beside.replace name _
    · exact beside

end Registry

/-- The engines are the same, and so are their registries but for the journals. -/
structure Home.Beside {seen : Query → Prop} (relation : JournalRelation seen)
    (one other : Home) : Prop where
  /-- The engine. -/
  engine : other.engine = one.engine
  /-- Its registry, if it has its own. -/
  registry : Option.Rel (Registry.Beside relation.relates) one.registry other.registry

namespace World

variable {seen : Query → Prop}

/-- The worlds are the same but for their journals, and those are related. -/
structure Beside (relation : JournalRelation seen) (one other : World) : Prop where
  /-- The engine at work. -/
  engine : other.engine = one.engine
  /-- Its registry. -/
  registry : one.registry.Beside relation.relates other.registry
  /-- The shared objects. -/
  heap : other.heap = one.heap
  /-- What was counted. -/
  tallies : other.tallies = one.tallies
  /-- The engine that waits. -/
  home : Option.Rel (Home.Beside relation) one.home other.home

namespace Beside

variable {relation : JournalRelation seen} {one other before behind : World}

/-- Contexts are nothing to journals. -/
theorem withContexts (beside : one.Beside relation other) (contexts : ContextTree) :
    (one.withContexts contexts).Beside relation (other.withContexts contexts) := by
  refine ⟨?_, beside.registry, beside.heap, beside.tallies, beside.home⟩
  simp only [World.withContexts, beside.engine]

/-- The first engine takes the place of the one at work, in both worlds. -/
theorem atHome (beside : one.Beside relation other) : one.atHome.Beside relation other.atHome := by
  obtain ⟨engine, registry, heap, tallies, waits⟩ := one
  obtain ⟨engineBeside, registryBeside, heapBeside, talliesBeside, waitsBeside⟩ := other
  obtain ⟨engines, registries, heaps, tallies, homes⟩ := beside
  cases homes with
  | none => exact ⟨engines, registries, heaps, tallies, .none⟩
  | @some home homeBeside homes =>
    obtain ⟨waiting, own⟩ := home
    obtain ⟨waitingBeside, ownBeside⟩ := homeBeside
    obtain ⟨waitings, owns⟩ := homes
    cases owns with
    | none => exact ⟨waitings, registries, heaps, tallies, .none⟩
    | some owns => exact ⟨waitings, owns, heaps, tallies, .none⟩

/-- The first engine gives way to the one that was at work before, in both worlds. -/
theorem backFrom (came : before.Beside relation behind) (beside : one.Beside relation other) :
    (before.backFrom one).Beside relation (behind.backFrom other) := by
  obtain ⟨engine, registry, heap, tallies, waits⟩ := before
  obtain ⟨engineBehind, registryBehind, heapBehind, talliesBehind, waitsBehind⟩ := behind
  obtain ⟨engines, registries, heaps, tallies, homes⟩ := came
  cases homes with
  | none => exact beside
  | @some home homeBehind homes =>
    obtain ⟨waiting, own⟩ := home
    obtain ⟨waitingBehind, ownBehind⟩ := homeBehind
    obtain ⟨waitings, owns⟩ := homes
    cases owns with
    | none =>
      exact ⟨engines, beside.registry, beside.heap, beside.tallies, .some ⟨beside.engine, .none⟩⟩
    | some owns =>
      exact ⟨engines, registries, beside.heap, beside.tallies,
        .some ⟨beside.engine, .some beside.registry⟩⟩

/-- What may be seen is told in the same way. -/
theorem tell (beside : one.Beside relation other) {query : Query} (may : seen query) :
    other.tell query = one.tell query := by
  have same (sees : seen .events ∨ seen .report) : other.registry.journal = one.registry.journal :=
    (relation.events sees _ _ beside.registry.1).symm
  cases query with
  | context id => simp only [World.tell, beside.engine]
  | children id => simp only [World.tell, beside.engine]
  | contextCount => simp only [World.tell, beside.engine]
  | languages => simp only [World.tell, beside.engine]
  | report => simp only [World.tell, beside.engine, Registry.events, same (.inr may)]
  | names =>
    have bindings : other.registry.bindings = one.registry.bindings := by rw [beside.registry.2]
    simp only [World.tell, Registry.names, bindings]
  | originOf name => exact beside.registry.originOf name
  | isJournaling => exact (relation.kept may _ _ beside.registry.1).symm
  | events => simp only [World.tell, Registry.events, same (.inl may)]

end Beside

end World

/-- Worlds that are the same but for their journals, for programs that look at nothing but what may
be seen. -/
@[reducible] def Likeness.journals (seen : Query → Prop) : Likeness where
  Way := JournalRelation seen
  like relation one other := one.Beside relation other
  may _ _ := Request.LooksOnlyAt seen

/-- Scripts look at nothing at all. -/
theorem Session.evaluate_looksOnlyAt (seen : Query → Prop) (session : Session) (scope : Scope)
    (text : String) : (session.evaluate scope text).Asks (Request.LooksOnlyAt seen) :=
  (session.evaluate_asks scope text).mono fun _ scripted => scripted.looksOnlyAt seen

namespace Engine

variable {seen : Query → Prop} {relation : JournalRelation seen} {one other : World}

/-- A context is created beside any journal. -/
theorem createContext_beside (beside : one.Beside relation other) (parent : Option ContextId)
    (language : String) :
    (createContext parent language other).1 = (createContext parent language one).1 ∧
      (createContext parent language one).2.Beside relation
        (createContext parent language other).2 := by
  simp only [createContext, beside.engine]
  split
  · exact ⟨rfl, beside⟩
  · exact ⟨rfl, beside.withContexts _⟩

/-- A unit is evaluated beside any journal. -/
theorem respondEvaluate_beside (beside : one.Beside relation other) (context : ContextId)
    (unit : SourceUnit) :
    (respondEvaluate context unit one).Like (.journals seen) relation
      (respondEvaluate context unit other) := by
  simp only [respondEvaluate, beside.engine]
  split
  · exact .now (beside.withContexts _)
  · split
    · exact .now (beside.withContexts _)
    · refine .after relation (beside.withContexts _) (Session.evaluate_looksOnlyAt seen _ _ _) ?_
      rintro ⟨session, outcome⟩ one other inside
      have beside : one.Beside relation other := inside
      simp only [Pending.conclude, beside.engine]
      exact ⟨trivial, beside.withContexts _⟩

/-- A unit is evaluated in a new context beside any journal. -/
theorem respondBelow_beside (beside : one.Beside relation other) (parent : ContextId)
    (unit : SourceUnit) :
    (respondBelow parent unit one).Like (.journals seen) relation
      (respondBelow parent unit other) := by
  obtain ⟨same, created⟩ := createContext_beside beside (some parent) unit.language
  rcases here : createContext (some parent) unit.language one with ⟨outcome, after⟩
  rcases there : createContext (some parent) unit.language other with ⟨twin, behind⟩
  rw [here, there] at same created
  obtain rfl : twin = outcome := same
  simp only [respondBelow, here, there]
  cases twin with
  | error fault => exact .now created
  | ok child => exact (respondEvaluate_beside created child unit).name child

/-- A source is evaluated beside any journal. -/
theorem respondEval_beside (beside : one.Beside relation other) (caller : ContextId)
    (language path : String) (line : Option Nat) :
    (respondEval caller language path line one).Like (.journals seen) relation
      (respondEval caller language path line other) := by
  simp only [respondEval, beside.engine]
  split
  · exact .now beside
  · split
    · rename_i fault _
      refine .now ?_
      unfold noteMissing
      split
      · refine ⟨?_, beside.registry, beside.heap, beside.tallies, beside.home⟩
        simp only [beside.engine]
      · exact beside
    · exact respondBelow_beside beside caller _

/-- A name is looked up beside any journal. -/
theorem respondImport_beside {routines : Routines} (looks : routines.LookOnlyAt seen)
    (beside : one.Beside relation other) (context : ContextId) (name : String)
    (line : Option Nat) :
    (respondImport routines context name line one).Like (.journals seen) relation
      (respondImport routines context name line other) := by
  have journals : relation.relates (one.registry.lookUp name context line).2.journal
      (other.registry.lookUp name context line).2.journal := by
    rw [Registry.journal_lookUp, Registry.journal_lookUp, beside.registry.contains]
    exact relation.recorded _ _ _ beside.registry.1
  have lookedUp := beside.registry.lookUp journals
  have recorded : World.Beside relation
      { one with registry := (one.registry.lookUp name context line).2 }
      { other with registry := (other.registry.lookUp name context line).2 } :=
    ⟨beside.engine, lookedUp, beside.heap, beside.tallies, beside.home⟩
  simp only [respondImport, beside.registry.find?]
  split
  · exact .now recorded
  · split
    · exact .now recorded
    · exact .now recorded
    · refine .after relation
        ⟨beside.engine, lookedUp.replace name _, beside.heap, beside.tallies, beside.home⟩
        (looks _ _) ?_
      intro outcome one other inside
      have beside : one.Beside relation other := inside
      exact ⟨rfl, beside.engine, beside.registry.settle name _ _ outcome, beside.heap,
        beside.tallies, beside.home⟩

/-- A function is called beside any journal. -/
theorem respondCall_beside {routines : Routines} (looks : routines.LookOnlyAt seen)
    (beside : one.Beside relation other) (function : Reference) (arguments : List Value) :
    (respondCall routines function arguments one).Like (.journals seen) relation
      (respondCall routines function arguments other) := by
  simp only [respondCall, beside.heap]
  split
  · exact .now beside
  · exact .after relation beside.atHome (looks _ _) fun outcome one other inside =>
      ⟨rfl, beside.backFrom inside⟩

/-- A name is bound beside any journal. -/
theorem bindName_beside (beside : one.Beside relation other) (context : ContextId) (name : String)
    (slot : Slot) (line : Option Nat) :
    (bindName context name slot line one).Beside relation
      (bindName context name slot line other) := by
  refine ⟨beside.engine, beside.registry.bind ?_, beside.heap, beside.tallies, beside.home⟩
  rw [Registry.journal_bind, Registry.journal_bind, beside.registry.originOf]
  exact relation.recorded _ _ _ beside.registry.1

end Engine

/-- Everything that may be asked for is answered in the same way beside any journal. -/
theorem Likeness.journals_holds {seen : Query → Prop} {routines : Routines}
    (looks : routines.LookOnlyAt seen) : (Likeness.journals seen).Holds routines := by
  intro relation context request one other may alike
  have beside : one.Beside relation other := alike
  cases request with
  | inspect =>
    simp only [Engine.respond, beside.heap]
    exact .now beside
  | look query =>
    simp only [Engine.respond, beside.atHome.tell may]
    exact .now beside
  | allocate pairs =>
    simp only [Engine.respond, beside.heap]
    exact .now ⟨beside.engine, beside.registry, rfl, beside.tallies, beside.home⟩
  | setField target name value =>
    simp only [Engine.respond, beside.heap]
    split
    · exact .now ⟨beside.engine, beside.registry, rfl, beside.tallies, beside.home⟩
    · exact .now beside
  | call function arguments => exact Engine.respondCall_beside looks beside function arguments
  | importName name line => exact Engine.respondImport_beside looks beside context name line
  | exportValue name value line => exact .now (Engine.bindName_beside beside context name _ line)
  | exportLazy name routine => exact .now (Engine.bindName_beside beside context name _ none)
  | eval language path line => exact Engine.respondEval_beside beside context language path line
  | evaluate target unit => exact Engine.respondEvaluate_beside beside target unit
  | evalUnit unit =>
    exact (Engine.respondBelow_beside beside.atHome .host unit).back
      fun one other inside => beside.backFrom inside
  | print line =>
    simp only [Engine.respond, beside.engine]
    exact .now ⟨rfl, beside.registry, beside.heap, beside.tallies, beside.home⟩
  | tally name =>
    simp only [Engine.respond, beside.tallies]
    exact .now ⟨beside.engine, beside.registry, beside.heap, rfl, beside.home⟩

end Interchange
