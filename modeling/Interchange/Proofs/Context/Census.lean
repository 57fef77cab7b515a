import Interchange.Proofs.Context.Trail

/-!
# Which contexts are running

The tree of contexts together with the units under evaluation, the innermost first
(`Census`). Three things change it: a context is created, begins a unit, or ends the one that began
last. Each of them keeps the tree orderly, so that parents come before their children, depths
count the way down to a context, and exactly the contexts with a unit under evaluation have given
their sessions away (`Census.Reaches.orderly`). No context is ever removed or becomes as new
(`Census.Reaches.grown`).
-/
namespace Interchange

namespace ContextTree

variable {tree after : ContextTree} {id : ContextId}

/-- What the creation of a context adds. -/
structure Created (id : ContextId) (parent : Option ContextId) (language : String)
    (session : Session) (depth : Nat) (context : Context) : Prop where
  /-- Its number. -/
  id : context.id = id
  /-- The context that asked for it. -/
  parent : context.parent = parent
  /-- The language it evaluates. -/
  language : context.language = some language
  /-- It evaluates nothing. -/
  source : context.source = none
  /-- It has evaluated nothing. -/
  status : context.status = .created
  /-- How deep it lies. -/
  depth : context.depth = depth
  /-- Nothing is bound in it. -/
  locals : context.locals = []
  /-- It has its session. -/
  session : context.session = some session

/-- A context is created with the next number and the depth below its parent. -/
theorem create_cases {parent : Option ContextId} {language : String} {session : Session}
    (created : tree.create parent language session = (.ok id, after)) :
    ∃ context depth, id = ⟨tree.count⟩ ∧ after = tree.add context ∧
      tree.depthBelow parent = .ok depth ∧
      Created ⟨tree.count⟩ parent language session depth context := by
  rw [create] at created
  cases below : tree.depthBelow parent with
  | error fault => simp [below] at created
  | ok depth =>
    by_cases room : tree.count < capacity
    · simp only [below, if_pos room, Prod.mk.injEq, Except.ok.injEq] at created
      obtain ⟨rfl, rfl⟩ := created
      exact ⟨_, depth, rfl, rfl, rfl, rfl, rfl, rfl, rfl, rfl, rfl, rfl, rfl⟩
    · simp [below, if_neg room] at created

/-- A context begins a unit by giving its session away. -/
theorem begin_cases {source : String} {session : Session} {depth : Nat}
    (began : tree.begin id source = (.ok (session, depth), after)) :
    ∃ context, tree.contexts[id.raw]? = some context ∧ context.session = some session ∧
      context.depth = depth ∧ after = tree.set id { context with
        status := .running, source := some source, session := none } := by
  rw [begin, get] at began
  cases found : tree.contexts[id.raw]? with
  | none => simp [found, Fault.orElse] at began
  | some context =>
    cases held : context.session with
    | none => simp [found, held, Fault.orElse] at began
    | some own =>
      simp only [found, held, Fault.orElse, Prod.mk.injEq, Except.ok.injEq] at began
      obtain ⟨⟨rfl, rfl⟩, rfl⟩ := began
      exact ⟨context, rfl, held, rfl, rfl⟩

/-- A context that is put in the place of another one is there. -/
theorem contexts_set_self (there : id.raw < tree.count) (replacement : Context) :
    (tree.set id replacement).contexts[id.raw]? = some replacement :=
  List.getElem?_set_self there

/-- Putting a context in the place of another one leaves all others as they are. -/
theorem contexts_set_of_ne {number : Nat} (different : number ≠ id.raw) (replacement : Context) :
    (tree.set id replacement).contexts[number]? = tree.contexts[number]? :=
  List.getElem?_set_ne (Ne.symm different)

/-- What is found after a context was put in the place of another one. -/
theorem contexts_set {number : Nat} {context replacement : Context} (there : id.raw < tree.count)
    (found : (tree.set id replacement).contexts[number]? = some context) :
    (number = id.raw ∧ context = replacement) ∨
      (number ≠ id.raw ∧ tree.contexts[number]? = some context) := by
  by_cases same : number = id.raw
  · subst same
    rw [contexts_set_self there] at found
    exact .inl ⟨rfl, (Option.some.inj found).symm⟩
  · rw [contexts_set_of_ne same] at found
    exact .inr ⟨same, found⟩

/-- What is found after a context was added. -/
theorem contexts_add {number : Nat} {context added : Context}
    (found : (tree.add added).contexts[number]? = some context) :
    (number = tree.count ∧ context = added) ∨
      (number < tree.count ∧ tree.contexts[number]? = some context) := by
  have there : number < tree.count + 1 := by
    have counted := lt_count found
    rwa [count_add] at counted
  by_cases last : number = tree.count
  · subst last
    rw [contexts_add_self] at found
    exact .inl ⟨rfl, (Option.some.inj found).symm⟩
  · have early : number < tree.count := by omega
    rw [contexts_add_of_lt added early] at found
    exact .inr ⟨early, found⟩

/-- No context was removed; each is where it was and speaks what it spoke, and none that had begun
is as new. -/
def GrownTo (before after : ContextTree) : Prop :=
  ∀ (number : Nat) (context : Context), before.contexts[number]? = some context →
    ∃ later, after.contexts[number]? = some later ∧ later.parent = context.parent ∧
      later.language = context.language ∧ later.depth = context.depth ∧
      (context.status ≠ .created → later.status ≠ .created)

/-- Nothing was done. -/
theorem GrownTo.refl (tree : ContextTree) : tree.GrownTo tree :=
  fun _ context found => ⟨context, found, rfl, rfl, rfl, id⟩

/-- One thing was done after the other. -/
theorem GrownTo.trans {middle : ContextTree} (first : tree.GrownTo middle)
    (second : middle.GrownTo after) : tree.GrownTo after := by
  intro number context found
  obtain ⟨between, there, parent, language, depth, begun⟩ := first number context found
  obtain ⟨later, foundLater, parentLater, languageLater, depthLater, begunLater⟩ :=
    second number between there
  exact ⟨later, foundLater, parentLater.trans parent, languageLater.trans language,
    depthLater.trans depth, fun early => begunLater (begun early)⟩

/-- A context was added. -/
theorem grownTo_add (tree : ContextTree) (added : Context) : tree.GrownTo (tree.add added) := by
  intro number context found
  have kept := contexts_add_of_lt added (lt_count found)
  exact ⟨context, kept.trans found, rfl, rfl, rfl, id⟩

/-- A context was replaced by what it has become. -/
theorem grownTo_set {context replacement : Context}
    (found : tree.contexts[id.raw]? = some context) (parent : replacement.parent = context.parent)
    (language : replacement.language = context.language)
    (depth : replacement.depth = context.depth) (begun : replacement.status ≠ .created) :
    tree.GrownTo (tree.set id replacement) := by
  intro number other there
  by_cases same : number = id.raw
  · subst same
    obtain rfl : context = other := Option.some.inj (found.symm.trans there)
    have replaced := contexts_set_self (lt_count found) replacement
    exact ⟨replacement, replaced, parent, language, depth, fun _ => begun⟩
  · have kept := tree.contexts_set_of_ne same replacement
    exact ⟨other, kept.trans there, rfl, rfl, rfl, fun early => early⟩

/-- A context has ended a unit. -/
theorem grownTo_finish (tree : ContextTree) (id : ContextId) (session : Session)
    (succeeded : Bool) : tree.GrownTo (tree.finish id session succeeded) := by
  unfold finish
  split
  · exact .refl tree
  · rename_i context found
    exact grownTo_set found rfl rfl rfl (by cases succeeded <;> simp)

/-- The depth below a parent stays the same. -/
theorem GrownTo.depthBelow (grown : tree.GrownTo after) {parent : Option ContextId} {depth : Nat}
    (below : tree.depthBelow parent = .ok depth) : after.depthBelow parent = .ok depth := by
  cases parent with
  | none => exact below
  | some parent =>
    obtain ⟨context, found, rfl⟩ := exists_of_depthBelow below
    obtain ⟨later, foundLater, _, _, same, _⟩ := grown parent.raw context found
    rw [depthBelow_of_found foundLater, same]

/-- Every context has the number of its place. -/
def Numbered (tree : ContextTree) : Prop :=
  ∀ (number : Nat) context, tree.contexts[number]? = some context → context.id = ⟨number⟩

namespace Numbered

variable (numbered : tree.Numbered)
include numbered

/-- The children of a context are the contexts that it asked for. -/
theorem mem_children {parent child : ContextId} :
    child ∈ tree.children parent ↔
      ∃ context, tree.contexts[child.raw]? = some context ∧ context.parent = some parent := by
  rw [children, List.mem_map]
  constructor
  · rintro ⟨context, mem, rfl⟩
    obtain ⟨there, asked⟩ := List.mem_filter.1 mem
    obtain ⟨number, found⟩ := List.mem_iff_getElem?.1 there
    rw [numbered number context found]
    exact ⟨context, found, beq_iff_eq.1 asked⟩
  · rintro ⟨context, found, asked⟩
    have mem := List.mem_iff_getElem?.2 ⟨_, found⟩
    exact ⟨context, List.mem_filter.2 ⟨mem, beq_iff_eq.2 asked⟩, numbered _ _ found⟩

/-- The children of a context are in the order of their creation. -/
theorem children_increasing (parent : ContextId) :
    (tree.children parent).Pairwise (·.raw < ·.raw) := by
  have inOrder : tree.contexts.Pairwise fun first second => first.id.raw < second.id.raw := by
    refine List.pairwise_iff_getElem.2 fun first second one other before => ?_
    rw [numbered first _ (List.getElem?_eq_getElem one),
      numbered second _ (List.getElem?_eq_getElem other)]
    exact before
  rw [children, List.pairwise_map]
  exact inOrder.filter _

end Numbered

end ContextTree

/-- The tree of contexts with the units under evaluation, each with its context, the innermost
first. -/
structure Census where
  /-- The tree. -/
  tree : ContextTree
  /-- The units under evaluation. -/
  units : List (ContextId × SourceUnit)

namespace Census

/-- What can happen to contexts. -/
inductive Step : Census → Census → Prop where
  /-- A context is created. -/
  | created {tree after : ContextTree} {parent : Option ContextId} {language : String}
      {session : Session} {id : ContextId} (units : List (ContextId × SourceUnit))
      (made : tree.create parent language session = (.ok id, after)) :
      Step ⟨tree, units⟩ ⟨after, units⟩
  /-- A context begins a unit. -/
  | begun {tree after : ContextTree} {id : ContextId} {session : Session} {depth : Nat}
      (unit : SourceUnit) (units : List (ContextId × SourceUnit))
      (began : tree.begin id unit.path = (.ok (session, depth), after)) :
      Step ⟨tree, units⟩ ⟨after, (id, unit) :: units⟩
  /-- The unit that began last ends. -/
  | ended (tree : ContextTree) (id : ContextId) (unit : SourceUnit)
      (units : List (ContextId × SourceUnit)) (session : Session) (succeeded : Bool) :
      Step ⟨tree, (id, unit) :: units⟩ ⟨tree.finish id session succeeded, units⟩

/-- One thing happens after the other. -/
inductive Reaches (first : Census) : Census → Prop where
  /-- Nothing has happened. -/
  | refl : Reaches first first
  /-- One more thing has happened. -/
  | step {last next : Census} (before : Reaches first last) (now : Step last next) :
      Reaches first next

/-- What happens after what has happened has happened as well. -/
theorem Reaches.trans {first middle last : Census} (before : Reaches first middle)
    (after : Reaches middle last) : Reaches first last := by
  induction after with
  | refl => exact before
  | step _ now ih => exact ih.step now

/-- One thing happens. -/
theorem Reaches.single {first last : Census} (now : Step first last) : Reaches first last :=
  Reaches.refl.step now

/-- A context is in its place: it has the number of the place, was created after its parent and lies
one deeper, and it has given its session away exactly while it is running, that is, while a unit is
evaluated in it. The host is always running. -/
structure Places (census : Census) (number : Nat) (context : Context) : Prop where
  /-- It has the number of its place. -/
  id : context.id = ⟨number⟩
  /-- Its parent was created before it. -/
  parent : ∀ parent, context.parent = some parent → parent.raw < number
  /-- Every context but the host lies one deeper than its parent, or at depth one without one. -/
  depth : number ≠ 0 → census.tree.depthBelow context.parent = .ok context.depth
  /-- It has no session exactly while it is running. -/
  session : context.status = .running ↔ context.session = none
  /-- It is running exactly if it is the host or a unit is evaluated in it. -/
  running : context.status = .running ↔ ⟨number⟩ ∈ ContextId.host :: census.units.map Prod.fst

/-- The tree is in order, and the units are those of the contexts that are running. -/
structure Orderly (census : Census) : Prop where
  /-- The host is as it was at the start. -/
  host : census.tree.contexts[0]? = ContextTree.initial.contexts[0]?
  /-- All contexts are in their places. -/
  places : ∀ (number : Nat) context, census.tree.contexts[number]? = some context →
    census.Places number context
  /-- A context has the path of the unit that is evaluated in it. -/
  sources : ∀ id unit, (id, unit) ∈ census.units →
    ∃ context, census.tree.contexts[id.raw]? = some context ∧ context.source = some unit.path
  /-- No context evaluates two units, and the host none. -/
  distinct : (ContextId.host :: census.units.map Prod.fst).Nodup

/-- The host alone is in order. -/
theorem initial_orderly : Orderly ⟨.initial, []⟩ := by
  refine ⟨rfl, fun number context found => ?_, fun id unit mem => ?_, by simp⟩
  · obtain ⟨below, rfl⟩ := List.getElem?_eq_some_iff.1 found
    obtain rfl : number = 0 := Nat.lt_one_iff.1 below
    have running : ContextTree.initial.contexts[0].status = .running := rfl
    refine ⟨rfl, fun parent same => ?_, fun other => absurd rfl other, ?_, ?_⟩
    · have orphan : ContextTree.initial.contexts[0].parent = none := rfl
      rw [orphan] at same
      simp at same
    · exact iff_of_true running rfl
    · exact iff_of_true running List.mem_cons_self
  · simp at mem

variable {tree after : ContextTree} {units more : List (ContextId × SourceUnit)}

/-- A context that stays as it is stays in its place while others are created, begin or end. -/
theorem Places.kept {number : Nat} {context : Context}
    (places : Places ⟨tree, units⟩ number context) (grown : tree.GrownTo after)
    (same : (⟨number⟩ : ContextId) ∈ ContextId.host :: more.map Prod.fst ↔
      ⟨number⟩ ∈ ContextId.host :: units.map Prod.fst) :
    Places ⟨after, more⟩ number context where
  id := places.id
  parent := places.parent
  depth other := grown.depthBelow (places.depth other)
  session := places.session
  running := places.running.trans same.symm

namespace Orderly

variable {id : ContextId}

/-- Every context has the number of its place. -/
theorem numbered (orderly : Orderly ⟨tree, units⟩) : tree.Numbered :=
  fun number context found => (orderly.places number context found).id

/-- All contexts that are running are there. -/
theorem lt_count (orderly : Orderly ⟨tree, units⟩)
    (mem : id ∈ ContextId.host :: units.map Prod.fst) : id.raw < tree.count := by
  rcases List.mem_cons.1 mem with rfl | evaluating
  · have host : tree.contexts[0]? = ContextTree.initial.contexts[0]? := orderly.host
    exact ContextTree.lt_count host
  · obtain ⟨⟨other, unit⟩, inside, rfl⟩ := List.mem_map.1 evaluating
    obtain ⟨context, found, _⟩ := orderly.sources other unit inside
    exact ContextTree.lt_count found

/-- A context that is created comes into its place. -/
theorem created (orderly : Orderly ⟨tree, units⟩) {parent : Option ContextId} {language : String}
    {session : Session} (made : tree.create parent language session = (.ok id, after)) :
    Orderly ⟨after, units⟩ := by
  obtain ⟨added, depth, rfl, rfl, below, new⟩ := ContextTree.create_cases made
  have grown := tree.grownTo_add added
  have hostThere : 0 < tree.count := orderly.lt_count List.mem_cons_self
  refine ⟨?_, fun number context found => ?_, fun other unit mem => ?_, orderly.distinct⟩
  · have kept := tree.contexts_add_of_lt added hostThere
    exact kept.trans orderly.host
  · rcases ContextTree.contexts_add found with ⟨rfl, rfl⟩ | ⟨_, old⟩
    · have idle : context.status ≠ .running := by rw [new.status]; decide
      refine ⟨new.id, fun above same => ?_, fun _ => ?_, ?_, ?_⟩
      · rw [new.parent] at same
        rw [same] at below
        obtain ⟨_, found, _⟩ := ContextTree.exists_of_depthBelow below
        exact ContextTree.lt_count found
      · have deeper := grown.depthBelow below
        rwa [← new.parent, ← new.depth] at deeper
      · exact iff_of_false idle (by rw [new.session]; simp)
      · refine iff_of_false idle fun mem => ?_
        have there : tree.count < tree.count := orderly.lt_count mem
        omega
    · exact (orderly.places number context old).kept grown Iff.rfl
  · obtain ⟨context, found, source⟩ := orderly.sources other unit mem
    have kept := tree.contexts_add_of_lt added (ContextTree.lt_count found)
    exact ⟨context, kept.trans found, source⟩

/-- Another context is running or not whether or not a unit is evaluated in one. -/
theorem mem_running_cons {number : Nat} (different : number ≠ id.raw) (unit : SourceUnit)
    (units : List (ContextId × SourceUnit)) :
    (⟨number⟩ : ContextId) ∈ ContextId.host :: ((id, unit) :: units).map Prod.fst ↔
      ⟨number⟩ ∈ ContextId.host :: units.map Prod.fst := by
  have other : (⟨number⟩ : ContextId) ≠ id := fun same => different (congrArg ContextId.raw same)
  rw [List.map_cons, List.mem_cons, List.mem_cons, List.mem_cons, or_iff_right other]

/-- A context other than the host is replaced by what it has become, and the units under evaluation
with it. -/
theorem replaced (orderly : Orderly ⟨tree, units⟩) {context replacement : Context}
    (found : tree.contexts[id.raw]? = some context) (notHost : id ≠ .host)
    (grown : tree.GrownTo (tree.set id replacement)) (named : replacement.id = context.id)
    (parent : replacement.parent = context.parent)
    (depth : replacement.depth = context.depth)
    (session : replacement.status = .running ↔ replacement.session = none)
    (running : replacement.status = .running ↔ id ∈ ContextId.host :: more.map Prod.fst)
    (others : ∀ number, number ≠ id.raw → ((⟨number⟩ : ContextId) ∈
      ContextId.host :: more.map Prod.fst ↔ ⟨number⟩ ∈ ContextId.host :: units.map Prod.fst))
    (sources : ∀ other unit, (other, unit) ∈ more →
      (other = id ∧ replacement.source = some unit.path) ∨ (other ≠ id ∧ (other, unit) ∈ units))
    (distinct : (ContextId.host :: more.map Prod.fst).Nodup) :
    Orderly ⟨tree.set id replacement, more⟩ := by
  have there := ContextTree.lt_count found
  have places := orderly.places id.raw context found
  have notFirst : 0 ≠ id.raw := fun same => notHost (congrArg ContextId.mk same.symm)
  refine ⟨?_, fun number other stands => ?_, fun other unit mem => ?_, distinct⟩
  · exact (tree.contexts_set_of_ne notFirst replacement).trans orderly.host
  · rcases ContextTree.contexts_set there stands with ⟨rfl, rfl⟩ | ⟨different, old⟩
    · refine ⟨named.trans places.id, parent ▸ places.parent, fun other => ?_, session, running⟩
      rw [parent, depth]
      exact grown.depthBelow (places.depth other)
    · exact (orderly.places number other old).kept grown (others number different)
  · rcases sources other unit mem with ⟨rfl, source⟩ | ⟨different, before⟩
    · exact ⟨replacement, tree.contexts_set_self there replacement, source⟩
    · obtain ⟨context, found, source⟩ := orderly.sources other unit before
      have apart : other.raw ≠ id.raw := fun same => different (congrArg ContextId.mk same)
      exact ⟨context, (tree.contexts_set_of_ne apart replacement).trans found, source⟩

/-- A context that begins a unit is running. -/
theorem begun (orderly : Orderly ⟨tree, units⟩) {session : Session} {depth : Nat}
    {unit : SourceUnit} (began : tree.begin id unit.path = (.ok (session, depth), after)) :
    Orderly ⟨after, (id, unit) :: units⟩ := by
  obtain ⟨context, found, held, _, rfl⟩ := ContextTree.begin_cases began
  have places := orderly.places id.raw context found
  have idle : id ∉ ContextId.host :: units.map Prod.fst := fun mem => by
    have gone := places.session.1 (places.running.2 mem)
    rw [held] at gone
    simp at gone
  have grown : tree.GrownTo (tree.set id { context with
      status := .running, source := some unit.path, session := none }) :=
    ContextTree.grownTo_set found rfl rfl rfl (by simp)
  obtain ⟨apart, distinct⟩ := List.nodup_cons.1 orderly.distinct
  rw [List.mem_cons, not_or] at idle
  refine orderly.replaced found idle.1 grown rfl rfl rfl (iff_of_true rfl rfl)
    (iff_of_true rfl (by simp)) (fun number different => mem_running_cons different unit units)
    (fun other entry mem => ?_) ?_
  · rcases List.mem_cons.1 mem with same | before
    · obtain ⟨rfl, rfl⟩ := Prod.mk.inj same
      exact .inl ⟨rfl, rfl⟩
    · have evaluating : other ∈ units.map Prod.fst := List.mem_map.2 ⟨_, before, rfl⟩
      exact .inr ⟨fun same => idle.2 (same ▸ evaluating), before⟩
  · refine List.nodup_cons.2 ⟨?_, List.nodup_cons.2 ⟨idle.2, distinct⟩⟩
    rw [List.map_cons, List.mem_cons, not_or]
    exact ⟨Ne.symm idle.1, apart⟩

/-- A context that ends its unit has its session again. -/
theorem ended {unit : SourceUnit} (orderly : Orderly ⟨tree, (id, unit) :: units⟩)
    (session : Session) (succeeded : Bool) :
    Orderly ⟨tree.finish id session succeeded, units⟩ := by
  obtain ⟨context, found, source⟩ := orderly.sources id unit List.mem_cons_self
  obtain ⟨apart, distinct⟩ := List.nodup_cons.1 orderly.distinct
  obtain ⟨once, others⟩ := List.nodup_cons.1 distinct
  rw [List.map_cons, List.mem_cons, not_or] at apart
  have idle : id ∉ ContextId.host :: units.map Prod.fst := by
    rw [List.mem_cons, not_or]
    exact ⟨Ne.symm apart.1, once⟩
  have stopped : (if succeeded then ContextStatus.completed else .faulted) ≠ .running := by
    cases succeeded <;> decide
  have finished : tree.finish id session succeeded = tree.set id { context with
      locals := session.localNames, session := some session,
      status := if succeeded then .completed else .faulted } := by
    rw [ContextTree.finish, found]
  have grown := tree.grownTo_finish id session succeeded
  rw [finished] at grown ⊢
  refine orderly.replaced found (Ne.symm apart.1) grown rfl rfl rfl (iff_of_false stopped (by simp))
    (iff_of_false stopped idle)
    (fun number different => (mem_running_cons different unit units).symm)
    (fun other entry mem => ?_) (List.nodup_cons.2 ⟨apart.2, others⟩)
  have evaluating : other ∈ units.map Prod.fst := List.mem_map.2 ⟨_, mem, rfl⟩
  exact .inr ⟨fun same => once (same ▸ evaluating), List.mem_cons_of_mem _ mem⟩

end Orderly

variable {before next : Census}

/-- Whatever happens to contexts keeps the tree in order. -/
theorem Step.orderly (step : Step before next) (orderly : before.Orderly) : next.Orderly := by
  cases step with
  | created units made => exact orderly.created made
  | begun unit units began => exact orderly.begun began
  | ended tree id unit units session succeeded => exact orderly.ended session succeeded

/-- Whatever happens to contexts, all of them stay. -/
theorem Step.grown (step : Step before next) : before.tree.GrownTo next.tree := by
  cases step with
  | @created tree after parent language session id units made =>
    obtain ⟨added, depth, _, rfl, _, _⟩ := ContextTree.create_cases made
    exact tree.grownTo_add added
  | begun unit units began =>
    obtain ⟨context, found, _, _, rfl⟩ := ContextTree.begin_cases began
    exact ContextTree.grownTo_set found rfl rfl rfl (by simp)
  | ended tree id unit units session succeeded => exact tree.grownTo_finish id session succeeded

/-- The tree stays in order. -/
theorem Reaches.orderly (reached : Reaches before next) (orderly : before.Orderly) :
    next.Orderly := by
  induction reached with
  | refl => exact orderly
  | step _ now ih => exact now.orderly ih

/-- All contexts stay. -/
theorem Reaches.grown (reached : Reaches before next) : before.tree.GrownTo next.tree := by
  induction reached with
  | refl => exact .refl before.tree
  | step _ now ih => exact ih.trans now.grown

end Census

end Interchange
