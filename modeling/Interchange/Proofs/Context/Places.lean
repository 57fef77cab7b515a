import Interchange.Proofs.Context.Trail

/-!
# Contexts but for their bindings

What the tree tells of a context besides its bindings is its place: its number, its parent, its
language, its source, its status and its depth. Trees whose contexts have the same places
(`ContextTree.SamePlaces`) are the same to whoever asks for an evaluation, and stay so when the
same contexts are added to both (`ContextTree.append`).
-/
namespace Interchange

/-- A context without its bindings: without the names of its locals and without its session. -/
def Context.place (context : Context) : Context := { context with locals := [], session := none }

/-- A context that has begun a unit and given its session away. -/
def Context.begun (context : Context) (source : String) : Context :=
  { context with status := .running, source := some source, session := none }

/-- A context that has ended a unit and taken its session back. -/
def Context.ended (context : Context) (session : Session) (succeeded : Bool) : Context :=
  { context with
    locals := session.localNames, session := some session,
    status := if succeeded then .completed else .faulted }

namespace ContextTree

/-- The tree with more contexts. -/
def append (tree : ContextTree) (added : List Context) : ContextTree := ⟨tree.contexts ++ added⟩

/-- The trees tell the same of all contexts but for their bindings. -/
def SamePlaces (tree other : ContextTree) : Prop :=
  tree.contexts.map Context.place = other.contexts.map Context.place

variable {tree other : ContextTree}

/-- Adding no contexts changes nothing. -/
@[simp] theorem append_nil (tree : ContextTree) : tree.append [] = tree := by
  rw [append, List.append_nil]

/-- Adding contexts twice is adding all of them. -/
theorem append_append (tree : ContextTree) (added later : List Context) :
    (tree.append added).append later = tree.append (added ++ later) := by
  rw [append, append, append, List.append_assoc]

/-- Adding contexts, the first of them alone. -/
theorem add_append (tree : ContextTree) (context : Context) (added : List Context) :
    (tree.add context).append added = tree.append (context :: added) := by
  rw [append, add, append, List.append_assoc, List.singleton_append]

/-- A context that ends a unit is put in its place. -/
theorem finish_of_found {id : ContextId} {context : Context}
    (found : tree.contexts[id.raw]? = some context) (session : Session) (succeeded : Bool) :
    tree.finish id session succeeded = tree.set id (context.ended session succeeded) := by
  simp only [finish, found, Context.ended]

/-- The first of some contexts that were added ends a unit. -/
theorem finish_append (tree : ContextTree) (context : Context) (added : List Context)
    (session : Session) (succeeded : Bool) :
    (tree.append (context :: added)).finish ⟨tree.count⟩ session succeeded =
      tree.append (context.ended session succeeded :: added) := by
  have last : (⟨tree.count⟩ : ContextId).raw = tree.contexts.length := rfl
  have found : (tree.append (context :: added)).contexts[(⟨tree.count⟩ : ContextId).raw]? =
      some context := by
    rw [append, last, List.getElem?_append_right (Nat.le_refl _), Nat.sub_self,
      List.getElem?_cons_zero]
  rw [finish_of_found found, append, set, append, last, List.set_append_right _ _ (Nat.le_refl _),
    Nat.sub_self, List.set_cons_zero]

/-- A context that was there ends a unit after others were added. -/
theorem finish_set_append {id : ContextId} (there : id.raw < tree.count) (context : Context)
    (added : List Context) (session : Session) (succeeded : Bool) :
    ((tree.set id context).append added).finish id session succeeded =
      (tree.set id (context.ended session succeeded)).append added := by
  have inside : id.raw < (tree.contexts.set id.raw context).length := by
    rw [List.length_set]
    exact there
  have found : ((tree.set id context).append added).contexts[id.raw]? = some context := by
    rw [append, set, List.getElem?_append_left inside, List.getElem?_set_self there]
  rw [finish_of_found found, append, set, set, set, append, List.set_append_left _ _ inside,
    List.set_set]

/-- Where no context is, none is replaced. -/
theorem set_of_none {id : ContextId} (nowhere : tree.contexts[id.raw]? = none)
    (context : Context) : tree.set id context = tree := by
  rw [set, List.set_eq_of_length_le (List.getElem?_eq_none_iff.1 nowhere)]

/-- A context is replaced by itself. -/
theorem set_self {id : ContextId} {context : Context}
    (found : tree.contexts[id.raw]? = some context) : tree.set id context = tree := by
  obtain ⟨there, same⟩ := List.getElem?_eq_some_iff.1 found
  rw [set, ← same, List.set_getElem_self]

/-- A context that is not there begins no unit. -/
theorem begin_of_none {id : ContextId} (nowhere : tree.contexts[id.raw]? = none)
    (source : String) : tree.begin id source = (.error (.unknownContext id), tree) := by
  simp only [begin, get, nowhere, Fault.orElse]

/-- A context that has given its session away begins no unit. -/
theorem begin_of_taken {id : ContextId} {context : Context}
    (found : tree.contexts[id.raw]? = some context) (taken : context.session = none)
    (source : String) : tree.begin id source = (.error (.contextUnavailable id), tree) := by
  simp only [begin, get, found, taken, Fault.orElse]

/-- A context that has its session begins a unit. -/
theorem begin_of_free {id : ContextId} {context : Context} {session : Session}
    (found : tree.contexts[id.raw]? = some context) (free : context.session = some session)
    (source : String) :
    tree.begin id source =
      (.ok (session, context.depth), tree.set id (context.begun source)) := by
  simp only [begin, get, found, free, Fault.orElse, Context.begun]

/-- A context is replaced before or after another one is added. -/
theorem add_set {id : ContextId} (there : id.raw < tree.count) (context twin : Context) :
    (tree.set id twin).add context = (tree.add context).set id twin := by
  rw [add, set, set, add, List.set_append_left _ _ there]

/-- Beside a context that is replaced, another one begins a unit as before. -/
theorem begin_set {id target : ContextId} (different : target ≠ id) (twin : Context)
    (source : String) :
    (tree.set id twin).begin target source =
      ((tree.begin target source).1, (tree.begin target source).2.set id twin) := by
  have apart : id.raw ≠ target.raw := fun same => different (congrArg ContextId.mk same).symm
  have kept : (tree.set id twin).contexts[target.raw]? = tree.contexts[target.raw]? :=
    List.getElem?_set_ne apart
  cases found : tree.contexts[target.raw]? with
  | none => rw [begin_of_none found, begin_of_none (kept.trans found)]
  | some context =>
    cases holds : context.session with
    | none =>
      rw [begin_of_taken found holds, begin_of_taken (kept.trans found) holds]
    | some session =>
      rw [begin_of_free found holds, begin_of_free (kept.trans found) holds]
      simp only [set, List.set_comm _ _ apart]

/-- Beside a context that is replaced, another one ends a unit as before. -/
theorem finish_set {id target : ContextId} (different : target ≠ id) (twin : Context)
    (session : Session) (succeeded : Bool) :
    (tree.set id twin).finish target session succeeded =
      (tree.finish target session succeeded).set id twin := by
  have apart : id.raw ≠ target.raw := fun same => different (congrArg ContextId.mk same).symm
  have kept : (tree.set id twin).contexts[target.raw]? = tree.contexts[target.raw]? :=
    List.getElem?_set_ne apart
  simp only [finish, kept]
  split
  · rfl
  · simp only [set, List.set_comm _ _ apart]

namespace SamePlaces

/-- Every tree tells the same as itself. -/
theorem refl (tree : ContextTree) : tree.SamePlaces tree := rfl

/-- A context has the same place as the one that it replaces. -/
theorem replaced {id : ContextId} {held : Context}
    (found : tree.contexts[id.raw]? = some held) {twin : Context}
    (place : twin.place = held.place) : tree.SamePlaces (tree.set id twin) := by
  obtain ⟨there, rfl⟩ := List.getElem?_eq_some_iff.1 found
  have inside : id.raw < (tree.contexts.map Context.place).length := by
    rwa [List.length_map]
  have kept : (tree.contexts.map Context.place)[id.raw] = twin.place := by
    rw [List.getElem_map, place]
  rw [SamePlaces, ContextTree.set, List.map_set, ← kept, List.set_getElem_self]

variable (same : tree.SamePlaces other)
include same

/-- There are as many contexts. -/
theorem count : other.count = tree.count := by
  have lengths := congrArg List.length same
  rw [List.length_map, List.length_map] at lengths
  exact lengths.symm

/-- A context is there in both or in none, in the same place. -/
theorem place (number : Nat) :
    other.contexts[number]?.map Context.place = tree.contexts[number]?.map Context.place := by
  rw [← List.getElem?_map, ← List.getElem?_map, same]

/-- A context has the same source. -/
theorem sourceOf (id : ContextId) : other.sourceOf id = tree.sourceOf id := by
  have sources : ∀ found : Option Context, (found.bind fun context => context.source) =
      (found.map Context.place).bind fun context => context.source := by
    rintro (_ | context) <;> rfl
  rw [ContextTree.sourceOf, ContextTree.sourceOf, sources, same.place, ← sources]

/-- A context asked for the same ones. -/
theorem children (id : ContextId) : other.children id = tree.children id := by
  have children (contexts : List Context) :
      (contexts.filter fun context => context.parent == some id).map (fun context => context.id) =
        ((contexts.map Context.place).filter fun context => context.parent == some id).map
          fun context => context.id := by
    rw [List.filter_map, List.map_map]
    rfl
  rw [ContextTree.children, ContextTree.children, children other.contexts, ← same, ← children]

/-- There is the same depth below a context. -/
theorem depthBelow (id : ContextId) : other.depthBelow (some id) = tree.depthBelow (some id) := by
  have place := same.place id.raw
  cases there : tree.contexts[id.raw]? with
  | none =>
    rw [there, Option.map_none, Option.map_eq_none_iff] at place
    simp only [ContextTree.depthBelow, ContextTree.get, there, place]
  | some context =>
    rw [there, Option.map_some, Option.map_eq_some_iff] at place
    obtain ⟨twin, found, equal⟩ := place
    have depth : twin.place.depth = context.place.depth :=
      congrArg (fun context => context.depth) equal
    change twin.depth = context.depth at depth
    rw [depthBelow_of_found there, depthBelow_of_found found, depth]

/-- More contexts are added to both. -/
theorem append (added : List Context) : (tree.append added).SamePlaces (other.append added) := by
  rw [SamePlaces, ContextTree.append, ContextTree.append, List.map_append, List.map_append, same]

/-- One more context is added to both. -/
theorem add (context : Context) : (tree.add context).SamePlaces (other.add context) :=
  same.append [context]

/-- One context is replaced in both. -/
theorem set (id : ContextId) (context : Context) :
    (tree.set id context).SamePlaces (other.set id context) := by
  rw [SamePlaces, ContextTree.set, ContextTree.set, List.map_set, List.map_set, same]

end SamePlaces

end ContextTree

end Interchange
