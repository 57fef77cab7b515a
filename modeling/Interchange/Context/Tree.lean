import Interchange.Context.Info
import Interchange.Session

/-!
# The tree of contexts

Every evaluation happens in a context, which belongs to the context that asked for it. A
context gives its session away while it runs (`ContextTree.begin`) and takes it back afterwards
(`ContextTree.finish`), so nothing can be evaluated in a running context. The host is context
zero; it is always running and has no session. What refuses to create or to begin leaves the
tree as it was (`ContextTree.create_of_refused`, `ContextTree.begin_of_refused`).
-/
namespace Interchange

/-- A context with its place in the tree. -/
structure Context extends ContextInfo where
  /-- Its session, unless it is running. -/
  session : Option Session

/-- All contexts, by number. -/
structure ContextTree where
  /-- The contexts in the order of their creation. -/
  contexts : List Context

namespace ContextTree

/-- The host alone. -/
def initial : ContextTree where
  contexts := [{
    id := .host, parent := none, language := none, source := none, status := .running,
    depth := 0, locals := [], session := none }]

/-- The context of a number. -/
def get (tree : ContextTree) (id : ContextId) : Except Fault Context :=
  Fault.orElse (.unknownContext id) tree.contexts[id.raw]?

/-- How many contexts there are, the host included. -/
def count (tree : ContextTree) : Nat := tree.contexts.length

/-- Put a context in the place of the one that has a number. -/
def set (tree : ContextTree) (id : ContextId) (context : Context) : ContextTree :=
  ⟨tree.contexts.set id.raw context⟩

/-- The depth of a new context below a parent. -/
def depthBelow (tree : ContextTree) : Option ContextId → Except Fault Nat
  | none => .ok 1
  | some parent => return (← tree.get parent).depth + 1

/-- How many numbers there are for contexts. -/
abbrev capacity : Nat := UInt32.size

/-- Add a context below a parent, if there is a number left for it. -/
def create (tree : ContextTree) (parent : Option ContextId) (language : String)
    (session : Session) : Except Fault ContextId × ContextTree :=
  match tree.depthBelow parent with
  | .error fault => (.error fault, tree)
  | .ok depth =>
    if tree.count < capacity then
      let context : Context := {
        id := ⟨tree.count⟩, parent, language := some language, source := none,
        status := .created, depth, locals := [], session := some session }
      (.ok ⟨tree.count⟩, ⟨tree.contexts ++ [context]⟩)
    else (.error (.depthExceeded tree.count), tree)

/-- Take the session of a context that is about to evaluate a unit, with the depth of the
context. -/
def begin (tree : ContextTree) (id : ContextId) (source : String) :
    Except Fault (Session × Nat) × ContextTree :=
  match tree.get id with
  | .error fault => (.error fault, tree)
  | .ok context =>
    match context.session with
    | none => (.error (.contextUnavailable id), tree)
    | some session =>
      (.ok (session, context.depth),
        tree.set id { context with status := .running, source := some source, session := none })

/-- Give the session back to a context that has ended a unit. -/
def finish (tree : ContextTree) (id : ContextId) (session : Session) (succeeded : Bool) :
    ContextTree :=
  match tree.contexts[id.raw]? with
  | none => tree
  | some context =>
    tree.set id { context with
      locals := session.localNames, session := some session,
      status := if succeeded then .completed else .faulted }

/-- The path of the unit that a context evaluates or has evaluated last. -/
def sourceOf (tree : ContextTree) (id : ContextId) : Option String :=
  tree.contexts[id.raw]?.bind fun context => context.source

/-- The contexts that a context asked for, in the order of their creation. -/
def children (tree : ContextTree) (id : ContextId) : List ContextId :=
  (tree.contexts.filter fun context => context.parent == some id).map fun context => context.id

variable {tree after : ContextTree} {fault : Fault}

/-- A context that is refused has not been created. -/
theorem create_of_refused {parent : Option ContextId} {language : String} {session : Session}
    (refused : tree.create parent language session = (.error fault, after)) : after = tree := by
  unfold create at refused
  split at refused
  · exact (Prod.mk.inj refused).2.symm
  · split at refused
    · cases (Prod.mk.inj refused).1
    · exact (Prod.mk.inj refused).2.symm

/-- A context that refuses to begin is as it was. -/
theorem begin_of_refused {id : ContextId} {source : String}
    (refused : tree.begin id source = (.error fault, after)) : after = tree := by
  unfold begin at refused
  split at refused
  · exact (Prod.mk.inj refused).2.symm
  · split at refused
    · exact (Prod.mk.inj refused).2.symm
    · cases (Prod.mk.inj refused).1

end ContextTree

end Interchange
