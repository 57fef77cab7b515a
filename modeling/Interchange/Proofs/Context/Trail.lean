import Interchange.Context.Tree
import Interchange.Proofs.Guests.Plain

/-!
# What evaluations leave in the tree of contexts

A failed evaluation leaves a trail of faulted contexts, from the one that was asked for down to
the one in which the fault arose, each the last child of the one before it (`ContextTree.Trail`).
Everything else that was created has completed (`ContextTree.Leaves`). What is left by programs
that run one after the other adds up (`Leaves.trans`), and evaluating a unit in a new context
lengthens the trail by that context (`Leaves.enclose`).
-/
namespace Interchange

/-- A context that has evaluated nothing yet. -/
def Context.fresh (id caller : ContextId) (language : String) (depth : Nat) (session : Session) :
    Context where
  id := id
  parent := some caller
  language := some language
  source := none
  status := .created
  depth := depth
  locals := []
  session := some session

/-- The same context while it evaluates its first unit. -/
def Context.running (id caller : ContextId) (language path : String) (depth : Nat) : Context where
  id := id
  parent := some caller
  language := some language
  source := some path
  status := .running
  depth := depth
  locals := []
  session := none

namespace ContextTree

/-- The context that asked for the one of a number. -/
def parentOf (tree : ContextTree) (number : Nat) : Option ContextId :=
  tree.contexts[number]?.bind fun context => context.parent

/-- The tree with one more context. -/
def add (tree : ContextTree) (context : Context) : ContextTree := ⟨tree.contexts ++ [context]⟩

/-- Adding a context adds one. -/
theorem count_add (tree : ContextTree) (context : Context) :
    (tree.add context).count = tree.count + 1 := List.length_append

/-- The added context has the next number. -/
theorem contexts_add_self (tree : ContextTree) (context : Context) :
    (tree.add context).contexts[tree.count]? = some context := List.getElem?_concat_length

/-- Adding a context leaves the others as they are. -/
theorem contexts_add_of_lt {tree : ContextTree} (context : Context) {number : Nat}
    (there : number < tree.count) :
    (tree.add context).contexts[number]? = tree.contexts[number]? :=
  List.getElem?_append_left there

/-- Replacing the added context is adding the other one. -/
theorem set_add (tree : ContextTree) (context other : Context) :
    (tree.add context).set ⟨tree.count⟩ other = tree.add other := by
  simp [add, set, count]

/-- A context with a number is there. -/
theorem lt_count {tree : ContextTree} {number : Nat} {context : Context}
    (found : tree.contexts[number]? = some context) : number < tree.count :=
  (List.getElem?_eq_some_iff.1 found).1

/-- A context below one that is there lies one deeper. -/
theorem depthBelow_of_found {tree : ContextTree} {parent : ContextId} {context : Context}
    (found : tree.contexts[parent.raw]? = some context) :
    tree.depthBelow (some parent) = .ok (context.depth + 1) := by
  simp only [depthBelow, get, found, Fault.orElse, bind, Except.bind, pure, Except.pure]

/-- A context below which there is a depth is there, one less deep. -/
theorem exists_of_depthBelow {tree : ContextTree} {parent : ContextId} {depth : Nat}
    (below : tree.depthBelow (some parent) = .ok depth) :
    ∃ context, tree.contexts[parent.raw]? = some context ∧ depth = context.depth + 1 := by
  cases found : tree.contexts[parent.raw]? with
  | none => simp [depthBelow, get, found, Fault.orElse, bind, Except.bind] at below
  | some context =>
    rw [depthBelow_of_found found] at below
    exact ⟨context, rfl, (Except.ok.inj below).symm⟩

/-- A context is created below one that is there, with the next number. -/
theorem create_of_depthBelow {tree : ContextTree} {caller : ContextId} {depth : Nat}
    (below : tree.depthBelow (some caller) = .ok depth) (room : tree.count < capacity)
    (language : String) (session : Session) :
    tree.create (some caller) language session =
      (.ok ⟨tree.count⟩, tree.add (.fresh ⟨tree.count⟩ caller language depth session)) := by
  simp only [create, below, if_pos room]
  rfl

/-- Without a number for it no context is created below one that is there. -/
theorem create_of_full {tree : ContextTree} {caller : ContextId} {depth : Nat}
    (below : tree.depthBelow (some caller) = .ok depth) (full : capacity ≤ tree.count)
    (language : String) (session : Session) :
    tree.create (some caller) language session = (.error (.depthExceeded tree.count), tree) := by
  simp only [create, below, if_neg (Nat.not_lt.2 full)]

/-- Below a context that is not there none is created. -/
theorem create_of_unknown {tree : ContextTree} {parent : Option ContextId} {fault : Fault}
    (nowhere : tree.depthBelow parent = .error fault) (language : String) (session : Session) :
    tree.create parent language session = (.error fault, tree) := by
  simp only [create, nowhere]

/-- The depth below a context is refused in plain ways. -/
theorem plainly_depthBelow (tree : ContextTree) (parent : Option ContextId) :
    Fault.Plainly (tree.depthBelow parent) := by
  cases parent with
  | none => exact Fault.plainly_ok 1
  | some parent =>
    have found : Fault.Plainly (tree.get parent) := Fault.plainly_orElse trivial
    exact found.bind fun _ => Fault.plainly_pure _

/-- A context that was just created begins a unit with its session. -/
theorem begin_fresh (tree : ContextTree) (caller : ContextId) (language path : String)
    (depth : Nat) (session : Session) :
    (tree.add (.fresh ⟨tree.count⟩ caller language depth session)).begin ⟨tree.count⟩ path =
      (.ok (session, depth),
        tree.add (.running ⟨tree.count⟩ caller language path depth)) := by
  simp only [begin, get, contexts_add_self, Context.fresh, Fault.orElse, set_add]
  rfl

/-- The last element of a list with a property. -/
theorem getLast?_filter_of_last {α : Type} {p : α → Bool} {list : List α} {index : Nat} {last : α}
    (found : list[index]? = some last) (holds : p last = true)
    (none : ∀ later other, index < later → list[later]? = some other → p other = false) :
    (list.filter p).getLast? = some last := by
  have beyond : (list.drop (index + 1)).filter p = [] := by
    refine List.filter_eq_nil_iff.2 fun other mem => ?_
    obtain ⟨offset, stands⟩ := List.getElem?_of_mem mem
    rw [List.getElem?_drop] at stands
    exact Bool.not_eq_true _ ▸ none _ other (by omega) stands
  rw [← List.take_append_drop (index + 1) list, List.filter_append, beyond, List.append_nil,
    List.take_add_one, found, List.filter_append]
  simp [holds]

/-- A child after which no other child was created is the last one. -/
theorem getLast?_children {tree : ContextTree} {caller child : ContextId} {context : Context}
    (found : tree.contexts[child.raw]? = some context) (named : context.id = child)
    (parent : context.parent = some caller)
    (last : ∀ later, child.raw < later → tree.parentOf later ≠ some caller) :
    (tree.children caller).getLast? = some child := by
  have asked : (context.parent == some caller) = true := beq_iff_eq.2 parent
  have others : ∀ later other, child.raw < later → tree.contexts[later]? = some other →
      (other.parent == some caller) = false := by
    intro later other beyond there
    have different := last later beyond
    rw [parentOf, there] at different
    exact beq_eq_false_iff_ne.2 different
  rw [children, List.getLast?_map, getLast?_filter_of_last found asked others, Option.map_some,
    named]

/-- Children are told by the numbers and parents of all contexts. -/
theorem children_congr {tree other : ContextTree}
    (same : other.contexts.map (fun context => (context.id, context.parent)) =
      tree.contexts.map fun context => (context.id, context.parent)) (caller : ContextId) :
    other.children caller = tree.children caller := by
  have told (tree : ContextTree) : tree.children caller =
      ((tree.contexts.map fun context => (context.id, context.parent)).filter
        fun entry => entry.2 == some caller).map Prod.fst := by
    rw [List.filter_map, List.map_map]
    rfl
  rw [told, told, same]

/-- The contexts that a fault tells of, from the one that the caller asked for downwards. Without
a fault there are none. -/
inductive Trail (tree : ContextTree) : ContextId → Option Fault → List ContextId → Prop where
  /-- There was no fault. -/
  | success {caller : ContextId} : Trail tree caller none []
  /-- The fault arose in the context itself. -/
  | root {caller : ContextId} {fault : Fault} (plain : fault.IsPlain) :
      Trail tree caller (some fault) []
  /-- There was no number left for a child. -/
  | full {caller : ContextId} {number : Nat} (all : number = tree.count)
      (full : capacity ≤ number) : Trail tree caller (some (.depthExceeded number)) []
  /-- The last child lies too deep to evaluate anything. -/
  | tooDeep {caller child : ContextId} {limit : Nat} {context : Context}
      (last : (tree.children caller).getLast? = some child)
      (found : tree.contexts[child.raw]? = some context) (status : context.status = .faulted) :
      Trail tree caller (some (.depthExceeded limit)) [child]
  /-- The last child has failed, and the fault tells of it, of its language and of the path of
  its unit. -/
  | within {caller child : ContextId} {language path : String} {cause : Fault}
      {context : Context} {rest : List ContextId}
      (last : (tree.children caller).getLast? = some child)
      (found : tree.contexts[child.raw]? = some context) (status : context.status = .faulted)
      (speaks : context.language = some language) (source : context.source = some path)
      (inner : Trail tree child (some cause) rest) :
      Trail tree caller (some (.evaluation language path child cause)) (child :: rest)

/-- A context that takes its session back changes nothing but itself. -/
theorem contexts_finish_of_ne {tree : ContextTree} {id : ContextId} (session : Session)
    (succeeded : Bool) {number : Nat} (other : number ≠ id.raw) :
    (tree.finish id session succeeded).contexts[number]? = tree.contexts[number]? := by
  unfold finish
  split
  · rfl
  · exact List.getElem?_set_ne (Ne.symm other)

/-- A context that takes its session back keeps its place in the tree. -/
theorem contexts_finish_self {tree : ContextTree} {id : ContextId} {context : Context}
    (found : tree.contexts[id.raw]? = some context) (session : Session) (succeeded : Bool) :
    (tree.finish id session succeeded).contexts[id.raw]? =
      some { context with
        locals := session.localNames, session := some session,
        status := if succeeded then .completed else .faulted } := by
  have there : id.raw < tree.contexts.length := by
    by_cases below : id.raw < tree.contexts.length
    · exact below
    · simp [List.getElem?_eq_none (Nat.le_of_not_lt below)] at found
  simp only [finish, found, set, List.getElem?_set_self there]

/-- No context is added or removed at the end of a unit. -/
theorem count_finish (tree : ContextTree) (id : ContextId) (session : Session)
    (succeeded : Bool) : (tree.finish id session succeeded).count = tree.count := by
  unfold finish
  split
  · rfl
  · exact List.length_set

/-- All numbers and parents stay the same at the end of a unit. -/
theorem children_finish (tree : ContextTree) (id : ContextId) (session : Session)
    (succeeded : Bool) (caller : ContextId) :
    (tree.finish id session succeeded).children caller = tree.children caller := by
  unfold finish
  split
  · rfl
  · rename_i context found
    obtain ⟨there, rfl⟩ := List.getElem?_eq_some_iff.1 found
    refine children_congr ?_ caller
    rw [set, List.map_set]
    refine List.ext_getElem? fun number => ?_
    by_cases same : number = id.raw
    · subst same
      simp [there]
    · rw [List.getElem?_set_ne (Ne.symm same)]

/-- All parents stay the same at the end of a unit. -/
theorem parentOf_finish (tree : ContextTree) (id : ContextId) (session : Session)
    (succeeded : Bool) (number : Nat) :
    (tree.finish id session succeeded).parentOf number = tree.parentOf number := by
  by_cases same : number = id.raw
  · subst same
    cases found : tree.contexts[id.raw]? with
    | none => simp only [finish, found]
    | some context =>
      rw [parentOf, contexts_finish_self found, parentOf, found]
      rfl
  · rw [parentOf, contexts_finish_of_ne session succeeded same, parentOf]

/-- A trail stays when a context that is not on it takes its session back. -/
theorem Trail.finish {tree : ContextTree} {caller id : ContextId} {fault? : Option Fault}
    {faulted : List ContextId} (trail : tree.Trail caller fault? faulted) (session : Session)
    (succeeded : Bool) (other : id ∉ faulted) :
    (tree.finish id session succeeded).Trail caller fault? faulted := by
  have children := children_finish tree id session succeeded
  have same : ∀ child : ContextId, child ≠ id →
      (tree.finish id session succeeded).contexts[child.raw]? = tree.contexts[child.raw]? :=
    fun child different => contexts_finish_of_ne session succeeded fun equal =>
      different (by cases child; cases id; simp_all)
  induction trail with
  | success => exact .success
  | root plain => exact .root plain
  | full all full => exact .full (all.trans (count_finish tree id session succeeded).symm) full
  | tooDeep last found status =>
    have different := fun equal => other (List.mem_singleton.2 (Eq.symm equal))
    exact .tooDeep (by rw [children]; exact last) (by rw [same _ different]; exact found) status
  | within last found status speaks source _ ih =>
    simp only [List.mem_cons, not_or] at other
    exact .within (by rw [children]; exact last)
      (by rw [same _ (Ne.symm other.1)]; exact found) status speaks source (ih other.2)

/-- What a program that runs for a context leaves: all contexts that were there, and new ones
below it, of which those on the trail of its fault have faulted and all others have completed. -/
structure Leaves (caller : ContextId) (before : ContextTree) (fault? : Option Fault)
    (after : ContextTree) : Prop where
  /-- What was there stays as it was. -/
  kept : before.contexts <+: after.contexts
  /-- What is new lies below the context or below another new one. -/
  below : ∀ number parent, before.count ≤ number → after.parentOf number = some parent →
    parent = caller ∨ before.count ≤ parent.raw
  /-- The fault tells of new contexts, and all other new ones have completed. -/
  told : ∃ faulted, after.Trail caller fault? faulted ∧ (∀ id ∈ faulted, before.count ≤ id.raw) ∧
    ∀ number context, before.count ≤ number → after.contexts[number]? = some context →
      ⟨number⟩ ∉ faulted → context.status = .completed

namespace Leaves

variable {caller : ContextId} {before middle after : ContextTree} {fault? : Option Fault}

/-- Contexts are only added. -/
theorem count_le (leaves : Leaves caller before fault? after) : before.count ≤ after.count :=
  leaves.kept.length_le

/-- A context that was there is the same. -/
theorem getElem?_eq (leaves : Leaves caller before fault? after) {number : Nat}
    (there : number < before.count) : after.contexts[number]? = before.contexts[number]? := by
  obtain ⟨added, same⟩ := leaves.kept
  rw [← same, List.getElem?_append_left there]

/-- A program that does nothing to contexts and has no fault of an evaluation. -/
theorem refl (plain : ∀ fault, fault? = some fault → fault.IsPlain) :
    Leaves caller before fault? before := by
  have none_new : ∀ number, before.count ≤ number → before.contexts[number]? = none :=
    fun number beyond => List.getElem?_eq_none beyond
  refine ⟨List.prefix_refl _, fun number parent beyond same => ?_, [], ?_, by simp, ?_⟩
  · simp [parentOf, none_new number beyond] at same
  · cases fault? with
    | none => exact .success
    | some fault => exact .root (plain fault rfl)
  · intro number context beyond found
    simp [none_new number beyond] at found

/-- A program that was refused a context because no number was left. -/
theorem full (full : capacity ≤ before.count) :
    Leaves caller before (some (.depthExceeded before.count)) before := by
  have still : Leaves caller before none before := refl fun fault impossible => by
    cases impossible
  obtain ⟨kept, below, -, -, none_new, completed⟩ := still
  exact ⟨kept, below, [], .full rfl full, by simp, fun number context beyond found _ => by
    rw [List.getElem?_eq_none beyond] at found
    cases found⟩

/-- One program after another that had no fault. -/
theorem trans (first : Leaves caller before none middle)
    (second : Leaves caller middle fault? after) : Leaves caller before fault? after := by
  refine ⟨first.kept.trans second.kept, fun number parent beyond same => ?_, ?_⟩
  · by_cases early : number < middle.count
    · rw [parentOf, second.getElem?_eq early] at same
      exact first.below number parent beyond same
    · rcases second.below number parent (by omega) same with known | later
      · exact .inl known
      · exact .inr (Nat.le_trans first.count_le later)
  · obtain ⟨faulted, trail, new, completed⟩ := second.told
    refine ⟨faulted, trail, fun id mem => Nat.le_trans first.count_le (new id mem), ?_⟩
    intro number context beyond found other
    by_cases early : number < middle.count
    · obtain ⟨_, noFault, _, completedFirst⟩ := first.told
      cases noFault
      exact completedFirst number context beyond (second.getElem?_eq early ▸ found) (by simp)
    · exact completed number context (by omega) found other

section Enclosed

variable {language path : String} {depth : Nat} {inside : ContextTree} {inner? : Option Fault}
  {session : Session} {succeeded : Bool}

/-- At its end the context that was added next changes nothing but itself. -/
theorem contexts_ended {number : Nat} (different : number ≠ before.count) :
    (inside.finish ⟨before.count⟩ session succeeded).contexts[number]? =
      inside.contexts[number]? := contexts_finish_of_ne session succeeded different

/-- The context of a program is what it was when the program began. -/
theorem found_running
    (leaves : Leaves ⟨before.count⟩
      (before.add (.running ⟨before.count⟩ caller language path depth))
      inner? inside) :
    inside.contexts[before.count]? = some (.running ⟨before.count⟩ caller language path depth) := by
  rw [leaves.getElem?_eq (by rw [count_add]; omega)]
  exact contexts_add_self before _

/-- What was there before a context was added is still there when it has ended. -/
theorem kept_enclosed
    (leaves : Leaves ⟨before.count⟩
      (before.add (.running ⟨before.count⟩ caller language path depth))
      inner? inside) :
    before.contexts <+: (inside.finish ⟨before.count⟩ session succeeded).contexts := by
  refine List.prefix_iff_getElem?.2 fun number there => ?_
  have different : number ≠ before.count := Nat.ne_of_lt there
  rw [contexts_ended different,
    leaves.getElem?_eq (by rw [count_add]; exact Nat.lt_succ_of_lt there),
    contexts_add_of_lt _ there, List.getElem?_eq_getElem there]

/-- What is new when an added context has ended is the context itself, below the caller, and what
lies below it. -/
theorem parent_enclosed
    (leaves : Leaves ⟨before.count⟩
      (before.add (.running ⟨before.count⟩ caller language path depth))
      inner? inside) {number : Nat} {above : ContextId} (new : before.count ≤ number)
    (same : (inside.finish ⟨before.count⟩ session succeeded).parentOf number = some above) :
    (number = before.count ∧ above = caller) ∨
      (before.count < number ∧ before.count ≤ above.raw) := by
  rw [parentOf_finish] at same
  by_cases first : number = before.count
  · subst first
    rw [parentOf, found_running leaves] at same
    exact .inl ⟨rfl, (Option.some.inj same).symm⟩
  · have later : before.count + 1 ≤ number := by omega
    refine .inr ⟨later, ?_⟩
    rcases leaves.below number above (by rw [count_add]; exact later) same with rfl | beyond
    · exact Nat.le_refl _
    · rw [count_add] at beyond
      omega

/-- An added context is the last child of its caller when it has ended. -/
theorem last_enclosed (session : Session) (succeeded : Bool) (there : caller.raw < before.count)
    (leaves : Leaves ⟨before.count⟩
      (before.add (.running ⟨before.count⟩ caller language path depth))
      inner? inside) :
    ((inside.finish ⟨before.count⟩ session succeeded).children caller).getLast? =
      some ⟨before.count⟩ := by
  have ended := contexts_finish_self (found_running leaves) session succeeded
  refine getLast?_children ended rfl rfl fun later beyond same => ?_
  · rcases parent_enclosed leaves (Nat.le_of_lt beyond) same with ⟨rfl, _⟩ | ⟨_, above⟩
    · exact Nat.lt_irrefl _ beyond
    · omega

/-- Evaluating a unit in a new context lengthens the trail by that context. -/
theorem enclose (session : Session) (there : caller.raw < before.count)
    (leaves : Leaves ⟨before.count⟩
      (before.add (.running ⟨before.count⟩ caller language path depth))
      inner? inside) :
    Leaves caller before (inner?.map (.evaluation language path ⟨before.count⟩))
      (inside.finish ⟨before.count⟩ session inner?.isNone) := by
  have ended := contexts_finish_self (found_running leaves) session inner?.isNone
  refine ⟨kept_enclosed leaves, fun number above new same => ?_, ?_⟩
  · exact (parent_enclosed leaves new same).imp And.right And.right
  obtain ⟨faulted, trail, new, completed⟩ := leaves.told
  rw [count_add] at new completed
  have apart : (⟨before.count⟩ : ContextId) ∉ faulted := fun mem => by
    have beyond := new _ mem
    simp only at beyond
    omega
  have others : ∀ number context, before.count < number → ⟨number⟩ ∉ faulted →
      (inside.finish ⟨before.count⟩ session inner?.isNone).contexts[number]? = some context →
      context.status = .completed := fun number context beyond other found => by
    have different : number ≠ before.count := Nat.ne_of_gt beyond
    rw [contexts_ended different] at found
    exact completed number context beyond found other
  cases inner? with
  | none =>
    cases trail
    refine ⟨[], .success, by simp, fun number context beyond found other => ?_⟩
    by_cases first : number = before.count
    · subst first
      rw [← Option.some.inj (ended.symm.trans found)]
      rfl
    · exact others number context (by omega) other found
  | some cause =>
    refine ⟨⟨before.count⟩ :: faulted, ?_, ?_, fun number context beyond found other => ?_⟩
    · exact .within (last_enclosed _ _ there leaves) ended rfl rfl rfl
        (trail.finish session _ apart)
    · intro id mem
      rcases List.mem_cons.1 mem with rfl | mem
      · exact Nat.le_refl _
      · exact Nat.le_of_succ_le (new id mem)
    · simp only [List.mem_cons, ContextId.mk.injEq, not_or] at other
      exact others number context (by omega) other.2 found

/-- A new context that lies too deep is all that is left. -/
theorem tooDeep (language path : String) (depth : Nat) (session : Session) (limit : Nat)
    (there : caller.raw < before.count) :
    Leaves caller before (some (.depthExceeded limit))
      ((before.add (.running ⟨before.count⟩ caller language path depth)).finish ⟨before.count⟩
        session false) := by
  have idle : Leaves ⟨before.count⟩
      (before.add (.running ⟨before.count⟩ caller language path depth)) none
      (before.add (.running ⟨before.count⟩ caller language path depth)) :=
    .refl fun fault impossible => by simp at impossible
  have ended := contexts_finish_self (found_running idle) session false
  refine ⟨kept_enclosed idle, fun number above new same => ?_, [⟨before.count⟩], ?_, ?_, ?_⟩
  · exact (parent_enclosed idle new same).imp And.right And.right
  · exact .tooDeep (last_enclosed _ _ there idle) ended rfl
  · intro id mem
    obtain rfl := List.mem_singleton.1 mem
    exact Nat.le_refl _
  · intro number context beyond found other
    have different : number ≠ before.count := fun same => other (by simp [same])
    rw [contexts_ended different, List.getElem?_eq_none] at found
    · simp at found
    · have count := count_add before (.running ⟨before.count⟩ caller language path depth)
      simp only [ContextTree.count] at count different beyond ⊢
      omega

end Enclosed

end Leaves

end ContextTree

end Interchange
