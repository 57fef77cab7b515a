import Interchange.Proofs.Context.Census

/-!
# The way down to the innermost context

Under a call, contexts evaluate units one inside the other. The running ones lie on one way down
from the caller, each one deeper than the one that asked for it (`ContextTree.Way`), and no other
context that the call has made is running (`ContextTree.Descends`). A context that begins a unit
lengthens the way, and the one that began last shortens it again.
-/
namespace Interchange.ContextTree

/-- The contexts on a way down from a caller at a depth, the innermost first: all of them are
running, and each lies one deeper than the one above it, which asked for it. -/
inductive Way (tree : ContextTree) (caller : ContextId) (depth : Nat) : List ContextId → Prop where
  /-- The caller itself. -/
  | here : Way tree caller depth []
  /-- One deeper. -/
  | deeper {above : List ContextId} {id : ContextId} {context : Context}
      (way : Way tree caller depth above) (found : tree.contexts[id.raw]? = some context)
      (running : context.status = .running) (parent : context.parent = some (above.headD caller))
      (below : context.depth = depth + above.length + 1) : Way tree caller depth (id :: above)

variable {tree after : ContextTree} {caller id : ContextId} {depth : Nat} {running : List ContextId}

namespace Way

/-- The contexts on the way lie no deeper than it is long. -/
theorem found (way : tree.Way caller depth running) (mem : id ∈ running) :
    ∃ context, tree.contexts[id.raw]? = some context ∧
      context.depth ≤ depth + running.length := by
  induction way with
  | here => simp at mem
  | @deeper above inner context _ there _ _ below ih =>
    rw [List.length_cons]
    rcases List.mem_cons.1 mem with rfl | outer
    · exact ⟨context, there, by omega⟩
    · obtain ⟨context, there, short⟩ := ih outer
      exact ⟨context, there, by omega⟩

/-- The contexts on the way are all that matters. -/
theorem kept (way : tree.Way caller depth running)
    (same : ∀ id ∈ running, after.contexts[id.raw]? = tree.contexts[id.raw]?) :
    after.Way caller depth running := by
  induction way with
  | here => exact .here
  | deeper _ there active parent below ih =>
    have outer := ih fun id mem => same id (List.mem_cons_of_mem _ mem)
    exact outer.deeper ((same _ List.mem_cons_self).trans there) active parent below

end Way

/-- What is running under a call of a caller, which makes contexts from a number on: those on one
way down from the caller, the innermost first. -/
structure Descends (caller : ContextId) (depth first : Nat) (tree : ContextTree)
    (running : List ContextId) : Prop where
  /-- The caller lies at the depth. -/
  entered : ∃ entry, tree.contexts[caller.raw]? = some entry ∧ entry.depth = depth
  /-- No context was removed. -/
  grown : first ≤ tree.count
  /-- The contexts lie on the way down. -/
  way : tree.Way caller depth running
  /-- The call has made them. -/
  made : ∀ id ∈ running, first ≤ id.raw
  /-- No other context that the call has made is running. -/
  only : ∀ (number : Nat) context, first ≤ number → tree.contexts[number]? = some context →
    (context.status = .running ↔ ⟨number⟩ ∈ running)

namespace Descends

variable {first : Nat}

/-- At the beginning of a call it has made no contexts. -/
theorem start {entry : Context} (there : tree.contexts[caller.raw]? = some entry) :
    Descends caller entry.depth tree.count tree [] where
  entered := ⟨entry, there, rfl⟩
  grown := Nat.le_refl _
  way := .here
  made _ none := absurd none List.not_mem_nil
  only _ _ new found := absurd (lt_count found) (Nat.not_lt.2 new)

/-- The innermost context, or the caller while nothing runs, lies at the end of the way. -/
theorem innermost (descends : Descends caller depth first tree running) :
    ∃ context, tree.contexts[(running.headD caller).raw]? = some context ∧
      context.depth = depth + running.length := by
  cases descends.way with
  | here => exact descends.entered
  | deeper _ there _ _ below => exact ⟨_, there, below⟩

/-- A context below the innermost one lies one deeper than the way is long. -/
theorem depthBelow (descends : Descends caller depth first tree running) :
    tree.depthBelow (some (running.headD caller)) = .ok (depth + running.length + 1) := by
  obtain ⟨context, found, deep⟩ := descends.innermost
  rw [depthBelow_of_found found, deep]

/-- A new context that is running below the innermost one lengthens the way. -/
theorem begun (descends : Descends caller depth first tree running) (language path : String) :
    Descends caller depth first
      (tree.add (.running ⟨tree.count⟩ (running.headD caller) language path
        (depth + running.length + 1)))
      (⟨tree.count⟩ :: running) := by
  obtain ⟨entry, there, deep⟩ := descends.entered
  have early : ∀ id ∈ running, id.raw < tree.count := fun id mem => by
    obtain ⟨_, found, _⟩ := descends.way.found mem
    exact lt_count found
  have outer := descends.way.kept fun id mem => contexts_add_of_lt
    (.running ⟨tree.count⟩ (running.headD caller) language path (depth + running.length + 1))
    (early id mem)
  refine ⟨⟨entry, ?_, deep⟩, ?_, outer.deeper (contexts_add_self tree _) rfl rfl rfl, ?_, ?_⟩
  · exact (contexts_add_of_lt _ (lt_count there)).trans there
  · exact (count_add tree _).symm ▸ Nat.le_succ_of_le descends.grown
  · exact List.forall_mem_cons.2 ⟨descends.grown, descends.made⟩
  · intro number context new found
    rcases contexts_add found with ⟨rfl, rfl⟩ | ⟨old, found⟩
    · exact iff_of_true rfl List.mem_cons_self
    · have different : (⟨number⟩ : ContextId) ≠ ⟨tree.count⟩ := fun same =>
        Nat.ne_of_lt old (congrArg ContextId.raw same)
      rw [descends.only number context new found, List.mem_cons, or_iff_right different]

/-- The innermost context that ends its unit shortens the way. -/
theorem ended (descends : Descends caller depth first tree (id :: running)) (session : Session)
    (succeeded : Bool) :
    Descends caller depth first (tree.finish id session succeeded) running := by
  obtain ⟨entry, there, deep⟩ := descends.entered
  cases descends.way with
  | @deeper _ _ context outer inner _ _ below =>
    -- All others lie less deep, so none of them is the one that ends.
    have others : ∀ (other : ContextId) (context : Context),
        tree.contexts[other.raw]? = some context → context.depth ≤ depth + running.length →
        (tree.finish id session succeeded).contexts[other.raw]? = some context := by
      intro other context found shallow
      refine (contexts_finish_of_ne session succeeded fun same => ?_).trans found
      rw [same, inner, Option.some.injEq] at found
      subst found
      omega
    refine ⟨⟨entry, others caller entry there (by omega), deep⟩, ?_, ?_, ?_, ?_⟩
    · exact (count_finish tree id session succeeded).symm ▸ descends.grown
    · refine outer.kept fun other mem => ?_
      obtain ⟨context, found, shallow⟩ := outer.found mem
      exact (others other context found shallow).trans found.symm
    · exact fun other mem => descends.made other (List.mem_cons_of_mem _ mem)
    · intro number other new found
      by_cases same : number = id.raw
      · subst same
        rw [contexts_finish_self inner, Option.some.injEq] at found
        subst found
        refine iff_of_false (by cases succeeded <;> simp) fun mem => ?_
        obtain ⟨context, again, shallow⟩ := outer.found mem
        rw [inner, Option.some.injEq] at again
        subst again
        omega
      · rw [contexts_finish_of_ne session succeeded same] at found
        have different : (⟨number⟩ : ContextId) ≠ id := fun equal =>
          same (congrArg ContextId.raw equal)
        rw [descends.only number other new found, List.mem_cons, or_iff_right different]

end Descends

end Interchange.ContextTree
