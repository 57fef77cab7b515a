/-!
# Context identifiers

Contexts are numbered in the order of their creation. The host itself is context zero.
-/
namespace Interchange

/-- The number of an evaluation context. -/
structure ContextId where
  /-- The position in the order of creation. -/
  raw : Nat
  deriving DecidableEq, Inhabited

namespace ContextId

/-- The context of the host program, which is there from the start. -/
def host : ContextId := ⟨0⟩

/-- The form in which messages name a context. -/
def label (context : ContextId) : String := "ctx#" ++ context.raw.repr

end ContextId

end Interchange
