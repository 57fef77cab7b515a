import Interchange.Context.Id

/-!
# What is told of contexts

What anyone may ask an engine about one of its contexts. The session of the context is not part
of it; the names of the locals are those from when the context last ended a unit.
-/
namespace Interchange

/-- How far a context has come. -/
inductive ContextStatus where
  /-- It has evaluated nothing yet. -/
  | created
  /-- It is evaluating. -/
  | running
  /-- Its last unit came to its end. -/
  | completed
  /-- Its last unit failed. -/
  | faulted
  deriving DecidableEq

/-- The word for a status. -/
def ContextStatus.word : ContextStatus → String
  | .created => "Created"
  | .running => "Running"
  | .completed => "Completed"
  | .faulted => "Faulted"

/-- The bookkeeping of a context. -/
structure ContextInfo where
  /-- Its number. -/
  id : ContextId
  /-- The context that asked for this one. -/
  parent : Option ContextId
  /-- The language it evaluates; the host has none. -/
  language : Option String
  /-- The path of the unit it evaluates or has evaluated last. -/
  source : Option String
  /-- How far it has come. -/
  status : ContextStatus
  /-- How many contexts lie between it and the root, itself included. -/
  depth : Nat
  /-- The names of its locals when it last ended a unit. -/
  locals : List String

end Interchange
