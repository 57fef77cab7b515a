import Interchange.Registry

/-!
# One registry at work

The calls of a registry, one after the other, with the routines that are at work in between. A
look-up is answered at once, or it starts the routine it finds and is answered when that
routine has ended; until then anything can happen at the registry, this look-up's own name
included. The routines at work are nested, so the one started last ends first. Nothing is said
here about what makes the calls, so all callers are covered.
-/
namespace Interchange

/-- What an export binds a name to. -/
inductive Content where
  /-- A value. -/
  | value (value : Value)
  /-- The result of a routine. -/
  | routine (number : Nat)

/-- What a new binding holds. -/
def Content.slot : Content → Slot
  | value held => .ready held
  | routine number => .deferred number

/-- A routine at work for the binding that a look-up found. -/
structure Forcing where
  /-- The name that was looked up. -/
  name : String
  /-- The number of the binding. -/
  generation : Nat
  /-- The routine. -/
  routine : Nat
  deriving DecidableEq

/-- What can happen at a registry. -/
inductive Deed where
  /-- A name is bound. -/
  | exported (name : String) (content : Content)
  /-- A look-up is answered at once. -/
  | answered (name : String) (answer : Except Fault Value)
  /-- A look-up starts a routine. -/
  | started (forcing : Forcing)
  /-- A routine ends, and the look-up that started it is answered with its result. -/
  | ended (forcing : Forcing) (result : Except Fault Value)

/-- What happens at a registry, told backwards, while one look-up of a name is answered. -/
inductive LookUp (name : String) (answer : Except Fault Value) : List Deed → Prop where
  /-- It is answered at once. -/
  | atOnce : LookUp name answer [.answered name answer]
  /-- It starts a routine, and whatever else happens in between, the end of that routine is the
  answer. -/
  | afterRun {forcing : Forcing} (inner : List Deed) (same : forcing.name = name) :
      LookUp name answer (.ended forcing answer :: (inner ++ [.started forcing]))

/-- A registry with the routines at work for its bindings, the one started last first. -/
structure Exchange where
  /-- The registry. -/
  registry : Registry
  /-- The routines at work. -/
  forcings : List Forcing := []

namespace Exchange

/-- One thing happens. -/
inductive Step : Exchange → Deed → Exchange → Prop where
  /-- Any context binds a name. -/
  | exported (registry : Registry) (forcings : List Forcing) (name : String) (content : Content)
      (context : ContextId) (line : Option Nat) :
      Step ⟨registry, forcings⟩ (.exported name content)
        ⟨registry.bind name content.slot context line, forcings⟩
  /-- The name is not bound. -/
  | unbound {registry : Registry} (forcings : List Forcing) {name : String}
      (context : ContextId) (line : Option Nat) (missing : registry.find? name = none) :
      Step ⟨registry, forcings⟩ (.answered name (.error (.unresolvedName name)))
        ⟨(registry.lookUp name context line).2, forcings⟩
  /-- The name is bound to a value. -/
  | ready {registry : Registry} (forcings : List Forcing) {name : String} {binding : Binding}
      {value : Value} (context : ContextId) (line : Option Nat)
      (found : registry.find? name = some binding) (held : binding.slot = .ready value) :
      Step ⟨registry, forcings⟩ (.answered name (.ok value))
        ⟨(registry.lookUp name context line).2, forcings⟩
  /-- The routine that the name is bound to is running. -/
  | cyclic {registry : Registry} (forcings : List Forcing) {name : String} {binding : Binding}
      {routine : Nat} (context : ContextId) (line : Option Nat)
      (found : registry.find? name = some binding) (held : binding.slot = .forcing routine) :
      Step ⟨registry, forcings⟩ (.answered name (.error (.cyclicLazyExport name)))
        ⟨(registry.lookUp name context line).2, forcings⟩
  /-- The name is bound to a routine that is not running. -/
  | started {registry : Registry} (forcings : List Forcing) {name : String} {binding : Binding}
      {routine : Nat} (context : ContextId) (line : Option Nat)
      (found : registry.find? name = some binding) (held : binding.slot = .deferred routine) :
      Step ⟨registry, forcings⟩ (.started ⟨name, binding.generation, routine⟩)
        ⟨(registry.lookUp name context line).2.replace name (.forcing routine),
          ⟨name, binding.generation, routine⟩ :: forcings⟩
  /-- The routine started last ends with some result. -/
  | ended (registry : Registry) (forcing : Forcing) (forcings : List Forcing)
      (result : Except Fault Value) :
      Step ⟨registry, forcing :: forcings⟩ (.ended forcing result)
        ⟨registry.settle forcing.name forcing.generation forcing.routine result, forcings⟩

/-- One thing happens after the other; they are told backwards. -/
inductive Reaches (first : Exchange) : List Deed → Exchange → Prop where
  /-- Nothing has happened. -/
  | refl : Reaches first [] first
  /-- One more thing has happened. -/
  | step {last next : Exchange} {deeds : List Deed} {deed : Deed}
      (before : Reaches first deeds last) (now : Step last deed next) :
      Reaches first (deed :: deeds) next

/-- What happens after what has happened has happened as well. -/
theorem Reaches.trans {first middle last : Exchange} {deeds later : List Deed}
    (before : Reaches first deeds middle) (after : Reaches middle later last) :
    Reaches first (later ++ deeds) last := by
  induction after with
  | refl => exact before
  | step _ now ih => exact ih.step now

/-- The same registry while more routines wait for those at work. -/
def waiting (exchange : Exchange) (outer : List Forcing) : Exchange :=
  ⟨exchange.registry, exchange.forcings ++ outer⟩

/-- What can happen can happen while more routines wait. -/
theorem Step.waiting {before after : Exchange} {deed : Deed} (now : Step before deed after)
    (outer : List Forcing) : Step (before.waiting outer) deed (after.waiting outer) := by
  cases now with
  | exported registry forcings name content context line =>
    exact .exported registry (forcings ++ outer) name content context line
  | unbound forcings context line missing => exact .unbound (forcings ++ outer) context line missing
  | ready forcings context line found held =>
    exact .ready (forcings ++ outer) context line found held
  | cyclic forcings context line found held =>
    exact .cyclic (forcings ++ outer) context line found held
  | started forcings context line found held =>
    exact .started (forcings ++ outer) context line found held
  | ended registry forcing forcings result =>
    exact .ended registry forcing (forcings ++ outer) result

/-- What has happened could have happened while more routines waited. -/
theorem Reaches.waiting {first last : Exchange} {deeds : List Deed}
    (reached : Reaches first deeds last) (outer : List Forcing) :
    Reaches (first.waiting outer) deeds (last.waiting outer) := by
  induction reached with
  | refl => exact .refl
  | step _ now ih => exact ih.step (now.waiting outer)

/-- What is kept by each thing that happens is kept by all of them. -/
theorem Reaches.keeps {P : Exchange → Prop} {first last : Exchange} {deeds : List Deed}
    (kept : ∀ {before deed after}, Step before deed after → P before → P after)
    (reached : Reaches first deeds last) (initial : P first) : P last := by
  induction reached with
  | refl => exact initial
  | step before now ih => exact kept now ih

end Exchange

end Interchange
