import Interchange.Engine.Evaluation

/-!
# Running programs

`answer` says what the exchange does for each request; `Program.run` lets it answer all
requests of a program in order. Where an answer needs another program to run first, a script in
its context, a host function or a lazily exported computation, that program runs inside the
asking one. How many programs may be at work inside each other is bounded by an allowance; a
result does not depend on it, but with too small an allowance there is none.
-/
namespace Interchange

/-- The routines that a host supplies, by number, each with the arguments of a call. -/
abbrev Routines := Nat → List Value → Program (Except Fault Value)

namespace Engine

/-- Look a name up for a context. A routine that the name is bound to is run now, unless it is
running already. -/
def importName (run : Runner) (routines : Routines) (context : ContextId) (name : String)
    (line : Option Nat) : Action (Except Fault Value) := fun world =>
  let (found, registry) := world.registry.lookUp name context line
  let world := { world with registry }
  match found with
  | none => some (.error (.unresolvedName name), world)
  | some binding =>
    match binding.slot with
    | .ready value => some (.ok value, world)
    | .forcing _ => some (.error (.cyclicLazyExport name), world)
    | .deferred routine =>
      let forcing := { world with registry := registry.replace name (.forcing routine) }
      (run _ .host (routines routine []) forcing).map fun (result, world) =>
        (result, { world with
          registry := world.registry.settle name binding.generation routine result })

/-- Bind a name for a context. -/
def bindName (context : ContextId) (name : String) (slot : Slot) (line : Option Nat)
    (world : World) : World :=
  { world with registry := world.registry.bind name slot context line }

/-- Bind a name for a context to native data, if they can be turned into a value. -/
def bindNative {α : Type} (toValue : α → Except Fault Value) (context : ContextId)
    (name : String) (native : α) (line : Option Nat) (world : World) :
    Except Fault Unit × World :=
  match toValue native with
  | .error fault => (.error fault, world)
  | .ok value => (.ok (), bindName context name (.ready value) line world)

/-- Call a function. Its routine belongs to the first engine and acts for the host. -/
def call (run : Runner) (routines : Routines) (function : Reference) (arguments : List Value) :
    Action (Except Fault Value) := fun world =>
  match world.heap.routine function with
  | .error fault => some (.error fault, world)
  | .ok routine => (Action.home (run _ .host (routines routine arguments))) world

/-- What the exchange does for a request of a program that belongs to a context. -/
def answer (run : Runner) (routines : Routines) (context : ContextId) :
    (request : Request) → Action request.Answer
  | .inspect => fun world => some (world.heap, world)
  | .look query => fun world => some (world.atHome.tell query, world)
  | .allocate pairs => fun world =>
    let (reference, heap) := world.heap.allocateRecord context pairs
    some (reference, { world with heap })
  | .setField target name value => fun world =>
    match world.heap.setField target name value with
    | .ok heap => some (.ok (), { world with heap })
    | .error fault => some (.error fault, world)
  | .call function arguments => call run routines function arguments
  | .importName name line => importName run routines context name line
  | .exportValue name value line => fun world =>
    some ((), bindName context name (.ready value) line world)
  | .exportLazy name routine => fun world =>
    some ((), bindName context name (.deferred routine) none world)
  | .eval language path line => evalAt run context language path line
  | .evaluate target unit => evaluate run target unit
  | .evalUnit unit => Action.home (evalUnit run unit)
  | .print line => fun world =>
    let (result, output) := world.engine.output.print line
    some (result, { world with engine := { world.engine with output } })
  | .tally name => fun world =>
    let count := (Fields.find? name world.tallies).getD 0 + 1
    some (count, { world with tallies := Fields.insert name count world.tallies })

end Engine

/-- Run a program with a given way to answer requests. -/
def Program.run {α : Type} (answer : (request : Request) → Action request.Answer) :
    Program α → Action α
  | done result => fun world => some (result, world)
  | ask request next => fun world =>
    (answer request world).bind fun (reply, world) => (next reply).run answer world

/-- Programs run one inside the other, at most as many as an allowance says. -/
def Runner.within (routines : Routines) : Nat → Runner
  | 0 => fun _ _ _ _ => none
  | allowance + 1 => fun _ context program =>
    program.run (Engine.answer (Runner.within routines allowance) routines context)

/-- Going on after a program is running the two one after the other. -/
theorem Program.run_bind {α β : Type}
    (answer : (request : Request) → Action request.Answer) (program : Program α)
    (next : α → Program β) (world : World) :
    (program.bind next).run answer world =
      (program.run answer world).bind fun (result, world) => (next result).run answer world := by
  induction program generalizing world with
  | done result => rfl
  | ask request rest ih =>
    simp only [Program.bind, Program.run, Option.bind_assoc]
    congr 1
    funext reply
    exact ih reply.1 reply.2

end Interchange
