import Interchange.Proofs.Engine.Asking
import Interchange.Proofs.Engine.Course
import Interchange.Proofs.Registry.Runs

/-!
# Look-ups that lead to each other

Routines of names may look up any names, each other's and their own, and may bind names to values
while they run. Which names are bound to routines that are not running is what gets less with
every routine that starts inside another one, whatever else is bound in between
(`Engine.Bounded`). So every look-up ends, no more routines run inside each other than names are
bound to them, and a cycle is told where it closes (`lazy_lookUps_end`).
-/
namespace Interchange

/-- A request that starts no program but the routine of a name that it looks up, and that binds
names only to values. -/
def Request.IsExchange : Request → Prop
  | call .. => False
  | exportLazy .. => False
  | eval .. => False
  | evaluate .. => False
  | evalUnit .. => False
  | _ => True

/-- The routine of a name only exchanges, whatever it is told. -/
def Routines.OnlyExchanges (routines : Routines) (routine : Nat) : Prop :=
  (routines routine []).Asks Request.IsExchange

namespace Registry

variable {registry : Registry} {names : List String}

/-- The names that are bound to routines which have not run yet or have failed. -/
def lazyNames (registry : Registry) : List String :=
  (registry.bindings.filter fun entry => match entry.2.slot with
    | .deferred _ => true
    | _ => false).map Prod.fst

/-- All names that are bound to routines which are not running are among the given ones. -/
def LazyAmong (registry : Registry) (names : List String) : Prop :=
  ∀ name binding routine, registry.find? name = some binding →
    binding.slot = .deferred routine → name ∈ names

/-- The lazy names of a registry are all there are. -/
theorem lazyAmong_lazyNames (registry : Registry) : registry.LazyAmong registry.lazyNames := by
  intro name binding routine found held
  have entry : (name, binding) ∈ registry.bindings := Fields.mem_of_find? found
  refine List.mem_map.2 ⟨(name, binding), List.mem_filter.2 ⟨entry, ?_⟩, rfl⟩
  simp only [held]

namespace LazyAmong

/-- Binding a name to a value. -/
theorem bind (lazy : registry.LazyAmong names) (name : String) (value : Value)
    (origin : ContextId) (line : Option Nat) :
    (registry.bind name (.ready value) origin line).LazyAmong names := by
  intro other binding routine found held
  rw [find?_bind] at found
  split at found
  · obtain rfl := Option.some.inj found
    simp at held
  · exact lazy other binding routine found held

/-- A routine that starts is one less. -/
theorem started (lazy : registry.LazyAmong names) (name : String) (routine : Nat) :
    (registry.replace name (.forcing routine)).LazyAmong (names.erase name) := by
  intro other binding number found held
  rw [find?_replace] at found
  split at found
  · obtain ⟨old, _, rfl⟩ := Option.map_eq_some_iff.1 found
    simp at held
  · rename_i different
    exact (List.mem_erase_of_ne different).2 (lazy other binding number found held)

/-- A routine that has ended can be there again. -/
theorem settle (lazy : registry.LazyAmong names) (name : String) (generation routine : Nat)
    (outcome : Except Fault Value) :
    (registry.settle name generation routine outcome).LazyAmong (name :: names) := by
  intro other binding number found held
  rw [find?_settle] at found
  split at found
  · rename_i same
    exact same ▸ List.mem_cons_self
  · exact List.mem_cons_of_mem _ (lazy other binding number found held)

/-- More names are no harm. -/
theorem mono {more : List String} (lazy : registry.LazyAmong names) (among : names ⊆ more) :
    registry.LazyAmong more :=
  fun name binding routine found held => among (lazy name binding routine found held)

end LazyAmong

end Registry

/-- What is left to do is to settle the binding of a name whose routine only exchanges. -/
def Pending.SettlesFor (routines : Routines) (name : String) {β α : Type} : Pending β α → Prop
  | settling other _ routine => other = name ∧ routines.OnlyExchanges routine
  | _ => False

namespace Engine

variable {routines : Routines} {names : List String} {world : World}

/-- The routines of the registry only exchange, and those that are not running belong to the given
names. -/
structure Bounded (routines : Routines) (names : List String) (world : World) : Prop where
  /-- What the routines do. -/
  held : world.registry.Holds routines.OnlyExchanges
  /-- The names that are bound to those that are not running. -/
  lazy : world.registry.LazyAmong names

/-- A reply that starts a routine takes its name out of the list. -/
def Shrinks (routines : Routines) (names : List String) {α : Type} : Reply α → Prop
  | .now _ after => Bounded routines names after
  | .after _ program opened pending => program.Asks Request.IsExchange ∧
      ∃ name ∈ names, Bounded routines (names.erase name) opened ∧
        pending.SettlesFor routines name

/-- A look-up that starts a routine takes its name out of the list. -/
theorem respondImport_shrinks (bounded : Bounded routines names world) (context : ContextId)
    (name : String) (line : Option Nat) :
    Shrinks routines names (respondImport routines context name line world) := by
  have recorded : Bounded routines names
      { world with registry := (world.registry.lookUp name context line).2 } :=
    ⟨bounded.held.lookUp name context line, bounded.lazy⟩
  unfold respondImport
  dsimp only
  split
  · exact recorded
  · rename_i binding found
    split
    · exact recorded
    · exact recorded
    · rename_i routine idle
      have exchanges : routines.OnlyExchanges routine := bounded.held.routine found idle
      have lazy : name ∈ names := bounded.lazy name binding routine found idle
      have marked := recorded.held.started exchanges name
      exact ⟨exchanges, name, lazy, ⟨marked, recorded.lazy.started name routine⟩, rfl, exchanges⟩

/-- A request of a program that only exchanges starts a routine of the list or none. -/
theorem respond_shrinks (bounded : Bounded routines names world) (context : ContextId)
    {request : Request} (exchange : request.IsExchange) :
    Shrinks routines names (respond routines context request world) := by
  cases request with
  | inspect => exact bounded
  | look query => exact bounded
  | allocate pairs => exact ⟨bounded.held, bounded.lazy⟩
  | setField target name value =>
    simp only [respond]
    split
    · exact ⟨bounded.held, bounded.lazy⟩
    · exact bounded
  | importName name line => exact respondImport_shrinks bounded context name line
  | exportValue name value line =>
    exact ⟨bounded.held.bindValue name value context line,
      bounded.lazy.bind name value context line⟩
  | print line => exact ⟨bounded.held, bounded.lazy⟩
  | tally name => exact ⟨bounded.held, bounded.lazy⟩
  | call => exact exchange.elim
  | exportLazy => exact exchange.elim
  | eval => exact exchange.elim
  | evaluate => exact exchange.elim
  | evalUnit => exact exchange.elim

/-- The name of a routine that has ended comes back to the list. -/
theorem Bounded.conclude (bounded : Bounded routines names world) {β α : Type}
    {pending : Pending β α} {name : String} (settles : pending.SettlesFor routines name)
    (outcome : β) : Bounded routines (name :: names) (pending.conclude outcome world).2 := by
  cases pending with
  | settling other generation routine =>
    obtain ⟨rfl, exchanges⟩ := settles
    exact ⟨bounded.held.settle exchanges other generation outcome,
      bounded.lazy.settle other generation routine outcome⟩
  | _ => exact settles.elim

/-- A program that only exchanges ends if each of its requests is answered. -/
theorem run_ends {answer : (request : Request) → Action request.Answer}
    (answers : ∀ request world, request.IsExchange → Bounded routines names world →
      ∃ reply after, answer request world = some (reply, after) ∧ Bounded routines names after)
    {α : Type} {program : Program α} (asks : program.Asks Request.IsExchange)
    (bounded : Bounded routines names world) :
    ∃ result after, program.run answer world = some (result, after) ∧
      Bounded routines names after := by
  induction program generalizing world with
  | done result => exact ⟨result, world, rfl, bounded⟩
  | ask request next ih =>
    obtain ⟨exchange, rest⟩ := asks
    obtain ⟨reply, between, answered, left⟩ := answers request world exchange bounded
    obtain ⟨result, after, ran, last⟩ := ih reply (rest reply) left
    exact ⟨result, after, Option.bind_eq_some_iff.2 ⟨_, answered, ran⟩, last⟩

/-- A reply is carried out if the routine that it starts ends with its own name taken out of the
list. -/
theorem Shrinks.complete {run : Runner} {α : Type} {reply : Reply α}
    (shrinks : Shrinks routines names reply)
    (inside : ∀ {β : Type} {context : ContextId} {program : Program β} {name : String}
      {opened : World}, name ∈ names → program.Asks Request.IsExchange →
      Bounded routines (names.erase name) opened →
      ∃ outcome closed, run β context program opened = some (outcome, closed) ∧
        Bounded routines (names.erase name) closed) :
    ∃ answer after, reply.complete run = some (answer, after) ∧ Bounded routines names after := by
  cases reply with
  | now answer after => exact ⟨answer, after, rfl, shrinks⟩
  | after inner program opened pending =>
    obtain ⟨asks, name, lazy, begun, settles⟩ := shrinks
    obtain ⟨outcome, closed, ran, left⟩ := inside lazy asks begun
    have back := left.conclude settles outcome
    have again : name :: names.erase name ⊆ names :=
      List.cons_subset.2 ⟨lazy, List.erase_subset⟩
    exact ⟨_, _, Option.map_eq_some_iff.2 ⟨_, ran, rfl⟩, back.held, back.lazy.mono again⟩

/-- Every request of a program that only exchanges is answered, with at most as many programs
inside each other as there are lazy names. -/
theorem answer_ends {allowance : Nat} (enough : names.length ≤ allowance) (context : ContextId)
    (request : Request) (exchange : request.IsExchange) (bounded : Bounded routines names world) :
    ∃ reply after, answer (Runner.within routines allowance) routines context request world =
      some (reply, after) ∧ Bounded routines names after := by
  induction allowance generalizing names context request world with
  | zero =>
    rw [answer_eq]
    refine (respond_shrinks bounded context exchange).complete fun lazy _ _ => ?_
    have some : 0 < names.length := List.length_pos_of_mem lazy
    omega
  | succ allowance ih =>
    rw [answer_eq]
    refine (respond_shrinks bounded context exchange).complete fun lazy asks begun => ?_
    have fewer := List.length_erase_of_mem lazy
    exact run_ends (fun request world => ih (by omega) _ request) asks begun

end Engine

/-- All programs that wait only exchange, and each waits for the routine of a name. -/
def Stack.OnlyExchanges (routines : Routines) {α : Type} : Stack α → Prop
  | bottom => True
  | frame _ pending next rest => (∃ name, pending.SettlesFor routines name) ∧
      (∀ answer, (next answer).Asks Request.IsExchange) ∧ rest.OnlyExchanges routines

/-- While the binding of a name is to be settled, one more routine is at work. -/
theorem Pending.SettlesFor.length_forcing? {routines : Routines} {name : String} {β α : Type}
    {pending : Pending β α} (settles : pending.SettlesFor routines name) :
    pending.forcing?.toList.length = 1 := by
  cases pending with
  | settling other generation routine => rfl
  | _ => exact settles.elim

namespace Moment

variable {routines : Routines} {total : Nat}

/-- All programs only exchange, and the routines at work with the names that are bound to others
are no more than a given number. -/
structure Spares (routines : Routines) (total : Nat) (moment : Moment) : Prop where
  /-- The program at work. -/
  program : moment.program.Asks Request.IsExchange
  /-- The programs that wait. -/
  stack : moment.stack.OnlyExchanges routines
  /-- The routines at work and the others. -/
  bounded : ∃ names, Engine.Bounded routines names moment.world ∧
    moment.stack.forcings.length + names.length ≤ total

/-- From one moment to the next, a routine that starts is one less to be started. -/
theorem Step.spares {before after : Moment} {deed : Option Deed}
    (step : Step routines before deed after) (spares : before.Spares routines total) :
    after.Spares routines total := by
  obtain ⟨asks, waits, names, bounded, enough⟩ := spares
  cases step with
  | @answered _ context _ _ _ _ _ _ reply =>
    have shrinks := Engine.respond_shrinks bounded context asks.1
    rw [reply] at shrinks
    exact ⟨asks.2 _, waits, names, shrinks, enough⟩
  | @started _ _ context _ _ _ _ _ _ _ _ reply =>
    have shrinks := Engine.respond_shrinks bounded context asks.1
    rw [reply] at shrinks
    obtain ⟨inner, name, lazy, begun, settles⟩ := shrinks
    refine ⟨inner, ⟨⟨name, settles⟩, asks.2, waits⟩, names.erase name, begun, ?_⟩
    have one := settles.length_forcing?
    have fewer := List.length_erase_of_mem lazy
    have some : 0 < names.length := List.length_pos_of_mem lazy
    simp only [Stack.forcings, List.length_append] at enough ⊢
    omega
  | @ended _ _ _ _ _ result _ _ _ _ =>
    obtain ⟨⟨name, settles⟩, rest, others⟩ := waits
    refine ⟨rest _, others, name :: names, bounded.conclude settles result, ?_⟩
    have one := settles.length_forcing?
    simp only [Stack.forcings, List.length_append, List.length_cons] at enough ⊢
    omega

end Moment

namespace Exchange

open History

variable {registry : Registry} {forcings : List Forcing} {history : History} {name : String}
  {binding : Binding}

/-- A binding is marked exactly while its routine is at work. -/
theorem Follows.forcing_iff (follows : Follows ⟨registry, forcings⟩ history)
    (lawful : history.Lawful) (found : registry.find? name = some binding) :
    (∃ forcing ∈ forcings, forcing.generation = binding.generation) ↔
      ∃ routine, binding.slot = .forcing routine := by
  obtain ⟨content, latest, holds⟩ := follows.latest found
  have atWork : forcings = history.underway := follows.forcings
  have running : (∃ forcing ∈ forcings, forcing.generation = binding.generation) ↔
      history.Running binding.generation := by rw [atWork, Running]
  rw [running]
  generalize slot : binding.slot = held at holds
  cases holds with
  | value value =>
    refine iff_of_false ?_ (by simp)
    rintro ⟨forcing, mem, same⟩
    have made := made?_of_latest? latest
    rw [← same, lawful.made?_of_underway mem] at made
    simp at made
  | running routine now => exact iff_of_true now ⟨routine, rfl⟩
  | succeeded routine before =>
    exact iff_of_false (fun now => lawful.not_succeeded_of_running now _ before) (by simp)
  | idle routine idle fresh => exact iff_of_false idle (by simp)

end Exchange

namespace Engine

variable {routines : Routines} {world : World} {name : String} {binding : Binding} {routine : Nat}

/-- A look-up that comes back to a binding whose routine is running says so. -/
theorem importName_of_forcing (found : world.registry.find? name = some binding)
    (running : binding.slot = .forcing routine) (run : Runner) (caller : ContextId)
    (line : Option Nat) :
    importName run routines caller name line world = some (.error (.cyclicLazyExport name),
      { world with registry := (world.registry.lookUp name caller line).2 }) := by
  simp only [importName, Registry.lookUp_fst, found, running]

/-- A look-up of a name that is bound to a routine which is not running starts it. -/
theorem step_of_deferred (found : world.registry.find? name = some binding)
    (idle : binding.slot = .deferred routine) (caller : ContextId) (line : Option Nat) :
    ∃ stack opened, Moment.Step routines (.start caller (Program.importName name line) world)
      (some (.started ⟨name, binding.generation, routine⟩))
      ⟨.host, routines routine [], stack, opened⟩ := by
  have reply : respond routines caller (.importName name line) world =
      .after .host (routines routine [])
        { world with registry :=
            (world.registry.lookUp name caller line).2.replace name (.forcing routine) }
        (.settling name binding.generation routine) := by
    simp only [respond, respondImport, found, idle]
  exact ⟨.frame caller (.settling name binding.generation routine) Program.done .bottom, _,
    .started reply⟩

end Engine

/-- However the routines of names look each other up, all of them on the way back to the first one
included: every look-up ends, and no more routines run inside each other than there were names
bound to routines. A look-up that comes back to a binding whose routine is running is told that
very name, and no other binding is marked. Once the outermost look-up has ended no binding is
marked at all, so the routines that have failed are started again by the next look-up. -/
theorem lazy_lookUps_end {routines : Routines} {world : World} {journaling : Bool}
    {earlier : List Deed} (one : world.HasOneRegistry)
    (before : Exchange.Reaches (.start journaling) earlier ⟨world.registry, []⟩)
    (exchanges : world.registry.Holds routines.OnlyExchanges) (context : ContextId)
    (name : String) (line : Option Nat) :
    (∃ answer after, Engine.importName (Runner.within routines world.registry.lazyNames.length)
        routines context name line world = some (answer, after) ∧
      after.HasOneRegistry ∧ after.registry.Holds routines.OnlyExchanges ∧
      (∃ deeds, LookUp name answer deeds ∧
        Exchange.Reaches (.start journaling) (deeds ++ earlier) ⟨after.registry, []⟩) ∧
      ∀ other binding, after.registry.find? other = some binding →
        (∀ routine, binding.slot ≠ .forcing routine) ∧
        ∀ routine, binding.slot = .deferred routine → ∀ caller line, ∃ stack opened,
          Moment.Step routines (.start caller (Program.importName other line) after)
            (some (.started ⟨other, binding.generation, routine⟩))
            ⟨.host, routines routine [], stack, opened⟩) ∧
    ∀ deeds moment,
      Moment.Reaches routines (.start context (Program.importName name line) world) deeds moment →
        moment.stack.forcings.length ≤ world.registry.lazyNames.length ∧
        ∀ other binding, moment.world.registry.find? other = some binding →
          ((∃ forcing ∈ moment.stack.forcings, forcing.generation = binding.generation) ↔
            ∃ routine, binding.slot = .forcing routine) ∧
          ((∃ forcing ∈ moment.stack.forcings, forcing.generation = binding.generation) →
            ∀ run caller line, Engine.importName run routines caller other line moment.world =
              some (.error (.cyclicLazyExport other), { moment.world with
                registry := (moment.world.registry.lookUp other caller line).2 })) := by
  have bounded : Engine.Bounded routines world.registry.lazyNames world :=
    ⟨exchanges, world.registry.lazyAmong_lazyNames⟩
  constructor
  · obtain ⟨answer, after, answered, left⟩ := Engine.answer_ends (Nat.le_refl _) context
      (.importName name line) trivial bounded
    obtain ⟨oneAfter, deeds, tells, happened⟩ := Engine.importName_tells one [] answered
    have reached := before.trans happened
    obtain ⟨lawful, follows⟩ := Exchange.follows_of_reaches reached
    refine ⟨answer, after, answered, oneAfter, left.held, ⟨deeds, tells, reached⟩, ?_⟩
    intro other binding found
    refine ⟨fun routine running => ?_, fun routine idle caller line =>
      Engine.step_of_deferred found idle caller line⟩
    obtain ⟨forcing, mem, _⟩ := (follows.forcing_iff lawful found).2 ⟨routine, running⟩
    simp at mem
  · intro deeds moment reached
    have first : (Moment.start context (Program.importName name line) world).Spares routines
        world.registry.lazyNames.length :=
      ⟨Program.asks_send trivial, trivial, _, bounded, by simp [Moment.start, Stack.forcings]⟩
    obtain ⟨_, _, names, _, enough⟩ :=
      reached.keeps (fun now spares => Moment.Step.spares now spares) first
    refine ⟨by omega, fun other binding found => ?_⟩
    have calls := (Moment.exchange_of_reaches reached (Moment.start_hasOneRegistry one)).2
    have marked := (Exchange.follows_of_reaches (before.trans calls)).elim
      fun lawful follows => follows.forcing_iff lawful found
    refine ⟨marked, fun atWork => ?_⟩
    obtain ⟨routine, running⟩ := marked.1 atWork
    exact fun run caller line => Engine.importName_of_forcing found running run caller line

/-- Three routines in a ring: each looks up the name of the next one. -/
def ring : Routines := fun number _ =>
  Program.importName (match number with | 0 => "b" | 1 => "c" | _ => "a") none

/-- The names of the ring are bound to its routines. -/
def World.ringed : World where
  engine := { languages := {}, loader := .memory [], maxDepth := 64 }
  registry := (((Registry.start true).bind "a" (.deferred 0) .host none).bind "b" (.deferred 1)
    .host none).bind "c" (.deferred 2) .host none

/-- A look-up in the ring is told the name where the ring closes, and leaves no binding marked. -/
theorem ring_lookUp_ends :
    World.ringed.registry.lazyNames.length = 3 ∧
    ∃ after, Engine.importName (Runner.within ring 3) ring .host "a" none .ringed =
        some (.error (.cyclicLazyExport "a"), after) ∧
      ∀ other binding, after.registry.find? other = some binding →
        ∀ routine, binding.slot ≠ .forcing routine := by
  have before : Exchange.Reaches (.start true)
      [.exported "c" (.routine 2), .exported "b" (.routine 1), .exported "a" (.routine 0)]
      ⟨World.ringed.registry, []⟩ :=
    ((Exchange.Reaches.refl.step (.exported _ [] "a" (.routine 0) .host none)).step
      (.exported _ [] "b" (.routine 1) .host none)).step
        (.exported _ [] "c" (.routine 2) .host none)
  have exchanges : World.ringed.registry.Holds ring.OnlyExchanges := by
    intro name binding found
    cases held : binding.slot with
    | ready value => trivial
    | deferred routine => exact Program.asks_send trivial
    | forcing routine => exact Program.asks_send trivial
  have one : World.ringed.HasOneRegistry := fun home waits => by simp [World.ringed] at waits
  have three : World.ringed.registry.lazyNames.length = 3 := by decide
  obtain ⟨answer, after, answered, _, _, _, unmarked⟩ :=
    (lazy_lookUps_end one before exchanges .host "a" none).1
  rw [three] at answered
  obtain ⟨told, ran⟩ : ∃ left, Engine.importName (Runner.within ring 3) ring .host "a" none
      .ringed = some (.error (.cyclicLazyExport "a"), left) := ⟨_, rfl⟩
  obtain ⟨rfl, rfl⟩ := Prod.mk.inj (Option.some.inj (ran.symm.trans answered))
  exact ⟨three, told, ran, fun other binding found => (unmarked other binding found).1⟩

end Interchange
