import Interchange.Engine.Builder
import Interchange.Host.Routine
import Interchange.Proofs.Guests.Scripts
import Interchange.Proofs.Registry.Runs
import Interchange.Proofs.Value.Reading

/-!
# Registries without routines

Where names are bound only to values, a registry is a store: a name has the value of its last
export, whoever made it, and nothing else changes what it is bound to (`Exchange.Stores`). Scripts
bind names only to values, so this holds throughout every run of scripts, however they evaluate
each other and whether or not they fail (`lookUps_answered_by_last_export`).
-/
namespace Interchange

/-- The value of the last export of a name, the latest being told first. -/
def History.lastExport? (name : String) : History → Option Value
  | [] => none
  | .exported other (.value value) :: earlier =>
    if other = name then some value else lastExport? name earlier
  | _ :: earlier => lastExport? name earlier

/-- A function of the host binds names only to values. -/
def Routines.IsEager (routines : Routines) (routine : Nat) : Prop :=
  ∀ arguments, (routines routine arguments).Asks Request.IsEager

namespace Exchange

variable {exchange next : Exchange} {history : History} {deed : Deed}

/-- No routine is at work, and every name has the value of its last export. -/
structure Stores (exchange : Exchange) (history : History) : Prop where
  /-- No routine is at work. -/
  idle : exchange.forcings = []
  /-- What the names are bound to. -/
  slots : ∀ name, (exchange.registry.find? name).map Binding.slot =
    (history.lastExport? name).map .ready

/-- A registry at its start stores nothing. -/
theorem start_stores (journaling : Bool) : (start journaling).Stores [] := ⟨rfl, fun _ => rfl⟩

/-- What is bound is a value. -/
theorem Stores.ready (stores : exchange.Stores history) {name : String} {binding : Binding}
    (found : exchange.registry.find? name = some binding) :
    ∃ value, history.lastExport? name = some value ∧ binding.slot = .ready value := by
  have slot := stores.slots name
  rw [found, Option.map_some] at slot
  obtain ⟨value, last, same⟩ := Option.map_eq_some_iff.1 slot.symm
  exact ⟨value, last, same.symm⟩

/-- Whatever happens, unless a name is bound to a routine, names have the values of their last
exports. -/
theorem Step.stores (now : Step exchange deed next) (stores : exchange.Stores history)
    (eager : ∀ name routine, deed ≠ .exported name (.routine routine)) :
    next.Stores (deed :: history) := by
  cases now with
  | exported registry forcings name content context line =>
    refine ⟨stores.idle, fun other => ?_⟩
    rw [Registry.find?_bind]
    cases content with
    | routine routine => exact absurd rfl (eager name routine)
    | value value =>
      rw [History.lastExport?]
      by_cases same : other = name
      · rw [if_pos same, if_pos same.symm]
        rfl
      · rw [if_neg same, if_neg (Ne.symm same)]
        exact stores.slots other
  | unbound => exact ⟨stores.idle, stores.slots⟩
  | ready => exact ⟨stores.idle, stores.slots⟩
  | cyclic => exact ⟨stores.idle, stores.slots⟩
  | started forcings context line found held =>
    obtain ⟨value, _, ready⟩ := stores.ready found
    simp [ready] at held
  | ended => exact absurd stores.idle (List.cons_ne_nil _ _)

/-- Only an export of a name changes what it is bound to. -/
theorem Step.find?_eq (now : Step exchange deed next) (stores : exchange.Stores history)
    {name : String} (other : ∀ content, deed ≠ .exported name content) :
    next.registry.find? name = exchange.registry.find? name := by
  cases now with
  | exported registry forcings bound content context line =>
    have different : name ≠ bound := fun same => other content (by rw [same])
    rw [Registry.find?_bind, if_neg different]
  | unbound => rfl
  | ready => rfl
  | cyclic => rfl
  | started forcings context line found held =>
    obtain ⟨value, _, ready⟩ := stores.ready found
    simp [ready] at held
  | ended => exact absurd stores.idle (List.cons_ne_nil _ _)

/-- A history without routines tells what the names are bound to. -/
theorem stores_of_reaches {journaling : Bool}
    (reached : Reaches (start journaling) history exchange) (eager : Eager history) :
    exchange.Stores history := by
  induction reached with
  | refl => exact start_stores journaling
  | step before now ih =>
    have earlier := ih fun name routine mem => eager name routine (List.mem_cons_of_mem _ mem)
    refine now.stores earlier fun name routine same => ?_
    exact eager name routine (same ▸ List.mem_cons_self)

/-- Two histories without routines, one after the other. -/
theorem Eager.append {later earlier : List Deed} (eager : Eager later) (before : Eager earlier) :
    Eager (later ++ earlier) := fun name routine mem =>
  (List.mem_append.1 mem).elim (eager name routine) (before name routine)

end Exchange

/-- A look-up is answered by the last export of the name, without any program being run. -/
theorem Engine.importName_of_stores {world : World} {forcings : List Forcing} {history : History}
    (stores : Exchange.Stores ⟨world.registry, forcings⟩ history) (run : Runner)
    (routines : Routines) (caller : ContextId) (name : String) (line : Option Nat) :
    importName run routines caller name line world =
      some (Fault.orElse (.unresolvedName name) (history.lastExport? name),
        { world with registry := (world.registry.lookUp name caller line).2 }) := by
  cases found : world.registry.find? name with
  | none =>
    have slot := stores.slots name
    rw [found, Option.map_none] at slot
    have never : history.lastExport? name = none := Option.map_eq_none_iff.1 slot.symm
    simp only [importName, Registry.lookUp_fst, found, never, Fault.orElse]
  | some binding =>
    obtain ⟨value, last, ready⟩ := stores.ready found
    simp only [importName, Registry.lookUp_fst, found, ready, last, Fault.orElse]

/-- The outermost program still asks only for what is allowed. -/
def Stack.OutermostAsks (allowed : Request → Prop) {α : Type} : Stack α → Program α → Prop
  | bottom, program => program.Asks allowed
  | frame _ _ next rest, _ => ∀ answer, rest.OutermostAsks allowed (next answer)

namespace Moment

variable {routines : Routines} {allowed : Request → Prop}

/-- The outermost program goes on asking only for what is allowed, whatever it starts. -/
theorem Step.outermostAsks {before after : Moment} {deed : Option Deed}
    (step : Step routines before deed after)
    (asks : before.stack.OutermostAsks allowed before.program) :
    after.stack.OutermostAsks allowed after.program := by
  cases step with
  | @answered _ _ _ _ stack =>
    cases stack with
    | bottom => exact asks.2 _
    | frame => exact asks
  | @started _ _ _ _ _ _ stack =>
    cases stack with
    | bottom => exact asks.2
    | frame => exact fun _ => asks
  | ended => exact asks _

end Moment

/-- At most one thing happens, and only an export of a name changes what it is bound to. -/
theorem Exchange.Moves.find?_eq {exchange next : Exchange} {deed : Option Deed}
    {history : History} (moves : exchange.Moves deed next) (stores : exchange.Stores history)
    {name : String} (other : ∀ content, deed ≠ some (.exported name content)) :
    next.registry.find? name = exchange.registry.find? name := by
  cases moves with
  | rest => rfl
  | step now => exact now.find?_eq stores fun content same => other content (by rw [same])

namespace World

/-- A world with one registry whose names were bound only to values, and with functions that bind
names only to values. The history of the registry is told. -/
structure StoresOnly (routines : Routines) (journaling : Bool) (history : History)
    (world : World) : Prop where
  /-- There is one registry. -/
  one : world.HasOneRegistry
  /-- What has happened to it; no routine is at work. -/
  past : Exchange.Reaches (.start journaling) history ⟨world.registry, []⟩
  /-- Names were bound only to values. -/
  values : Exchange.Eager history
  /-- The functions among the shared objects bind names only to values. -/
  functions : world.heap.Holds routines.IsEager

namespace StoresOnly

variable {routines : Routines} {journaling : Bool} {history : History} {world : World} {α : Type}
  {context : ContextId} {program : Program α} {deeds : List Deed} {moment : Moment}

/-- Only routines can be run that bind names only to values. -/
theorem sealed (stored : world.StoresOnly routines journaling history) :
    world.Sealed routines.IsEager where
  registry name binding found := by
    obtain ⟨value, _, ready⟩ := (Exchange.stores_of_reaches stored.past stored.values).ready found
    rw [ready]
    trivial
  home home registry waits own := by
    rw [stored.one home waits] at own
    simp at own
  heap := stored.functions

/-- Where scripts and the routines in reach bind names only to values, so do all programs. -/
theorem obey : routines.Obey routines.IsEager Request.IsEager where
  handsOver request eager := by cases request <;> trivial
  thunks routine eager := eager []
  functions _ arguments _ routine eager := eager arguments
  scripts _ _ _ session scope text :=
    (session.evaluate_asks scope text).mono fun _ scripted => scripted.isEager

/-- Names are bound only to values throughout a run, and have those of their last exports. -/
theorem stores (stored : world.StoresOnly routines journaling history)
    (asks : program.Asks Request.IsEager)
    (reached : Moment.Reaches routines (.start context program world) deeds moment) :
    moment.exchange.Stores (deeds ++ history) ∧
      moment.world.StoresOnly routines journaling (deeds ++ history) := by
  have first : (Moment.start context program world).Obeys routines.IsEager Request.IsEager :=
    Moment.start_obeys asks stored.sealed
  have eager := reached.eager obey (fun _ eager => eager) first
  obtain ⟨one, calls⟩ :=
    Moment.exchange_of_reaches reached (Moment.start_hasOneRegistry stored.one)
  have values := eager.append stored.values
  have past := stored.past.trans calls
  have stores := Exchange.stores_of_reaches past values
  have idle : moment.exchange = ⟨moment.world.registry, []⟩ := by
    rw [Moment.exchange, show moment.stack.forcings = [] from stores.idle]
  exact ⟨stores, one.1, idle ▸ past, values, (reached.obeys obey first).sealed.heap⟩

/-- What a name is bound to stays as long as the name is not exported. -/
theorem find?_kept (stored : world.StoresOnly routines journaling history)
    (asks : program.Asks Request.IsEager)
    (reached : Moment.Reaches routines (.start context program world) deeds moment)
    {later : List Deed} {next : Moment} (after : Moment.Reaches routines moment later next)
    {name : String} (unexported : ∀ content, .exported name content ∉ later) :
    next.world.registry.find? name = moment.world.registry.find? name := by
  induction after with
  | refl => rfl
  | @step last next deeds deed before now ih =>
    have stores := (stored.stores asks (reached.trans before)).1
    have one := (Moment.exchange_of_reaches (reached.trans before)
      (Moment.start_hasOneRegistry stored.one)).1
    have kept : next.world.registry.find? name = last.world.registry.find? name :=
      (now.moves one).2.find?_eq stores fun content same =>
        unexported content (List.mem_append_left _ (Option.mem_toList.2 same))
    exact kept.trans (ih fun content mem => unexported content (List.mem_append_right _ mem))

/-- A program that does not bind a name itself changes what the name is bound to only by a program
that it starts and that binds the name. -/
theorem inner_of_changed (stored : world.StoresOnly routines journaling history)
    {names : String → Prop}
    (asks : program.Asks fun request => request.IsScripted ∧ request.Binds names)
    {name : String} (unnamed : ¬ names name)
    (reached : Moment.Reaches routines (.start context program world) deeds moment)
    (changed : moment.world.registry.find? name ≠ world.registry.find? name) :
    ∃ before middle content after,
      Moment.Reaches routines (.start context program world) before middle ∧
      ¬ middle.stack.IsBottom ∧
      Moment.Step routines middle (some (.exported name content)) after := by
  have eager := asks.mono fun _ may => may.1.isEager
  induction reached with
  | refl => exact absurd rfl changed
  | @step last next deeds deed before now ih =>
    by_cases already : last.world.registry.find? name = world.registry.find? name
    · by_cases exported : ∃ content, deed = some (.exported name content)
      · obtain ⟨content, rfl⟩ := exported
        refine ⟨_, last, content, next, before, fun bottom => unnamed ?_, now⟩
        -- With nothing waiting, the program at work is the one that was started first.
        have own := before.keeps (fun now asks => Moment.Step.outermostAsks now asks)
          (show (Moment.start context program world).stack.OutermostAsks _
            (Moment.start context program world).program from asks)
        obtain ⟨_, inner, stack, _⟩ := last
        cases stack with
        | frame => exact bottom.elim
        | bottom =>
          obtain ⟨request, may, same⟩ := now.asked_of_exported own
          exact may.2 name content same
      · have kept : next.world.registry.find? name = last.world.registry.find? name :=
          stored.find?_kept eager before (.single now) fun content mem =>
            exported ⟨content, Option.mem_toList.1 mem⟩
        exact absurd (kept.trans already) changed
    · exact ih already

end StoresOnly

end World

/-- In a world whose names were bound only to values, everything that runs finds a name bound to
the value of its last export, at every moment, whichever context exported it and whatever has
become of that context; a name that was never exported is unresolved. A look-up runs no program.
What a name is bound to changes only when it is exported: a form or a statement that writes no
export of the name changes it only by a program that it starts and that exports the name. Reading
what a name is bound to looks at nothing else but the objects that references in it stand for. -/
theorem lookUps_answered_by_last_export {routines : Routines} {journaling : Bool}
    {history : History} {world : World} (stored : world.StoresOnly routines journaling history) :
    (∀ (α : Type) (context : ContextId) (program : Program α), program.Asks Request.IsEager →
      (∀ deeds moment, Moment.Reaches routines (.start context program world) deeds moment →
        moment.world.StoresOnly routines journaling (deeds ++ history) ∧
        (∀ run caller name line, Engine.importName run routines caller name line moment.world =
          some (Fault.orElse (.unresolvedName name)
              (History.lastExport? name (deeds ++ history)),
            { moment.world with
              registry := (moment.world.registry.lookUp name caller line).2 })) ∧
        ∀ later next name, Moment.Reaches routines moment later next →
          (∀ content, .exported name content ∉ later) →
          next.world.registry.find? name = moment.world.registry.find? name) ∧
      ∀ allowance result after,
        Runner.within routines allowance α context program world = some (result, after) →
          ∃ deeds, Moment.Reaches routines (.start context program world) deeds
            ⟨context, .done result, .bottom, after⟩) ∧
    (∀ (session : Session) scope text, (session.evaluate scope text).Asks Request.IsEager) ∧
    (∀ caller line form locals name, name ∉ Forms.Sexp.exportNames form → ∀ deeds moment,
      Moment.Reaches routines (.start caller ((Forms.eval line form).run.run locals) world) deeds
        moment →
      moment.world.registry.find? name ≠ world.registry.find? name →
      ∃ before middle content after, Moment.Reaches routines
          (.start caller ((Forms.eval line form).run.run locals) world) before middle ∧
        ¬ middle.stack.IsBottom ∧
        Moment.Step routines middle (some (.exported name content)) after) ∧
    (∀ caller line statement locals name,
      name ∉ Statements.Statement.exportNames statement → ∀ deeds moment,
      Moment.Reaches routines (.start caller ((statement.execute line).run.run locals) world)
        deeds moment →
      moment.world.registry.find? name ≠ world.registry.find? name →
      ∃ before middle content after, Moment.Reaches routines
          (.start caller ((statement.execute line).run.run locals) world) before middle ∧
        ¬ middle.stack.IsBottom ∧
        Moment.Step routines middle (some (.exported name content)) after) ∧
    ∀ (value : Value) (heap other : Heap),
      (∀ reference ∈ value.references, heap.object? reference = other.object? reference) →
      value.ReadsAlike heap other := by
  refine ⟨fun α context program asks => ⟨?_, ?_⟩, ?_, ?_, ?_, ?_⟩
  · intro deeds moment reached
    obtain ⟨stores, still⟩ := stored.stores asks reached
    refine ⟨still, fun run caller name line => ?_, fun later next name after unexported => ?_⟩
    · exact Engine.importName_of_stores stores run routines caller name line
    · exact stored.find?_kept asks reached after unexported
  · intro allowance result after ran
    obtain ⟨deeds, reached⟩ := Moment.reaches_of_within ran
    exact ⟨deeds, reached .bottom⟩
  · intro session scope text
    exact (session.evaluate_asks scope text).mono fun _ scripted => scripted.isEager
  · intro caller line form locals name unwritten deeds moment reached changed
    exact stored.inner_of_changed (Forms.eval_asks line form locals) unwritten reached changed
  · intro caller line statement locals name unwritten deeds moment reached changed
    have asks := Statements.execute_asks locals line statement
    exact stored.inner_of_changed asks unwritten reached changed
  · intro value heap other same
    exact Value.readsAlike_of_references same

/-- A world in which the host has exported a name that a source exports again before it evaluates
another one, which exports the name once more and then fails. -/
def World.withFailingChild : World where
  engine := {
    languages := ({} : Builder).bundledLanguages.languages
    loader := .memory [("child.jss", "export n \"child\"\nnonsense"),
      ("parent.lisp", "(export n \"parent\") (eval jsonscript \"child.jss\")")]
    maxDepth := 64 }
  registry := (Registry.start false).bind "n" (.ready (.text "host")) .host none

/-- What the host has exported. -/
def hostExport : History := [.exported "n" (.value (.text "host"))]

/-- The host looks up what a context exported that has failed since. -/
theorem failed_child_export_found :
    ∃ fault after deeds,
      Runner.within (Host.routines []) 3 _ .host (Program.eval "lisp" "parent.lisp" none)
        .withFailingChild = some (.error fault, after) ∧
      after.StoresOnly (Host.routines []) false (deeds ++ hostExport) ∧
      History.lastExport? "n" (deeds ++ hostExport) = some (.text "child") := by
  have stored : World.withFailingChild.StoresOnly (Host.routines []) false hostExport := by
    refine ⟨fun _ waits => by simp [World.withFailingChild] at waits, ?_, ?_, ?_⟩
    · exact Exchange.Reaches.refl.step (.exported _ [] "n" (.value (.text "host")) .host none)
    · exact fun name routine mem => by simp [hostExport] at mem
    · exact fun name routine mem => by simp [World.withFailingChild] at mem
  have run : (Runner.within (Host.routines []) 3 _ .host (Program.eval "lisp" "parent.lisp" none)
      .withFailingChild).map (fun ended => (ended.1.isOk,
        (Engine.importName (Runner.within (Host.routines []) 0) (Host.routines []) .host "n" none
          ended.2).map fun found => found.1.toOption.map (fun value => value.asText.toOption))) =
        some (false, some (some (some "child"))) := by
    decide +kernel
  obtain ⟨⟨outcome, after⟩, ran, same⟩ := Option.map_eq_some_iff.1 run
  obtain ⟨failed, found⟩ := Prod.mk.inj same
  have laws := (lookUps_answered_by_last_export stored).1 _ .host
    (Program.eval "lisp" "parent.lisp" none) (Program.asks_send trivial)
  obtain ⟨deeds, reached⟩ := laws.2 3 outcome after ran
  obtain ⟨still, answered, _⟩ := laws.1 deeds _ reached
  simp only [answered, Option.map_some, Option.some.injEq] at found
  have last : History.lastExport? "n" (deeds ++ hostExport) = some (.text "child") := by
    cases value : History.lastExport? "n" (deeds ++ hostExport) with
    | none => simp [value, Fault.orElse, Except.toOption] at found
    | some held =>
      cases held with
      | text word => simpa [value, Fault.orElse, Except.toOption, Value.asText] using found
      | _ => simp [value, Fault.orElse, Except.toOption, Value.asText] at found
  cases outcome with
  | ok child => simp [Except.isOk, Except.toBool] at failed
  | error fault => exact ⟨fault, after, deeds, ran, still, last⟩

end Interchange
