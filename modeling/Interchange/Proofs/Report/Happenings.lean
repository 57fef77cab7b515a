import Interchange.Engine.Builder
import Interchange.Host.Routine
import Interchange.Proofs.Engine.Alone
import Interchange.Proofs.Engine.Course
import Interchange.Proofs.Report.Findings
import Interchange.Proofs.Report.Notes

/-!
# Reports are true to what happened

What a report can tell of happens when programs make requests: names are bound and looked up, and
sources are asked for that cannot be loaded (`Moment.happening?`). What happened between two moments
is told as it was at each moment, without the journal (`Moment.Unfolds`). The journal and the list
of missing sources follow it step by step (`Moment.Step.records`), so the report that is read off
them is true to what happened (`report_is_true`).
-/
namespace Interchange

/-- What happens to an engine that a report can tell of. -/
inductive Happening where
  /-- A context binds a name. -/
  | exported (name : String) (context : ContextId)
  /-- A context looks a name up that is or is not bound at that moment. -/
  | lookedUp (name : String) (context : ContextId) (bound : Bool)
  /-- A context asks for a source that cannot be loaded. -/
  | unloaded (context : ContextId) (path : String)
  deriving DecidableEq

/-- The name that is bound. -/
def Happening.exported? : Happening → Option String
  | exported name _ => some name
  | _ => none

/-- The source that a context asks for and that cannot be loaded, if its language is known. -/
def Engine.unloaded? (caller : ContextId) (language path : String) (world : World) :
    Option Happening :=
  match world.engine.languages.get language, world.engine.loader.load
      (SourcePath.resolve (world.engine.contexts.sourceOf caller) path) with
  | .ok _, .error _ => some (.unloaded caller
      (SourcePath.resolve (world.engine.contexts.sourceOf caller) path))
  | _, _ => none

/-- What happens when a program of a context makes a request. -/
def Request.happening? (request : Request) (context : ContextId) (world : World) :
    Option Happening :=
  match request with
  | .importName name _ => some (.lookedUp name context (world.registry.contains name))
  | .exportValue name _ _ => some (.exported name context)
  | .exportLazy name _ => some (.exported name context)
  | .eval language path _ => Engine.unloaded? context language path world
  | _ => none

/-- What happens at a moment. -/
def Moment.happening? (moment : Moment) : Option Happening :=
  match moment.program with
  | .done _ => none
  | .ask request _ => request.happening? moment.context moment.world

/-- The report of the engine at work. -/
def World.report (world : World) : Report :=
  Report.ofEvents world.registry.events world.engine.missing

/-- Events and missing sources that tell of what happened. -/
structure Journaled (events : List Event) (missing : List MissingSource)
    (told : List Happening) : Prop where
  /-- Look-ups are events. -/
  lookedUp : ∀ name context bound, .lookedUp name context bound ∈ told ↔
    ∃ line, .imported name context bound line ∈ events
  /-- Names are bound in the order of the events. -/
  exported : told.filterMap Happening.exported? = events.filterMap Event.exported?
  /-- Sources that could not be loaded are missing. -/
  unloaded : ∀ context path, .unloaded context path ∈ told ↔
    ∃ line, ⟨context, path, line⟩ ∈ missing

namespace Journaled

/-- Nothing has happened. -/
theorem nothing : Journaled [] [] [] := ⟨by simp, rfl, by simp⟩

/-- A look-up is one event. -/
theorem ofLookUp (name : String) (context : ContextId) (bound : Bool) (line : Option Nat) :
    Journaled [.imported name context bound line] [] [.lookedUp name context bound] :=
  ⟨by simp [eq_comm], rfl, by simp⟩

/-- An export is one event. -/
theorem ofExport (name : String) (context : ContextId) (overwrote : Option ContextId)
    (deferred : Bool) (line : Option Nat) :
    Journaled [.exported name context overwrote deferred line] [] [.exported name context] :=
  ⟨by simp, rfl, by simp⟩

/-- A source that cannot be loaded is missing. -/
theorem ofMissing (context : ContextId) (path : String) (line : Option Nat) :
    Journaled [] [⟨context, path, line⟩] [.unloaded context path] :=
  ⟨by simp, rfl, by simp⟩

/-- What happened later is told later. -/
theorem append {events later : List Event} {missing sources : List MissingSource}
    {told more : List Happening} (before : Journaled events missing told)
    (after : Journaled later sources more) :
    Journaled (events ++ later) (missing ++ sources) (told ++ more) where
  lookedUp name context bound := by
    simp only [List.mem_append, before.lookedUp, after.lookedUp, exists_or]
  exported := by rw [List.filterMap_append, List.filterMap_append, before.exported, after.exported]
  unloaded context path := by
    simp only [List.mem_append, before.unloaded, after.unloaded, exists_or]

end Journaled

/-- The journal and the missing sources take note of what happens. -/
def World.Records (before : World) (happening : Option Happening) (after : World) : Prop :=
  ∀ events, before.registry.Chronicled events → ∃ more sources,
    after.registry.Chronicled (events ++ more) ∧
      after.engine.missing = before.engine.missing ++ sources ∧
        Journaled more sources happening.toList

/-- What a request is for a report is what it adds to the journal and to the missing sources. -/
theorem Request.journaled (request : Request) (context : ContextId) (world : World) :
    Journaled (request.events context world) (request.missing context world)
      (request.happening? context world).toList := by
  cases request with
  | importName name line => exact .ofLookUp name context _ line
  | exportValue name value line => exact .ofExport name context _ false line
  | exportLazy name routine => exact .ofExport name context _ true none
  | eval language path line =>
    simp only [events, missing, happening?, Engine.unloaded?]
    cases world.engine.languages.get language with
    | error fault => exact .nothing
    | ok found =>
      cases world.engine.loader.load
          (SourcePath.resolve (world.engine.contexts.sourceOf context) path) with
      | ok text => exact .nothing
      | error fault => exact .ofMissing context _ line
  | _ => exact .nothing

/-- A lone engine has one registry. -/
theorem World.IsAlone.hasOneRegistry {world : World} (alone : world.IsAlone) :
    world.HasOneRegistry := by
  intro home waits
  rw [alone] at waits
  cases waits

/-- So has each world that a request returns to that waits in it. -/
theorem Pending.IsAlone.hasOneRegistry {β α : Type} {pending : Pending β α}
    (alone : pending.IsAlone) : pending.HasOneRegistry := by
  induction pending with
  | naming child pending ih => exact ih alone
  | returning before pending ih =>
    obtain ⟨aloneBefore, alonePending⟩ := alone
    exact ⟨aloneBefore.hasOneRegistry, ih alonePending⟩
  | _ => trivial

/-- So have those that all waiting requests return to. -/
theorem Stack.IsAlone.hasOneRegistry {α : Type} {stack : Stack α} (alone : stack.IsAlone) :
    stack.HasOneRegistry := by
  induction stack with
  | bottom => trivial
  | frame context pending next rest ih => exact ⟨alone.1.hasOneRegistry, ih alone.2⟩

namespace Moment

variable {routines : Routines}

/-- What happens at a moment is noted before the next one. -/
theorem Step.records {before after : Moment} {deed : Option Deed}
    (step : Step routines before deed after) (alone : before.IsAlone) :
    before.world.Records before.happening? after.world := by
  intro events chronicled
  have notes := step.notes alone
  have journaled : Journaled before.events before.missing before.happening?.toList := by
    obtain ⟨context, program, stack, world⟩ := before
    cases program with
    | done result => exact .nothing
    | ask request next => exact request.journaled context world
  have one : before.HasOneRegistry :=
    ⟨alone.1.hasOneRegistry, alone.2.hasOneRegistry⟩
  obtain ⟨noted, after⟩ := (step.moves one).2.chronicled ⟨events, chronicled⟩
  -- The bindings agree with some journal, and the journal is known.
  have grown : some noted = some (events ++ before.events) := by
    rw [← after.journal, exchange, notes.journal, chronicled.journal, Option.map_some]
  obtain rfl := Option.some.inj grown
  exact ⟨before.events, before.missing, after, notes.missing, journaled⟩

/-- One moment comes after another one, whatever is done to the engine in between; what happens is
told in order. -/
inductive Unfolds (routines : Routines) (first : Moment) : List Happening → Moment → Prop where
  /-- Nothing has happened. -/
  | refl : Unfolds routines first [] first
  /-- What runs has gone on. -/
  | step {last next : Moment} {told : List Happening} {deed : Option Deed}
      (before : Unfolds routines first told last) (now : Step routines last deed next) :
      Unfolds routines first (told ++ last.happening?.toList) next
  /-- Something else was done to the engine, such as creating a context or adding a source. -/
  | aside {α : Type} {context : ContextId} {program : Program α} {stack : Stack α}
      {world after : World} {told : List Happening}
      (before : Unfolds routines first told ⟨context, program, stack, world⟩)
      (alone : after.IsAlone) (registry : after.registry = world.registry)
      (missing : after.engine.missing = world.engine.missing) :
      Unfolds routines first told ⟨context, program, stack, after⟩
  /-- When nothing ran any more, something else was asked for. -/
  | called {α β : Type} {context : ContextId} {result : α} {world : World}
      {told : List Happening} (caller : ContextId) (program : Program β)
      (before : Unfolds routines first told ⟨context, .done result, .bottom, world⟩) :
      Unfolds routines first told ⟨caller, program, .bottom, world⟩

/-- What happened is in the journal and among the missing sources. -/
theorem Unfolds.journaled {first last : Moment} {told : List Happening}
    (unfolded : Unfolds routines first told last) (alone : first.IsAlone)
    (fresh : first.world.registry = .start true) (found : first.world.engine.missing = []) :
    last.IsAlone ∧ ∃ events, last.world.registry.Chronicled events ∧
      Journaled events last.world.engine.missing told := by
  induction unfolded with
  | refl =>
    refine ⟨alone, [], ?_, ?_⟩
    · rw [fresh]
      exact Registry.start_chronicled
    · rw [found]
      exact .nothing
  | step before now ih =>
    obtain ⟨aloneLast, events, chronicled, journaled⟩ := ih
    obtain ⟨more, sources, chronicledAfter, missing, noted⟩ :=
      now.records aloneLast events chronicled
    refine ⟨(now.census aloneLast).1, events ++ more, chronicledAfter, ?_⟩
    rw [missing]
    exact journaled.append noted
  | aside before aloneAfter registry missing ih =>
    obtain ⟨aloneLast, events, chronicled, journaled⟩ := ih
    refine ⟨⟨aloneAfter, aloneLast.2⟩, events, ?_, ?_⟩
    · show Registry.Chronicled _ events
      rw [registry]
      exact chronicled
    · show Journaled events _ _
      rw [missing]
      exact journaled
  | called caller program before ih => exact ih

/-- What runs unfolds from one of its moments to the next. -/
theorem Unfolds.reaches {first middle last : Moment} {told : List Happening} {deeds : List Deed}
    (unfolded : Unfolds routines first told middle) (reached : Reaches routines middle deeds last) :
    ∃ more, Unfolds routines first (told ++ more) last := by
  induction reached with
  | refl => exact ⟨[], by rw [List.append_nil]; exact unfolded⟩
  | @step last next deeds deed before now ih =>
    obtain ⟨more, unfolded⟩ := ih
    refine ⟨more ++ last.happening?.toList, ?_⟩
    rw [← List.append_assoc]
    exact unfolded.step now

/-- A request that is made when nothing runs, and that is answered, unfolds. -/
theorem Unfolds.answered {first moment : Moment} {told : List Happening}
    (unfolded : Unfolds routines first told moment) (finished : moment.IsOver) {allowance : Nat}
    (caller : ContextId) (request : Request) {answer : request.Answer} {after : World}
    (answered : Engine.answer (Runner.within routines allowance) routines caller request
      moment.world = some (answer, after)) :
    ∃ more, Unfolds routines first (told ++ more) ⟨caller, .done answer, .bottom, after⟩ := by
  obtain ⟨α, context, result, world, rfl⟩ := finished
  rw [← Runner.within_send] at answered
  obtain ⟨deeds, reached⟩ := reaches_of_within answered
  exact (unfolded.called caller (Program.send request)).reaches (reached .bottom)

end Moment

/-- A report is true to what happened to an engine, and to its registry now. -/
structure Report.IsTrueTo (report : Report) (registry : Registry) (told : List Happening) :
    Prop where
  /-- There are errors exactly if a name was looked up while it was not bound, or a source could
  not be loaded. -/
  errors : report.hasErrors = true ↔
    (∃ name context, .lookedUp name context false ∈ told) ∨
      ∃ context path, .unloaded context path ∈ told
  /-- A name is told of as imported but never exported exactly if it was looked up while it was not
  bound, and is not bound now. -/
  neverExported : ∀ name context,
    report.Tells name context " was imported but never exported" ↔
      .lookedUp name context false ∈ told ∧ registry.contains name = false
  /-- A name is told of as imported too early exactly if it was looked up while it was not bound,
  and is bound now. -/
  importedEarly : ∀ name context,
    report.Tells name context " was imported before it was exported" ↔
      .lookedUp name context false ∈ told ∧ registry.contains name = true
  /-- A name is told of as exported but never imported, with a context, exactly if that context has
  bound it and no look-up found it bound. -/
  neverImported : ∀ name context,
    report.Tells name context " was exported but never imported" ↔
      registry.originOf name = some context ∧ ∀ caller, .lookedUp name caller true ∉ told
  /-- There is nothing to tell exactly if every name that was looked up was bound, no name was bound
  twice, every name that is bound was looked up since, and every source could be loaded. -/
  empty : report.isEmpty = true ↔
    (∀ name context, .lookedUp name context false ∉ told) ∧
    (told.filterMap Happening.exported?).Nodup ∧
    (∀ name, registry.contains name = true → ∃ context, .lookedUp name context true ∈ told) ∧
    ∀ context path, .unloaded context path ∉ told

/-- A report that is read off a journal is true to what the journal tells of. -/
theorem Registry.Chronicled.isTrueTo {registry : Registry} {events : List Event}
    {missing : List MissingSource} {told : List Happening}
    (chronicled : registry.Chronicled events) (journaled : Journaled events missing told) :
    (Report.ofEvents events missing).IsTrueTo registry told := by
  have settled : ∀ name before context line later,
      events = before ++ .imported name context false line :: later →
        Report.isExported name later = registry.contains name :=
    fun name before context line later split => chronicled.exported_later split
  have unbound : ∀ name context,
      (∃ line, Event.imported name context false line ∈ events) ↔
        .lookedUp name context false ∈ told :=
    fun name context => (journaled.lookedUp name context false).symm
  have unused : ∀ name, Report.isUsed name events = true ↔
      ∃ caller, .lookedUp name caller true ∈ told := by
    intro name
    rw [Report.isUsed_iff]
    exact exists_congr fun caller => (journaled.lookedUp name caller true).symm
  have sources : missing = [] ↔ ∀ context path, .unloaded context path ∉ told := by
    constructor
    · rintro rfl context path mem
      obtain ⟨line, impossible⟩ := (journaled.unloaded context path).1 mem
      exact absurd impossible List.not_mem_nil
    · intro none
      refine List.eq_nil_iff_forall_not_mem.2 fun source mem => ?_
      exact none source.context source.path ((journaled.unloaded _ _).2 ⟨source.line, mem⟩)
  refine ⟨?_, ?_, ?_, ?_, ?_⟩
  · refine Report.hasErrors_iff.trans (or_congr ?_ ?_)
    · exact exists_congr fun name => exists_congr fun context => unbound name context
    · rw [ne_eq, sources]
      simp only [not_forall, not_not]
  · intro name context
    rw [← unbound]
    exact Report.tells_unbound_iff (settled name) false
  · intro name context
    rw [← unbound]
    exact Report.tells_unbound_iff (settled name) true
  · intro name context
    rw [chronicled.origin]
    refine Report.tells_unused_iff.trans (and_congr_right fun _ => ?_)
    rw [← not_exists, ← unused, Bool.not_eq_true]
  · have bound : (∀ name context line, Event.imported name context false line ∉ events) ↔
        ∀ name context, .lookedUp name context false ∉ told :=
      forall_congr' fun name => forall_congr' fun context =>
        not_exists.symm.trans (not_congr (unbound name context))
    have once : (∀ event ∈ events, Report.overwrite? event = none) ↔
        (told.filterMap Happening.exported?).Nodup := by
      rw [journaled.exported]
      exact Registry.nothing_overwritten_iff chronicled.overwrote
    have found : (∀ name, Report.isExported name events = true →
          Report.isUsed name events = true) ↔
        ∀ name, registry.contains name = true → ∃ context, .lookedUp name context true ∈ told := by
      refine forall_congr' fun name => ?_
      rw [chronicled.contains, unused]
    rw [Report.isEmpty_iff, bound, once, found, sources]
    constructor
    · rintro ⟨all, loaded, single, every⟩
      exact ⟨all, single, every, loaded⟩
    · rintro ⟨all, single, every, loaded⟩
      exact ⟨all, loaded, single, every⟩

/-- Whatever is done with an engine that is alone and begins with an empty registry of its own that
keeps a journal, its report is true to what happened, at every moment. What is done can be any call
from outside, made when the one before has returned: with its outcome it is part of what
happened. -/
theorem report_is_true {routines : Routines} {world : World} (alone : world.IsAlone)
    (fresh : world.registry = .start true) (found : world.engine.missing = []) {α : Type}
    {context : ContextId} {program : Program α} {told : List Happening} {moment : Moment}
    (unfolded : Moment.Unfolds routines (.start context program world) told moment) :
    moment.world.report.IsTrueTo moment.world.registry told ∧
    ∀ allowance caller request answer after, moment.IsOver →
      Engine.answer (Runner.within routines allowance) routines caller request moment.world =
        some (answer, after) →
      ∃ more, Moment.Unfolds routines (.start context program world) (told ++ more)
        ⟨caller, .done answer, .bottom, after⟩ := by
  obtain ⟨_, events, chronicled, journaled⟩ := unfolded.journaled ⟨alone, trivial⟩ fresh found
  have journal : moment.world.registry.events = events := by
    rw [Registry.events, chronicled.journal, Option.getD_some]
  constructor
  · rw [World.report, journal]
    exact chronicled.isTrueTo journaled
  · intro allowance caller request answer after finished answered
    exact unfolded.answered finished caller request answered

/-- An engine that knows the bundled languages and has no sources. -/
def World.withoutSources : World where
  engine := {
    languages := ({} : Builder).bundledLanguages.languages
    loader := .memory []
    maxDepth := 64 }
  registry := .start true

/-- Look a name up too early, bind it and another one, and ask for a source that is not there. -/
def careless : Program (Except Fault ContextId) := do
  let _ ← Program.importName "late" none
  Program.exportValue "late" (.text "here") none
  Program.exportValue "idle" (.text "there") none
  Program.eval "lisp" "gone.lisp" none

/-- What happens then. -/
def carelessDeeds : List Happening :=
  [.lookedUp "late" .host false, .exported "late" .host, .exported "idle" .host,
    .unloaded .host "gone.lisp"]

/-- The report tells of the early look-up and of the export that was not used. -/
theorem careless_report_is_true :
    ∃ moment, Moment.Unfolds (Host.routines []) (.start .host careless .withoutSources)
        carelessDeeds moment ∧
      moment.world.report.hasErrors = true ∧
      moment.world.report.Tells "late" .host " was imported before it was exported" ∧
      moment.world.report.Tells "idle" .host " was exported but never imported" := by
  have first : Moment.Unfolds (Host.routines []) (.start .host careless .withoutSources) []
      (.start .host careless .withoutSources) := .refl
  have unfolded : Moment.Unfolds (Host.routines []) (.start .host careless .withoutSources)
      carelessDeeds _ :=
    (((first.step (.answered rfl)).step (.answered rfl)).step (.answered rfl)).step (.answered rfl)
  have alone : World.withoutSources.IsAlone := rfl
  obtain ⟨report, _⟩ := report_is_true alone rfl rfl unfolded
  refine ⟨_, unfolded, report.errors.2 (.inl ⟨"late", .host, ?_⟩),
    (report.importedEarly "late" .host).2 ⟨?_, rfl⟩,
    (report.neverImported "idle" .host).2 ⟨rfl, fun caller mem => ?_⟩⟩
  · exact List.mem_cons_self
  · exact List.mem_cons_self
  · simp [carelessDeeds] at mem

end Interchange
