import Interchange.Proofs.Context.Places
import Interchange.Proofs.Engine.Calls
import Interchange.Proofs.Engine.Unnoticed

/-!
# Raising the limit

The limit on depth is looked at in one place only, when a context begins a unit, and who is refused
there tells so in the end: a script that is refused an evaluation ends with the same fault, and so
do all that wait for it. So a call that does not end in such a fault ends in the same way where
contexts may lie deeper (`raising_the_limit_is_harmless`). That is shown of one script after the
other (`Runner.Raises`), by induction on how many run inside each other; routines that evaluate
nothing do not notice what the limit is.
-/
namespace Interchange

/-- The fault tells, at its root, of an evaluation that was nested too deeply. -/
def Fault.IsTooDeep (fault : Fault) : Prop := ∃ limit, fault.root = .depthExceeded limit

/-- The evaluation of a unit was nested too deeply exactly if what failed in it was. -/
@[simp] theorem Fault.isTooDeep_evaluation (language path : String) (context : ContextId)
    (cause : Fault) : (evaluation language path context cause).IsTooDeep ↔ cause.IsTooDeep :=
  Iff.rfl

/-- A refusal to go deeper is one. -/
theorem Fault.isTooDeep_depthExceeded (limit : Nat) : (depthExceeded limit).IsTooDeep :=
  ⟨limit, rfl⟩

/-- The engine with another limit. -/
def Engine.Change.limit (maxDepth : Nat) : Engine.Change where
  apply engine := { engine with maxDepth }
  output _ := rfl
  prints _ _ := rfl

namespace World

/-- The world in which contexts may lie as deep as another limit says. -/
def withLimit (limit : Nat) (world : World) : World :=
  { world with engine := { world.engine with maxDepth := limit } }

/-- A world with the bundled languages, without routines beyond those in reach, and with a limit
that is not above the given one. -/
structure IsBelow (reach : Nat → Prop) (limit : Nat) (world : World) : Prop where
  /-- The routines that can be run. -/
  sealed : world.Sealed reach
  /-- The languages. -/
  bundled : world.engine.languages.IsBundled
  /-- The limit. -/
  le : world.engine.maxDepth ≤ limit

end World

variable {reach : Nat → Prop} {limit : Nat}

/-- What an action does from a world to another one it does as well where the limit is raised. -/
def Action.Rises {α : Type} (reach : Nat → Prop) (limit : Nat) (action : Action α) (world : World)
    (result : α) (after : World) : Prop :=
  after.IsBelow reach limit ∧ action (world.withLimit limit) = some (result, after.withLimit limit)

/-- Whatever script comes to an end that is not too deep, it comes to the same end where the limit
is raised. -/
def Runner.Raises (reach : Nat → Prop) (limit : Nat) (run : Runner) : Prop :=
  ∀ (α : Type) (fault? : α → Option Fault) (context : ContextId) (script : Program α)
    (world after : World) (result : α), script.Heeds (.harmless reach) fault? →
    world.IsBelow reach limit → run α context script world = some (result, after) →
    (∀ fault, fault? result = some fault → ¬ fault.IsTooDeep) →
    (run α context script).Rises reach limit world result after

namespace Engine

variable {run : Runner} {world after : World}

/-- A unit that is evaluated in a context, and not too deep, is evaluated in the same way where the
limit is raised. -/
theorem evaluate_rises (raises : run.Raises reach limit) (below : world.IsBelow reach limit)
    {context : ContextId} {unit : SourceUnit}
    (speaks : ∀ held session, world.engine.contexts.contexts[context.raw]? = some held →
      held.session = some session → session.IsBundled)
    {outcome : Except Fault Unit}
    (evaluated : evaluate run context unit world = some (outcome, after))
    (shallow : ∀ fault, Fault.of? outcome = some fault → ¬ fault.IsTooDeep) :
    (evaluate run context unit).Rises reach limit world outcome after := by
  have contexts : (world.withLimit limit).engine.contexts = world.engine.contexts := rfl
  rcases begun : world.engine.contexts.begin context unit.path with
    ⟨fault | ⟨session, depth⟩, opened⟩
  · simp only [evaluate, begun] at evaluated
    obtain ⟨rfl, rfl⟩ := Prod.mk.inj (Option.some.inj evaluated)
    refine ⟨⟨below.sealed.withContexts opened, below.bundled, below.le⟩, ?_⟩
    simp only [evaluate, contexts, begun]
    rfl
  · obtain ⟨held, there, free, _, _⟩ := ContextTree.begin_cases begun
    simp only [evaluate, begun] at evaluated
    by_cases deep : world.engine.maxDepth < depth
    · rw [if_pos deep] at evaluated
      obtain ⟨rfl, rfl⟩ := Prod.mk.inj (Option.some.inj evaluated)
      exact absurd (Fault.isTooDeep_depthExceeded _) (shallow _ rfl)
    · rw [if_neg deep] at evaluated
      obtain ⟨⟨⟨last, result⟩, inside⟩, ran, ended⟩ := Option.map_eq_some_iff.1 evaluated
      obtain ⟨rfl, rfl⟩ := Prod.mk.inj ended
      have heeds : (session.evaluate ⟨context, unit.language, unit.path⟩ unit.text).Heeds
          (.harmless reach) fun ended => Fault.of? ended.2 :=
        Session.evaluate_heeds (fun _ => trivial) (speaks held session there free) _ unit.text
      have belowOpened : (world.withContexts opened).IsBelow reach limit :=
        ⟨below.sealed.withContexts opened, below.bundled, below.le⟩
      have fits : ∀ fault, Fault.of? result = some fault → ¬ fault.IsTooDeep := by
        cases result with
        | ok value => exact fun _ impossible => by cases impossible
        | error cause =>
          intro fault same
          obtain rfl := Option.some.inj same
          have wrapped := shallow _ rfl
          rwa [Fault.isTooDeep_evaluation] at wrapped
      obtain ⟨belowInside, again⟩ := raises _ _ _ _ _ _ _ heeds belowOpened ran fits
      refine ⟨⟨belowInside.sealed.withContexts _, belowInside.bundled, belowInside.le⟩, ?_⟩
      have raised : ¬ (world.withLimit limit).engine.maxDepth < depth :=
        fun deeper => deep (Nat.lt_of_le_of_lt below.le deeper)
      simp only [evaluate, contexts, begun, if_neg raised]
      exact Option.map_eq_some_iff.2 ⟨_, again, rfl⟩

/-- A context is created in the same way where the limit is raised. -/
theorem createContext_withLimit (parent : Option ContextId) (language : String) (world : World)
    (limit : Nat) :
    createContext parent language (world.withLimit limit) =
      ((createContext parent language world).1,
        (createContext parent language world).2.withLimit limit) := by
  have languages : (world.withLimit limit).engine.languages = world.engine.languages := rfl
  have contexts : (world.withLimit limit).engine.contexts = world.engine.contexts := rfl
  simp only [createContext, languages, contexts]
  split <;> rfl

/-- A unit that is evaluated in a new context, and not too deep, is evaluated in the same way where
the limit is raised. -/
theorem evaluateBelow_rises (raises : run.Raises reach limit) (below : world.IsBelow reach limit)
    {caller : ContextId} {unit : SourceUnit} {outcome : Except Fault ContextId}
    (evaluated : evaluateBelow run caller unit world = some (outcome, after))
    (shallow : ∀ fault, Fault.of? outcome = some fault → ¬ fault.IsTooDeep) :
    (evaluateBelow run caller unit).Rises reach limit world outcome after := by
  have raised := createContext_withLimit (some caller) unit.language world limit
  rcases createContext_cases (some caller) unit.language world with
    ⟨fault, refused⟩ | ⟨found, child, contexts, known, made, created⟩
  · rw [refused] at raised
    simp only [evaluateBelow, refused] at evaluated
    obtain ⟨rfl, rfl⟩ := Prod.mk.inj (Option.some.inj evaluated)
    refine ⟨below, ?_⟩
    simp only [evaluateBelow, raised]
  · rw [created] at raised
    simp only [evaluateBelow, created] at evaluated
    obtain ⟨⟨result, inside⟩, ran, ended⟩ := Option.map_eq_some_iff.1 evaluated
    obtain ⟨rfl, rfl⟩ := Prod.mk.inj ended
    have belowCreated : (world.withContexts contexts).IsBelow reach limit :=
      ⟨below.sealed.withContexts contexts, below.bundled, below.le⟩
    have speaks : ∀ held session,
        (world.withContexts contexts).engine.contexts.contexts[child.raw]? = some held →
          held.session = some session → session.IsBundled := by
      intro held session there free
      obtain ⟨context, depth, rfl, rfl, _, new⟩ := ContextTree.create_cases made
      obtain rfl := Option.some.inj ((world.engine.contexts.contexts_add_self context).symm.trans
        there)
      obtain rfl := Option.some.inj (new.session.symm.trans free)
      exact below.bundled.session known
    have fits : ∀ fault, Fault.of? result = some fault → ¬ fault.IsTooDeep := by
      cases result with
      | ok value => exact fun _ impossible => by cases impossible
      | error cause => exact shallow
    obtain ⟨belowInside, again⟩ := evaluate_rises raises belowCreated speaks ran fits
    refine ⟨belowInside, ?_⟩
    simp only [evaluateBelow, raised]
    exact Option.map_eq_some_iff.2 ⟨_, again, rfl⟩

/-- A source that is evaluated, and not too deep, is evaluated in the same way where the limit is
raised. -/
theorem evalAt_rises (raises : run.Raises reach limit) (below : world.IsBelow reach limit)
    {caller : ContextId} {language path : String} {line : Option Nat}
    {outcome : Except Fault ContextId}
    (evaluated : evalAt run caller language path line world = some (outcome, after))
    (shallow : ∀ fault, Fault.of? outcome = some fault → ¬ fault.IsTooDeep) :
    (evalAt run caller language path line).Rises reach limit world outcome after := by
  have languages : (world.withLimit limit).engine.languages = world.engine.languages := rfl
  have contexts : (world.withLimit limit).engine.contexts = world.engine.contexts := rfl
  have loader : (world.withLimit limit).engine.loader = world.engine.loader := rfl
  cases known : world.engine.languages.get language with
  | error fault =>
    simp only [evalAt, known] at evaluated
    obtain ⟨rfl, rfl⟩ := Prod.mk.inj (Option.some.inj evaluated)
    refine ⟨below, ?_⟩
    simp only [evalAt, languages, known]
  | ok found =>
    cases loaded : world.engine.loader.load
        (SourcePath.resolve (world.engine.contexts.sourceOf caller) path) with
    | error fault =>
      simp only [evalAt, known, loaded] at evaluated
      obtain ⟨rfl, rfl⟩ := Prod.mk.inj (Option.some.inj evaluated)
      refine ⟨?_, ?_⟩
      · cases fault <;>
          exact ⟨⟨below.sealed.registry, below.sealed.home, below.sealed.heap⟩, below.bundled,
            below.le⟩
      · simp only [evalAt, languages, contexts, loader, known, loaded]
        cases fault <;> rfl
    | ok text =>
      simp only [evalAt, known, loaded] at evaluated
      obtain ⟨belowAfter, again⟩ := evaluateBelow_rises raises below evaluated shallow
      refine ⟨belowAfter, ?_⟩
      simp only [evalAt, languages, contexts, loader, known, loaded]
      exact again

/-- However many scripts run inside each other, they come to the same end where the limit is
raised. -/
theorem within_raises {routines : Routines} (quiet : routines.AskQuietly reach) (allowance : Nat) :
    (Runner.within routines allowance).Raises reach limit := by
  induction allowance with
  | zero =>
    intro α fault? context script world after result _ _ ran
    simp [Runner.within] at ran
  | succ allowance inside =>
    intro α fault? context script world after result heeds below ran shallow
    unfold Action.Rises
    simp only [Runner.within] at ran ⊢
    induction heeds generalizing world with
    | done =>
      obtain ⟨rfl, rfl⟩ := Prod.mk.inj (Option.some.inj ran)
      exact ⟨below, rfl⟩
    | ask may _ ih =>
      obtain ⟨⟨answer, between⟩, answered, rest⟩ := Option.bind_eq_some_iff.1 ran
      obtain ⟨sealed, again⟩ := quiet.unnoticed answered may below.sealed (.limit limit)
      have unchanged := quiet.unchanged answered may below.sealed
      have belowBetween : between.IsBelow reach limit := by
        refine ⟨sealed, ?_, ?_⟩
        · rw [unchanged]
          exact below.bundled
        · rw [unchanged]
          exact below.le
      obtain ⟨belowAfter, onwards⟩ := ih answer (fun _ _ => trivial) between belowBetween rest
      exact ⟨belowAfter, Option.bind_eq_some_iff.2 ⟨_, again, onwards⟩⟩
    | eval _ refused ih =>
      obtain ⟨⟨answer, between⟩, answered, rest⟩ := Option.bind_eq_some_iff.1 ran
      cases answer with
      | ok child =>
        obtain ⟨belowBetween, again⟩ := evalAt_rises inside below answered
          fun _ impossible => by cases impossible
        obtain ⟨belowAfter, onwards⟩ := ih child between belowBetween rest
        exact ⟨belowAfter, Option.bind_eq_some_iff.2 ⟨_, again, onwards⟩⟩
      | error fault =>
        -- The script ends with the fault that it is told, so that is not too deep either.
        obtain ⟨last, stops, told⟩ := refused fault
        simp only [stops] at rest
        obtain ⟨rfl, rfl⟩ := Prod.mk.inj (Option.some.inj rest)
        obtain ⟨belowBetween, again⟩ := evalAt_rises inside below answered
          fun other same => shallow other (told.trans same)
        refine ⟨belowBetween, Option.bind_eq_some_iff.2 ⟨_, again, ?_⟩⟩
        rw [stops]
        rfl

end Engine

/-- Raising the limit on depth is harmless. Whatever an engine with the bundled languages is asked
to evaluate, in a new context or in one that is there, if no routine in reach evaluates anything
itself, and if that succeeds or fails for another reason than that it went too deep, then the very
same happens where contexts may lie deeper: the same outcome, the same output, names, journal,
contexts and missing sources. -/
theorem raising_the_limit_is_harmless {routines : Routines} {reach : Nat → Prop}
    (quiet : routines.AskQuietly reach) (allowance limit : Nat) {world : World}
    (sealed : world.Sealed reach) (bundled : world.engine.languages.IsBundled)
    (raised : world.engine.maxDepth ≤ limit) :
    (∀ (call : Call) outcome after,
      call.carryOut (Runner.within routines allowance) world = some (outcome, after) →
      (∀ fault, Fault.of? outcome = some fault → ¬ fault.IsTooDeep) →
      call.carryOut (Runner.within routines allowance) (world.withLimit limit) =
        some (outcome, after.withLimit limit)) ∧
    ∀ context unit outcome after,
      (∀ held session, world.engine.contexts.contexts[context.raw]? = some held →
        held.session = some session → session.IsBundled) →
      Engine.evaluate (Runner.within routines allowance) context unit world =
        some (outcome, after) →
      (∀ fault, Fault.of? outcome = some fault → ¬ fault.IsTooDeep) →
      Engine.evaluate (Runner.within routines allowance) context unit (world.withLimit limit) =
        some (outcome, after.withLimit limit) := by
  have raises : (Runner.within routines allowance).Raises reach limit :=
    Engine.within_raises quiet allowance
  have below : world.IsBelow reach limit := ⟨sealed, bundled, raised⟩
  refine ⟨fun call outcome after carried shallow => ?_,
    fun context unit outcome after speaks evaluated shallow =>
      (Engine.evaluate_rises raises below speaks evaluated shallow).2⟩
  cases call with
  | source caller language path line =>
    exact (Engine.evalAt_rises raises below carried shallow).2
  | file path =>
    have languages : (world.withLimit limit).engine.languages = world.engine.languages := rfl
    simp only [Call.carryOut, Engine.evalFile, languages] at carried ⊢
    split at carried
    · obtain ⟨rfl, rfl⟩ := Prod.mk.inj (Option.some.inj carried)
      rfl
    · exact (Engine.evalAt_rises raises below carried shallow).2
  | text unit => exact (Engine.evaluateBelow_rises raises below carried shallow).2

/-- A world with a context in which nothing is bound, and with two sources, one of which evaluates
the other. -/
def World.withStairs : World where
  engine := {
    languages := ({} : Builder).bundledLanguages.languages
    loader := .memory [("up.jss", "let x = import answer\neval lisp top.lisp"),
      ("top.lisp", "(print \"here\")")]
    maxDepth := 2
    contexts := ContextTree.initial.add ((Context.running ⟨1⟩ .host "lisp" "empty.lisp" 1).ended
      (.forms []) true) }
  registry := (Registry.start true).bind "answer" (.deferred 0) .host none

/-- Two sources that go as deep as the limit allows come to the same end where it is raised, and so
does a unit that asks for the second one from a context that is there. -/
theorem stairs_end_alike :
    (∃ after, Call.carryOut (Runner.within (Host.routines answerRoutines) 5) (.file "up.jss")
        .withStairs = some (.ok ⟨2⟩, after) ∧
      Call.carryOut (Runner.within (Host.routines answerRoutines) 5) (.file "up.jss")
        (World.withStairs.withLimit 9) = some (.ok ⟨2⟩, after.withLimit 9)) ∧
    ∃ after, Engine.evaluate (Runner.within (Host.routines answerRoutines) 5) ⟨1⟩
        ⟨"lisp", "more.lisp", "(eval lisp \"top.lisp\")"⟩ .withStairs = some (.ok (), after) ∧
      Engine.evaluate (Runner.within (Host.routines answerRoutines) 5) ⟨1⟩
        ⟨"lisp", "more.lisp", "(eval lisp \"top.lisp\")"⟩ (World.withStairs.withLimit 9) =
          some (.ok (), after.withLimit 9) := by
  have climbed : (Call.carryOut (Runner.within (Host.routines answerRoutines) 5) (.file "up.jss")
      .withStairs).map Prod.fst = some (.ok ⟨2⟩) := by
    decide +kernel
  have stepped : (Engine.evaluate (Runner.within (Host.routines answerRoutines) 5) ⟨1⟩
      ⟨"lisp", "more.lisp", "(eval lisp \"top.lisp\")"⟩ .withStairs).map Prod.fst =
        some (.ok ()) := by
    decide +kernel
  obtain ⟨⟨_, after⟩, carried, rfl⟩ := Option.map_eq_some_iff.1 climbed
  obtain ⟨⟨_, afterwards⟩, evaluated, rfl⟩ := Option.map_eq_some_iff.1 stepped
  have empty : (Registry.start true).Holds (· = 0) := fun _ _ impossible => by
    simp [Registry.start, Registry.find?, Fields.find?] at impossible
  have sealed : World.withStairs.Sealed (· = 0) :=
    ⟨empty.bindRoutine rfl "answer" .host none,
      fun _ _ impossible => by simp [World.withStairs] at impossible,
      fun _ _ impossible => by simp [World.withStairs] at impossible⟩
  have speaks : ∀ held session,
      World.withStairs.engine.contexts.contexts[1]? = some held → held.session = some session →
        session.IsBundled := by
    rintro held session found free
    obtain rfl := Option.some.inj found
    obtain rfl := Option.some.inj free
    trivial
  have harmless := raising_the_limit_is_harmless answerRoutines_comeBack.quiet 5 9 sealed
    Builder.bundledLanguages_isBundled (show World.withStairs.engine.maxDepth ≤ 9 by decide)
  exact ⟨⟨after, carried, harmless.1 _ _ _ carried fun _ impossible => by cases impossible⟩,
    afterwards, evaluated,
    harmless.2 _ _ _ _ speaks evaluated fun _ impossible => by cases impossible⟩

end Interchange
