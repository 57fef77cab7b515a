import Interchange.Engine.Builder
import Interchange.Proofs.Context.Trail
import Interchange.Proofs.Engine.Reply
import Interchange.Proofs.Guests.Session
import Interchange.Proofs.Host.Quiet

/-!
# How faults come up through nested evaluations

An evaluation that fails tells of every context between the one that was asked for and the one in
which the fault arose, and of no other; these have faulted, all others that were created have
completed (`evaluations_account_for_contexts`). The proof is an induction on how many programs run
inside each other: a script passes on the fault of an evaluation that it asked for, and the engine
adds the context of the script to it.
-/
namespace Interchange

/-- The table knows no languages but the bundled ones. -/
def LanguageTable.IsBundled (table : LanguageTable) : Prop :=
  ∀ id language, table.get id = .ok language → language = .forms ∨ language = .statements

/-- Contexts of a bundled table begin with a session of a bundled language. -/
theorem LanguageTable.IsBundled.session {table : LanguageTable} (bundled : table.IsBundled)
    {id : String} {language : Language} (known : table.get id = .ok language) :
    language.session.IsBundled := by
  rcases bundled id language known with rfl | rfl
  · trivial
  · trivial

/-- Which extensions lead to the languages of a table does not matter. -/
theorem LanguageTable.IsBundled.of_languages_eq {table other : LanguageTable}
    (bundled : other.IsBundled) (same : table.languages = other.languages) : table.IsBundled := by
  intro id language known
  refine bundled id language ?_
  rw [← known, LanguageTable.get, LanguageTable.get, same]

/-- How the contexts that an evaluation has left account for its outcome. -/
structure ContextTree.Accounts (caller : ContextId) (before : ContextTree)
    (outcome : Except Fault ContextId) (after : ContextTree) : Prop where
  /-- What was there is unchanged, the fault tells of the contexts that have faulted, and all
  others have completed. -/
  leaves : ContextTree.Leaves caller before (Fault.of? outcome) after
  /-- A fault that tells of no context arose before there was one. -/
  unmade : ∀ fault, outcome = .error fault → fault.IsPlain → after = before
  /-- A context that was evaluated to its end is new, and the last child of the caller. -/
  made : ∀ child, outcome = .ok child →
    before.count ≤ child.raw ∧ (after.children caller).getLast? = some child

/-- What a program that runs for a context leaves in a world. -/
structure World.Leaves (reach : Nat → Prop) (caller : ContextId) (before : World)
    (fault? : Option Fault) (after : World) : Prop where
  /-- What is left in the tree of contexts. -/
  contexts : ContextTree.Leaves caller before.engine.contexts fault? after.engine.contexts
  /-- The languages are the same. -/
  languages : after.engine.languages = before.engine.languages
  /-- No other routines can be run. -/
  sealed : after.Sealed reach

/-- The bundled languages are all that a builder knows to which nothing else was added. -/
theorem Builder.bundledLanguages_isBundled :
    ({} : Builder).bundledLanguages.languages.IsBundled := by
  intro id language known
  have found : Fields.find? id ({} : Builder).bundledLanguages.languages.languages =
      some language := by
    unfold LanguageTable.get Fault.orElse at known
    split at known
    · rename_i other there
      rw [there, Except.ok.inj known]
    · simp at known
  simp only [bundledLanguages, Builder.language, LanguageTable.register, Fields.find?_insert,
    Fields.find?] at found
  split at found
  · exact .inr (Option.some.inj found).symm
  · split at found
    · exact .inl (Option.some.inj found).symm
    · simp at found

/-- Leading an extension to a language adds no language. -/
theorem LanguageTable.languages_lead {table after : LanguageTable} {extension id : String}
    (led : table.lead extension id = .ok after) : after.languages = table.languages := by
  unfold lead at led
  cases known : table.get id with
  | error fault => simp [known, bind, Except.bind] at led
  | ok language =>
    simp only [known, bind, Except.bind, pure, Except.pure, Except.ok.injEq] at led
    rw [← led]

/-- Leading extensions to languages one after the other adds no language. -/
theorem LanguageTable.languages_foldlM_lead {aliases : List (String × String)}
    {table after : LanguageTable}
    (led : aliases.foldlM (fun table entry => table.lead entry.1 entry.2) table = .ok after) :
    after.languages = table.languages := by
  induction aliases generalizing table with
  | nil => rw [← Except.ok.inj led]
  | cons first rest ih =>
    rw [List.foldlM_cons, Outcome.bind_ok_iff] at led
    obtain ⟨between, one, others⟩ := led
    rw [ih others, languages_lead one]

/-- An engine is built if the extensions lead to languages that are there. -/
theorem Builder.build_ok_iff {builder : Builder} {disk : Disk} {engine : Engine} :
    builder.build disk = .ok engine ↔ ∃ languages,
      builder.aliases.foldlM (fun table entry => table.lead entry.1 entry.2) builder.languages =
        .ok languages ∧
      engine = {
        languages, maxDepth := builder.maxDepth,
        loader := builder.loader.getD (.files disk builder.root),
        output := { isBroken := builder.brokenOutput } } := by
  rw [build, Outcome.bind_ok_iff]
  simp only [Outcome.pure_ok_iff, @eq_comm Engine]

/-- An engine knows the languages that its builder was given, whatever extensions lead to them. -/
theorem Builder.languages_build {builder : Builder} {disk : Disk} {engine : Engine}
    (built : builder.build disk = .ok engine) :
    engine.languages.languages = builder.languages.languages := by
  obtain ⟨languages, led, rfl⟩ := build_ok_iff.1 built
  exact LanguageTable.languages_foldlM_lead led

/-- An engine knows no languages but the bundled ones if its builder was given no others. -/
theorem Builder.build_isBundled {builder : Builder} (bundled : builder.languages.IsBundled)
    {disk : Disk} {engine : Engine} (built : builder.build disk = .ok engine) :
    engine.languages.IsBundled := bundled.of_languages_eq (languages_build built)

/-- The language that a path leads to is refused in plain ways. -/
theorem LanguageTable.plainly_forPath (table : LanguageTable) (path : String) :
    Fault.Plainly (table.forPath path) := by
  have id : Fault.Plainly (Fault.orElse (.unknownLanguage ("." ++ SourcePath.fileExtension path))
      (Fields.find? (SourcePath.fileExtension path) table.extensions)) :=
    Fault.plainly_orElse trivial
  exact id.bind fun _ => Fault.plainly_orElse trivial

/-- A source is refused in plain ways. -/
theorem Loader.plainly_load (loader : Loader) (path : String) :
    Fault.Plainly (loader.load path) := by
  unfold load
  split
  · exact Fault.plainly_orElse trivial
  · rename_i disk root
    cases disk.read ((files disk root).fullPath path) with
    | ok text => exact Fault.plainly_ok text
    | error cause => exact Fault.plainly_error trivial

variable {reach : Nat → Prop}

/-- Running a script leaves what its faults tell. -/
def Runner.Leaves (reach : Nat → Prop) (run : Runner) : Prop :=
  ∀ (α : Type) (fault? : α → Option Fault) (context : ContextId) (program : Program α)
    (world after : World) (result : α), program.PassesOn reach True fault? →
    world.Sealed reach → world.engine.languages.IsBundled →
    run α context program world = some (result, after) →
    world.Leaves reach context (fault? result) after

namespace Engine

variable {run : Runner} {world after : World} {caller : ContextId}

/-- A context that begins a unit evaluates it, unless it lies too deep. -/
theorem respondEvaluate_of_begin {context : ContextId} (unit : SourceUnit) (world : World)
    {session : Session} {depth : Nat} {contexts : ContextTree}
    (begun : world.engine.contexts.begin context unit.path =
      (.ok (session, depth), contexts)) :
    respondEvaluate context unit world =
      if world.engine.maxDepth < depth then
        .now (.error (.depthExceeded world.engine.maxDepth))
          (world.withContexts (contexts.finish context session false))
      else .after context (session.evaluate ⟨context, unit.language, unit.path⟩ unit.text)
        (world.withContexts contexts) (.finishing context unit) := by
  simp only [respondEvaluate, begun]

/-- A unit in a language that is not known is refused. -/
theorem respondBelow_of_unknown {unit : SourceUnit} {fault : Fault} {world : World}
    (unknown : world.engine.languages.get unit.language = .error fault) (caller : ContextId) :
    respondBelow caller unit world = .now (.error fault) world := by
  simp only [respondBelow, createContext, unknown]

section Known

variable {unit : SourceUnit} {found : Language}
  (known : world.engine.languages.get unit.language = .ok found)
include known

/-- A unit is evaluated in a new context, unless that lies too deep or there is no number for it. -/
theorem respondBelow_of_known {depth : Nat}
    (below : world.engine.contexts.depthBelow (some caller) = .ok depth) :
    respondBelow caller unit world =
      if world.engine.contexts.count < ContextTree.capacity then
        if world.engine.maxDepth < depth then
          .now (.error (.depthExceeded world.engine.maxDepth))
            (world.withContexts ((world.engine.contexts.add (.running ⟨world.engine.contexts.count⟩
              caller unit.language unit.path depth)).finish ⟨world.engine.contexts.count⟩
                found.session false))
        else .after ⟨world.engine.contexts.count⟩
          (found.session.evaluate
            ⟨⟨world.engine.contexts.count⟩, unit.language, unit.path⟩ unit.text)
          (world.withContexts (world.engine.contexts.add
            (.running ⟨world.engine.contexts.count⟩ caller unit.language unit.path depth)))
          (.naming ⟨world.engine.contexts.count⟩
            (.finishing ⟨world.engine.contexts.count⟩ unit))
      else .now (.error (.depthExceeded world.engine.contexts.count)) world := by
  by_cases room : world.engine.contexts.count < ContextTree.capacity
  · have created := ContextTree.create_of_depthBelow below room unit.language found.session
    have begun := respondEvaluate_of_begin unit (world.withContexts
        (world.engine.contexts.add (.fresh ⟨world.engine.contexts.count⟩ caller unit.language depth
          found.session)))
      (world.engine.contexts.begin_fresh caller unit.language unit.path depth found.session)
    rw [if_pos room]
    simp only [respondBelow, createContext, known, created, begun]
    exact apply_ite (Reply.name _) _ _ _
  · have created := ContextTree.create_of_full below (Nat.le_of_not_lt room) unit.language
      found.session
    rw [if_neg room]
    simp only [respondBelow, createContext, known, created]
    rfl

/-- A unit is refused below a context that is not there. -/
theorem respondBelow_of_nowhere {fault : Fault}
    (nowhere : world.engine.contexts.depthBelow (some caller) = .error fault) :
    respondBelow caller unit world = .now (.error fault) world := by
  have created := ContextTree.create_of_unknown nowhere unit.language found.session
  simp only [respondBelow, createContext, known, created]
  rfl

end Known

/-- Evaluating a unit in a new context is refused in a plain way or for want of a number, or there
is a new context, which lies too deep or evaluates the unit. -/
theorem respondBelow_cases (caller : ContextId) (unit : SourceUnit) (world : World) :
    (∃ fault, (fault.IsPlain ∨ fault = .depthExceeded world.engine.contexts.count ∧
        ContextTree.capacity ≤ world.engine.contexts.count) ∧
      respondBelow caller unit world = .now (.error fault) world) ∨
    ∃ found depth, world.engine.languages.get unit.language = .ok found ∧
      caller.raw < world.engine.contexts.count ∧
      (respondBelow caller unit world = .now (.error (.depthExceeded world.engine.maxDepth))
          (world.withContexts ((world.engine.contexts.add (.running ⟨world.engine.contexts.count⟩
            caller unit.language unit.path depth)).finish ⟨world.engine.contexts.count⟩
              found.session false)) ∨
        respondBelow caller unit world = .after ⟨world.engine.contexts.count⟩
          (found.session.evaluate
            ⟨⟨world.engine.contexts.count⟩, unit.language, unit.path⟩ unit.text)
          (world.withContexts (world.engine.contexts.add
            (.running ⟨world.engine.contexts.count⟩ caller unit.language unit.path depth)))
          (.naming ⟨world.engine.contexts.count⟩
            (.finishing ⟨world.engine.contexts.count⟩ unit))) := by
  cases known : world.engine.languages.get unit.language with
  | error fault =>
    have plain : Fault.Plainly (world.engine.languages.get unit.language) :=
      Fault.plainly_orElse trivial
    exact .inl ⟨fault, .inl (plain fault (by rw [known]; rfl)),
      respondBelow_of_unknown known caller⟩
  | ok found =>
    cases below : world.engine.contexts.depthBelow (some caller) with
    | error fault =>
      have plain := world.engine.contexts.plainly_depthBelow (some caller) fault
        (by rw [below]; rfl)
      exact .inl ⟨fault, .inl plain, respondBelow_of_nowhere known below⟩
    | ok depth =>
      rw [respondBelow_of_known known below]
      by_cases room : world.engine.contexts.count < ContextTree.capacity
      · obtain ⟨_, there, _⟩ := ContextTree.exists_of_depthBelow below
        rw [if_pos room]
        refine .inr ⟨found, depth, rfl, ContextTree.lt_count there, ?_⟩
        by_cases deep : world.engine.maxDepth < depth
        · exact .inl (if_pos deep)
        · exact .inr (if_neg deep)
      · exact .inl ⟨_, .inr ⟨rfl, Nat.le_of_not_lt room⟩, if_neg room⟩

/-- Where nothing was made, a plain fault accounts for nothing. -/
theorem accounts_of_plain {before after : World} {fault : Fault} (plain : fault.IsPlain)
    (contexts : after.engine.contexts = before.engine.contexts)
    (languages : after.engine.languages = before.engine.languages) (sealed : after.Sealed reach) :
    before.Leaves reach caller (some fault) after ∧
      ContextTree.Accounts caller before.engine.contexts (.error fault) after.engine.contexts := by
  have nothing : ContextTree.Leaves caller before.engine.contexts (some fault)
      after.engine.contexts := by
    rw [contexts]
    exact .refl fun other same => Option.some.inj same ▸ plain
  exact ⟨⟨nothing, languages, sealed⟩, nothing, fun _ _ _ => contexts,
    fun child impossible => by simp at impossible⟩

/-- Evaluating a unit in a new context accounts for the contexts that it leaves. -/
theorem evaluateBelow_accounts (leaves : run.Leaves reach) (sealed : world.Sealed reach)
    (bundled : world.engine.languages.IsBundled) {unit : SourceUnit}
    {outcome : Except Fault ContextId}
    (evaluated : evaluateBelow run caller unit world = some (outcome, after)) :
    world.Leaves reach caller (Fault.of? outcome) after ∧
      ContextTree.Accounts caller world.engine.contexts outcome after.engine.contexts := by
  rw [evaluateBelow_eq] at evaluated
  rcases respondBelow_cases caller unit world with
    ⟨fault, plain | ⟨rfl, full⟩, refused⟩ | ⟨found, depth, known, there, deep | begun⟩
  · rw [refused] at evaluated
    obtain ⟨rfl, rfl⟩ := Prod.mk.inj (Option.some.inj evaluated)
    exact accounts_of_plain plain rfl rfl sealed
  · rw [refused] at evaluated
    obtain ⟨rfl, rfl⟩ := Prod.mk.inj (Option.some.inj evaluated)
    have left := @ContextTree.Leaves.full caller _ full
    exact ⟨⟨left, rfl, sealed⟩, left, fun _ _ _ => rfl, fun child impossible => by cases impossible⟩
  · rw [deep] at evaluated
    obtain ⟨rfl, rfl⟩ := Prod.mk.inj (Option.some.inj evaluated)
    have left := ContextTree.Leaves.tooDeep unit.language unit.path depth found.session
      world.engine.maxDepth there
    refine ⟨⟨left, rfl, sealed.withContexts _⟩, left, ?_, ?_⟩
    · rintro fault same plain
      obtain rfl := Except.error.inj same
      exact plain.elim
    · exact fun child impossible => by simp at impossible
  · rw [begun] at evaluated
    obtain ⟨⟨⟨session, result⟩, inside⟩, ran, same⟩ := Option.map_eq_some_iff.1 evaluated
    obtain ⟨rfl, rfl⟩ := Prod.mk.inj same
    have bundledInside : (world.withContexts (world.engine.contexts.add
        (.running ⟨world.engine.contexts.count⟩ caller unit.language unit.path
          depth))).engine.languages.IsBundled := bundled
    have left := leaves _ _ _ _ _ _ _
      (Session.evaluate_passesOn (bundled.session known) reach _ unit.text)
      (sealed.withContexts _) bundledInside ran
    have enclosed := ContextTree.Leaves.enclose session there left.contexts
    have last := ContextTree.Leaves.last_enclosed session result.isOk there left.contexts
    cases result with
    | ok value =>
      refine ⟨⟨enclosed, left.languages, left.sealed.withContexts _⟩, enclosed, ?_, ?_⟩
      · exact fun fault impossible => by
          cases impossible
      · intro child same
        obtain rfl := Except.ok.inj same
        exact ⟨Nat.le_refl _, last⟩
    | error cause =>
      refine ⟨⟨enclosed, left.languages, left.sealed.withContexts _⟩, enclosed, ?_, ?_⟩
      · rintro fault same plain
        obtain rfl := Except.error.inj same
        exact plain.elim
      · exact fun child impossible => by
          cases impossible

/-- Evaluating a source accounts for the contexts that it leaves. -/
theorem evalAt_accounts (leaves : run.Leaves reach) (sealed : world.Sealed reach)
    (bundled : world.engine.languages.IsBundled) {language path : String} {line : Option Nat}
    {outcome : Except Fault ContextId}
    (evaluated : evalAt run caller language path line world = some (outcome, after)) :
    world.Leaves reach caller (Fault.of? outcome) after ∧
      ContextTree.Accounts caller world.engine.contexts outcome after.engine.contexts := by
  simp only [evalAt] at evaluated
  split at evaluated
  · rename_i fault refused
    obtain ⟨rfl, rfl⟩ := Prod.mk.inj (Option.some.inj evaluated)
    have plain : Fault.Plainly (world.engine.languages.get language) := Fault.plainly_orElse trivial
    exact accounts_of_plain (plain fault (by rw [refused]; rfl)) rfl rfl sealed
  · split at evaluated
    · rename_i fault missing
      obtain ⟨rfl, rfl⟩ := Prod.mk.inj (Option.some.inj evaluated)
      have plain := world.engine.loader.plainly_load _ fault (by rw [missing]; rfl)
      unfold noteMissing
      split
      · exact accounts_of_plain trivial rfl rfl ⟨sealed.registry, sealed.home, sealed.heap⟩
      · exact accounts_of_plain plain rfl rfl sealed
    · exact evaluateBelow_accounts leaves sealed bundled evaluated

/-- However many scripts run inside each other, they leave what their faults tell. -/
theorem within_leaves {routines : Routines} (quiet : routines.AreQuiet reach) (allowance : Nat) :
    (Runner.within routines allowance).Leaves reach := by
  induction allowance with
  | zero =>
    intro α fault? context program world after result _ _ _ ran
    simp [Runner.within] at ran
  | succ allowance inside =>
    intro α fault? context program world after result passes sealed bundled ran
    simp only [Runner.within] at ran
    induction passes generalizing world with
    | @done result plain =>
      obtain ⟨rfl, rfl⟩ := Prod.mk.inj (Option.some.inj ran)
      exact ⟨.refl plain, rfl, sealed⟩
    | quiet harmless _ ih =>
      obtain ⟨⟨answer, between⟩, answered, rest⟩ := Option.bind_eq_some_iff.1 ran
      obtain ⟨settled, plain⟩ :=
        answer_settled (within_settles quiet allowance) quiet sealed harmless answered
      have later := ih answer plain between settled.sealed (settled.languages ▸ bundled) rest
      exact ⟨settled.contexts ▸ later.contexts, later.languages.trans settled.languages,
        later.sealed⟩
    | eval _ _ refused ih =>
      obtain ⟨⟨answer, between⟩, answered, rest⟩ := Option.bind_eq_some_iff.1 ran
      obtain ⟨left, _⟩ := evalAt_accounts inside sealed bundled answered
      cases answer with
      | ok child =>
        have later := ih child between left.sealed (left.languages ▸ bundled) rest
        exact ⟨left.contexts.trans later.contexts, later.languages.trans left.languages,
          later.sealed⟩
      | error fault =>
        obtain ⟨ended, stops, same⟩ := refused fault
        rw [stops] at rest
        obtain ⟨rfl, rfl⟩ := Prod.mk.inj (Option.some.inj rest)
        rw [same]
        exact left

/-- Evaluating a file accounts for the contexts that it leaves. -/
theorem evalFile_accounts (leaves : run.Leaves reach) (sealed : world.Sealed reach)
    (bundled : world.engine.languages.IsBundled) {path : String}
    {outcome : Except Fault ContextId}
    (evaluated : evalFile run path world = some (outcome, after)) :
    ContextTree.Accounts .host world.engine.contexts outcome after.engine.contexts := by
  unfold evalFile at evaluated
  split at evaluated
  · rename_i fault refused
    obtain ⟨rfl, rfl⟩ := Prod.mk.inj (Option.some.inj evaluated)
    have plain := world.engine.languages.plainly_forPath path fault (by rw [refused]; rfl)
    exact (accounts_of_plain plain rfl rfl sealed).2
  · exact (evalAt_accounts leaves sealed bundled evaluated).2

end Engine

/-- Whatever the host asks an engine with the bundled languages to evaluate, and whatever the
sources say, the contexts that are left account for the outcome, if no routine in reach evaluates
anything itself nor fails with the fault of an evaluation or of an exceeded depth of its own making.
A fault tells of the contexts that have failed, each the last child of the one before it, with its
language and the path of its unit, from the one that was asked for down to the one in which the
fault arose. A context that lay too deep has failed as well without being told of, unless it could
not be made because there was no number left for it. All others that were created have completed. -/
theorem evaluations_account_for_contexts (routines : Routines) (reach : Nat → Prop)
    (allowance : Nat) (world : World) (quiet : routines.AreQuiet reach)
    (sealed : world.Sealed reach) (bundled : world.engine.languages.IsBundled) :
    (∀ caller language path line outcome after,
      Engine.evalAt (Runner.within routines allowance) caller language path line world =
        some (outcome, after) →
      ContextTree.Accounts caller world.engine.contexts outcome after.engine.contexts) ∧
    (∀ path outcome after,
      Engine.evalFile (Runner.within routines allowance) path world = some (outcome, after) →
      ContextTree.Accounts .host world.engine.contexts outcome after.engine.contexts) ∧
    ∀ unit outcome after,
      Engine.evalUnit (Runner.within routines allowance) unit world = some (outcome, after) →
      ContextTree.Accounts .host world.engine.contexts outcome after.engine.contexts := by
  have leaves := Engine.within_leaves quiet allowance
  refine ⟨?_, ?_, ?_⟩
  · intro caller language path line outcome after evaluated
    exact (Engine.evalAt_accounts leaves sealed bundled evaluated).2
  · intro path outcome after evaluated
    exact Engine.evalFile_accounts leaves sealed bundled evaluated
  · intro unit outcome after evaluated
    exact (Engine.evaluateBelow_accounts leaves sealed bundled evaluated).2

/-- A world with a source that evaluates one that looks a name up, which a computation is bound
to, and then one that is no script. -/
def World.withBrokenSource : World where
  engine := {
    languages := ({} : Builder).bundledLanguages.languages
    loader := .memory [("a.jss", "eval lisp b.lisp\neval jsonscript c.jss"),
      ("b.lisp", "(import answer)"), ("c.jss", "nonsense")]
    maxDepth := 64 }
  registry := (Registry.start false).bind "answer" (.deferred 0) .host none

/-- The computation, which counts its runs. -/
def answerRoutines : List Host.Routine := [.thunk { name := "answer", result := .runs }]

/-- The fault of the source that is no script, as the host is told of it. -/
def brokenSourceFault : Fault :=
  .evaluation "jsonscript" "a.jss" ⟨1⟩ (.evaluation "jsonscript" "c.jss" ⟨3⟩
    (.guest "jsonscript" "line 1: unknown statement `nonsense`"))

/-- The contexts of a source and of the broken one that it evaluates account for the fault. -/
theorem broken_source_accounted :
    ∃ after, Engine.evalAt (Runner.within (Host.routines answerRoutines) 4) .host "jsonscript"
        "a.jss" none .withBrokenSource = some (.error brokenSourceFault, after) ∧
      ContextTree.Accounts .host World.withBrokenSource.engine.contexts
        (.error brokenSourceFault) after.engine.contexts := by
  have run : (Engine.evalAt (Runner.within (Host.routines answerRoutines) 4) .host "jsonscript"
      "a.jss" none .withBrokenSource).map Prod.fst = some (.error brokenSourceFault) := by
    decide +kernel
  obtain ⟨⟨outcome, after⟩, evaluated, same⟩ := Option.map_eq_some_iff.1 run
  obtain rfl : outcome = .error brokenSourceFault := same
  have registry : World.withBrokenSource.registry.Holds fun number =>
      ∀ routine, answerRoutines[number]? = some routine → routine.IsQuiet := by
    refine Registry.Holds.bind ?_ ?_ "answer" .host none
    · intro name binding impossible
      simp [Registry.start, Registry.find?, Fields.find?] at impossible
    · intro routine found
      obtain rfl : Host.Routine.thunk _ = routine := Option.some.inj found
      rfl
  have sealed : World.withBrokenSource.Sealed fun number =>
      ∀ routine, answerRoutines[number]? = some routine → routine.IsQuiet :=
    ⟨registry, fun _ _ impossible => by simp [World.withBrokenSource] at impossible,
      fun _ _ impossible => by simp [World.withBrokenSource] at impossible⟩
  exact ⟨after, evaluated, (evaluations_account_for_contexts _ _ 4 .withBrokenSource
    (Host.routines_areQuiet answerRoutines) sealed Builder.bundledLanguages_isBundled).1 .host
      "jsonscript" "a.jss" none _ after evaluated⟩

/-- Computations that ask for nothing at all and fail with one fault. -/
def failingRoutines (made : Fault) : Routines := fun _ _ => .done (.error made)

/-- A fault that a computation makes up comes out of the only context that was created, the one of
the unit that looks the name of the computation up, and the contexts do not account for it. -/
def Fault.IsUnaccounted (made : Fault) : Prop :=
  ∃ after, Engine.evalUnit (Runner.within (failingRoutines made) 4)
      ⟨"jsonscript", "m.jss", "print import answer"⟩ .withBrokenSource =
      some (.error (.evaluation "jsonscript" "m.jss" ⟨1⟩ made), after) ∧
    after.engine.contexts.count = 2 ∧
    ¬ ContextTree.Accounts .host World.withBrokenSource.engine.contexts
      (.error (.evaluation "jsonscript" "m.jss" ⟨1⟩ made)) after.engine.contexts

/-- A fault that is not plain leads on to a child of the context of the unit, so it is not accounted
for if there is none. -/
theorem Fault.isUnaccounted_of_childless {made : Fault} (strange : ¬ made.IsPlain)
    (run : (Engine.evalUnit (Runner.within (failingRoutines made) 4)
      ⟨"jsonscript", "m.jss", "print import answer"⟩ .withBrokenSource).map (fun ended =>
        (ended.1, ended.2.engine.contexts.count, ended.2.engine.contexts.children ⟨1⟩)) =
      some (.error (.evaluation "jsonscript" "m.jss" ⟨1⟩ made), 2, [])) :
    made.IsUnaccounted := by
  obtain ⟨⟨_, after⟩, evaluated, same⟩ := Option.map_eq_some_iff.1 run
  simp only [Prod.mk.injEq] at same
  obtain ⟨rfl, count, children⟩ := same
  refine ⟨after, evaluated, count, ?_⟩
  intro accounts
  obtain ⟨faulted, told, -⟩ := accounts.leaves.told
  have trail : after.engine.contexts.Trail .host
      (some (.evaluation "jsonscript" "m.jss" ⟨1⟩ made)) faulted := told
  cases trail with
  | root plain => exact plain
  | within _ _ _ _ _ inner =>
    cases inner with
    | root plain => exact strange plain
    | full all full =>
      rw [count] at all
      subst all
      exact absurd full (by decide)
    | tooDeep last =>
      rw [children] at last
      cases last
    | within last =>
      rw [children] at last
      cases last

/-- Faults that computations have made up do not tell of the contexts there are: neither that of a
depth that was exceeded, nor that of an evaluation. -/
theorem refusal_unaccounted :
    World.withBrokenSource.engine.languages.IsBundled ∧
    (Fault.depthExceeded 7).IsUnaccounted ∧
    (Fault.evaluation "lisp" "t.lisp" ⟨9⟩ (.unresolvedName "n")).IsUnaccounted :=
  ⟨Builder.bundledLanguages_isBundled,
    Fault.isUnaccounted_of_childless id (by decide +kernel),
    Fault.isUnaccounted_of_childless id (by decide +kernel)⟩

end Interchange
