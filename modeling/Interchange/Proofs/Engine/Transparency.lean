import Interchange.Proofs.Engine.Calls
import Interchange.Proofs.Engine.Journals
import Interchange.Proofs.Host.Looks
import Interchange.Proofs.Report.Happenings

/-!
# Keeping a journal is transparent

Worlds that are the same but for their journals (`World.SameButJournals`), also if only one of them
keeps any, stay so, whatever is asked of their engines from outside (`Operation`), and the same
comes of it (`journaling_is_transparent`), unless somebody asks for the journals themselves
(`Query.ShowsJournal`). What an onlooker can tell apart then are the journals and what a report
reads off them (`World.LooksLike`).
-/
namespace Interchange

/-- Besides imports and exports, a report tells of the sources that could not be loaded. -/
theorem Report.filter_ofEvents (events : List Event) (missing : List MissingSource) :
    (ofEvents events missing).findings.filter (·.category ≠ .exchange) =
      missing.map missingFile := by
  have unbound : (unresolvedImports [] events).filter (·.category ≠ .exchange) = [] := by
    refine List.filter_eq_nil_iff.2 fun finding mem => ?_
    obtain ⟨_, name, context, line, later, _, rfl⟩ := exists_of_mem_unresolvedImports mem
    simp [unresolved]
  have sources : (missing.map missingFile).filter (·.category ≠ .exchange) =
      missing.map missingFile := by
    refine List.filter_eq_self.2 fun finding mem => ?_
    obtain ⟨source, _, rfl⟩ := List.mem_map.1 mem
    rfl
  have overwritten : (events.filterMap overwrite?).filter (·.category ≠ .exchange) = [] := by
    refine List.filter_eq_nil_iff.2 fun finding mem => ?_
    obtain ⟨event, _, warns⟩ := List.mem_filterMap.1 mem
    unfold overwrite? at warns
    split at warns
    · obtain rfl := Option.some.inj warns
      simp
    · cases warns
  have idle : (unusedExports events [] events.reverse).filter (·.category ≠ .exchange) = [] := by
    refine List.filter_eq_nil_iff.2 fun finding mem => ?_
    obtain ⟨name, context, line, rfl⟩ := exists_of_mem_unusedExports mem
    simp [unused]
  simp only [findings_eq, List.filter_append, unbound, sources, overwritten, idle, List.nil_append,
    List.append_nil]

/-- The answer shows what is in a journal, or whether there is one. -/
def Query.ShowsJournal : Query → Prop
  | report => True
  | isJournaling => True
  | events => True
  | _ => False

/-- What shows no journal. -/
def Query.IsBlind (query : Query) : Prop := ¬query.ShowsJournal

/-- All journals are related, for whoever does not see them. -/
def JournalRelation.any : JournalRelation Query.IsBlind where
  relates _ _ := True
  recorded _ _ _ _ := trivial
  events seen := seen.elim (absurd trivial) (absurd trivial)
  kept seen := absurd trivial seen

namespace World

/-- The worlds are the same but for their journals, whatever those are and whether there are
any. -/
def SameButJournals (one other : World) : Prop := one.Beside .any other

/-- What an onlooker can tell of a world without looking into its journals. -/
structure LooksLike (one other : World) : Prop where
  /-- The engine: its contexts, its output and the sources that it could not load. -/
  engine : other.engine = one.engine
  /-- The names that are bound. -/
  names : other.registry.names = one.registry.names
  /-- Whether a name is bound. -/
  contains : ∀ name, other.registry.contains name = one.registry.contains name
  /-- Where names come from. -/
  origins : ∀ name, other.registry.originOf name = one.registry.originOf name
  /-- What names are bound to, with the numbers of the bindings. -/
  bindings : other.registry.bindings = one.registry.bindings
  /-- The shared objects. -/
  heap : other.heap = one.heap
  /-- What was counted. -/
  tallies : other.tallies = one.tallies
  /-- What the report has to say besides imports and exports. -/
  findings : other.report.findings.filter (·.category ≠ .exchange) =
    one.report.findings.filter (·.category ≠ .exchange)

/-- Worlds that are the same but for their journals look alike. -/
theorem SameButJournals.looksLike {one other : World} (same : one.SameButJournals other) :
    one.LooksLike other := by
  have beside : one.Beside .any other := same
  have bindings : other.registry.bindings = one.registry.bindings := by
    rw [beside.registry.2]
  refine ⟨beside.engine, congrArg Fields.names bindings, beside.registry.contains,
    beside.registry.originOf, bindings, beside.heap, beside.tallies, ?_⟩
  simp only [report, Report.filter_ofEvents, beside.engine]

end World

/-- What can be asked of an engine from outside. -/
inductive Operation where
  /-- What a program of a context may ask for too: to export and import names, to call functions, to
  evaluate units in contexts that are there. -/
  | ask (context : ContextId) (request : Request)
  /-- To create a context. -/
  | create (parent : Option ContextId) (language : String)
  /-- To evaluate a source, a file or a unit in a new context. -/
  | evaluate (call : Call)

namespace Operation

/-- What comes back. -/
@[reducible] def Answer : Operation → Type
  | ask _ request => request.Answer
  | create .. => Except Fault ContextId
  | evaluate _ => Except Fault ContextId

/-- Do what is asked for. -/
def perform (run : Runner) (routines : Routines) : (operation : Operation) → Action operation.Answer
  | ask context request => Engine.answer run routines context request
  | create parent language => fun world => some (Engine.createContext parent language world)
  | evaluate call => call.carryOut run

/-- Do one thing after the other: what comes back for each of them. -/
def performAll (run : Runner) (routines : Routines) :
    List Operation → Action (List ((operation : Operation) × operation.Answer))
  | [] => fun world => some ([], world)
  | operation :: operations => fun world =>
    (operation.perform run routines world).bind fun (answer, world) =>
      (performAll run routines operations world).map fun (answers, world) =>
        (⟨operation, answer⟩ :: answers, world)

/-- The operation looks at nothing but what may be seen. -/
def LooksOnlyAt (seen : Query → Prop) : Operation → Prop
  | ask _ request => request.LooksOnlyAt seen
  | _ => True

variable {seen : Query → Prop} {routines : Routines}

/-- Everything that is asked for is done in the same way beside any journal. -/
theorem perform_beside (looks : routines.LookOnlyAt seen) (allowance : Nat)
    {operation : Operation} (may : operation.LooksOnlyAt seen) {relation : JournalRelation seen}
    {one other : World} (beside : one.Beside relation other) :
    (Likeness.journals seen).Ends relation Eq
      (operation.perform (Runner.within routines allowance) routines one)
      (operation.perform (Runner.within routines allowance) routines other) := by
  have holds := Likeness.journals_holds looks
  cases operation with
  | ask context request =>
    simp only [perform, Engine.answer_eq]
    exact holds.complete allowance (holds relation context request one other may beside)
  | create parent language =>
    obtain ⟨same, created⟩ := Engine.createContext_beside beside parent language
    exact .some ⟨same.symm, created⟩
  | evaluate call =>
    have replies : (call.reply one).Like (.journals seen) relation (call.reply other) := by
      cases call with
      | source caller language path line =>
        exact Engine.respondEval_beside beside caller language path line
      | file path =>
        simp only [Call.reply, beside.engine]
        split
        · exact .now beside
        · exact Engine.respondEval_beside beside .host _ path none
      | text unit => exact Engine.respondBelow_beside beside .host unit
    simp only [perform, Call.carryOut_eq]
    exact holds.complete allowance replies

/-- However much is asked for, it is done in the same way beside any journal. -/
theorem performAll_beside (looks : routines.LookOnlyAt seen) (allowance : Nat)
    {operations : List Operation} (may : ∀ operation ∈ operations, operation.LooksOnlyAt seen)
    {relation : JournalRelation seen} {one other : World} (beside : one.Beside relation other) :
    (Likeness.journals seen).Ends relation Eq
      (performAll (Runner.within routines allowance) routines operations one)
      (performAll (Runner.within routines allowance) routines operations other) := by
  induction operations generalizing one other with
  | nil => exact .some ⟨rfl, beside⟩
  | cons operation operations ih =>
    obtain ⟨now, later⟩ := List.forall_mem_cons.1 may
    refine (perform_beside looks allowance now beside).bind ?_
    rintro answer twin after behind rfl between
    refine (ih later between).map ?_
    rintro answers twins last lastBehind rfl ended
    exact ⟨rfl, ended⟩

end Operation

/-- Whether journals are kept makes no difference to anything else. In two worlds that are the same
but for their journals, whatever is asked for from outside, in whatever order, and whatever scripts,
functions and computations that sets off, the same answers come back, faults included, or none if
more programs would be at work inside each other than are allowed; and the worlds are the same but
for their journals again, with the same names and origins, the same contexts, the same output and
the same missing sources. Functions and computations may do whatever there is to do and look at
whatever an engine tells, but for the events, the report, and whether there is a journal: to ask for
those is to ask for the difference, and so it is from outside. -/
theorem journaling_is_transparent {routines : Routines} (allowance : Nat)
    {operations : List Operation} {one other : World} (looks : routines.LookOnlyAt Query.IsBlind)
    (may : ∀ operation ∈ operations, operation.LooksOnlyAt Query.IsBlind)
    (same : one.SameButJournals other) :
    Option.Rel
      (fun ended twin => ended.1 = twin.1 ∧ ended.2.SameButJournals twin.2 ∧
        ended.2.LooksLike twin.2)
      (Operation.performAll (Runner.within routines allowance) routines operations one)
      (Operation.performAll (Runner.within routines allowance) routines operations other) := by
  have ends := Operation.performAll_beside looks allowance may same
  generalize Operation.performAll _ routines operations one = ended at ends ⊢
  generalize Operation.performAll _ routines operations other = twin at ends ⊢
  cases ends with
  | none => exact .none
  | some alike =>
    have after : World.SameButJournals _ _ := alike.2
    exact .some ⟨alike.1, after, after.looksLike⟩

/-- A world with a source that looks a name up and exports another one; whether its registry keeps a
journal is given. -/
def World.withRelay (journaling : Bool) : World where
  engine := {
    languages := ({} : Builder).bundledLanguages.languages
    loader := .memory
      [("relay.jss", "let x = import answer\nexport relayed x\neval lisp gone.lisp")]
    maxDepth := 3 }
  registry := Registry.start journaling

/-- A computation that is exported, a script that asks for it and then for a source that is not
there, and a look-up of a name that nobody exports. -/
def relayOperations : List Operation :=
  [.ask .host (.exportLazy "answer" 0), .evaluate (.file "relay.jss"),
    .ask .host (.importName "relayed" none), .ask .host (.importName "nobody" none)]

/-- The same comes of these operations with a journal, which then lists five events, and without
one. -/
theorem relay_is_transparent :
    (Operation.performAll (Runner.within (Host.routines answerRoutines) 5)
      (Host.routines answerRoutines) relayOperations (.withRelay true)).map
        (fun ended => ended.2.registry.events.length) = some 5 ∧
    (Operation.performAll (Runner.within (Host.routines answerRoutines) 5)
      (Host.routines answerRoutines) relayOperations (.withRelay false)).map
        (fun ended => ended.2.registry.events.length) = some 0 ∧
    Option.Rel
      (fun ended twin => ended.1 = twin.1 ∧ ended.2.SameButJournals twin.2 ∧
        ended.2.LooksLike twin.2)
      (Operation.performAll (Runner.within (Host.routines answerRoutines) 5)
        (Host.routines answerRoutines) relayOperations (.withRelay true))
      (Operation.performAll (Runner.within (Host.routines answerRoutines) 5)
        (Host.routines answerRoutines) relayOperations (.withRelay false)) :=
  have same : World.SameButJournals (.withRelay true) (.withRelay false) :=
    ⟨rfl, ⟨trivial, rfl⟩, rfl, rfl, .none⟩
  have blind : ∀ operation ∈ relayOperations, operation.LooksOnlyAt Query.IsBlind := by
    simp [relayOperations, Operation.LooksOnlyAt, Request.LooksOnlyAt]
  ⟨by decide +kernel, by decide +kernel,
    journaling_is_transparent 5 (Host.routines_lookOnlyAt answerRoutines _) blind same⟩

end Interchange
