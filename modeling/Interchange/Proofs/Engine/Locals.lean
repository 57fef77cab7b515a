import Interchange.Proofs.Engine.Units
import Interchange.Proofs.Guests.Locals

/-!
# Contexts keep their locals

Between two units a context keeps the session that the first one left, so the locals that are bound
in one unit can be seen in all later ones (`Engine.evaluate_leads`). Together with what the guest
languages do that is the law of locals: a name that is bound gives what it is bound to until it is
bound again (`locals_stay_bound`). It does not hold of the names that are literals
(`literals_are_no_locals`).
-/
namespace Interchange

/-- A program that has run was told some answers. -/
theorem Program.exists_told {α : Type} {answer : (request : Request) → Action request.Answer}
    {program : Program α} {world after : World} {result : α}
    (ran : program.run answer world = some (result, after)) :
    ∃ answers, program.Told answers result := by
  induction program generalizing world with
  | done ended =>
    obtain ⟨rfl, _⟩ := Prod.mk.inj (Option.some.inj ran)
    exact ⟨[], .done _⟩
  | ask request next ih =>
    obtain ⟨⟨reply, between⟩, _, rest⟩ := Option.bind_eq_some_iff.1 ran
    obtain ⟨answers, told⟩ := ih reply rest
    exact ⟨⟨request, reply⟩ :: answers, .ask reply told⟩

/-- A program that has run inside others was told some answers. -/
theorem Runner.exists_told {α : Type} {routines : Routines} {allowance : Nat} {context : ContextId}
    {program : Program α} {world after : World} {result : α}
    (ran : Runner.within routines allowance α context program world = some (result, after)) :
    ∃ answers, program.Told answers result := by
  cases allowance with
  | zero => simp [Runner.within] at ran
  | succ allowance => exact Program.exists_told ran

/-- A context in which a unit is evaluated that does not bind a local keeps a session that is
reached without binding it, whatever comes of the unit. -/
theorem Engine.evaluate_leads {routines : Routines} {allowance : Nat} {world after : World}
    {context : ContextId} {held : Context} {session : Session} {unit : SourceUnit}
    {outcome : Except Fault Unit} {name : String}
    (found : world.engine.contexts.contexts[context.raw]? = some held)
    (free : held.session = some session) (spares : session.Spares name unit.text)
    (evaluated : evaluate (Runner.within routines allowance) context unit world =
      some (outcome, after)) :
    ∃ rested left, after.engine.contexts.contexts[context.raw]? = some rested ∧
      rested.session = some left ∧ session.Leads name left := by
  have there := ContextTree.lt_count found
  have opens : evaluate (Runner.within routines allowance) context unit world = _ :=
    evaluate_of_free _ _ found free
  rw [evaluated] at opens
  have begun : (world.engine.contexts.set context (held.begun unit.path)).contexts[context.raw]? =
      some (held.begun unit.path) := ContextTree.contexts_set_self there _
  split at opens
  · obtain ⟨_, rfl⟩ := Prod.mk.inj (Option.some.inj opens)
    exact ⟨_, session, ContextTree.contexts_finish_self begun session false, rfl,
      .refl name session⟩
  · obtain ⟨⟨⟨left, result⟩, inside⟩, ran, ended⟩ := Option.map_eq_some_iff.1 opens.symm
    obtain ⟨_, rfl⟩ := Prod.mk.inj ended
    have stays := Runner.within_keeps rfl allowance ⟨begun, rfl, rfl⟩ ran
    obtain ⟨answers, told⟩ := Runner.exists_told ran
    exact ⟨_, left, ContextTree.contexts_finish_self stays.found left result.isOk, rfl,
      Session.leads_of_evaluate spares told⟩

/-- A name that is bound gives what it is bound to until it is bound again. In the statement
language that is so of every name that a binding takes but the three words that are literals, in
the form language of every symbol but nil. Once a binding has succeeded, whatever statements or
forms come after it, succeed or fail, and whatever the exchange answers to them, if they do not
bind the name nor set a field of it, then the name as an expression gives what the binding came to,
and exporting the bare name binds it to the value of that, or fails as there is none. And so do
units one after the other: if a context has been led from one session to another without binding the
name, then one more unit in which nothing binds the name leads it further from there, whatever the
world has come to meanwhile and whatever comes of the unit. -/
theorem locals_stay_bound :
    (∀ (text : List Char) (name : String) (source : Statements.Expression),
      Statements.Statement.read text = .bindLocal name source →
      Statements.isLiteralWord name.toList = false → ∀ locals line answers bound,
      (((Statements.Statement.read text).execute line).run.run locals).Told answers
        (.ok (), bound) →
      ∃ item, (source.eval locals line).run.Told answers (.ok item) ∧
        ∀ left, Statements.Leads name bound left → Statements.Gives left name item) ∧
    (∀ (name : String) (value : Forms.Sexp) (tail : Option Forms.Sexp), name ≠ "nil" →
      ∀ locals line answers result bound,
      ((Forms.eval line (.list [.symbol "define", .symbol name, value] tail)).run.run
        locals).Told answers (.ok result, bound) →
      ∃ datum between,
        ((Forms.eval line value).run.run locals).Told answers (.ok datum, between) ∧
        ∀ left, Forms.Leads name bound left → Forms.Gives left name datum) ∧
    ∀ (routines : Routines) (allowance : Nat) (world after : World) (context : ContextId)
      (held : Context) (first session : Session) (unit : SourceUnit) (outcome : Except Fault Unit)
      (name : String), world.engine.contexts.contexts[context.raw]? = some held →
      held.session = some session → first.Leads name session → session.Spares name unit.text →
      Engine.evaluate (Runner.within routines allowance) context unit world =
        some (outcome, after) →
      ∃ rested left, after.engine.contexts.contexts[context.raw]? = some rested ∧
        rested.session = some left ∧ first.Leads name left := by
  refine ⟨fun _ _ _ reads plain _ _ _ _ told => Statements.gives_of_bound reads plain told,
    fun _ _ _ plain _ _ _ _ _ told => Forms.gives_of_defined plain told, ?_⟩
  intro routines allowance world after context held first session unit outcome name found free
    led spares evaluated
  obtain ⟨rested, left, there, resting, leads⟩ :=
    Engine.evaluate_leads found free spares evaluated
  exact ⟨rested, left, there, resting, led.trans leads⟩

/-- The form that defines a symbol to be an integer. -/
def Forms.Sexp.define (name : String) (n : Integer) : Forms.Sexp :=
  .list [.symbol "define", .symbol name, .integer n] none

/-- It defines no other symbol. -/
theorem Forms.Sexp.not_defines_define {name other : String} (different : other ≠ name)
    (n : Integer) : ¬ (define name n).Defines other := by
  rintro ⟨items, tail, inside, gives⟩
  cases inside with
  | self => exact different (Option.some.inj gives).symm
  | list _ mem inside =>
    simp only [List.mem_cons, List.not_mem_nil, or_false] at mem
    rcases mem with rfl | rfl | rfl <;> cases inside

/-- A number stays bound to a name of either language when the name is bound to something that is
not there and another name is bound. In the form language that happens to the locals of a session,
in the statement language to those of a context too. -/
theorem numbers_stay_bound :
    (∃ left, Statements.Gives left "x" (.number (.natural 5)) ∧
      left.find? "y" = some (.number (.natural 6))) ∧
    (∃ left, Forms.Gives left "x" (.integer (.word 5)) ∧
      left.find? "y" = some (.integer (.word 6))) ∧
    ∃ after rested left, Engine.evaluate (Runner.within (Host.routines answerRoutines) 5) ⟨1⟩
        ⟨"jsonscript", "page.jss", "let y = 6"⟩ .withPage = some (.ok (), after) ∧
      after.engine.contexts.contexts[1]? = some rested ∧ rested.session = some left ∧
      Session.Leads "x" (.statements []) left := by
  have five : Statements.Expression.read "5".toList = .literal (.number (.natural 5)) := by
    rw [Statements.Expression.read]
    rfl
  have reads : Statements.Statement.read "let x = 5".toList =
      .bindLocal "x" (Statements.Expression.read "5".toList) := rfl
  refine ⟨?_, ?_, ?_⟩
  · have told : (((Statements.Statement.read "let x = 5".toList).execute 1).run.run []).Told []
        (.ok (), [("x", .number (.natural 5))]) := by
      rw [reads, five]
      exact .done _
    obtain ⟨item, evaluated, stays⟩ := locals_stay_bound.1 _ _ _ reads (by decide) _ _ _ _ told
    rw [five] at evaluated
    obtain ⟨_, same⟩ := Program.told_done evaluated
    obtain rfl := Except.ok.inj same
    have fails : (((Statements.Statement.bindLocal "x" (.path ⟨['z'], []⟩)).execute 2).run.run
        [("x", .number (.natural 5))]).Told []
          (.error (.unboundVariable 2 "z"), [("x", .number (.natural 5))]) := .done _
    have binds : (((Statements.Statement.bindLocal "y" (.literal (.number (.natural 6)))).execute
        3).run.run [("x", .number (.natural 5))]).Told []
          (.ok (), [("x", .number (.natural 5)), ("y", .number (.natural 6))]) := .done _
    exact ⟨_, stays _ (.failed fails (.succeeded (by decide) binds (.refl _))), rfl⟩
  · have told : ((Forms.eval 1 (.define "x" (.word 5))).run.run []).Told []
        (.ok .nil, [("x", .integer (.word 5))]) := by
      rw [Forms.Sexp.define, Forms.eval_define, Forms.eval]
      exact .done _
    obtain ⟨datum, between, evaluated, stays⟩ :=
      locals_stay_bound.2.1 "x" (.integer (.word 5)) none (by decide) _ _ _ _ _ told
    rw [Forms.eval] at evaluated
    obtain ⟨_, same⟩ := Program.told_done evaluated
    obtain rfl := Except.ok.inj (Prod.mk.inj same).1
    have fails : ((Forms.eval 2 (.list [.symbol "set!", .symbol "x", .symbol "z"] none)).run.run
        [("x", .integer (.word 5))]).Told []
          (.error (.unboundVariable "z"), [("x", .integer (.word 5))]) := by
      rw [Forms.eval_assign, Forms.eval]
      exact .done _
    have defines : ((Forms.eval 3 (.define "y" (.word 6))).run.run
        [("x", .integer (.word 5))]).Told []
          (.ok .nil, [("x", .integer (.word 5)), ("y", .integer (.word 6))]) := by
      rw [Forms.Sexp.define, Forms.eval_define, Forms.eval]
      exact .done _
    have bare : ¬ (Forms.Sexp.symbol "z").Defines "x" := by
      rintro ⟨_, _, inside, _⟩
      cases inside
    exact ⟨_, stays _ (.failed (.inr rfl) bare fails
      (.spared (Forms.Sexp.not_defines_define (by decide) _) defines (.refl _))), rfl⟩
  · have evaluates : (Engine.evaluate (Runner.within (Host.routines answerRoutines) 5) ⟨1⟩
        ⟨"jsonscript", "page.jss", "let y = 6"⟩ .withPage).map Prod.fst = some (.ok ()) := by
      decide +kernel
    obtain ⟨⟨_, after⟩, evaluated, rfl⟩ := Option.map_eq_some_iff.1 evaluates
    have statements : Statements.statements "let y = 6" =
        [(1, .bindLocal "y" (Statements.Expression.read "6".toList))] := rfl
    have spares : (Session.statements []).Spares "x" "let y = 6" := by
      unfold Session.Spares
      rw [statements]
      simp [Statements.Statement.bound?]
    obtain ⟨rested, left, kept⟩ := locals_stay_bound.2.2 (Host.routines answerRoutines) 5 .withPage
      after ⟨1⟩ _ (.statements []) (.statements []) ⟨"jsonscript", "page.jss", "let y = 6"⟩ _ "x"
      rfl rfl (.refl "x" _) spares evaluated
    exact ⟨after, rested, left, evaluated, kept⟩

/-- Literals are no locals: `true` can be bound, and `nil` can be defined, but as an expression they
stay what they are. -/
theorem literals_are_no_locals :
    (∃ bound item other,
      Statements.Statement.read "let true = 5".toList =
        .bindLocal "true" (Statements.Expression.read "5".toList) ∧
      (((Statements.Statement.read "let true = 5".toList).execute 1).run.run []).Told []
        (.ok (), bound) ∧
      ((Statements.Expression.read "5".toList).eval [] 1).run.Told [] (.ok item) ∧
      ((Statements.Expression.read "true".toList).eval bound 2).run.Told [] (.ok other) ∧
      other ≠ item) ∧
    ∃ bound datum other,
      ((Forms.eval 1 (.define "nil" (.word 5))).run.run []).Told [] (.ok .nil, bound) ∧
      ((Forms.eval 1 (.integer (.word 5))).run.run []).Told [] (.ok datum, []) ∧
      ((Forms.eval 2 (.symbol "nil")).run.run bound).Told [] (.ok other, bound) ∧
      other ≠ datum := by
  have five : Statements.Expression.read "5".toList = .literal (.number (.natural 5)) := by
    rw [Statements.Expression.read]
    rfl
  have yes : Statements.Expression.read "true".toList = .literal (.bool true) := by
    rw [Statements.Expression.read]
    rfl
  have reads : Statements.Statement.read "let true = 5".toList =
      .bindLocal "true" (Statements.Expression.read "5".toList) := rfl
  refine ⟨⟨Fields.insert "true" (.number (.natural 5)) [], .number (.natural 5), .bool true, reads,
    ?_, ?_, ?_, fun same => by cases same⟩, ?_⟩
  · rw [reads, five]
    exact .done _
  · rw [five]
    exact .done _
  · rw [yes]
    exact .done _
  · refine ⟨Fields.insert "nil" (.integer (.word 5)) [], .integer (.word 5), .nil, ?_, ?_, ?_,
      fun same => by cases same⟩
    · rw [Forms.Sexp.define, Forms.eval_define]
      exact .done _
    · rw [Forms.eval]
      exact .done _
    · rw [Forms.eval]
      exact .done _

end Interchange
