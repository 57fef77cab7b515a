import Interchange.Engine.Builder
import Interchange.Host.Routine
import Interchange.Proofs.Context.Trail
import Interchange.Proofs.Engine.Course
import Interchange.Proofs.Guests.StatementLines
import Interchange.Proofs.Report.Notes

/-!
# Notes tell the lines of statements

While a unit of the statement language is evaluated, other programs run in between and end again,
each with statements of its own. When the unit goes on it is where it was
(`Moment.Reaches.outermost`), so all that it leaves in the journal and among the missing sources is
told with the line of the statement that it has come to. Where there is one engine, nothing else is
noted for its context (`notes_tell_lines_of_statements`).
-/
namespace Interchange

/-- A program of a context is what is left of a whole program of an owner, which was told some
answers. -/
inductive Program.IsLeftOf {α : Type} (whole : Program α) (owner : ContextId) :
    {β : Type} → ContextId → Program β → Prop where
  /-- The owner's program has come to it. -/
  | comes {answers : List ((request : Request) × request.Answer)} {left : Program α}
      (comes : whole.Comes answers left) : IsLeftOf whole owner owner left

/-- The outermost program, which no other one waits for, goes on as one of a kind, whatever the
programs inside it come to. -/
def Stack.Outermost (kind : {β : Type} → ContextId → Program β → Prop) :
    {α : Type} → ContextId → Program α → Stack α → Prop
  | _, context, program, bottom => kind context program
  | _, _, _, frame caller _ next rest => ∀ answer, rest.Outermost kind caller (next answer)

namespace Moment

variable {routines : Routines} {α : Type} {whole : Program α} {owner : ContextId}

/-- A program that is left of a whole one is so when it goes on with an answer. -/
theorem outermost_answered {β : Type} {context : ContextId} {request : Request}
    {next : request.Answer → Program β} {stack : Stack β}
    (outermost : stack.Outermost (whole.IsLeftOf owner) context (.ask request next))
    (answer : request.Answer) :
    stack.Outermost (whole.IsLeftOf owner) context (next answer) := by
  cases stack with
  | bottom =>
    cases outermost with
    | comes comes => exact .comes (comes.answered answer)
  | frame caller pending goesOn rest => exact outermost

/-- From each moment to the next, the outermost program is what is left of the whole one. -/
theorem Step.outermost {before after : Moment} {deed : Option Deed}
    (step : Step routines before deed after)
    (outermost : before.stack.Outermost (whole.IsLeftOf owner) before.context before.program) :
    after.stack.Outermost (whole.IsLeftOf owner) after.context after.program := by
  cases step with
  | answered reply => exact outermost_answered outermost _
  | started reply => exact fun answer => outermost_answered outermost answer
  | ended => exact outermost _

/-- Throughout a run, the outermost program is what is left of the one that it began with. -/
theorem Reaches.outermost {world : World} {deeds : List Deed} {last : Moment}
    (reached : Reaches routines (.start owner whole world) deeds last) :
    last.stack.Outermost (whole.IsLeftOf owner) last.context last.program := by
  induction reached with
  | refl => exact .comes (.start whole)
  | step _ now ih => exact now.outermost ih

/-- When no program waits, the one at work is what is left of the one that the run began with. -/
theorem Reaches.comes_of_isBottom {world : World} {deeds : List Deed} {last : Moment}
    (reached : Reaches routines (.start owner whole world) deeds last)
    (alone : last.stack.IsBottom) :
    ∃ answers left, last = ⟨owner, left, .bottom, last.world⟩ ∧ whole.Comes answers left := by
  have outermost := reached.outermost
  obtain ⟨context, program, stack, now⟩ := last
  cases stack with
  | frame caller pending next rest => exact alone.elim
  | bottom =>
    cases outermost with
    | comes comes => exact ⟨_, program, rfl, comes⟩

end Moment

/-- What a request of a statement adds to a journal is told with its line. -/
theorem Request.TellsLine.events {request : Request} {line : Nat} (tells : request.TellsLine line)
    {context : ContextId} {world : World} {event : Event}
    (mem : event ∈ request.events context world) : event.line? = some line := by
  cases request with
  | importName name told => exact List.mem_singleton.1 mem ▸ tells
  | exportValue name value told => exact List.mem_singleton.1 mem ▸ tells
  | exportLazy name routine => exact tells.elim
  | _ => exact absurd mem List.not_mem_nil

/-- And so is a source that it does not find. -/
theorem Request.TellsLine.missing {request : Request} {line : Nat} (tells : request.TellsLine line)
    {context : ContextId} {world : World} {source : MissingSource}
    (mem : source ∈ request.missing context world) : source.line = some line := by
  cases request with
  | eval language path told =>
    simp only [Request.missing] at mem
    split at mem
    · exact List.mem_singleton.1 mem ▸ tells
    · exact absurd mem List.not_mem_nil
  | _ => exact absurd mem List.not_mem_nil

/-- The moment at which a text begins to be evaluated. -/
def Statements.unitStart (scope : Scope) (locals : Fields Item) (text : String) (world : World) :
    Moment :=
  .start scope.context ((Session.statements locals).evaluate scope text) world

/-- At a moment of the evaluation of a text, the statement on a line makes a request. -/
def Statements.AsksAt (scope : Scope) (locals : Fields Item) (text : String) (moment : Moment)
    (line : Nat) (request : Request) : Prop :=
  ∃ answers next statement piece,
    moment = ⟨scope.context, .ask request next, .bottom, moment.world⟩ ∧
    ((Session.statements locals).evaluate scope text).Comes answers (.ask request next) ∧
    StandsOn text line statement piece ∧
    Causes locals (statements text) answers line statement request

/-- The request is one of the statement, so it tells its line. -/
theorem Statements.AsksAt.tells {scope : Scope} {locals : Fields Item} {text : String}
    {moment : Moment} {line : Nat} {request : Request}
    (asks : AsksAt scope locals text moment line request) : request.TellsLine line := by
  obtain ⟨answers, next, statement, piece, -, -, -, causes⟩ := asks
  exact causes.tells

/-- While a text is evaluated and no program waits, the text has come to its end or one of its
statements makes a request. -/
theorem Statements.asksAt_of_reaches {routines : Routines} {scope : Scope} {locals : Fields Item}
    {text : String} {world : World} {deeds : List Deed} {moment : Moment}
    (reached : Moment.Reaches routines (unitStart scope locals text world) deeds moment)
    (own : moment.stack.IsBottom) :
    moment.IsOver ∨ ∃ line request, AsksAt scope locals text moment line request := by
  obtain ⟨answers, left, same, comes⟩ := Moment.Reaches.comes_of_isBottom reached own
  cases left with
  | done result => exact .inl ⟨_, _, _, _, same⟩
  | ask request next =>
    right
    -- What is asked after the statements have ended is nothing.
    have asked := comes
    rw [Session.evaluate_statements_eq] at asked
    rcases asked.of_bind with ⟨goesOn, inside⟩ | ⟨ended, first, rest, -, -, later⟩
    · obtain ⟨line, statement, causes⟩ := causes_of_comes inside
      obtain ⟨piece, stands⟩ := mem_statements_iff.1 causes.mem
      exact ⟨line, request, answers, next, statement, piece, same, comes, stands, causes⟩
    · exact absurd later Program.not_comes_of_done

/-- The request is the one that the moment is about to answer. -/
theorem Statements.AsksAt.events {scope : Scope} {locals : Fields Item} {text : String}
    {moment : Moment} {line : Nat} {request : Request}
    (asks : AsksAt scope locals text moment line request) :
    moment.events = request.events scope.context moment.world ∧
      moment.missing = request.missing scope.context moment.world := by
  obtain ⟨answers, next, statement, piece, same, -⟩ := asks
  rw [same]
  exact ⟨rfl, rfl⟩

/-- On the way of a unit nothing is about to be noted, or a statement makes a request. -/
theorem Moment.OnTheWay.asksAt {routines : Routines} {scope : Scope}
    {locals : Fields Statements.Item} {text : String} {world : World} {last moment : Moment}
    (onTheWay : OnTheWay routines (Statements.unitStart scope locals text world) last moment) :
    (moment.events = [] ∧ moment.missing = []) ∨
      ∃ line request, Statements.AsksAt scope locals text moment line request := by
  obtain ⟨deeds, reached⟩ := onTheWay.reached
  rcases Statements.asksAt_of_reaches reached onTheWay.own with finished | asked
  · obtain ⟨α, context, result, world, rfl⟩ := finished
    exact .inl ⟨rfl, rfl⟩
  · exact .inr asked

/-- Notes tell the lines of statements. While a text of statements is evaluated for a context, in
whatever world and whatever the programs in between did, each time that it is the one at work it has
come to its end or to a request of a statement that stands on some line of the text: the piece with
that number between line feeds, neither blank nor a comment. The statements before it have been
executed. Whatever the request adds to the journal and to the missing sources is told for the
context and with that line, and the next step adds nothing else; only where it adds nothing the
first engine may go to work. And where there is one engine and the unit has the session of its
context, each event and each missing source that has been added for the context, by whatever
program, was added by such a request. -/
theorem notes_tell_lines_of_statements {routines : Routines} {scope : Scope}
    {locals : Fields Statements.Item} {text : String} {world : World} {deeds : List Deed}
    {last : Moment}
    (reached : Moment.Reaches routines (Statements.unitStart scope locals text world) deeds last) :
    (last.stack.IsBottom → last.IsOver ∨ ∃ line request,
      Statements.AsksAt scope locals text last line request ∧
      (∀ event ∈ request.events scope.context last.world,
        event.context = scope.context ∧ event.line? = some line) ∧
      (∀ source ∈ request.missing scope.context last.world,
        source.context = scope.context ∧ source.line = some line) ∧
      ∀ deed after, Moment.Step routines last deed after →
        ∃ base, (base = last.world ∨
            base = last.world.atHome ∧ request.LeavesNoNote scope.context last.world) ∧
          base.Notes after.world (request.events scope.context last.world)
            (request.missing scope.context last.world)) ∧
    (world.IsAlone → scope.context ≠ .host →
      (∃ context, world.engine.contexts.contexts[scope.context.raw]? = some context ∧
        context.session = none) →
      ∃ events sources, world.Notes last.world events sources ∧
        (∀ event ∈ events, event.context = scope.context → ∃ moment line request,
          Moment.OnTheWay routines (Statements.unitStart scope locals text world) last moment ∧
          Statements.AsksAt scope locals text moment line request ∧
          event ∈ request.events scope.context moment.world ∧ event.line? = some line) ∧
        ∀ source ∈ sources, source.context = scope.context → ∃ moment line request,
          Moment.OnTheWay routines (Statements.unitStart scope locals text world) last moment ∧
          Statements.AsksAt scope locals text moment line request ∧
          source ∈ request.missing scope.context moment.world ∧ source.line = some line) := by
  refine ⟨fun own => ?_, fun alone guest taken => ?_⟩
  · rcases Statements.asksAt_of_reaches reached own with finished | ⟨line, request, asks⟩
    · exact .inl finished
    · refine .inr ⟨line, request, asks, fun event mem => ?_, fun source mem => ?_,
        fun deed after step => ?_⟩
      · exact ⟨Request.context_of_mem_events mem, asks.tells.events mem⟩
      · exact ⟨Request.context_of_mem_missing mem, asks.tells.missing mem⟩
      · obtain ⟨answers, next, statement, piece, same, -⟩ := asks
        rw [same] at step
        exact step.notes_of_ask
  · obtain ⟨events, sources, noted, causedEvents, causedSources⟩ :=
      Moment.Reaches.notes reached alone guest taken
    refine ⟨events, sources, noted, fun event mem named => ?_, fun source mem named => ?_⟩
    · obtain ⟨moment, onTheWay, about⟩ := causedEvents event mem named
      rcases onTheWay.asksAt with ⟨nothing, -⟩ | ⟨line, request, asks⟩
      · exact absurd about (nothing ▸ List.not_mem_nil)
      · have left := asks.events.1 ▸ about
        exact ⟨moment, line, request, onTheWay, asks, left, asks.tells.events left⟩
    · obtain ⟨moment, onTheWay, about⟩ := causedSources source mem named
      rcases onTheWay.asksAt with ⟨-, nothing⟩ | ⟨line, request, asks⟩
      · exact absurd about (nothing ▸ List.not_mem_nil)
      · have left := asks.events.2 ▸ about
        exact ⟨moment, line, request, onTheWay, asks, left, asks.tells.missing left⟩

/-- A world in which a page is evaluated, and with a part for it to evaluate. -/
def World.withPart : World where
  engine := {
    languages := ({} : Builder).bundledLanguages.languages
    loader := .memory [("part.jss", "\nexport greeting \"hello\"")]
    maxDepth := 4
    contexts := ContextTree.initial.add (.running ⟨1⟩ .host "jsonscript" "page.jss" 1) }
  registry := .start true

/-- A page with both kinds of line ends, a comment and blank lines. -/
def pageText : String :=
  "# page\r\n\r\neval jsonscript \"part.jss\"\r\n \nlet x = import greeting\n" ++
    "eval jsonscript \"gone.jss\""

/-- The page looks a name up on its fifth line, after its part has exported the name, and misses a
source on its sixth one. -/
theorem page_notes_tell_lines :
    let scope : Scope := ⟨⟨1⟩, "jsonscript", "page.jss"⟩
    let start := Statements.unitStart scope [] pageText .withPart
    ∃ deeds last, Moment.Reaches (Host.routines []) start deeds last ∧
      (∃ moment request, Moment.OnTheWay (Host.routines []) start last moment ∧
        Statements.AsksAt scope [] pageText moment 5 request ∧
        .imported "greeting" ⟨1⟩ true (some 5) ∈ request.events ⟨1⟩ moment.world) ∧
      ∃ moment request, Moment.OnTheWay (Host.routines []) start last moment ∧
        Statements.AsksAt scope [] pageText moment 6 request ∧
        ⟨⟨1⟩, "gone.jss", some 6⟩ ∈ request.missing ⟨1⟩ moment.world := by
  intro scope start
  have run : (Runner.within (Host.routines []) 6 _ ⟨1⟩
      ((Session.statements []).evaluate scope pageText) .withPart).map
        (fun ended => (ended.2.registry.journal, ended.2.engine.missing)) =
      some (some [.exported "greeting" ⟨2⟩ none false (some 2),
        .imported "greeting" ⟨1⟩ true (some 5)], [⟨⟨1⟩, "gone.jss", some 6⟩]) := by
    decide +kernel
  obtain ⟨⟨result, after⟩, ended, same⟩ := Option.map_eq_some_iff.1 run
  obtain ⟨journal, missing⟩ := Prod.mk.inj same
  obtain ⟨deeds, anyStack⟩ := Moment.reaches_of_within ended
  have reached : Moment.Reaches (Host.routines []) start deeds _ := anyStack .bottom
  obtain ⟨events, sources, noted, causedEvents, causedSources⟩ :=
    (notes_tell_lines_of_statements reached).2 rfl (by decide) ⟨_, rfl, rfl⟩
  have told : events = _ := Option.some.inj (noted.journal.symm.trans journal)
  have missed : sources = _ := noted.missing.symm.trans missing
  subst told missed
  obtain ⟨moment, line, request, onTheWay, asks, left, same⟩ :=
    causedEvents _ (List.mem_cons_of_mem _ List.mem_cons_self) rfl
  obtain ⟨other, last, ask, onTheWayThere, asksThere, leftThere, sameThere⟩ :=
    causedSources _ List.mem_cons_self rfl
  obtain rfl : line = 5 := (Option.some.inj same).symm
  obtain rfl : last = 6 := (Option.some.inj sameThere).symm
  exact ⟨deeds, _, reached, ⟨moment, request, onTheWay, asks, left⟩,
    other, ask, onTheWayThere, asksThere, leftThere⟩

end Interchange
