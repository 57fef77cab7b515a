import Interchange.Proofs.Engine.Depth

/-!
# Every call ends

Scripts end because they are programs that ask for one thing after another, and because what they
ask for ends: a routine comes back, and a script that is started lies one deeper. So the scripts of
all contexts end, by induction on how many levels are left to the limit
(`Routines.ComeBack.scriptsEnd`), and with them every call from outside, whatever sources it leads
to (`calls_end_within_depth`).
-/
namespace Interchange

/-- Every script in a context of a depth ends. -/
def Routines.ScriptsEnd (routines : Routines) (reach : Nat → Prop) (limit depth : Nat) : Prop :=
  ∀ {α : Type} {fault? : α → Option Fault} {program : Program α} {context : ContextId}
    {world : World} {first : Nat}, program.Heeds (.harmless reach) fault? → world.Sealed reach →
    world.engine.Serves context depth limit first [] → program.Ends routines context world

section Ending

variable {routines : Routines} {reach : Nat → Prop} {limit depth first : Nat} {world : World}
  {caller : ContextId}

namespace Engine

/-- An engine that serves a caller serves the next context once it is running below the caller. -/
theorem Serves.inside (serves : world.engine.Serves caller depth limit first [])
    (language path : String) :
    (world.withContexts (world.engine.contexts.add (.running ⟨world.engine.contexts.count⟩ caller
      language path (depth + 1)))).engine.Serves ⟨world.engine.contexts.count⟩ (depth + 1) limit
        (world.engine.contexts.add (.running ⟨world.engine.contexts.count⟩ caller language path
          (depth + 1))).count [] := by
  have begun := ContextTree.Descends.start (world.engine.contexts.contexts_add_self
    (.running ⟨world.engine.contexts.count⟩ caller language path (depth + 1)))
  exact ⟨begun, fun some => absurd rfl some, serves.bundled, serves.limit⟩

/-- A unit is evaluated to its end if the scripts end that lie one deeper. -/
theorem respondBelow_ends (deeper : depth < limit → routines.ScriptsEnd reach limit (depth + 1))
    (sealed : world.Sealed reach) (serves : world.engine.Serves caller depth limit first [])
    (unit : SourceUnit) : (respondBelow caller unit world).Ends routines := by
  cases known : world.engine.languages.get unit.language with
  | error fault =>
    rw [respondBelow_of_unknown known]
    exact Reply.ends_now routines _ _
  | ok found =>
    have below : world.engine.contexts.depthBelow (some caller) = .ok (depth + 1) :=
      serves.descends.depthBelow
    rw [respondBelow_of_known known below]
    split
    · split
      · exact Reply.ends_now routines _ _
      · rename_i shallow
        have further : depth < limit := serves.limit ▸ Nat.le_of_not_lt shallow
        have heeds := serves.bundled.script_heeds known reach
          ⟨⟨world.engine.contexts.count⟩, unit.language, unit.path⟩ unit.text
        exact Reply.ends_after (deeper further heeds (sealed.withContexts _)
          (serves.inside unit.language unit.path)) _
    · exact Reply.ends_now routines _ _

/-- A source is evaluated to its end if the scripts end that lie one deeper. -/
theorem respondEval_ends (deeper : depth < limit → routines.ScriptsEnd reach limit (depth + 1))
    (sealed : world.Sealed reach) (serves : world.engine.Serves caller depth limit first [])
    (language path : String) (line : Option Nat) :
    (respondEval caller language path line world).Ends routines := by
  unfold respondEval
  dsimp only
  split
  · exact Reply.ends_now routines _ _
  · split
    · exact Reply.ends_now routines _ _
    · exact respondBelow_ends deeper sealed serves _

/-- When a script goes on with an answer, its engine still serves it and no other routines can be
run. -/
theorem serves_answered (back : routines.ComeBack reach) (sealed : world.Sealed reach)
    (serves : world.engine.Serves caller depth limit first []) {α : Type}
    {fault? : α → Option Fault} {request : Request} {next : request.Answer → Program α}
    (heeds : (Program.ask request next).Heeds (.harmless reach) fault?) {allowance : Nat}
    {answer : request.Answer} {between : World}
    (completed : (respond routines caller request world).complete
      (Runner.within routines allowance) = some (answer, between)) :
    between.Sealed reach ∧ between.engine.Serves caller depth limit first [] := by
  obtain ⟨deed, asked⟩ := Moment.Step.asked routines caller request world
  obtain ⟨deeds, led⟩ := Moment.reaches_of_complete Moment.reaches_of_within completed
  have reached := (Moment.Reaches.single (asked next .bottom)).trans (led caller next .bottom)
  have asks : (Program.ask request next).Asks fun request =>
      request.IsQuiet reach ∨ request.IsScripted :=
    heeds.asks (fun _ => trivial) (fun _ quiet => .inl quiet) fun _ _ _ => .inr trivial
  have under : Moment.IsUnderCall reach caller depth limit first fault?
      ⟨caller, .ask request next, .bottom, world⟩ :=
    Moment.isUnderCall_script heeds .outermost serves
  obtain ⟨left, sealedBetween⟩ := reached.isUnderCall back ⟨asks, trivial, sealed⟩ under
  exact ⟨sealedBetween, left.serves⟩

end Engine

/-- Scripts end if those end that lie one deeper. -/
theorem Routines.ComeBack.scriptsEnd_of_deeper (back : routines.ComeBack reach)
    (deeper : depth < limit → routines.ScriptsEnd reach limit (depth + 1)) :
    routines.ScriptsEnd reach limit depth := by
  intro α fault? program context world first heeds sealed serves
  -- The script gets shorter with every answer, whatever the world is then.
  induction heeds generalizing world with
  | done => exact Program.ends_done routines context _ world
  | @ask request next quiet rest ih =>
    have harmless : (Engine.respond routines context request world).IsHarmless routines reach
        world := Engine.respond_isHarmless sealed context quiet
    obtain ⟨allowance, ⟨answer, between⟩, completed⟩ := back.ends_reply harmless
      (Engine.respond_obeys back.obey sealed context (.inl quiet))
    obtain ⟨sealedBetween, servesBetween⟩ :=
      Engine.serves_answered back sealed serves (.ask quiet rest) completed
    exact .ask completed (ih answer (fun _ _ => trivial) sealedBetween servesBetween)
  | @eval language path line next rest refused ih =>
    obtain ⟨allowance, ⟨answer, between⟩, completed⟩ :=
      Engine.respondEval_ends deeper sealed serves language path line
    obtain ⟨sealedBetween, servesBetween⟩ :=
      Engine.serves_answered back sealed serves (.eval rest refused) completed
    refine .ask completed ?_
    cases answer with
    | ok child => exact ih child sealedBetween servesBetween
    | error fault =>
      obtain ⟨result, ends, _⟩ := refused fault
      rw [ends]
      exact Program.ends_done routines context result between

/-- The scripts of all contexts end. -/
theorem Routines.ComeBack.scriptsEnd (back : routines.ComeBack reach) (limit depth : Nat) :
    routines.ScriptsEnd reach limit depth := by
  induction left : limit - depth generalizing depth with
  | zero => exact back.scriptsEnd_of_deeper fun room => by omega
  | succ less ih => exact back.scriptsEnd_of_deeper fun room => ih (depth + 1) (by omega)

end Ending

/-- What is asked of an engine from outside, to be evaluated in a new context. -/
inductive Call where
  /-- A source, for a context, from a statement on a line if there is one. -/
  | source (caller : ContextId) (language path : String) (line : Option Nat)
  /-- A file, for the host. -/
  | file (path : String)
  /-- A unit, for the host. -/
  | text (unit : SourceUnit)

namespace Call

/-- The context that the new one lies below. -/
def caller : Call → ContextId
  | source caller .. => caller
  | file _ => .host
  | text _ => .host

/-- Do what was asked for. -/
def carryOut (run : Runner) : Call → Action (Except Fault ContextId)
  | source caller language path line => Engine.evalAt run caller language path line
  | file path => Engine.evalFile run path
  | text unit => Engine.evalUnit run unit

/-- How the call is answered. -/
def reply (world : World) : Call → Reply (Except Fault ContextId)
  | source caller language path line => Engine.respondEval caller language path line world
  | file path =>
    match world.engine.languages.forPath path with
    | .error fault => .now (.error fault) world
    | .ok language => Engine.respondEval .host language.id path none world
  | text unit => Engine.respondBelow .host unit world

/-- The first moment of the run of a call. -/
def start (call : Call) (world : World) : Moment :=
  (call.reply world).moment call.caller Program.done .bottom

/-- Doing what was asked for is carrying the reply out. -/
theorem carryOut_eq (call : Call) (run : Runner) (world : World) :
    call.carryOut run world = (call.reply world).complete run := by
  cases call with
  | source caller language path line => exact Engine.evalAt_eq run caller language path line world
  | file path =>
    cases known : world.engine.languages.forPath path with
    | error fault => simp only [carryOut, Engine.evalFile, reply, known, Reply.complete]
    | ok language => simp only [carryOut, Engine.evalFile, reply, known, Engine.evalAt_eq]
  | text unit => exact Engine.evaluateBelow_eq run .host unit world

/-- A call is refused at once, or it is to evaluate a source or a unit. -/
theorem reply_cases (call : Call) (world : World) :
    (∃ fault, call.reply world = .now (.error fault) world) ∨
    (∃ language path line, call.reply world =
      Engine.respondEval call.caller language path line world) ∨
    ∃ unit, call.reply world = Engine.respondBelow call.caller unit world := by
  cases call with
  | source caller language path line => exact .inr (.inl ⟨language, path, line, rfl⟩)
  | file path =>
    simp only [reply]
    split
    · exact .inl ⟨_, rfl⟩
    · exact .inr (.inl ⟨_, path, none, rfl⟩)
  | text unit => exact .inr (.inr ⟨unit, rfl⟩)

variable {routines : Routines} {reach : Nat → Prop} {world : World} {depth limit first : Nat}

/-- A call is answered at once or sets off scripts that end. -/
theorem reply_ends (call : Call) (back : routines.ComeBack reach) (sealed : world.Sealed reach)
    (serves : world.engine.Serves call.caller depth limit first []) :
    (call.reply world).Ends routines := by
  have deeper (_ : depth < limit) : routines.ScriptsEnd reach limit (depth + 1) :=
    back.scriptsEnd limit (depth + 1)
  rcases call.reply_cases world with ⟨fault, refused⟩ | ⟨language, path, line, same⟩ | ⟨unit, same⟩
  · rw [refused]
    exact Reply.ends_now routines _ _
  · rw [same]
    exact Engine.respondEval_ends deeper sealed serves language path line
  · rw [same]
    exact Engine.respondBelow_ends deeper sealed serves unit

/-- A call begins in order. -/
theorem start_isUnderCall (call : Call)
    (serves : world.engine.Serves call.caller depth limit first []) :
    (call.start world).IsUnderCall reach call.caller depth limit first
      (Fault.of? : Except Fault ContextId → Option Fault) := by
  have waits : (Stack.bottom : Stack (Except Fault ContextId)).AwaitsScript reach call.caller
      Fault.of? Fault.of? := .outermost
  have goesOn (child : ContextId) : (Program.done (.ok child)).Heeds (.harmless reach)
      (Fault.of? : Except Fault ContextId → Option Fault) := .ended rfl
  have stops (fault : Fault) : ∃ result : Except Fault ContextId,
      Program.done (.error fault) = .done result ∧ Fault.of? result = some fault :=
    ⟨.error fault, rfl, rfl⟩
  rw [start]
  rcases call.reply_cases world with ⟨fault, refused⟩ | ⟨language, path, line, same⟩ | ⟨unit, same⟩
  · rw [refused]
    exact Reply.isUnderCall_refused waits stops serves fault
  · rw [same]
    exact Engine.respondEval_isUnderCall waits goesOn stops serves language path line
  · rw [same]
    exact Engine.respondBelow_isUnderCall waits goesOn stops serves unit

/-- At the beginning of a call nothing has been brought within reach. -/
theorem start_obeys (call : Call) (back : routines.ComeBack reach) (sealed : world.Sealed reach) :
    (call.start world).Obeys reach fun request => request.IsQuiet reach ∨ request.IsScripted := by
  have scripts := back.obey.scripts (.eval "" "" none) (.inr trivial) trivial
  have obeys : (call.reply world).Obeys reach fun request =>
      request.IsQuiet reach ∨ request.IsScripted := by
    rcases call.reply_cases world with
      ⟨fault, refused⟩ | ⟨language, path, line, same⟩ | ⟨unit, same⟩
    · rw [refused]
      exact sealed
    · rw [same]
      exact Engine.respondEval_obeys sealed scripts call.caller language path line
    · rw [same]
      exact Engine.respondBelow_obeys sealed scripts call.caller unit
  rw [start]
  cases answered : call.reply world with
  | now answer after =>
    rw [answered] at obeys
    exact ⟨trivial, trivial, obeys⟩
  | after inner program opened pending =>
    rw [answered] at obeys
    exact ⟨obeys.2.2, ⟨obeys.2.1, fun _ => trivial, trivial⟩, obeys.1⟩

/-- A call comes to an outcome: it does so whatever the allowance is, if that is large enough, and
its run is over then. -/
structure EndsIn (routines : Routines) (call : Call) (world : World)
    (outcome : Except Fault ContextId) (after : World) : Prop where
  /-- What is done. -/
  carriedOut : ∃ allowance, ∀ larger, allowance ≤ larger →
    call.carryOut (Runner.within routines larger) world = some (outcome, after)
  /-- The last moment of the run. -/
  reached : ∃ deeds, Moment.Reaches routines (call.start world) deeds
    ⟨call.caller, .done outcome, .bottom, after⟩

/-- A call whose reply can be carried out comes to an outcome. -/
theorem exists_endsIn (call : Call) (ends : (call.reply world).Ends routines) :
    ∃ outcome after, call.EndsIn routines world outcome after := by
  obtain ⟨allowance, ⟨outcome, after⟩, completed⟩ := ends
  obtain ⟨deeds, led⟩ := Moment.reaches_of_complete Moment.reaches_of_within completed
  refine ⟨outcome, after, ⟨allowance, fun larger le => ?_⟩, deeds, led _ _ _⟩
  rw [carryOut_eq]
  exact Reply.complete_within_mono le completed

/-- A run that is over ended in the outcome of its call. -/
theorem EndsIn.unique {call : Call} {outcome last : Except Fault ContextId} {after left : World}
    (ends : call.EndsIn routines world outcome after) {deeds : List Deed}
    (reached : Moment.Reaches routines (call.start world) deeds
      ⟨call.caller, .done last, .bottom, left⟩) : last = outcome := by
  obtain ⟨_, led⟩ := ends.reached
  have same := led.over_unique reached ⟨_, _, _, _, rfl⟩ ⟨_, _, _, _, rfl⟩
  cases same
  rfl

/-- A call that is answered at once comes to that answer. -/
theorem EndsIn.of_answered {call : Call} {outcome answer : Except Fault ContextId}
    {after left : World} (ends : call.EndsIn routines world outcome after)
    (answered : call.reply world = .now answer left) : answer = outcome := by
  have finished : Moment.Reaches routines (call.start world) []
      ⟨call.caller, .done answer, .bottom, left⟩ := by
    rw [start, answered]
    exact .refl
  exact ends.unique finished

end Call

/-- A source that a context asks for is there, its language is known, and there is a number left for
the context that is to evaluate it. -/
def World.Finds (world : World) (caller : ContextId) (language path : String) : Prop :=
  (∃ found, world.engine.languages.get language = .ok found) ∧
  (∃ text, world.engine.loader.load
    (SourcePath.resolve (world.engine.contexts.sourceOf caller) path) = .ok text) ∧
  world.engine.contexts.count < ContextTree.capacity

/-- What a call asks for is there, its language is known, and there is a number left for the context
that is to evaluate it. -/
def Call.Finds (world : World) : Call → Prop
  | source caller language path _ => world.Finds caller language path
  | file path => ∃ language, world.engine.languages.forPath path = .ok language ∧
    world.Finds .host language.id path
  | text unit => (∃ found, world.engine.languages.get unit.language = .ok found) ∧
    world.engine.contexts.count < ContextTree.capacity

/-- The script at work asks for a source that is there, though no context may lie deeper than its
own. -/
inductive Moment.AsksTooDeep : Moment → Prop where
  /-- It asks. -/
  | asks {α : Type} {context : ContextId} {language path : String} {line : Option Nat}
      {next : Except Fault ContextId → Program α} {stack : Stack α} {world : World}
      {entry : Context} (finds : world.Finds context language path)
      (found : world.engine.contexts.contexts[context.raw]? = some entry)
      (deep : world.engine.maxDepth ≤ entry.depth) :
      AsksTooDeep ⟨context, .ask (.eval language path line) next, stack, world⟩

namespace Engine

variable {world : World} {caller : ContextId} {entry : Context}

/-- A unit is refused where no context may lie deeper. -/
theorem respondBelow_tooDeep {unit : SourceUnit}
    (known : ∃ found, world.engine.languages.get unit.language = .ok found)
    (room : world.engine.contexts.count < ContextTree.capacity)
    (there : world.engine.contexts.contexts[caller.raw]? = some entry)
    (deep : world.engine.maxDepth ≤ entry.depth) :
    ∃ after, respondBelow caller unit world =
      .now (.error (.depthExceeded world.engine.maxDepth)) after := by
  obtain ⟨found, known⟩ := known
  rw [respondBelow_of_known known (ContextTree.depthBelow_of_found there), if_pos room]
  exact ⟨_, if_pos (Nat.lt_succ_of_le deep)⟩

/-- A source is refused where no context may lie deeper. -/
theorem respondEval_tooDeep {language path : String} (finds : world.Finds caller language path)
    (there : world.engine.contexts.contexts[caller.raw]? = some entry)
    (deep : world.engine.maxDepth ≤ entry.depth) (line : Option Nat) :
    ∃ after, respondEval caller language path line world =
      .now (.error (.depthExceeded world.engine.maxDepth)) after := by
  obtain ⟨⟨found, known⟩, ⟨text, loaded⟩, room⟩ := finds
  simp only [respondEval, known, loaded]
  exact respondBelow_tooDeep ⟨found, known⟩ room there deep

end Engine

section TooDeep

variable {routines : Routines} {reach : Nat → Prop} {depth limit first : Nat} {world : World}

/-- A call from too deep is refused at once. -/
theorem Call.reply_tooDeep {call : Call} {entry : Context} (finds : call.Finds world)
    (there : world.engine.contexts.contexts[call.caller.raw]? = some entry)
    (deep : world.engine.maxDepth ≤ entry.depth) :
    ∃ after, call.reply world = .now (.error (.depthExceeded world.engine.maxDepth)) after := by
  cases call with
  | source caller language path line => exact Engine.respondEval_tooDeep finds there deep line
  | file path =>
    obtain ⟨language, known, finds⟩ := finds
    simp only [Call.reply, known]
    exact Engine.respondEval_tooDeep finds there deep none
  | text unit => exact Engine.respondBelow_tooDeep finds.1 finds.2 there deep

/-- A script that goes too deep ends, and so do all that wait for it, with the fault that the limit
was exceeded at the root. -/
theorem Moment.AsksTooDeep.fails {moment : Moment} (deep : moment.AsksTooDeep)
    {caller : ContextId} {ω : Type} {whole? : ω → Option Fault}
    (under : moment.IsUnderCall reach caller depth limit first whole?) (routines : Routines) :
    ∃ deeds last after failure,
      Reaches routines moment deeds ⟨caller, .done last, .bottom, after⟩ ∧
      whole? last = some failure ∧ failure.root = .depthExceeded limit := by
  cases deep with
  | @asks α context language path line next stack world entry finds found deep =>
    obtain ⟨atWork, serves⟩ := under
    cases atWork with
    | script heeds waits =>
      cases heeds with
      | ask quiet => exact quiet.elim
      | eval _ refused =>
        rw [waits.engine_eq] at serves
        have limited : world.engine.maxDepth = limit := serves.limit
        obtain ⟨after, reply⟩ := Engine.respondEval_tooDeep finds found deep line
        obtain ⟨result, ends, told⟩ := refused (.depthExceeded world.engine.maxDepth)
        obtain ⟨deeds, last, left, failure, reached, same, root⟩ :=
          waits.unwinds routines told after
        have refusal : Step routines
            ⟨stack.running.headD caller, .ask (.eval language path line) next, stack, world⟩ none
            ⟨stack.running.headD caller, .done result, stack, after⟩ := by
          rw [← ends]
          exact .answered reply
        refine ⟨_, last, left, failure, (Reaches.single refusal).trans reached, same, ?_⟩
        rw [root, ← limited]
        rfl
    | routine asks => exact asks.1.elim

end TooDeep

/-- Whatever an engine with the bundled languages is asked to evaluate below a context, and whatever
the sources say, also if they evaluate each other in a circle, the call comes to an outcome, if all
routines in reach end and evaluate nothing themselves. At every moment the contexts that it has
running lie on one way down from the caller, each one deeper than the one above it, and none of them
lies deeper than contexts may; the program at work belongs to the innermost of them, or to the
caller if there is none, or is a routine and belongs to the host. If a script asks for more where no
context may lie deeper, or if the caller does, the call fails with that fault at the root, as long
as the contexts have not used up their numbers. -/
theorem calls_end_within_depth {routines : Routines} {reach : Nat → Prop} {world : World}
    (back : routines.ComeBack reach) (sealed : world.Sealed reach)
    (bundled : world.engine.languages.IsBundled) (call : Call) {entry : Context}
    (there : world.engine.contexts.contexts[call.caller.raw]? = some entry) :
    ∃ outcome after, call.EndsIn routines world outcome after ∧
      (∀ deeds moment, Moment.Reaches routines (call.start world) deeds moment →
        (moment.stack.engine moment.world.engine).contexts.Descends call.caller entry.depth
          world.engine.contexts.count moment.stack.running ∧
        (∀ id ∈ moment.stack.running, ∀ context,
          (moment.stack.engine moment.world.engine).contexts.contexts[id.raw]? = some context →
            context.depth ≤ world.engine.maxDepth) ∧
        (moment.context = moment.stack.running.headD call.caller ∨ moment.context = .host)) ∧
      ((call.Finds world ∧ world.engine.maxDepth ≤ entry.depth ∨
          ∃ deeds moment, Moment.Reaches routines (call.start world) deeds moment ∧
            moment.AsksTooDeep) →
        ∃ fault, outcome = .error fault ∧
          fault.root = .depthExceeded world.engine.maxDepth) := by
  have serves : world.engine.Serves call.caller entry.depth world.engine.maxDepth
      world.engine.contexts.count [] :=
    ⟨.start there, fun some => absurd rfl some, bundled, rfl⟩
  obtain ⟨outcome, after, ends⟩ := call.exists_endsIn (call.reply_ends back sealed serves)
  have inOrder {deeds : List Deed} {moment : Moment}
      (reached : Moment.Reaches routines (call.start world) deeds moment) :=
    (reached.isUnderCall back (call.start_obeys back sealed) (call.start_isUnderCall serves)).1
  refine ⟨outcome, after, ends, fun deeds moment reached => ?_, ?_⟩
  · have under := inOrder reached
    refine ⟨under.serves.descends, fun id mem context found => ?_, ?_⟩
    · obtain ⟨other, again, short⟩ := under.serves.descends.way.found mem
      obtain rfl : other = context := Option.some.inj (again.symm.trans found)
      exact Nat.le_trans short (under.serves.shallow (List.ne_nil_of_mem mem))
    · cases under.atWork with
      | script => exact .inl rfl
      | routine => exact .inr rfl
  · rintro (⟨finds, deep⟩ | ⟨deeds, moment, reached, deep⟩)
    · obtain ⟨left, refused⟩ := Call.reply_tooDeep finds there deep
      exact ⟨_, (ends.of_answered refused).symm, rfl⟩
    · obtain ⟨later, last, left, failure, onwards, same, root⟩ :=
        deep.fails (inOrder reached) routines
      obtain rfl := ends.unique (reached.trans onwards)
      cases last with
      | ok child => simp [Fault.of?] at same
      | error fault =>
        obtain rfl := Option.some.inj same
        exact ⟨fault, rfl, root⟩

/-- A world with two sources that evaluate each other, the first of which looks a name up, which a
computation is bound to. -/
def World.withCircle : World where
  engine := {
    languages := ({} : Builder).bundledLanguages.languages
    loader := .memory [("a.jss", "let x = import answer\neval lisp b.lisp"),
      ("b.lisp", "(eval jsonscript \"a.jss\")")]
    maxDepth := 3 }
  registry := (Registry.start false).bind "answer" (.deferred 0) .host none

/-- The computation evaluates nothing and ends. -/
theorem answerRoutines_comeBack : (Host.routines answerRoutines).ComeBack (· = 0) where
  quiet routine first arguments := by
    subst first
    refine ⟨trivial, fun run => ?_⟩
    cases run <;> exact trivial
  ends routine first arguments world sealed := by
    subst first
    exact ⟨1, _, rfl⟩

/-- Two sources that evaluate each other end where no context may lie deeper, with at most as many
contexts running as that. -/
theorem circle_ends_at_limit :
    ∃ fault after, Call.EndsIn (Host.routines answerRoutines)
        (.source .host "jsonscript" "a.jss" none) .withCircle (.error fault) after ∧
      fault.root = .depthExceeded 3 ∧
      ∀ deeds moment, Moment.Reaches (Host.routines answerRoutines)
        (Call.start (.source .host "jsonscript" "a.jss" none) .withCircle) deeds moment →
          moment.stack.running.length ≤ 3 := by
  have empty : (Registry.start false).Holds (· = 0) := fun _ _ impossible => by
    simp [Registry.start, Registry.find?, Fields.find?] at impossible
  have registry : World.withCircle.registry.Holds (· = 0) :=
    empty.bindRoutine rfl "answer" .host none
  have sealed : World.withCircle.Sealed (· = 0) :=
    ⟨registry, fun _ _ impossible => by simp [World.withCircle] at impossible,
      fun _ _ impossible => by simp [World.withCircle] at impossible⟩
  obtain ⟨outcome, after, ends, moments, _⟩ := calls_end_within_depth answerRoutines_comeBack sealed
    Builder.bundledLanguages_isBundled (.source .host "jsonscript" "a.jss" none) rfl
  have run : (Call.carryOut (Runner.within (Host.routines answerRoutines) 6)
      (.source .host "jsonscript" "a.jss" none) .withCircle).map
        (fun ended => (Fault.of? ended.1).map Fault.root) = some (some (.depthExceeded 3)) := by
    decide +kernel
  obtain ⟨⟨told, left⟩, carried, same⟩ := Option.map_eq_some_iff.1 run
  obtain ⟨fault, failed, root⟩ := Option.map_eq_some_iff.1 same
  obtain ⟨allowance, enough⟩ := ends.carriedOut
  rw [Call.carryOut_eq] at carried
  have again := enough (allowance + 6) (Nat.le_add_right _ _)
  rw [Call.carryOut_eq, Reply.complete_within_mono (Nat.le_add_left _ _) carried] at again
  obtain ⟨rfl, rfl⟩ := Prod.mk.inj (Option.some.inj again)
  cases told with
  | ok child => simp [Fault.of?] at failed
  | error cause =>
    obtain rfl := Option.some.inj failed
    refine ⟨cause, left, ends, root, fun deeds moment reached => ?_⟩
    obtain ⟨descends, shallow, _⟩ := moments deeds moment reached
    obtain ⟨context, found, deep⟩ := descends.innermost
    cases running : moment.stack.running with
    | nil => exact Nat.zero_le 3
    | cons id above =>
      rw [running] at found deep shallow
      have bounded := shallow id List.mem_cons_self context found
      have depth : context.depth = 0 + (id :: above).length := deep
      have limit : context.depth ≤ 3 := bounded
      omega

end Interchange
