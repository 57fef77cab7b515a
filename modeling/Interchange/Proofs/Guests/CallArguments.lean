import Interchange.Proofs.Guests.Commas
import Interchange.Proofs.Guests.Locals
import Interchange.Proofs.Guests.QuotedNames

/-!
# Arguments of calls

The arguments of a call are cut where they were joined (`Statements.joined_arguments_split`): for
all texts of arguments (`Statements.IsArgument`), which may be calls with such arguments themselves,
the text between the parentheses is cut into exactly these texts, and so the function is called
once, with the values of the arguments in order.
-/
namespace Interchange.Statements

/-- The text with white space around it. -/
inductive Padded (text : List Char) : List Char → Prop where
  /-- White space on both sides. -/
  | intro {before after : List Char} (blankBefore : ∀ c ∈ before, Text.isBlank c)
      (blankAfter : ∀ c ∈ after, Text.isBlank c) : Padded text (before ++ (text ++ after))

/-- Texts with white space around them, and a comma between any two of them. -/
inductive Joined : List (List Char) → List Char → Prop where
  /-- Without texts there is only white space. -/
  | none {blanks : List Char} (blank : ∀ c ∈ blanks, Text.isBlank c) : Joined [] blanks
  /-- No comma follows the last text. -/
  | last {text padded : List Char} (around : Padded text padded) : Joined [text] padded
  /-- A comma stands between a text and the others. -/
  | more {text padded rest : List Char} {others : List (List Char)} (around : Padded text padded)
      (some : others ≠ []) (later : Joined others rest) :
      Joined (text :: others) (padded ++ ',' :: rest)

/-- The text of a call: what is called, and what stands between the parentheses. -/
def callText (callee inner : List Char) : List Char :=
  "call ".toList ++ (callee ++ '(' :: (inner ++ [')']))

/-- A path, perhaps with white space around it. -/
def IsCallee (callee : List Char) : Prop :=
  ∃ path, Path.read (Text.trim callee) = .ok path ∧ path.IsInert

/-- The texts of arguments. -/
inductive IsArgument : List Char → Prop where
  /-- A document of JSON. -/
  | literal {text : List Char} {document : Json} (trimmed : Text.IsTrimmed text)
      (read : Json.read? text = some document) : IsArgument text
  /-- A path. -/
  | path {text : List Char} {path : Path} (trimmed : Text.IsTrimmed text)
      (read : Path.read text = .ok path) (inert : path.IsInert) : IsArgument text
  /-- An import of a quoted name. -/
  | imported {quoted : List Char} {name : String}
      (trimmed : Text.IsTrimmed ("import ".toList ++ quoted))
      (read : Json.readText? (Text.trim quoted) = some name) :
      IsArgument ("import ".toList ++ quoted)
  /-- A call of what a path leads to, with arguments. -/
  | call {callee inner : List Char} {arguments : List (List Char)} (named : IsCallee callee)
      (each : ∀ argument ∈ arguments, IsArgument argument) (joined : Joined arguments inner) :
      IsArgument (callText callee inner)

variable {text callee inner : List Char} {arguments : List (List Char)} {depth : Nat}

/-- What is trimmed is found again inside white space. -/
theorem Padded.trim_eq {padded : List Char} (around : Padded text padded)
    (trimmed : Text.IsTrimmed text) : Text.trim padded = text := by
  obtain ⟨blankBefore, blankAfter⟩ := around
  rw [Text.trim_blanks_append blankBefore, Text.trim_append_blanks _ blankAfter, trimmed.trim_eq]

/-- A text between two texts of white space. -/
theorem Padded.between (before after : List Char) (blank : (before ++ after).all Text.isBlank) :
    Padded text (before ++ (text ++ after)) := by
  obtain ⟨blankBefore, blankAfter⟩ := List.forall_mem_append.1 (List.all_eq_true.1 blank)
  exact .intro blankBefore blankAfter

/-- A text that is gone over is gone over together with white space. -/
theorem Padded.passes {padded : List Char} (around : Padded text padded)
    (covered : Scan.Passes (.code depth) text (.code depth)) :
    Scan.Passes (.code depth) padded (.code depth) := by
  obtain ⟨blankBefore, blankAfter⟩ := around
  have blanks {blanks : List Char} (blank : ∀ c ∈ blanks, Text.isBlank c) :
      Scan.Passes (.code depth) blanks (.code depth) :=
    Scan.passes_of_isInert fun c mem => isInert_of_isBlank (blank c mem)
  exact (blanks blankBefore).append (covered.append (blanks blankAfter))

/-- Any text is what is left of it with white space around it. -/
theorem padded_trim (text : List Char) : Padded (Text.trim text) text := by
  obtain ⟨before, after, whole, blankBefore, blankAfter, _⟩ := Text.exists_trim text
  have around : Padded (Text.trim text) (before ++ (Text.trim text ++ after)) :=
    .intro blankBefore blankAfter
  rwa [← List.append_assoc, ← whole] at around

/-- Joined texts are gone over if each of them is, inside at least one bracket. -/
theorem Joined.passes (joined : Joined arguments text)
    (each : ∀ argument ∈ arguments, Scan.Passes (.code (depth + 1)) argument (.code (depth + 1))) :
    Scan.Passes (.code (depth + 1)) text (.code (depth + 1)) := by
  induction joined with
  | none blank => exact Scan.passes_of_isInert fun c mem => isInert_of_isBlank (blank c mem)
  | last around => exact around.passes (each _ (List.mem_singleton.2 rfl))
  | more around _ _ ih =>
    obtain ⟨first, others⟩ := List.forall_mem_cons.1 each
    have comma : Scan.Passes (.code (depth + 1)) [','] (.code (depth + 1)) :=
      Scan.Passes.single _ ',' fun cuts => by cases cuts.2
    exact (around.passes first).append (comma.append (ih others))

/-- A call is gone over if what stands between its parentheses is. -/
theorem passes_callText (named : IsCallee callee)
    (inside : Scan.Passes (.code (depth + 1)) inner (.code (depth + 1))) :
    Scan.Passes (.code depth) (callText callee inner) (.code depth) := by
  obtain ⟨path, read, inert⟩ := named
  have word : Scan.Passes (.code depth) "call ".toList (.code depth) :=
    Scan.passes_of_isInert (List.all_eq_true.1 rfl)
  exact word.append (((padded_trim callee).passes (Scan.passes_of_path depth read inert)).append
    (inside.enclosed rfl rfl (by decide)))

/-- An argument is gone over, inside any number of brackets. -/
theorem IsArgument.passes (argument : IsArgument text) (depth : Nat) :
    Scan.Passes (.code depth) text (.code depth) := by
  induction argument generalizing depth with
  | literal _ read => exact Scan.passes_of_read? depth read
  | path _ read inert => exact Scan.passes_of_path depth read inert
  | @imported quoted name _ read =>
    obtain ⟨document, read⟩ : ∃ document, Json.read? (Text.trim quoted) = some document := by
      unfold Json.readText? at read
      split at read
      · rename_i found
        exact ⟨_, found⟩
      · cases read
    have word : Scan.Passes (.code depth) "import ".toList (.code depth) :=
      Scan.passes_of_isInert (List.all_eq_true.1 rfl)
    exact word.append ((padded_trim quoted).passes (Scan.passes_of_read? depth read))
  | call named _ joined ih =>
    exact passes_callText named (joined.passes fun argument mem => ih argument mem _)

/-- A call has no white space around it. -/
theorem isTrimmed_callText (callee inner : List Char) : Text.IsTrimmed (callText callee inner) := by
  have keyword : Text.IsTrimmed "call".toList := Text.isTrimmed_of_not_isBlank (by decide)
  have closing : Text.IsTrimmed [')'] := Text.isTrimmed_of_not_isBlank (by decide)
  have ends := keyword.append closing (by decide) (by decide) (' ' :: (callee ++ '(' :: inner))
  have whole : callText callee inner =
      "call".toList ++ ' ' :: (callee ++ '(' :: inner) ++ [')'] := by
    change ("call".toList ++ [' ']) ++ (callee ++ '(' :: (inner ++ [')'])) = _
    simp only [List.append_assoc, List.cons_append, List.nil_append]
  rwa [whole]

/-- No argument has white space around it. -/
theorem IsArgument.trimmed (argument : IsArgument text) : Text.IsTrimmed text := by
  cases argument with
  | literal trimmed _ => exact trimmed
  | path trimmed _ _ => exact trimmed
  | imported trimmed _ => exact trimmed
  | call named _ _ => exact isTrimmed_callText ..

/-- No argument is empty. -/
theorem IsArgument.ne_nil (argument : IsArgument text) : text ≠ [] := by
  rintro rfl
  generalize same : ([] : List Char) = text at argument
  cases argument with
  | literal _ read => rw [← same] at read; cases read
  | path _ read _ => rw [← same] at read; cases read
  | imported _ _ => cases same
  | call _ _ _ => cases same

/-- Joined arguments are cut where they were joined. -/
theorem cutArguments_joined (each : ∀ argument ∈ arguments, IsArgument argument)
    (some : arguments ≠ []) (joined : Joined arguments text) :
    (cutArguments (.code 0) [] text).map Text.trim = arguments := by
  induction joined with
  | none => exact absurd rfl some
  | @last text padded around =>
    have argument := List.forall_mem_singleton.1 each
    have covered := around.passes (argument.passes 0) [] []
    rw [List.append_nil, List.append_nil] at covered
    rw [covered, cutArguments, List.reverse_reverse, List.map_singleton,
      around.trim_eq argument.trimmed]
  | @more text padded rest others around more later ih =>
    obtain ⟨argument, each⟩ := List.forall_mem_cons.1 each
    have covered := around.passes (argument.passes 0) [] (',' :: rest)
    rw [covered, cutArguments, if_pos ⟨rfl, rfl⟩, List.map_cons, List.append_nil,
      List.reverse_reverse, around.trim_eq argument.trimmed, ih each more]

/-- Arguments are found again where they were joined. -/
theorem splitArguments_joined (each : ∀ argument ∈ arguments, IsArgument argument)
    (joined : Joined arguments text) : splitArguments text = arguments := by
  by_cases none : arguments = []
  · subst none
    cases joined with
    | none blank =>
      have covered : Scan.Passes (.code 0) text (.code 0) :=
        Scan.passes_of_isInert fun c mem => isInert_of_isBlank (blank c mem)
      have whole := covered [] []
      rw [List.append_nil, List.append_nil] at whole
      rw [splitArguments, whole, cutArguments, List.reverse_reverse, List.map_singleton,
        ← List.append_nil text, Text.trim_blanks_append blank]
      rfl
  · rw [splitArguments, cutArguments_joined each none joined]
    split
    · exact absurd rfl (each [] (List.mem_singleton.2 rfl)).ne_nil
    · rfl

/-- No parenthesis is in what spells a path without brackets in its fields. -/
theorem parenthesis_not_mem {path : Path} (read : Path.read text = .ok path)
    (inert : path.IsInert) : ∀ c ∈ text, (c == '(') = false := by
  have other {c : Char} (part : isInert c) : (c == '(') = false :=
    beq_eq_false_iff_ne.2 (ne_of_isInert part rfl)
  have ofStep {step : Step} {text : List Char} (spelled : step.Spelled text)
      (inert : step.IsInert) : ∀ c ∈ text, (c == '(') = false := by
    cases spelled with
    | field name =>
      exact List.forall_mem_cons.2 ⟨rfl, fun c mem => other (inert c mem)⟩
    | index positioned =>
      refine List.forall_mem_cons.2 ⟨rfl, fun c mem => ?_⟩
      rcases List.mem_append.1 mem with inside | closing
      · exact other (Scan.isInert_of_positioned positioned c inside)
      · rw [List.mem_singleton.1 closing]
        rfl
  have ofSteps {steps : List Step} {text : List Char} (spelled : Spelled steps text)
      (inert : ∀ step ∈ steps, step.IsInert) : ∀ c ∈ text, (c == '(') = false := by
    induction spelled with
    | nil => simp
    | cons first _ ih =>
      obtain ⟨here, others⟩ := List.forall_mem_cons.1 inert
      intro c mem
      exact (List.mem_append.1 mem).elim (ofStep first here c) (ih others c)
  obtain ⟨wellFormed, rest, rfl, spelled⟩ := Path.read_eq_ok_iff.1 read
  intro c mem
  rcases List.mem_append.1 mem with name | later
  · exact other (isInert_of_continuesName (continuesName_of_isIdentifier wellFormed.name c name))
  · exact ofSteps spelled inert c later

/-- The text between the parentheses goes up to the last one. -/
theorem closeCall?_append (inner : List Char) : closeCall? (inner ++ [')']) = some inner := by
  have trimmed : Text.trimEnd (inner ++ [')']) = inner ++ [')'] := by
    rw [Text.trimEnd, List.reverse_append, List.reverse_singleton, List.singleton_append,
      List.dropWhile_cons, if_neg (by decide), List.reverse_cons, List.reverse_reverse]
  rw [closeCall?, trimmed, List.getLast?_concat]
  exact congrArg some (List.dropLast_concat ..)

/-- A call is read as a call with the arguments that its text was joined from. -/
theorem Expression.read_callText (named : IsCallee callee)
    (each : ∀ argument ∈ arguments, IsArgument argument) (joined : Joined arguments inner) :
    Expression.read (callText callee inner) = .call (.read callee)
      (String.ofList (Text.trim callee)) (arguments.map .read) := by
  have trimmed := (isTrimmed_callText callee inner).trim_eq
  have imports : Text.after? "import ".toList (Text.trim (callText callee inner)) = none := by
    rw [trimmed]
    rfl
  have calls : Text.after? "call ".toList (Text.trim (callText callee inner)) =
      some (callee ++ '(' :: (inner ++ [')'])) := by
    rw [trimmed]
    rfl
  have cut : Text.splitFirst? (· == '(') (callee ++ '(' :: (inner ++ [')'])) =
      some (callee, inner ++ [')']) := by
    obtain ⟨path, read, inert⟩ := named
    have inside := parenthesis_not_mem read inert
    obtain ⟨before, after, whole, blankBefore, blankAfter, _⟩ := Text.exists_trim callee
    refine Text.splitFirst?_append (fun c mem => ?_) rfl _
    rw [whole] at mem
    have blank {c : Char} (space : Text.isBlank c) : (c == '(') = false :=
      beq_eq_false_iff_ne.2 (ne_of_isInert (isInert_of_isBlank space) rfl)
    simp only [List.mem_append] at mem
    rcases mem with (front | part) | back
    · exact blank (blankBefore c front)
    · exact inside c part
    · exact blank (blankAfter c back)
  have mapped : (splitArguments inner).attach.map (fun argument => Expression.read argument.1) =
      arguments.map Expression.read := by
    rw [List.attach_map_val, splitArguments_joined each joined]
  rw [Expression.read]
  split
  · rename_i empty
    rw [empty] at calls
    cases calls
  · split
    · rename_i found
      cases imports.symm.trans found
    · split
      · rename_i found
        cases calls.symm.trans found
      · rename_i found
        obtain rfl := Option.some.inj (calls.symm.trans found)
        split
        · rename_i none
          cases cut.symm.trans none
        · rename_i found
          obtain ⟨rfl, rfl⟩ := Prod.mk.inj (Option.some.inj (cut.symm.trans found))
          split
          · rename_i none
            cases (closeCall?_append inner).symm.trans none
          · rename_i found
            obtain rfl := Option.some.inj ((closeCall?_append inner).symm.trans found)
            exact congrArg _ mapped

section Calling

variable {locals : Fields Item} {line : Nat}

/-- Arguments come to values one after the other: each of them is told answers, comes to an item,
and the item stands for the value. -/
inductive Collected (locals : Fields Item) (line : Nat) : List (List Char) →
    List ((request : Request) × request.Answer) → List Value → Prop where
  /-- No argument, no value. -/
  | nil : Collected locals line [] [] []
  /-- The first argument, and then the others. -/
  | cons {argument : List Char} {arguments : List (List Char)} {item : Item} {value : Value}
      {values : List Value} {answers further : List ((request : Request) × request.Answer)}
      (told : ((Expression.read argument).eval locals line).run.Told answers (.ok item))
      (stands : item.toValue = .ok value) (later : Collected locals line arguments further values) :
      Collected locals line (argument :: arguments) (answers ++ further) (value :: values)

/-- What an evaluation makes of what comes back for a call. -/
def received (answer : Except Fault Value) : Except Trouble Item :=
  (answer.bind Item.ofValue).mapError .exchange

/-- Evaluations one after the other are told the answers of both. -/
theorem Evaluation.told_next {α β : Type} {first : Evaluation α} {next : α → Evaluation β}
    {answers further : List ((request : Request) × request.Answer)} {middle : α}
    {result : Except Trouble β} (told : first.run.Told answers (.ok middle))
    (goesOn : (next middle).run.Told further result) :
    (first >>= next).run.Told (answers ++ further) result := by
  rw [Evaluation.run_bind]
  exact told.bind goesOn

/-- An outcome of the exchange needs no answer. -/
theorem Evaluation.told_ofOutcome {α : Type} (outcome : Except Fault α) :
    (Evaluation.ofOutcome outcome).run.Told [] (outcome.mapError .exchange) := by
  rw [Evaluation.run_ofOutcome]
  exact .done _

/-- Following a path takes one look at the shared objects. -/
theorem Expression.told_path {target : Path} {item : Item}
    (bound : locals.find? (String.ofList target.name) = some item) (heap : Heap) :
    ((Expression.path target).eval locals line).run.Told [⟨.inspect, heap⟩]
      ((target.steps.foldlM (Step.follow heap) item).mapError .exchange) := by
  rw [Expression.eval, bound]
  have looked : (liftM Program.inspect : Evaluation Heap).run.Told
      [⟨.inspect, heap⟩] (.ok heap) := by
    rw [Evaluation.run_liftM]
    exact @Program.Told.ask _ .inspect _ _ _ heap (.done _)
  exact Evaluation.told_next looked (Evaluation.told_ofOutcome _)

/-- Arguments are evaluated one after the other. -/
theorem Collected.told {answers : List ((request : Request) × request.Answer)} {values : List Value}
    (collected : Collected locals line arguments answers values) :
    (Expression.evalArguments locals line (arguments.map .read)).run.Told answers (.ok values) := by
  induction collected with
  | nil => exact .done _
  | @cons argument arguments item value values answers further told stands _ ih =>
    have others : ((Expression.evalArguments locals line (arguments.map .read)) >>=
        fun values => pure (value :: values)).run.Told (further ++ []) (.ok (value :: values)) :=
      Evaluation.told_next ih (.done _)
    rw [List.append_nil] at others
    rw [List.map_cons, Expression.evalArguments]
    refine Evaluation.told_next told ?_
    rw [stands]
    exact Evaluation.told_next (Evaluation.told_ofOutcome (.ok value)) others

/-- A call asks for what its parts ask for, and then calls the function once with the values of the
arguments. -/
theorem Expression.told_callText (named : IsCallee callee)
    (each : ∀ argument ∈ arguments, IsArgument argument) (joined : Joined arguments inner)
    {target : Reference} {first rest : List ((request : Request) × request.Answer)}
    {values : List Value}
    (found : ((Expression.read callee).eval locals line).run.Told first (.ok (.foreign target)))
    (collected : Collected locals line arguments rest values) (answer : Except Fault Value) :
    ((Expression.read (callText callee inner)).eval locals line).run.Told
      (first ++ (rest ++ [⟨.call target values, answer⟩])) (received answer) := by
  have called : (Evaluation.request (Program.call target values)).run.Told
      [⟨.call target values, answer⟩] (answer.mapError .exchange) := by
    rw [Evaluation.run_request]
    exact @Program.Told.ask _ (.call target values) _ _ _ answer (.done _)
  rw [read_callText named each joined, Expression.eval]
  refine Evaluation.told_next found (Evaluation.told_next collected.told ?_)
  cases answer with
  | ok value => exact Evaluation.told_next called (Evaluation.told_ofOutcome (Item.ofValue value))
  | error fault =>
    rw [Evaluation.run_bind]
    exact called.bind (.done _)

end Calling

/-- Arguments are cut where they were joined: whatever strings, brackets and further calls are in
them, the joined text is cut into exactly the texts that it was joined from. So a call whose callee
comes to a reference, and whose arguments come to values one after the other, asks for what they ask
for and then calls what the reference stands for, once and with exactly these values in order; the
item of the result, or the fault, is what the call comes to. -/
theorem joined_arguments_split {arguments : List (List Char)} {inner : List Char}
    (each : ∀ argument ∈ arguments, IsArgument argument) (joined : Joined arguments inner) :
    splitArguments inner = arguments ∧
    ∀ callee, IsCallee callee → ∀ (locals : Fields Item) (line : Nat) (target : Reference)
      (first rest : List ((request : Request) × request.Answer)) (values : List Value),
      ((Expression.read callee).eval locals line).run.Told first (.ok (.foreign target)) →
      Collected locals line arguments rest values →
      ∀ answer, ((Expression.read (callText callee inner)).eval locals line).run.Told
        (first ++ (rest ++ [⟨.call target values, answer⟩])) (received answer) := by
  exact ⟨splitArguments_joined each joined,
    fun callee named locals line target first rest values found collected answer =>
      Expression.told_callText named each joined found collected answer⟩

/-- A document with separators and brackets in its strings, a call of another function, and a path.
-/
def knottyArguments : List (List Char) :=
  ["\x7b\"k]\": [\",\\\"(\"]\x7d".toList, "call g( \"),\",import \"a,b\" )".toList,
    "user.tags[1]".toList]

/-- The knotty arguments, joined with some white space. -/
def knottyInner : List Char :=
  " \x7b\"k]\": [\",\\\"(\"]\x7d ,call g( \"),\",import \"a,b\" ),\tuser.tags[1]".toList

/-- The reference to one of the functions. -/
def knottyFunction (number : Nat) : Reference := ⟨⟨0⟩, number, .function⟩

/-- Two functions and a user. -/
def knottyLocals : Fields Item :=
  [("f", .foreign (knottyFunction 0)), ("g", .foreign (knottyFunction 1)),
    ("user", .object [("tags", .array [.string "x", .string "y"])])]

/-- The values of the knotty arguments, if the other function gives a text. -/
def knottyValues : List Value :=
  [.record [("k]", .sequence [.text ",\"("])], .text "sum", .text "y"]

/-- What is asked for while the knotty arguments are evaluated, and the answers. -/
def knottyAnswers : List ((request : Request) × request.Answer) :=
  [⟨.inspect, ⟨[]⟩⟩, ⟨.importName "a,b" (some 3), .ok (.text "b")⟩,
    ⟨.call (knottyFunction 1) [.text "),", .text "b"], .ok (.text "sum")⟩,
    ⟨.inspect, ⟨[]⟩⟩]

/-- A variable name can be called. -/
theorem isCallee_of_isIdentifier {text : List Char} (named : isIdentifier text) : IsCallee text :=
  ⟨⟨text, []⟩, by rw [trim_of_isIdentifier named, Path.read_of_isIdentifier named],
    by simp [Path.IsInert]⟩

/-- A variable comes to what it is bound to, after one look at the shared objects. -/
theorem Expression.told_variable {text : List Char} {locals : Fields Item} {item : Item}
    (line : Nat) (heap : Heap) (named : isIdentifier text) (plain : isLiteralWord text = false)
    (bound : locals.find? (String.ofList text) = some item) :
    ((Expression.read text).eval locals line).run.Told [⟨.inspect, heap⟩] (.ok item) := by
  rw [read_of_isIdentifier named plain]
  exact told_path bound heap

/-- The arguments of the inner one of the knotty calls. -/
theorem knotty_inner_isArgument :
    ∀ argument ∈ ["\"),\"".toList, "import \"a,b\"".toList], IsArgument argument :=
  List.forall_mem_cons.2 ⟨.literal (by decide) rfl,
    List.forall_mem_singleton.2 (.imported (by decide) rfl)⟩

/-- The text between the parentheses of the inner one of the knotty calls. -/
theorem knotty_inner_joined :
    Joined ["\"),\"".toList, "import \"a,b\"".toList] " \"),\",import \"a,b\" ".toList :=
  .more (.between [' '] [] rfl) (by decide)
    (.last (.between [] [' '] rfl))

/-- The document among the knotty arguments. -/
theorem knotty_document : Json.read? "\x7b\"k]\": [\",\\\"(\"]\x7d".toList =
    some (.object [("k]", .array [.string ",\"("])]) := rfl

/-- The path among the knotty arguments. -/
theorem knotty_path : Path.read "user.tags[1]".toList =
    .ok ⟨"user".toList, [.field "tags".toList, .index 1]⟩ := by
  have wellFormed : (⟨"user".toList, [.field "tags".toList, .index 1]⟩ : Path).IsWellFormed :=
    ⟨by decide, List.forall_mem_cons.2 ⟨⟨by decide, List.all_eq_true.1 rfl⟩,
      List.forall_mem_singleton.2 (by decide : 1 < UInt64.size)⟩⟩
  exact Path.read_eq_ok_iff.2 ⟨wellFormed, Path.spelled_text _⟩

/-- The knotty arguments are arguments. -/
theorem knotty_isArgument : ∀ argument ∈ knottyArguments, IsArgument argument := by
  have inert : (⟨"user".toList, [.field "tags".toList, .index 1]⟩ : Path).IsInert :=
    List.forall_mem_cons.2 ⟨@List.all_eq_true _ isInert "tags".toList |>.1 rfl,
      List.forall_mem_singleton.2 trivial⟩
  have called : IsCallee "g".toList := isCallee_of_isIdentifier (by decide)
  exact List.forall_mem_cons.2 ⟨.literal (by decide) knotty_document,
    List.forall_mem_cons.2 ⟨.call called knotty_inner_isArgument knotty_inner_joined,
      List.forall_mem_singleton.2 (.path (by decide) knotty_path inert)⟩⟩

/-- The knotty arguments are joined. -/
theorem knotty_joined : Joined knottyArguments knottyInner :=
  .more (.between [' '] [' '] rfl) (by decide)
    (.more (.between [] [] rfl) (by decide)
      (.last (.between ['\t'] [] rfl)))

/-- The knotty arguments come to their values. -/
theorem knotty_collected : Collected knottyLocals 3 knottyArguments knottyAnswers knottyValues := by
  have quotedTold : ((Expression.read "\"),\"".toList).eval knottyLocals 3).run.Told []
      (.ok (.string "),")) := by
    have read : Expression.read "\"),\"".toList = _ := Expression.read_of_document rfl
    rw [read]
    exact .done _
  have nameTold : ((Expression.read "import \"a,b\"".toList).eval knottyLocals 3).run.Told
      [⟨.importName "a,b" (some 3), .ok (.text "b")⟩] (.ok (.string "b")) := by
    have read : Expression.read "import \"a,b\"".toList = .imported "a,b" :=
      Expression.read_import "a,b"
    rw [read]
    exact @Program.Told.ask _ (.importName "a,b" (some 3)) _ _ _ (.ok (.text "b")) (.done _)
  have innerCollected : Collected knottyLocals 3 ["\"),\"".toList, "import \"a,b\"".toList]
      [⟨.importName "a,b" (some 3), .ok (.text "b")⟩] [.text "),", .text "b"] :=
    .cons quotedTold rfl (.cons nameTold rfl .nil)
  have called : IsCallee "g".toList := isCallee_of_isIdentifier (by decide)
  have found := @Expression.told_variable "g".toList knottyLocals _ 3 ⟨[]⟩ (by decide)
    (by decide) rfl
  have callTold := Expression.told_callText called knotty_inner_isArgument knotty_inner_joined found
    innerCollected (.ok (.text "sum"))
  have documentTold : ((Expression.read "\x7b\"k]\": [\",\\\"(\"]\x7d".toList).eval knottyLocals
      3).run.Told [] (.ok (.object [("k]", .array [.string ",\"("])])) := by
    have read : Expression.read "\x7b\"k]\": [\",\\\"(\"]\x7d".toList = _ :=
      Expression.read_of_document knotty_document
    rw [read]
    exact .done _
  have pathTold : ((Expression.read "user.tags[1]".toList).eval knottyLocals 3).run.Told
      [⟨.inspect, ⟨[]⟩⟩] (.ok (.string "y")) := by
    have bound : knottyLocals.find? (String.ofList "user".toList) =
        some (.object [("tags", .array [.string "x", .string "y"])]) := rfl
    rw [Expression.read_of_path knotty_path rfl rfl]
    exact @Expression.told_path _ _ ⟨_, _⟩ _ bound ⟨[]⟩
  exact .cons documentTold rfl (.cons callTold rfl (.cons pathTold rfl .nil))

/-- The knotty arguments are cut apart again, and their values reach the function. -/
theorem knotty_arguments_split :
    splitArguments knottyInner = knottyArguments ∧
    ((Expression.read (callText "f".toList knottyInner)).eval knottyLocals 3).run.Told
      (⟨.inspect, ⟨[]⟩⟩ ::
        (knottyAnswers ++ [⟨.call (knottyFunction 0) knottyValues, .ok (.text "done")⟩]))
      (.ok (.string "done")) := by
  obtain ⟨split, called⟩ := joined_arguments_split knotty_isArgument knotty_joined
  have callee : IsCallee "f".toList := isCallee_of_isIdentifier (by decide)
  have found := @Expression.told_variable "f".toList knottyLocals _ 3 ⟨[]⟩ (by decide)
    (by decide) rfl
  have told := called _ callee knottyLocals 3 (knottyFunction 0) _ knottyAnswers knottyValues found
    knotty_collected (.ok (.text "done"))
  exact ⟨split, told⟩

end Interchange.Statements
