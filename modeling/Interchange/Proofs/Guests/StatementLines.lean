import Interchange.Proofs.Engine.Asking
import Interchange.Proofs.Guests.Lines
import Interchange.Proofs.Guests.Locals

/-!
# The line of the statement that asks

The statements of a text stand on the pieces between its line feeds that are neither blank nor
comments, and are counted with them (`Statements.mem_statements_iff`). A statement tells its own
line in everything it asks for that is noted with a line (`Statements.Causes.tells`). When a unit
has come to a request, the statements before a certain one have been executed and that one has come
to the request (`Statements.causes_of_comes`), so the request tells the line on which the statement
that causes it stands, whatever the answers so far were.
-/
namespace Interchange

namespace Program

variable {α β : Type}

/-- Told some answers to what it asks for, the program has come to what is left of it. -/
inductive Comes : Program α → List ((request : Request) × request.Answer) → Program α → Prop where
  /-- It has been told nothing. -/
  | start (program : Program α) : Comes program [] program
  /-- It asked for something and went on with the answer. -/
  | ask {request : Request} {next : request.Answer → Program α}
      {answers : List ((request : Request) × request.Answer)} {left : Program α}
      (answer : request.Answer) (rest : Comes (next answer) answers left) :
      Comes (.ask request next) (⟨request, answer⟩ :: answers) left

variable {answers : List ((request : Request) × request.Answer)} {request : Request}

/-- A program that has ended comes to no request. -/
theorem not_comes_of_done {result : α} {next : request.Answer → Program α} :
    ¬ (Program.done result).Comes answers (.ask request next) := by
  intro comes
  cases comes

/-- A program that has come to a request goes on with the answer. -/
theorem Comes.answered {program : Program α} {next : request.Answer → Program α}
    (comes : program.Comes answers (.ask request next)) (answer : request.Answer) :
    program.Comes (answers ++ [⟨request, answer⟩]) (next answer) := by
  generalize asks : Program.ask request next = left at comes
  induction comes with
  | start program =>
    subst asks
    exact .ask answer (.start _)
  | ask given _ ih => exact .ask given (ih asks)

/-- Two programs one after the other come to a request in the first one or, when that has ended, in
the second one. -/
theorem Comes.of_bind {program : Program α} {next : α → Program β}
    {further : request.Answer → Program β}
    (comes : (program.bind next).Comes answers (.ask request further)) :
    (∃ goesOn, program.Comes answers (.ask request goesOn)) ∨
      ∃ result first rest, answers = first ++ rest ∧ program.Told first result ∧
        (next result).Comes rest (.ask request further) := by
  induction program generalizing answers with
  | done result => exact .inr ⟨result, [], answers, rfl, .done result, comes⟩
  | ask asked later ih =>
    cases comes with
    | start => exact .inl ⟨later, .start _⟩
    | @ask _ _ answers _ answer rest =>
      rcases ih answer rest with ⟨goesOn, inFirst⟩ | ⟨result, first, others, rfl, told, inNext⟩
      · exact .inl ⟨goesOn, .ask answer inFirst⟩
      · exact .inr ⟨result, ⟨asked, answer⟩ :: first, others, rfl, .ask answer told, inNext⟩

/-- Whatever is to follow a program, it comes to what it comes to by itself. -/
theorem Comes.bind {program left : Program α} (comes : program.Comes answers left)
    (next : α → Program β) : (program.bind next).Comes answers (left.bind next) := by
  induction comes with
  | start program => exact .start _
  | ask answer _ ih => exact .ask answer ih

/-- A program that only asks for what is allowed comes to such a request. -/
theorem Asks.of_comes {allowed : Request → Prop} {program : Program α}
    {next : request.Answer → Program α} (asks : program.Asks allowed)
    (comes : program.Comes answers (.ask request next)) : allowed request := by
  generalize left : Program.ask request next = last at comes
  induction comes with
  | start program =>
    subst left
    exact asks.1
  | ask answer _ ih => exact ih (asks.2 answer) left

end Program

namespace Statements

namespace Statement

/-- What the lines of a text are to statements: the pieces between its line feeds. -/
theorem ofLines_linesFrom (first : Nat) (current text : List Char) :
    ofLines first (Text.linesFrom current text) =
      ofLines first ((text.splitOn '\n').modifyHead (current.reverse ++ ·)) := by
  -- What has been read of the first line is in `current`, the last character first. The carriage
  -- return that is cut off a line is white space to a statement anyway.
  induction text generalizing first current with
  | nil =>
    cases current with
    | nil => rfl
    | cons c rest => simp [Text.linesFrom, List.splitOn]
  | cons c rest ih =>
    rw [List.splitOn, List.splitOnP_cons_eq_if_modifyHead, Text.linesFrom]
    by_cases newline : c = '\n'
    · have later := ih (first + 1) []
      have same : ((rest.splitOn '\n').modifyHead ([].reverse ++ ·)) = rest.splitOn '\n' := by
        cases rest.splitOn '\n' <;> rfl
      rw [same] at later
      rw [if_pos newline, if_pos (beq_iff_eq.2 newline), List.modifyHead_cons, List.append_nil,
        ofLines, ofLines, ofLine?_dropReturn, later]
      rfl
    · rw [if_neg newline, if_neg (by simpa using newline), List.modifyHead_modifyHead, ih]
      congr 2
      funext piece
      simp

/-- The statements of lines, each counted with the lines before it. -/
theorem mem_ofLines_iff {first line : Nat} {statement : Statement} {lines : List (List Char)} :
    (line, statement) ∈ ofLines first lines ↔
      ∃ index piece, lines[index]? = some piece ∧ line = first + index ∧
        ofLine? piece = some statement := by
  induction lines generalizing first with
  | nil => simp [ofLines]
  | cons piece rest ih =>
    have later : (line, statement) ∈ ofLines (first + 1) rest ↔
        ∃ index other, (piece :: rest)[index + 1]? = some other ∧ line = first + (index + 1) ∧
          ofLine? other = some statement := by
      simp only [ih, List.getElem?_cons_succ, Nat.add_assoc, Nat.add_comm 1]
    have split : (∃ index other, (piece :: rest)[index]? = some other ∧ line = first + index ∧
          ofLine? other = some statement) ↔
        (line = first ∧ ofLine? piece = some statement) ∨
          (line, statement) ∈ ofLines (first + 1) rest := by
      rw [later]
      constructor
      · rintro ⟨index, other, found, rfl, reads⟩
        cases index with
        | zero =>
          obtain rfl : piece = other := Option.some.inj found
          exact .inl ⟨rfl, reads⟩
        | succ index => exact .inr ⟨index, other, found, rfl, reads⟩
      · rintro (⟨rfl, reads⟩ | ⟨index, other, found, rfl, reads⟩)
        · exact ⟨0, piece, rfl, rfl, reads⟩
        · exact ⟨index + 1, other, found, rfl, reads⟩
    rw [split, ofLines]
    cases reads : ofLine? piece with
    | none => simp
    | some other => simp [eq_comm]

/-- A line that holds a statement is neither blank nor a comment. -/
theorem ofLine?_eq_some_iff {piece : List Char} {statement : Statement} :
    ofLine? piece = some statement ↔
      Text.trim piece ≠ [] ∧ (Text.trim piece).head? ≠ some '#' ∧
        read (Text.trim piece) = statement := by
  unfold ofLine?
  split
  · rename_i blank
    simp [blank]
  · rename_i rest comment
    simp [comment]
  · rename_i filled uncommented
    have head : (Text.trim piece).head? ≠ some '#' := by
      intro begins
      obtain ⟨rest, same⟩ := List.head?_eq_some_iff.1 begins
      exact uncommented rest same
    exact ⟨fun same => ⟨filled, head, Option.some.inj same⟩, fun ⟨_, _, same⟩ => congrArg some same⟩

end Statement

/-- A statement stands on a line of a text: on the piece with that number between line feeds, which
is neither blank nor a comment. -/
structure StandsOn (text : String) (line : Nat) (statement : Statement) (piece : List Char) :
    Prop where
  /-- Lines are counted from one. -/
  counted : 0 < line
  /-- The piece is what is between two line feeds. -/
  found : (text.toList.splitOn '\n')[line - 1]? = some piece
  /-- It is not blank. -/
  filled : Text.trim piece ≠ []
  /-- It is no comment. -/
  uncommented : (Text.trim piece).head? ≠ some '#'
  /-- It is the statement, in white space. -/
  reads : Statement.read (Text.trim piece) = statement

/-- The statements of a text are those that stand on its lines. -/
theorem mem_statements_iff {text : String} {line : Nat} {statement : Statement} :
    (line, statement) ∈ statements text ↔ ∃ piece, StandsOn text line statement piece := by
  have pieces : statements text = Statement.ofLines 1 (text.toList.splitOn '\n') := by
    have cut := Statement.ofLines_linesFrom 1 [] text.toList
    have same : (text.toList.splitOn '\n').modifyHead ([].reverse ++ ·) =
        text.toList.splitOn '\n' := by
      cases text.toList.splitOn '\n' <;> rfl
    rwa [same] at cut
  rw [pieces, Statement.mem_ofLines_iff]
  constructor
  · rintro ⟨index, piece, found, rfl, reads⟩
    obtain ⟨filled, uncommented, same⟩ := Statement.ofLine?_eq_some_iff.1 reads
    exact ⟨piece, by omega, by rwa [Nat.add_sub_cancel_left], filled, uncommented, same⟩
  · rintro ⟨piece, stands⟩
    have counted := stands.counted
    exact ⟨line - 1, piece, stands.found, by omega,
      Statement.ofLine?_eq_some_iff.2 ⟨stands.filled, stands.uncommented, stands.reads⟩⟩

end Statements

/-- A request of a statement on a line: where a line is told, it is that one. -/
def Request.TellsLine (line : Nat) : Request → Prop
  | inspect => True
  | setField .. => True
  | call .. => True
  | print _ => True
  | importName _ told => told = some line
  | exportValue _ _ told => told = some line
  | eval _ _ told => told = some line
  | _ => False

namespace Statements

/-- Whatever the answers are, the evaluation asks only for what is allowed. -/
def Evaluation.Asks (allowed : Request → Prop) {α : Type} (evaluation : Evaluation α) : Prop :=
  evaluation.run.Asks allowed

namespace Evaluation

variable {α β : Type} {allowed : Request → Prop}

/-- An evaluation that only ends. -/
theorem asks_pure (value : α) : (pure value : Evaluation α).Asks allowed := trivial

/-- An evaluation that fails at once. -/
theorem asks_throw (trouble : Trouble) : (throw trouble : Evaluation α).Asks allowed := trivial

/-- Evaluations one after the other. -/
theorem Asks.bind {first : Evaluation α} {next : α → Evaluation β} (asks : first.Asks allowed)
    (rest : ∀ value, (next value).Asks allowed) : (first >>= next).Asks allowed := by
  rw [Asks, run_bind]
  refine Program.Asks.bind asks fun outcome => ?_
  cases outcome with
  | ok value => exact rest value
  | error trouble => trivial

/-- An outcome of the exchange. -/
theorem asks_ofOutcome (outcome : Except Fault α) : (ofOutcome outcome).Asks allowed := by
  rw [Asks, run_ofOutcome]
  trivial

/-- A request that cannot be refused. -/
theorem asks_liftM {program : Program α} (asks : program.Asks allowed) :
    (liftM program : Evaluation α).Asks allowed := by
  rw [Asks, run_liftM]
  exact asks.bind fun _ => trivial

/-- A request that can be refused. -/
theorem asks_request {program : Program (Except Fault α)} (asks : program.Asks allowed) :
    (request program).Asks allowed := by
  rw [Asks, run_request]
  exact asks.bind fun _ => trivial

end Evaluation

open Evaluation
open Program (asks_send)

variable (locals : Fields Item) (line : Nat)

/-- Arguments tell their line if each of them does. -/
theorem evalArguments_tells {arguments : List Expression}
    (each : ∀ argument ∈ arguments, (argument.eval locals line).Asks (Request.TellsLine line)) :
    (Expression.evalArguments locals line arguments).Asks (Request.TellsLine line) := by
  induction arguments with
  | nil => exact asks_pure []
  | cons argument arguments ih =>
    obtain ⟨first, later⟩ := List.forall_mem_cons.1 each
    exact first.bind fun item => (asks_ofOutcome item.toValue).bind fun value =>
      (ih later).bind fun values => asks_pure _

/-- An expression tells its line. -/
theorem eval_tells : (expression : Expression) →
    (expression.eval locals line).Asks (Request.TellsLine line)
  | .imported name => by
    rw [Expression.eval]
    have look : (Program.importName name (some line)).Asks (Request.TellsLine line) := asks_send rfl
    exact (asks_request look).bind fun value => asks_ofOutcome _
  | .call function text arguments => by
    rw [Expression.eval]
    refine (eval_tells function).bind fun item => ?_
    split
    · rename_i reference
      have values :=
        evalArguments_tells locals line fun argument (_ : argument ∈ arguments) =>
          eval_tells argument
      exact values.bind fun values =>
        (asks_request (asks_send trivial)).bind fun value => asks_ofOutcome _
    · exact asks_throw _
  | .path target => by
    rw [Expression.eval]
    split
    · exact asks_throw _
    · exact (asks_liftM (asks_send trivial)).bind fun heap => asks_ofOutcome _
  | .literal item => by
    rw [Expression.eval]
    exact asks_pure item
  | .malformed malformation => by
    rw [Expression.eval]
    exact asks_throw _

/-- A statement tells its line. -/
theorem yields_tells (statement : Statement) :
    (statement.yields locals line).Asks (Request.TellsLine line) := by
  cases statement with
  | bindLocal name source => exact (eval_tells locals line source).bind fun _ => asks_pure _
  | publish name source =>
    have bind (value : Value) :
        (Program.exportValue name value (some line)).Asks (Request.TellsLine line) := asks_send rfl
    exact (eval_tells locals line source).bind fun item =>
      (asks_ofOutcome item.toValue).bind fun value =>
        (asks_liftM (bind value)).bind fun _ => asks_pure _
  | eval language path =>
    have ask : (Program.eval language path (some line)).Asks (Request.TellsLine line) :=
      asks_send rfl
    exact (asks_request ask).bind fun _ => asks_pure _
  | print source =>
    exact (eval_tells locals line source).bind fun item =>
      (asks_request (asks_send trivial)).bind fun _ => asks_pure _
  | setField name field source =>
    refine (eval_tells locals line source).bind fun item => ?_
    split
    · exact (asks_ofOutcome item.toValue).bind fun value =>
        (asks_request (asks_send trivial)).bind fun _ => asks_pure _
    · exact asks_pure _
    · exact asks_throw _
    · exact asks_throw _
  | malformed malformation => exact asks_throw _

/-- A unit has come to a request by a statement, told some answers: the statements before it have
been executed, and it has come to the request with the locals that they left. -/
def Causes (locals : Fields Item) (statements : List (Nat × Statement))
    (answers : List ((request : Request) × request.Answer)) (line : Nat) (statement : Statement)
    (request : Request) : Prop :=
  ∃ earlier later first rest current next,
    statements = earlier ++ (line, statement) :: later ∧ answers = first ++ rest ∧
    (execute locals earlier).Told first (current, .ok ()) ∧
    ((statement.execute line).run.run current).Comes rest (.ask request next)

/-- Statements that have come to a request have done so by one of them. -/
theorem causes_of_comes {locals : Fields Item} {statements : List (Nat × Statement)}
    {answers : List ((request : Request) × request.Answer)} {request : Request}
    {next : request.Answer → Program (Fields Item × Except Trouble Unit)}
    (comes : (execute locals statements).Comes answers (.ask request next)) :
    ∃ line statement, Causes locals statements answers line statement request := by
  induction statements generalizing locals answers with
  | nil => exact absurd comes Program.not_comes_of_done
  | cons first statements ih =>
    obtain ⟨line, statement⟩ := first
    rw [execute_cons] at comes
    -- Either the first statement is the one that asks, or it has ended without a trouble and the
    -- answers are those to it and those to the statements behind it.
    rcases comes.of_bind with ⟨goesOn, inFirst⟩ | ⟨outcome, begun, rest, rfl, told, further⟩
    · refine ⟨line, statement, [], statements, [], answers, locals,
        fun answer => (goesOn answer).bind fun outcome => .done (Execution.conclude locals outcome),
        rfl, rfl, .done _, ?_⟩
      rw [statement.run_execute]
      exact inFirst.bind _
    · cases outcome with
      | error trouble => exact absurd further Program.not_comes_of_done
      | ok between =>
        obtain ⟨place, causing, earlier, later, done, after, current, goesOn, rfl, rfl, executed,
          asks⟩ := ih further
        refine ⟨place, causing, (line, statement) :: earlier, later, begun ++ done, after, current,
          goesOn, rfl, (List.append_assoc _ _ _).symm, ?_, asks⟩
        rw [execute_cons]
        exact told.bind executed

/-- The request that a statement causes tells its line. -/
theorem Causes.tells {locals : Fields Item} {statements : List (Nat × Statement)}
    {answers : List ((request : Request) × request.Answer)} {line : Nat} {statement : Statement}
    {request : Request} (causes : Causes locals statements answers line statement request) :
    request.TellsLine line := by
  obtain ⟨earlier, later, first, rest, current, next, -, -, -, asks⟩ := causes
  have tells : ((statement.execute line).run.run current).Asks (Request.TellsLine line) := by
    rw [statement.run_execute]
    exact Program.Asks.bind (yields_tells current line statement) fun _ => trivial
  exact tells.of_comes asks

/-- The statement that causes a request is one of those that are executed. -/
theorem Causes.mem {locals : Fields Item} {statements : List (Nat × Statement)}
    {answers : List ((request : Request) × request.Answer)} {line : Nat} {statement : Statement}
    {request : Request} (causes : Causes locals statements answers line statement request) :
    (line, statement) ∈ statements := by
  obtain ⟨earlier, later, first, rest, current, next, rfl, -⟩ := causes
  exact List.mem_append_right _ List.mem_cons_self

end Statements

end Interchange
