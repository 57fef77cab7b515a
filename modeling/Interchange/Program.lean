import Interchange.Context.Info
import Interchange.Heap
import Interchange.Report

/-!
# Programs and what they ask for

A program is what a running script, a host function or a lazily exported computation does, told
from the outside: it asks the exchange for one thing after another, each time going on with the
answer, and ends with a result. Nothing else about it can be seen by others, so everything the
exchange guarantees holds for all programs alike, whatever language they are written in.
-/
namespace Interchange

/-- A piece of source text with the language it is written in and the path it goes by. -/
structure SourceUnit where
  /-- The name of the language. -/
  language : String
  /-- The path the text goes by. -/
  path : String
  /-- The text. -/
  text : String
  deriving DecidableEq

/-- What an engine and its registry tell of themselves to anyone who asks. -/
inductive Query where
  /-- The bookkeeping of a context. -/
  | context (id : ContextId)
  /-- The contexts that a context asked for. -/
  | children (id : ContextId)
  /-- How many contexts there are. -/
  | contextCount
  /-- The names of the languages. -/
  | languages
  /-- The report on what has happened so far. -/
  | report
  /-- The names that are bound. -/
  | names
  /-- The context that bound a name. -/
  | originOf (name : String)
  /-- Whether a journal is kept. -/
  | isJournaling
  /-- The events of the journal. -/
  | events

/-- What comes back for a query. -/
@[reducible] def Query.Answer : Query → Type
  | context _ => Except Fault ContextInfo
  | children _ => List ContextId
  | contextCount => Nat
  | languages => List String
  | report => Report
  | names => List String
  | originOf _ => Option ContextId
  | isJournaling => Bool
  | events => List Event

/-- What a program can ask for. -/
inductive Request where
  /-- To see the shared objects as they are now. -/
  | inspect
  /-- To be told something about the first engine or its registry. -/
  | look (query : Query)
  /-- A new shared record. -/
  | allocate (pairs : List (String × Value))
  /-- To set a field of a shared object. -/
  | setField (target : Reference) (name : String) (value : Value)
  /-- To call a function. -/
  | call (function : Reference) (arguments : List Value)
  /-- The value bound to a name. -/
  | importName (name : String) (line : Option Nat)
  /-- To bind a name to a value. -/
  | exportValue (name : String) (value : Value) (line : Option Nat)
  /-- To bind a name to the result of a routine that is run when the name is first looked up. -/
  | exportLazy (name : String) (routine : Nat)
  /-- To evaluate a source in a new context below the program's own. -/
  | eval (language path : String) (line : Option Nat)
  /-- To evaluate a unit in a context that is already there. -/
  | evaluate (context : ContextId) (unit : SourceUnit)
  /-- To evaluate a unit in a new context below the host. -/
  | evalUnit (unit : SourceUnit)
  /-- To print a line. -/
  | print (line : String)
  /-- To be counted under a name, and to know how often that has happened. -/
  | tally (name : String)

/-- What comes back for a request. -/
@[reducible] def Request.Answer : Request → Type
  | inspect => Heap
  | look query => query.Answer
  | allocate .. => Reference
  | setField .. => Except Fault Unit
  | call .. => Except Fault Value
  | importName .. => Except Fault Value
  | exportValue .. => Unit
  | exportLazy .. => Unit
  | eval .. => Except Fault ContextId
  | evaluate .. => Except Fault Unit
  | evalUnit .. => Except Fault ContextId
  | print .. => Except Fault Unit
  | tally .. => Nat

/-- A computation that may ask for things and ends with a result. -/
inductive Program (α : Type) : Type where
  /-- End with a result. -/
  | done (result : α)
  /-- Ask for something and go on with the answer. -/
  | ask (request : Request) (next : request.Answer → Program α)

namespace Program

variable {α β γ : Type}

/-- Go on with the result of a program. -/
def bind : Program α → (α → Program β) → Program β
  | done result, next => next result
  | ask request rest, next => ask request fun answer => (rest answer).bind next

instance : Monad Program where
  pure := done
  bind := bind

/-- Going on twice is going on with a longer program. -/
theorem bind_assoc (program : Program α) (first : α → Program β) (second : β → Program γ) :
    (program.bind first).bind second = program.bind fun result => (first result).bind second := by
  induction program with
  | done result => rfl
  | ask request rest ih => simp only [bind, ih]

/-- Going on with nothing changes nothing. -/
theorem bind_done (program : Program α) : program.bind done = program := by
  induction program with
  | done result => rfl
  | ask request rest ih => simp only [bind, ih]

instance : LawfulMonad Program := LawfulMonad.mk' Program bind_done (fun _ _ => rfl) bind_assoc

/-- A program that asks for one thing and ends with the answer. -/
def send (request : Request) : Program request.Answer := ask request done

/-- See the shared objects as they are now. -/
def inspect : Program Heap := send .inspect

/-- Be told something about the first engine or its registry. -/
def look (query : Query) : Program query.Answer := send (.look query)

/-- Make a shared record. -/
def allocate (pairs : List (String × Value)) : Program Reference := send (.allocate pairs)

/-- Set a field of a shared object. -/
def setField (target : Reference) (name : String) (value : Value) :
    Program (Except Fault Unit) :=
  send (.setField target name value)

/-- Call a function. -/
def call (function : Reference) (arguments : List Value) : Program (Except Fault Value) :=
  send (.call function arguments)

/-- Look up a name. -/
def importName (name : String) (line : Option Nat) : Program (Except Fault Value) :=
  send (.importName name line)

/-- Bind a name to a value. -/
def exportValue (name : String) (value : Value) (line : Option Nat) : Program Unit :=
  send (.exportValue name value line)

/-- Bind a name to the result of a routine. -/
def exportLazy (name : String) (routine : Nat) : Program Unit := send (.exportLazy name routine)

/-- Evaluate a source in a new context. -/
def eval (language path : String) (line : Option Nat) : Program (Except Fault ContextId) :=
  send (.eval language path line)

/-- Evaluate a unit in a context that is already there. -/
def evaluate (context : ContextId) (unit : SourceUnit) : Program (Except Fault Unit) :=
  send (.evaluate context unit)

/-- Evaluate a unit in a new context below the host. -/
def evalUnit (unit : SourceUnit) : Program (Except Fault ContextId) := send (.evalUnit unit)

/-- Print a line. -/
def print (line : String) : Program (Except Fault Unit) := send (.print line)

/-- Be counted under a name. -/
def tally (name : String) : Program Nat := send (.tally name)

end Program

/-- Where a program is at work: what a session is told about the unit it evaluates. -/
structure Scope where
  /-- The context of the session. -/
  context : ContextId
  /-- The language of the unit. -/
  language : String
  /-- The path of the unit. -/
  path : String

end Interchange
