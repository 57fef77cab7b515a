import Interchange.Host.Routine
import Interchange.Proofs.Guests.Distinct

/-!
# Routines of a host keep names distinct

The functions and the lazily exported computations of a host come only to values that have no name
twice in a record if they are given only such values (`Host.routines_keepDistinct`).
-/
namespace Interchange

open Fault

/-- Given only values that have no name twice in a record, the routines hand over only such values
and come to such values. -/
def Routines.KeepDistinct (routines : Routines) : Prop :=
  ∀ routine arguments, (∀ argument ∈ arguments, argument.NamesDistinct) →
    (routines routine arguments).Distinct (ComesTo Value.NamesDistinct)

namespace Value

variable {heap : Heap} {value : Value}

/-- Fields of values in which no record has a name twice are such values. -/
theorem NamesDistinct.comesTo_field (distinct : value.NamesDistinct) (held : heap.NamesDistinct)
    (name : String) : ComesTo NamesDistinct (value.field heap name) := by
  intro part read
  have followed : value.follow heap (.field name.toList) = .ok part := by
    rw [Value.follow, String.ofList_toList]
    exact read
  exact distinct.follow held followed

/-- So are their items. -/
theorem NamesDistinct.comesTo_index (distinct : value.NamesDistinct) (held : heap.NamesDistinct)
    (position : Nat) : ComesTo NamesDistinct (value.index heap position) :=
  fun part read => @NamesDistinct.follow heap value part (.index position) distinct held read

end Value

namespace Host

open Program (distinct_send)

namespace Function

variable {arguments : List Value}

/-- An argument is one of those given. -/
theorem comesTo_argument (given : ∀ argument ∈ arguments, argument.NamesDistinct)
    (position : Nat) (expected : String) :
    ComesTo Value.NamesDistinct (argument arguments position expected) :=
  comesTo_orElse fun value found => given value (List.mem_of_getElem? found)

/-- Going on with an outcome. -/
theorem distinct_withOutcome {α β : Type} {kind : α → Prop} {last : β → Prop}
    {outcome : Except Fault α} {next : α → Program (Except Fault β)} (comes : ComesTo kind outcome)
    (rest : ∀ value, kind value → (next value).Distinct (ComesTo last)) :
    (withOutcome outcome next).Distinct (ComesTo last) := by
  cases outcome with
  | ok value => exact rest value (comes value rfl)
  | error fault => exact comesTo_error fault

/-- All functions keep names distinct. -/
theorem program_distinct (function : Function)
    (given : ∀ argument ∈ arguments, argument.NamesDistinct) :
    (function.program arguments).Distinct (ComesTo Value.NamesDistinct) := by
  cases function with
  | double => exact (comesTo_any (integerAt arguments 0)).map fun n _ => .integer (n + n)
  | greet => exact (comesTo_any (textAt arguments 0)).map fun name _ => .text ("hello, " ++ name)
  | args => exact comesTo_ok (.sequence given)
  | count => exact comesTo_ok (.integer _)
  | fail => exact comesTo_error _
  | nan => exact comesTo_ok (.float _)
  | big => exact comesTo_ok (.integer _)
  | importName =>
    exact distinct_withOutcome (comesTo_any _) fun name _ =>
      distinct_send (.importName name none) trivial
  | exportValue =>
    refine distinct_withOutcome (comesTo_argument given 1 _) fun value distinct => ?_
    refine distinct_withOutcome (comesTo_any _) fun name _ => ?_
    exact (distinct_send (.exportValue name value none) distinct).bind fun _ _ =>
      comesTo_ok distinct
  | field =>
    refine distinct_withOutcome (comesTo_argument given 0 _) fun value distinct => ?_
    refine distinct_withOutcome (comesTo_any _) fun name _ => ?_
    exact (distinct_send .inspect trivial).bind fun heap held => distinct.comesTo_field held name
  | index =>
    refine distinct_withOutcome (comesTo_argument given 0 _) fun value distinct => ?_
    refine distinct_withOutcome (comesTo_any _) fun position _ => ?_
    exact (distinct_send .inspect trivial).bind fun heap held =>
      distinct.comesTo_index held position
  | evaluate =>
    refine distinct_withOutcome (comesTo_any _) fun language _ => ?_
    refine distinct_withOutcome (comesTo_any _) fun text _ => ?_
    refine distinct_withOutcome (comesTo_any _) fun context _ => ?_
    exact (distinct_send (.evaluate ⟨context⟩ ⟨language, "nested", text⟩) trivial).bind
      fun answer _ => (comesTo_any answer).map fun _ _ => .text "done"

end Function

namespace Thunk

/-- Looking names up in order. -/
theorem importAll_distinct (names : List String) :
    (importAll names).run.Distinct
      (ComesTo fun values => ∀ value ∈ values, value.NamesDistinct) := by
  induction names with
  | nil => exact comesTo_ok fun value mem => absurd mem List.not_mem_nil
  | cons name names ih =>
    have imports := distinct_send (.importName name none) trivial
    exact Program.Distinct.andThen imports fun value first => ih.andThen fun values others =>
      comesTo_ok (List.forall_mem_cons.2 ⟨first, others⟩)

/-- Adding up what names are bound to. -/
theorem addAll_distinct (sum : Integer) (names : List String) :
    (addAll sum names).run.Distinct (ComesTo fun _ => True) := by
  induction names generalizing sum with
  | nil => exact comesTo_any _
  | cons name names ih =>
    have imports := distinct_send (.importName name none) trivial
    refine Program.Distinct.andThen imports fun value _ => ?_
    have taken : (ExceptT.mk (return value.asInteger) :
        ExceptT Fault Program Integer).run.Distinct (ComesTo fun _ => True) := comesTo_any _
    exact taken.andThen fun n _ => ih (sum + n)

/-- No value that the result is given has a name twice in a record. -/
def ResultDistinct : ThunkResult → Prop
  | .value value => value.NamesDistinct
  | _ => True

/-- Coming to a result. -/
theorem conclude_distinct (run : Nat) {result : ThunkResult} (distinct : ResultDistinct result) :
    (conclude run result).run.Distinct (ComesTo Value.NamesDistinct) := by
  cases result with
  | fail name => exact comesTo_error _
  | importName name => exact distinct_send (.importName name none) trivial
  | sum names => exact (addAll_distinct _ names).andThen fun n _ => comesTo_ok (.integer n)
  | list names =>
    exact (importAll_distinct names).andThen fun values given => comesTo_ok (.sequence given)
  | runs => exact comesTo_ok (.integer _)
  | value value => exact comesTo_ok distinct

/-- No value that the thunk is given has a name twice in a record. -/
structure NamesDistinct (thunk : Thunk) : Prop where
  /-- What it exports. -/
  publishes : ∀ name value, thunk.publishes = some (name, value) → value.NamesDistinct
  /-- What it comes to. -/
  result : ResultDistinct thunk.result

/-- Evaluating a unit, if there is one, before going on. -/
theorem evaluates_distinct {evaluates : Option SourceUnit} {rest : ExceptT Fault Program Value}
    (distinct : rest.run.Distinct (ComesTo Value.NamesDistinct)) :
    (match evaluates with
      | some unit => ExceptT.mk (Program.evalUnit unit) >>= fun _ => rest
      | none => rest : ExceptT Fault Program Value).run.Distinct (ComesTo Value.NamesDistinct) := by
  cases evaluates with
  | none => exact distinct
  | some unit =>
    have evaluated := (distinct_send (.evalUnit unit) trivial).mono
      fun answer _ => comesTo_any answer
    exact Program.Distinct.andThen evaluated fun _ _ => distinct

/-- Exporting something, if there is something to export, before going on. -/
theorem publishes_distinct {publishes : Option (String × Value)}
    {rest : ExceptT Fault Program Value}
    (distinct : rest.run.Distinct (ComesTo Value.NamesDistinct)) :
    (∀ name value, publishes = some (name, value) → value.NamesDistinct) →
    (match publishes with
      | some (name, value) => liftM (Program.exportValue name value none) >>= fun _ => rest
      | none => rest : ExceptT Fault Program Value).run.Distinct (ComesTo Value.NamesDistinct) := by
  intro given
  cases publishes with
  | none => exact distinct
  | some published =>
    have exported := distinct_send (.exportValue published.1 published.2 none) (given _ _ rfl)
    exact exported.lift.andThen fun _ _ => distinct

/-- A thunk keeps names distinct. -/
theorem program_distinct {thunk : Thunk} (distinct : thunk.NamesDistinct) :
    thunk.program.Distinct (ComesTo Value.NamesDistinct) := by
  have ends (run : Nat) := conclude_distinct run distinct.result
  have goesOn (run : Nat) :=
    publishes_distinct (@evaluates_distinct thunk.evaluates _ (ends run)) distinct.publishes
  have tallies := distinct_send (.tally thunk.name) trivial
  unfold program attempt
  refine tallies.lift.andThen fun run _ => ?_
  by_cases early : run ≤ thunk.failures
  · rw [if_pos early]
    have failed : (throw (.unresolvedName ("attempt " ++ run.repr)) :
        ExceptT Fault Program Unit).run.Distinct (ComesTo fun _ => True) := comesTo_any _
    exact failed.andThen fun _ _ => goesOn run
  · rw [if_neg early]
    exact goesOn run

end Thunk

/-- No value that the routine is given has a name twice in a record. -/
def Routine.NamesDistinct : Routine → Prop
  | function _ => True
  | thunk work => work.NamesDistinct

/-- The routines of a host keep names distinct if they are given only values that do. -/
theorem routines_keepDistinct {supplied : List Routine}
    (distinct : ∀ routine ∈ supplied, routine.NamesDistinct) :
    (routines supplied).KeepDistinct := by
  intro number arguments given
  unfold routines
  split
  · rename_i routine found
    have kept := distinct routine (List.mem_of_getElem? found)
    cases routine with
    | function work => exact work.program_distinct given
    | thunk work => exact Thunk.program_distinct kept
  · exact comesTo_error _

end Host

end Interchange
