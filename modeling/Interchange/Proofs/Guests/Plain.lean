import Interchange.Forms.Evaluation
import Interchange.Proofs.Guests.Passing
import Interchange.Proofs.Value.Items
import Interchange.Statements.Statement

/-!
# Plain faults of data

Whatever the guest languages and the exchange do with data, reading fields and items, adding,
turning values into data and back, fails only in plain ways: none of it evaluates anything. What it
comes to if it does not fail may be known to be of a kind (`Fault.ComesTo`).
-/
namespace Interchange

namespace Fault

variable {α β : Type}

/-- A result is no fault. -/
theorem plainly_ok (value : α) : Plainly (.ok value) := fun fault impossible => by
  simp [of?] at impossible

/-- A result is no fault. -/
theorem plainly_pure (value : α) : Plainly (pure value) := plainly_ok value

/-- A plain fault is plain. -/
theorem plainly_error {fault : Fault} (plain : fault.IsPlain) :
    Plainly (.error fault : Except Fault α) := fun other same => by
  simp only [of?, Option.some.injEq] at same
  exact same ▸ plain

/-- One step after another, each plain. -/
theorem Plainly.bind {made : Except Fault α} {next : α → Except Fault β} (first : Plainly made)
    (rest : ∀ value, Plainly (next value)) : Plainly (made >>= next) := by
  cases made with
  | ok value => exact rest value
  | error fault => exact plainly_error (first fault rfl)

/-- Changing a result adds no fault. -/
theorem Plainly.map {made : Except Fault α} (first : Plainly made) (change : α → β) :
    Plainly (made.map change) := by
  cases made with
  | ok value => exact plainly_ok _
  | error fault => exact plainly_error (first fault rfl)

/-- An optional step explained by a plain fault. -/
theorem plainly_orElse {fault : Fault} {found : Option α} (plain : fault.IsPlain) :
    Plainly (orElse fault found) := by
  cases found with
  | none => exact plainly_error plain
  | some value => exact plainly_ok value

/-- A step for each element, all of them plain. -/
theorem plainly_mapM {f : α → Except Fault β} (each : ∀ element, Plainly (f element))
    (list : List α) : Plainly (list.mapM f) := by
  induction list with
  | nil => exact plainly_pure []
  | cons element rest ih =>
    rw [List.mapM_cons]
    exact (each element).bind fun first => ih.bind fun others => plainly_pure _

/-- A step after each element, all of them plain. -/
theorem plainly_foldlM {f : β → α → Except Fault β}
    (each : ∀ state element, Plainly (f state element)) (start : β) (list : List α) :
    Plainly (list.foldlM f start) := by
  induction list generalizing start with
  | nil => exact plainly_pure start
  | cons element rest ih =>
    rw [List.foldlM_cons]
    exact (each start element).bind ih

end Fault

/-- If an outcome is no fault, it is of a kind. -/
def Fault.ComesTo {ε α : Type} (kind : α → Prop) (outcome : Except ε α) : Prop :=
  ∀ value, outcome = .ok value → kind value

namespace Fault

variable {ε ε' α β : Type} {kind : α → Prop} {last : β → Prop}

/-- A value is of its kind. -/
theorem comesTo_ok {value : α} (right : kind value) :
    ComesTo kind (.ok value : Except ε α) := by
  intro other same
  exact Except.ok.inj same ▸ right

/-- A fault is of every kind. -/
theorem comesTo_error (fault : ε) : ComesTo kind (.error fault : Except ε α) := by
  intro value impossible
  cases impossible

/-- Every outcome is of the widest kind. -/
theorem comesTo_any (outcome : Except ε α) : ComesTo (fun _ => True) outcome := fun _ _ => trivial

/-- Of two outcomes, the second decides. -/
theorem ComesTo.bind {first : Except ε α} {next : α → Except ε β} (comes : ComesTo kind first)
    (rest : ∀ value, kind value → ComesTo last (next value)) : ComesTo last (first >>= next) := by
  cases first with
  | ok value => exact rest value (comes value rfl)
  | error fault => exact comesTo_error fault

/-- What is made of a value decides. -/
theorem ComesTo.map {outcome : Except ε α} {change : α → β} (comes : ComesTo kind outcome)
    (changed : ∀ value, kind value → last (change value)) : ComesTo last (outcome.map change) := by
  cases outcome with
  | ok value => exact comesTo_ok (changed value (comes value rfl))
  | error fault => exact comesTo_error fault

/-- Telling a fault in another way leaves values alone. -/
theorem ComesTo.mapError {outcome : Except ε α} (comes : ComesTo kind outcome)
    (change : ε → ε') : ComesTo kind (outcome.mapError change) := by
  cases outcome with
  | ok value => exact comesTo_ok (comes value rfl)
  | error fault => exact comesTo_error (change fault)

/-- What is there or missing. -/
theorem comesTo_orElse {fault : Fault} {found : Option α}
    (right : ∀ value, found = some value → kind value) : ComesTo kind (orElse fault found) := by
  cases found with
  | none => exact comesTo_error fault
  | some value => exact comesTo_ok (right value rfl)

/-- What all elements of a list come to. -/
theorem comesTo_mapM {f : α → Except ε β} {list : List α}
    (each : ∀ element ∈ list, ComesTo last (f element)) :
    ComesTo (fun results => ∀ result ∈ results, last result) (list.mapM f) := by
  induction list with
  | nil => exact comesTo_ok fun result mem => absurd mem List.not_mem_nil
  | cons element rest ih =>
    obtain ⟨here, later⟩ := List.forall_mem_cons.1 each
    rw [List.mapM_cons]
    refine here.bind fun first right => (ih later).bind fun others rights => comesTo_ok ?_
    exact List.forall_mem_cons.2 ⟨right, rights⟩

/-- What a step after each element of a list comes to. -/
theorem comesTo_foldlM {f : α → β → Except ε α}
    (each : ∀ state element, kind state → ComesTo kind (f state element)) {start : α}
    (right : kind start) (list : List β) : ComesTo kind (list.foldlM f start) := by
  induction list generalizing start with
  | nil => exact comesTo_ok right
  | cons element rest ih =>
    rw [List.foldlM_cons]
    exact (each start element right).bind fun state kept => ih kept

end Fault

open Fault

namespace Heap

/-- Reading a field fails in plain ways. -/
theorem plainly_getField (heap : Heap) (reference : Reference) (name : String) :
    Plainly (heap.getField reference name) := by
  unfold getField
  split
  · exact plainly_orElse trivial
  · split
    · exact plainly_ok _
    · exact plainly_error trivial
  · exact plainly_error trivial

/-- Setting a field fails in plain ways. -/
theorem plainly_setField (heap : Heap) (reference : Reference) (name : String) (value : Value) :
    Plainly (heap.setField reference name value) := by
  unfold setField
  split
  · exact plainly_ok _
  · exact plainly_error trivial

/-- Reading an item fails in plain ways. -/
theorem plainly_getIndex (heap : Heap) (reference : Reference) (index : Nat) :
    Plainly (heap.getIndex reference index) := by
  unfold getIndex
  split
  · exact plainly_orElse trivial
  · exact plainly_error trivial

/-- Finding the routine of a function fails in plain ways. -/
theorem plainly_routine (heap : Heap) (reference : Reference) :
    Plainly (heap.routine reference) := by
  unfold routine
  split
  · exact plainly_ok _
  · exact plainly_error trivial

end Heap

namespace Forms

namespace Datum

mutual

/-- A datum without an exchanged value is refused in a plain way. -/
theorem plainly_toValue : (datum : Datum) → Plainly datum.toValue
  | nil => plainly_error trivial
  | bool _ => plainly_error trivial
  | integer _ => plainly_ok _
  | float _ => plainly_ok _
  | string _ => plainly_ok _
  | list items => (plainly_toValues items).bind fun _ => plainly_pure _
  | record fields => (plainly_toPairs fields).bind fun _ => plainly_pure _
  | foreign _ => plainly_ok _

/-- Data are refused in plain ways. -/
theorem plainly_toValues : (data : List Datum) → Plainly (toValues data)
  | [] => plainly_ok _
  | datum :: data =>
    (plainly_toValue datum).bind fun _ => (plainly_toValues data).bind fun _ => plainly_pure _

/-- Named data are refused in plain ways. -/
theorem plainly_toPairs : (fields : List (String × Datum)) → Plainly (toPairs fields)
  | [] => plainly_ok _
  | (_, datum) :: fields =>
    (plainly_toValue datum).bind fun _ => (plainly_toPairs fields).bind fun _ => plainly_pure _

end

/-- Reading a field fails in plain ways. -/
theorem plainly_field (heap : Heap) (name : String) (datum : Datum) :
    Plainly (datum.field heap name) := by
  unfold field
  split
  · exact plainly_orElse trivial
  · exact (heap.plainly_getField _ _).map _
  · exact plainly_error trivial

/-- Reading an item fails in plain ways. -/
theorem plainly_nth (heap : Heap) (position : Nat) (datum : Datum) :
    Plainly (datum.nth heap position) := by
  unfold nth
  split
  · exact plainly_orElse trivial
  · exact (heap.plainly_getIndex _ _).map _
  · exact plainly_error trivial

/-- Taking the length fails in plain ways. -/
theorem plainly_length (heap : Heap) (datum : Datum) : Plainly (datum.length heap) := by
  unfold length
  split
  · exact plainly_ok _
  · exact plainly_ok _
  · exact plainly_ok _
  · exact plainly_orElse trivial
  · exact plainly_error trivial

end Datum

/-- Reading fields one after the other fails in plain ways. -/
theorem plainly_fieldPath (heap : Heap) (names : List (List Char)) (datum : Datum) :
    Plainly (fieldPath heap names datum) := by
  induction names generalizing datum with
  | nil => exact plainly_ok datum
  | cons name names ih => exact (datum.plainly_field heap _).bind ih

/-- Adding an operand fails in plain ways. -/
theorem plainly_addOperand (sum operand : Datum) : Plainly (addOperand sum operand) := by
  unfold addOperand
  split
  · exact plainly_ok _
  · exact plainly_ok _
  · exact plainly_ok _
  · split
    · split
      · exact plainly_ok _
      · exact plainly_error trivial
    · split
      · exact plainly_ok _
      · exact plainly_error trivial
    · exact plainly_error trivial

/-- Adding up fails in plain ways. -/
theorem plainly_sum (operands : List Datum) : Plainly (sum operands) :=
  plainly_foldlM plainly_addOperand _ operands

/-- Taking the text of a string fails in plain ways. -/
theorem plainly_stringOf (datum : Datum) : Plainly (stringOf datum) := by
  unfold stringOf
  split
  · exact plainly_ok _
  · exact plainly_error trivial

/-- Taking a position fails in plain ways. -/
theorem plainly_positionOf (datum : Datum) : Plainly (positionOf datum) := by
  unfold positionOf
  split
  · exact plainly_orElse trivial
  · exact plainly_error trivial

/-- Named data are refused in plain ways. -/
theorem plainly_exchanged (fields : List (String × Datum)) : Plainly (exchanged fields) :=
  plainly_mapM (fun field => field.2.plainly_toValue.bind fun _ => plainly_pure _) fields

end Forms

namespace Statements

namespace Item

mutual

/-- An item without an exchanged value is refused in a plain way. -/
theorem plainly_toValue : (item : Item) → Plainly item.toValue
  | null => plainly_error trivial
  | bool _ => plainly_error trivial
  | number _ => plainly_ok _
  | string _ => plainly_ok _
  | array items => (plainly_toValues items).bind fun _ => plainly_pure _
  | object members => (plainly_toPairs members).bind fun _ => plainly_pure _
  | foreign _ => plainly_ok _

/-- Items are refused in plain ways. -/
theorem plainly_toValues : (items : List Item) → Plainly (toValues items)
  | [] => plainly_ok _
  | item :: items =>
    (plainly_toValue item).bind fun _ => (plainly_toValues items).bind fun _ => plainly_pure _

/-- Named items are refused in plain ways. -/
theorem plainly_toPairs : (members : List (String × Item)) → Plainly (toPairs members)
  | [] => plainly_ok _
  | (_, item) :: members =>
    (plainly_toValue item).bind fun _ => (plainly_toPairs members).bind fun _ => plainly_pure _

end

/-- A value without an item is refused in a plain way. -/
theorem plainly_ofValue (value : Value) : Plainly (ofValue value) := by
  cases made : ofValue value with
  | ok item => exact plainly_ok item
  | error fault =>
    obtain ⟨reason, rfl⟩ := refuses_of_ofValue made
    exact plainly_error trivial

/-- Reading a member fails in plain ways. -/
theorem plainly_field (heap : Heap) (name : String) (item : Item) :
    Plainly (item.field heap name) := by
  unfold field
  split
  · exact plainly_orElse trivial
  · exact (heap.plainly_getField _ _).bind plainly_ofValue
  · exact plainly_error trivial

/-- Reading an item of an array fails in plain ways. -/
theorem plainly_index (heap : Heap) (position : Nat) (item : Item) :
    Plainly (item.index heap position) := by
  unfold index
  split
  · exact plainly_orElse trivial
  · exact (heap.plainly_getIndex _ _).bind plainly_ofValue
  · exact plainly_error trivial

end Item

/-- Following a path fails in plain ways. -/
theorem plainly_follow (heap : Heap) (steps : List Step) (item : Item) :
    Plainly (steps.foldlM (Step.follow heap) item) := by
  refine plainly_foldlM (fun item step => ?_) item steps
  cases step with
  | field name => exact item.plainly_field heap _
  | index position => exact item.plainly_index heap position

end Statements

end Interchange
