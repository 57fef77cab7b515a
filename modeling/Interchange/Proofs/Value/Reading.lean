import Interchange.Proofs.Value.Items
import Interchange.Proofs.Value.Structure
import Interchange.Heap

/-!
# What reading a value looks at

A value is a copy, so reading a part of it comes to the same whatever has happened to the shared
objects; only what a reference in it stands for is looked up when it is read
(`Value.readsAlike_of_references`).
-/
namespace Interchange

namespace Heap

variable {heap other : Heap} {reference : Reference}

/-- A field is read off the object that the reference stands for. -/
theorem getField_congr (same : heap.object? reference = other.object? reference) (name : String) :
    heap.getField reference name = other.getField reference name := by
  simp only [getField, same]

/-- An item is read off the object that the reference stands for. -/
theorem getIndex_congr (same : heap.object? reference = other.object? reference)
    (position : Nat) : heap.getIndex reference position = other.getIndex reference position := by
  simp only [getIndex, same]

/-- The length is read off the object that the reference stands for. -/
theorem length?_congr (same : heap.object? reference = other.object? reference) :
    heap.length? reference = other.length? reference := by
  simp only [length?, same]

end Heap

namespace Value

/-- Reading any part of a value comes to the same whether one heap or another is there: for the
exchange, and for scripts that have turned the value into data of their own. -/
structure ReadsAlike (heap other : Heap) (value : Value) : Prop where
  /-- A field of the value. -/
  field : ∀ name, value.field heap name = value.field other name
  /-- An item of the value. -/
  index : ∀ position, value.index heap position = value.index other position
  /-- A field of the datum of the value. -/
  datumField : ∀ name, (Forms.Datum.ofValue value).field heap name =
    (Forms.Datum.ofValue value).field other name
  /-- An item of the datum of the value. -/
  datumNth : ∀ position, (Forms.Datum.ofValue value).nth heap position =
    (Forms.Datum.ofValue value).nth other position
  /-- The length of the datum of the value. -/
  datumLength : (Forms.Datum.ofValue value).length heap = (Forms.Datum.ofValue value).length other
  /-- A member of the item of the value. -/
  itemField : ∀ item, Statements.Item.ofValue value = .ok item → ∀ name,
    item.field heap name = item.field other name
  /-- An item of the item of the value. -/
  itemIndex : ∀ item, Statements.Item.ofValue value = .ok item → ∀ position,
    item.index heap position = item.index other position

/-- Only a reference is turned into a reference. -/
theorem eq_reference_of_foreign {value : Value} {target : Reference}
    (made : Statements.Item.ofValue value = .ok (.foreign target)) :
    value = .reference target := by
  cases value with
  | reference other =>
    rw [Statements.Item.ofValue] at made
    cases made
    rfl
  | _ =>
    simp only [Statements.Item.ofValue, Outcome.bind_ok_iff, Outcome.pure_ok_iff, Except.ok.injEq,
      reduceCtorEq, and_false, exists_false] at made

/-- Reading a value looks at nothing but the objects that the references in it stand for. -/
theorem readsAlike_of_references {heap other : Heap} {value : Value}
    (same : ∀ reference ∈ value.references, heap.object? reference = other.object? reference) :
    value.ReadsAlike heap other where
  field name := by
    cases value with
    | reference target => exact Heap.getField_congr (same target (by simp)) name
    | _ => rfl
  index position := by
    cases value with
    | reference target => exact Heap.getIndex_congr (same target (by simp)) position
    | _ => rfl
  datumField name := by
    cases value with
    | reference target =>
      have read := Heap.getField_congr (same target (by simp)) name
      simp only [Forms.Datum.ofValue, Forms.Datum.field, read]
    | _ => rfl
  datumNth position := by
    cases value with
    | reference target =>
      have read := Heap.getIndex_congr (same target (by simp)) position
      simp only [Forms.Datum.ofValue, Forms.Datum.nth, read]
    | _ => rfl
  datumLength := by
    cases value with
    | reference target =>
      have read := Heap.length?_congr (same target (by simp))
      simp only [Forms.Datum.ofValue, Forms.Datum.length, read]
    | _ => rfl
  itemField item made name := by
    cases item with
    | foreign target =>
      obtain rfl := eq_reference_of_foreign made
      have read := Heap.getField_congr (same target (by simp)) name
      simp only [Statements.Item.field, read]
    | _ => rfl
  itemIndex item made position := by
    cases item with
    | foreign target =>
      obtain rfl := eq_reference_of_foreign made
      have read := Heap.getIndex_congr (same target (by simp)) position
      simp only [Statements.Item.index, read]
    | _ => rfl

end Value

end Interchange
