import Interchange.Forms.Datum
import Interchange.Proofs.Integer.Exact
import Interchange.Proofs.Outcome
import Interchange.Proofs.Value.Structure
import Interchange.Statements.Item

/-!
# Values in the guest languages and back

What becomes of a value that goes into a guest language and comes out again. The form language
gives every value back unchanged (`Forms.Datum.toValue_ofValue`). The statement language takes a
value exactly if all its numbers are numbers of JSON (`Statements.Item.ofValue_ok_iff`), gives it
back with the fields of its records sorted (`Statements.Item.toValue_of_ofValue`), and otherwise
names itself in the refusal.
-/
namespace Interchange

namespace Value

/-- All numbers in a value, at any depth, are numbers of JSON: integers that a signed or an
unsigned 64-bit word can hold, and finite doubles. What references stand for does not count. -/
inductive FitsJson : Value → Prop where
  /-- An integer has to lie in the range of the words. -/
  | integer {n : Integer} (low : -0x8000000000000000 ≤ n.toInt)
      (high : n.toInt ≤ 0xffffffffffffffff) : FitsJson (.integer n)
  /-- A double has to be finite. -/
  | float {x : Double} (finite : x.isFinite = true) : FitsJson (.float x)
  /-- Every text is a string of JSON. -/
  | text (s : String) : FitsJson (.text s)
  /-- The items of a sequence decide. -/
  | sequence {items : List Value} (inside : ∀ item ∈ items, FitsJson item) :
      FitsJson (.sequence items)
  /-- The fields of a record decide. -/
  | record {fields : List (String × Value)} (inside : ∀ field ∈ fields, FitsJson field.2) :
      FitsJson (.record fields)
  /-- References pass through. -/
  | reference (target : Reference) : FitsJson (.reference target)

/-- Numbers stay the same when fields are sorted. -/
theorem FitsJson.sorted {value : Value} (fits : value.FitsJson) (distinct : value.NamesDistinct) :
    value.sorted.FitsJson := by
  induction value with
  | integer n => exact fits
  | float x => exact fits
  | text s => exact fits
  | sequence items ih =>
    cases fits with
    | sequence fits =>
      cases distinct with
      | sequence distinct =>
        rw [Value.sorted, sortedItems_eq]
        refine .sequence fun item mem => ?_
        obtain ⟨original, there, rfl⟩ := List.mem_map.1 mem
        exact ih original there (fits original there) (distinct original there)
  | record fields ih =>
    cases fits with
    | record fits =>
      cases distinct with
      | record distinct inside =>
        refine .record fun field mem => ?_
        obtain ⟨value, there, same⟩ := (mem_sorted_sortedFields distinct).1 mem
        rw [same]
        exact ih _ there (fits _ there) (inside _ there)
  | reference target => exact fits

end Value

open Outcome

namespace Forms.Datum

/-- The data of values become the values again if each of them does. -/
theorem toValues_ofValues {values : List Value}
    (each : ∀ value ∈ values, toValue (ofValue value) = .ok value) :
    toValues (ofValues values) = .ok values := by
  induction values with
  | nil => rfl
  | cons value values ih =>
    obtain ⟨first, later⟩ := List.forall_mem_cons.1 each
    simp only [ofValues, toValues, bind_ok_iff, pure_ok_iff]
    exact ⟨value, first, values, ih later, rfl⟩

/-- The data of named values become the named values again if each of them does. -/
theorem toPairs_ofPairs {fields : List (String × Value)}
    (each : ∀ field ∈ fields, toValue (ofValue field.2) = .ok field.2) :
    toPairs (ofPairs fields) = .ok fields := by
  induction fields with
  | nil => rfl
  | cons field fields ih =>
    obtain ⟨first, later⟩ := List.forall_mem_cons.1 each
    simp only [ofPairs, toPairs, bind_ok_iff, pure_ok_iff]
    exact ⟨field.2, first, fields, ih later, rfl⟩

/-- The form language gives every value back unchanged, the order of fields included. -/
theorem toValue_ofValue {value : Value} (distinct : value.NamesDistinct) :
    toValue (ofValue value) = .ok value := by
  induction value with
  | integer n => rfl
  | float x => rfl
  | text s => rfl
  | sequence items ih =>
    cases distinct with
    | sequence inside =>
      simp only [ofValue, toValue, bind_ok_iff, pure_ok_iff]
      exact ⟨items, toValues_ofValues fun item mem => ih item mem (inside item mem), rfl⟩
  | record fields ih =>
    cases distinct with
    | record distinct inside =>
      simp only [ofValue, toValue, bind_ok_iff, pure_ok_iff]
      refine ⟨fields, toPairs_ofPairs fun field mem => ih field mem (inside field mem), ?_⟩
      rw [Value.recordOf, Fields.ofPairs_of_nodup distinct]
  | reference target => rfl

end Forms.Datum

namespace Statements.Item

/-- A number of JSON that was made of an integer stands for the integer. -/
theorem numberValue_of_ofInteger {n : Integer} {number : Json.Number}
    (made : ofInteger n = .ok number) : numberValue number = .integer n := by
  unfold ofInteger Json.Number.ofInteger? at made
  cases n with
  | word n =>
    simp only [Integer.toWord?, Fault.orElse, Except.ok.injEq] at made
    subst made
    unfold Json.Number.ofWord
    split
    · rfl
    · rename_i notBelow
      have whole := Integer.toNat_toUInt64 (Int64.not_lt.1 notBelow)
      rw [numberValue, Integer.ofUnsigned_eq, whole, Integer.ofInt_toInt_word]
  | wide n outside =>
    cases held : (Integer.wide n outside).toUnsigned? with
    | none => simp [Integer.toWord?_wide, held, Fault.orElse] at made
    | some word =>
      simp only [Integer.toWord?_wide, held, Option.map_some, Fault.orElse, Except.ok.injEq] at made
      rw [← made, numberValue, Integer.ofUnsigned_of_toUnsigned? held]

/-- An integer is a number of JSON exactly in the range of signed and unsigned words. -/
theorem ofInteger_ok_iff (n : Integer) :
    (∃ number, ofInteger n = .ok number) ↔
      -0x8000000000000000 ≤ n.toInt ∧ n.toInt ≤ 0xffffffffffffffff := by
  unfold ofInteger Json.Number.ofInteger?
  cases n with
  | word n =>
    have low := n.le_toInt
    have high := n.toInt_lt
    simp only [Integer.toWord?, Fault.orElse, Integer.toInt, Except.ok.injEq, exists_eq', true_iff]
    omega
  | wide n outside =>
    have range := Integer.toUnsigned?_isSome_iff (.wide n outside)
    have beyond := outside
    simp only [FitsWord, not_and, Int.not_lt] at beyond
    cases held : (Integer.wide n outside).toUnsigned? with
    | none =>
      simp only [held, Option.isSome_none, Bool.false_eq_true, false_iff, not_and] at range
      simp only [Integer.toWord?_wide, Option.map_none, Fault.orElse, reduceCtorEq, exists_false,
        false_iff, not_and]
      simp only [Integer.toInt] at range ⊢
      omega
    | some word =>
      simp only [held, Option.isSome_some, true_iff] at range
      simp only [Integer.toWord?_wide, Option.map_some, Fault.orElse, Except.ok.injEq, exists_eq',
        true_iff]
      simp only [Integer.toInt] at range ⊢
      omega

/-- A number of JSON that was made of a double stands for the double. -/
theorem numberValue_of_ofDouble {x : Double} {number : Json.Number}
    (made : ofDouble x = .ok number) : numberValue number = .float x := by
  unfold ofDouble Json.Number.ofDouble? at made
  split at made
  · simp only [Fault.orElse, Except.ok.injEq] at made
    rw [← made, numberValue]
  · simp [Fault.orElse] at made

/-- A double is a number of JSON exactly if it is finite. -/
theorem ofDouble_ok_iff (x : Double) :
    (∃ number, ofDouble x = .ok number) ↔ x.isFinite = true := by
  unfold ofDouble Json.Number.ofDouble?
  split <;> simp [Fault.orElse, *]

/-- Values have items exactly if each of them has one. -/
theorem ofValues_ok_iff (values : List Value) :
    (∃ items, ofValues values = .ok items) ↔
      ∀ value ∈ values, ∃ item, ofValue value = .ok item := by
  induction values with
  | nil => simp [ofValues]
  | cons value values ih =>
    simp only [ofValues, bind_ok_iff, pure_ok_iff, List.forall_mem_cons, ← ih]
    constructor
    · rintro ⟨_, item, first, rest, later, _⟩
      exact ⟨⟨item, first⟩, rest, later⟩
    · rintro ⟨⟨item, first⟩, rest, later⟩
      exact ⟨_, item, first, rest, later, rfl⟩

/-- Named values have items exactly if each of them has one. -/
theorem ofPairs_ok_iff (fields : List (String × Value)) :
    (∃ members, ofPairs fields = .ok members) ↔
      ∀ field ∈ fields, ∃ item, ofValue field.2 = .ok item := by
  induction fields with
  | nil => simp [ofPairs]
  | cons field fields ih =>
    simp only [ofPairs, bind_ok_iff, pure_ok_iff, List.forall_mem_cons, ← ih]
    constructor
    · rintro ⟨_, item, first, rest, later, _⟩
      exact ⟨⟨item, first⟩, rest, later⟩
    · rintro ⟨⟨item, first⟩, rest, later⟩
      exact ⟨_, item, first, rest, later, rfl⟩

/-- Going on with what was made changes nothing about whether something was made. -/
theorem returned_ok_iff {α β : Type} (make : α → β) (made : Except Fault α) :
    (∃ result, (do return make (← made) : Except Fault β) = .ok result) ↔
      ∃ part, made = .ok part := by
  simp only [bind_ok_iff, pure_ok_iff]
  exact ⟨fun ⟨_, part, given, _⟩ => ⟨part, given⟩, fun ⟨part, given⟩ => ⟨_, part, given, rfl⟩⟩

/-- Going on with what was made adds no fault. -/
theorem returned_error_iff {α β : Type} {make : α → β} {made : Except Fault α} {fault : Fault} :
    (do return make (← made) : Except Fault β) = .error fault ↔ made = .error fault := by
  simp only [bind_error_iff, pure_ne_error, and_false, exists_false, or_false]

/-- The statement language takes a value exactly if all its numbers are numbers of JSON. -/
theorem ofValue_ok_iff (value : Value) :
    (∃ item, ofValue value = .ok item) ↔ value.FitsJson := by
  induction value with
  | integer n =>
    rw [ofValue, returned_ok_iff, ofInteger_ok_iff]
    exact ⟨fun range => .integer range.1 range.2, fun | .integer low high => ⟨low, high⟩⟩
  | float x =>
    rw [ofValue, returned_ok_iff, ofDouble_ok_iff]
    exact ⟨.float, fun | .float finite => finite⟩
  | text s => exact ⟨fun _ => .text s, fun _ => ⟨_, rfl⟩⟩
  | sequence items ih =>
    rw [ofValue, returned_ok_iff, ofValues_ok_iff]
    exact ⟨fun each => .sequence fun item mem => (ih item mem).1 (each item mem),
      fun | .sequence inside => fun item mem => (ih item mem).2 (inside item mem)⟩
  | record fields ih =>
    rw [ofValue, returned_ok_iff, ofPairs_ok_iff]
    exact ⟨fun each => .record fun field mem => (ih field mem).1 (each field mem),
      fun | .record inside => fun field mem => (ih field mem).2 (inside field mem)⟩
  | reference target => exact ⟨fun _ => .reference target, fun _ => ⟨_, rfl⟩⟩

/-- A refusal in which the statement language names itself. -/
def Refuses (fault : Fault) : Prop := ∃ reason, fault = .unrepresentable languageName reason

/-- The first of some values that has no item decides about the refusal. -/
theorem refuses_of_ofValues {values : List Value} {fault : Fault}
    (each : ∀ value ∈ values, ofValue value = .error fault → Refuses fault)
    (refused : ofValues values = .error fault) : Refuses fault := by
  induction values with
  | nil => simp [ofValues] at refused
  | cons value values ih =>
    obtain ⟨first, later⟩ := List.forall_mem_cons.1 each
    rw [ofValues, bind_error_iff] at refused
    rcases refused with now | ⟨_, _, rest⟩
    · exact first now
    · exact ih later (returned_error_iff.1 rest)

/-- The first of some named values that has no item decides about the refusal. -/
theorem refuses_of_ofPairs {fields : List (String × Value)} {fault : Fault}
    (each : ∀ field ∈ fields, ofValue field.2 = .error fault → Refuses fault)
    (refused : ofPairs fields = .error fault) : Refuses fault := by
  induction fields with
  | nil => simp [ofPairs] at refused
  | cons field fields ih =>
    obtain ⟨first, later⟩ := List.forall_mem_cons.1 each
    rw [ofPairs, bind_error_iff] at refused
    rcases refused with now | ⟨_, _, rest⟩
    · exact first now
    · exact ih later (returned_error_iff.1 rest)

/-- A value is refused by the statement language in its own name. -/
theorem refuses_of_ofValue {value : Value} {fault : Fault}
    (refused : ofValue value = .error fault) : Refuses fault := by
  induction value with
  | integer n =>
    rw [ofValue, returned_error_iff] at refused
    unfold ofInteger Fault.orElse at refused
    split at refused
    · simp at refused
    · exact ⟨_, (Except.error.inj refused).symm⟩
  | float x =>
    rw [ofValue, returned_error_iff] at refused
    unfold ofDouble Fault.orElse at refused
    split at refused
    · simp at refused
    · exact ⟨_, (Except.error.inj refused).symm⟩
  | text s => simp [ofValue] at refused
  | sequence items ih =>
    rw [ofValue, returned_error_iff] at refused
    exact refuses_of_ofValues ih refused
  | record fields ih =>
    rw [ofValue, returned_error_iff] at refused
    exact refuses_of_ofPairs ih refused
  | reference target => simp [ofValue] at refused

/-- Named items have values exactly if each of them has one, under its name. -/
theorem toPairs_eq_ok_iff {members : List (String × Item)} {pairs : List (String × Value)} :
    toPairs members = .ok pairs ↔
      Fields.Matched (fun item value => item.toValue = .ok value) members pairs := by
  induction members generalizing pairs with
  | nil => simp [toPairs, Fields.Matched, eq_comm]
  | cons member members ih =>
    simp only [toPairs, bind_ok_iff, pure_ok_iff, ih, Fields.Matched, List.forall₂_cons_left_iff]
    constructor
    · rintro ⟨value, given, rest, matched, rfl⟩
      exact ⟨(member.1, value), rest, ⟨rfl, given⟩, matched, rfl⟩
    · rintro ⟨⟨name, value⟩, rest, ⟨rfl, given⟩, matched, rfl⟩
      exact ⟨value, given, rest, matched, rfl⟩

/-- Named values have items exactly if each of them has one, under its name. -/
theorem ofPairs_eq_ok_iff {fields : List (String × Value)} {members : List (String × Item)} :
    ofPairs fields = .ok members ↔
      Fields.Matched (fun value item => ofValue value = .ok item) fields members := by
  induction fields generalizing members with
  | nil => simp [ofPairs, Fields.Matched, eq_comm]
  | cons field fields ih =>
    simp only [ofPairs, bind_ok_iff, pure_ok_iff, ih, Fields.Matched, List.forall₂_cons_left_iff]
    constructor
    · rintro ⟨item, made, rest, matched, rfl⟩
      exact ⟨(field.1, item), rest, ⟨rfl, made⟩, matched, rfl⟩
    · rintro ⟨⟨name, item⟩, rest, ⟨rfl, made⟩, matched, rfl⟩
      exact ⟨item, made, rest, matched, rfl⟩

/-- Sorting items sorts their values. -/
theorem toPairs_sorted {members : List (String × Item)} {pairs : List (String × Value)}
    (given : toPairs members = .ok pairs) :
    toPairs (Fields.sorted members) = .ok (Fields.sorted pairs) :=
  toPairs_eq_ok_iff.2 (toPairs_eq_ok_iff.1 given).sorted

/-- Sorting values sorts their items. -/
theorem ofPairs_sorted {fields : List (String × Value)} {members : List (String × Item)}
    (made : ofPairs fields = .ok members) :
    ofPairs (Fields.sorted fields) = .ok (Fields.sorted members) :=
  ofPairs_eq_ok_iff.2 (ofPairs_eq_ok_iff.1 made).sorted

/-- Items that were made of values become the values again, with their fields sorted, if each
of them does. -/
theorem toValues_of_ofValues {values : List Value} {items : List Item}
    (each : ∀ value ∈ values, ∀ item, ofValue value = .ok item →
      item.toValue = .ok value.sorted)
    (made : ofValues values = .ok items) :
    toValues items = .ok (Value.sortedItems values) := by
  induction values generalizing items with
  | nil =>
    obtain rfl := Except.ok.inj made
    rfl
  | cons value values ih =>
    obtain ⟨givesBack, later⟩ := List.forall_mem_cons.1 each
    simp only [ofValues, bind_ok_iff, pure_ok_iff] at made
    obtain ⟨item, first, rest, made, rfl⟩ := made
    simp only [toValues, bind_ok_iff, pure_ok_iff]
    exact ⟨_, givesBack item first, _, ih later made, rfl⟩

/-- Named items that were made of values become the values again, with their fields sorted, if
each of them does. -/
theorem toPairs_of_ofPairs {fields : List (String × Value)} {members : List (String × Item)}
    (each : ∀ field ∈ fields, ∀ item, ofValue field.2 = .ok item →
      item.toValue = .ok field.2.sorted)
    (made : ofPairs fields = .ok members) :
    toPairs members = .ok (Value.sortedFields fields) := by
  induction fields generalizing members with
  | nil =>
    obtain rfl := Except.ok.inj made
    rfl
  | cons field fields ih =>
    obtain ⟨givesBack, later⟩ := List.forall_mem_cons.1 each
    simp only [ofPairs, bind_ok_iff, pure_ok_iff] at made
    obtain ⟨item, first, rest, made, rfl⟩ := made
    simp only [toPairs, bind_ok_iff, pure_ok_iff]
    exact ⟨_, givesBack item first, _, ih later made, rfl⟩

/-- The statement language gives a value that it has taken back with its fields sorted. -/
theorem toValue_of_ofValue {value : Value} {item : Item} (made : ofValue value = .ok item) :
    item.toValue = .ok value.sorted := by
  induction value generalizing item with
  | integer n =>
    simp only [ofValue, bind_ok_iff, pure_ok_iff] at made
    obtain ⟨number, made, rfl⟩ := made
    rw [toValue, numberValue_of_ofInteger made, Value.sorted]
  | float x =>
    simp only [ofValue, bind_ok_iff, pure_ok_iff] at made
    obtain ⟨number, made, rfl⟩ := made
    rw [toValue, numberValue_of_ofDouble made, Value.sorted]
  | text s =>
    obtain rfl := Except.ok.inj made
    rfl
  | sequence items ih =>
    simp only [ofValue, bind_ok_iff, pure_ok_iff] at made
    obtain ⟨parts, made, rfl⟩ := made
    simp only [toValue, bind_ok_iff, pure_ok_iff]
    exact ⟨_, toValues_of_ofValues (fun item mem made => ih item mem) made, rfl⟩
  | record fields ih =>
    simp only [ofValue, bind_ok_iff, pure_ok_iff] at made
    obtain ⟨members, made, rfl⟩ := made
    simp only [toValue, bind_ok_iff, pure_ok_iff]
    refine ⟨_, toPairs_sorted (toPairs_of_ofPairs (fun field mem made => ih field mem) made), ?_⟩
    rw [Value.recordOf, Value.sorted,
      Fields.ofPairs_of_nodup (Fields.sorted_isSorted (Value.sortedFields fields)).nodup]
  | reference target =>
    obtain rfl := Except.ok.inj made
    rfl

end Statements.Item

end Interchange
