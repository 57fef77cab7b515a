import Interchange.Heap
import Interchange.Proofs.Value.Native
import Mathlib.Data.List.Perm.Subperm

/-!
# Equality as an equivalence that reading respects

Two records are compared in one direction only: each field of the first is looked for in the
second. As no name is repeated and both have as many fields, each name then stands for equal values
in both or for nothing in both (`Value.equal_record_iff`), and in that form the comparison can be
turned round and chained. So equality is an equivalence on the values that the exchange can make
(`Value.equal_symm`, `Value.equal_trans`), and reading the same part of equal values comes to equal
values (`Value.field_agrees`, `Value.index_agrees`).
-/
namespace Interchange

/-- The values that an object holds. -/
def SharedObject.values : SharedObject → List Value
  | .record fields => fields.map Prod.snd
  | .array items => items
  | .function .. => []
  | .handle => []

/-- No record in a value that some object holds has a name twice. -/
def Heap.NamesDistinct (heap : Heap) : Prop :=
  ∀ object ∈ heap.objects, ∀ value ∈ object.values, value.NamesDistinct

section Pairing

variable {α : Type} {R : α → α → Prop}

/-- What is paired off can be paired off the other way round if each pair can be. -/
theorem forall₂_turn {items others : List α}
    (turn : ∀ item ∈ items, ∀ other ∈ others, R item other → R other item)
    (paired : List.Forall₂ R items others) : List.Forall₂ R others items := by
  induction paired with
  | nil => exact .nil
  | cons first _ ih =>
    refine .cons (turn _ List.mem_cons_self _ List.mem_cons_self first)
      (ih fun item mem other there => ?_)
    exact turn item (List.mem_cons_of_mem _ mem) other (List.mem_cons_of_mem _ there)

/-- What is paired off twice can be paired off at once if each two pairs can be. -/
theorem forall₂_chain {items between others : List α}
    (chain : ∀ item ∈ items, ∀ middle ∈ between, ∀ other ∈ others,
      R item middle → R middle other → R item other)
    (paired : List.Forall₂ R items between) (further : List.Forall₂ R between others) :
    List.Forall₂ R items others := by
  induction paired generalizing others with
  | nil => exact further
  | cons first _ ih =>
    cases further with
    | cons second later =>
      have here := chain _ List.mem_cons_self _ List.mem_cons_self _ List.mem_cons_self first second
      refine .cons here (ih (fun item mem middle between other there => ?_) later)
      exact chain item (List.mem_cons_of_mem _ mem) middle (List.mem_cons_of_mem _ between) other
        (List.mem_cons_of_mem _ there)

/-- What is paired off stands at the same positions. -/
theorem optionRel_of_forall₂ {β : Type} {related : α → β → Prop} {items : List α} {others : List β}
    (paired : List.Forall₂ related items others) (position : Nat) :
    Option.Rel related items[position]? others[position]? := by
  induction paired generalizing position with
  | nil => exact .none
  | cons first _ ih =>
    cases position with
    | zero => exact .some first
    | succ position => exact ih position

/-- What is there in both or in neither can be compared the other way round. -/
theorem optionRel_turn {found other : Option α}
    (turn : ∀ a, found = some a → ∀ b, other = some b → R a b → R b a)
    (related : Option.Rel R found other) : Option.Rel R other found := by
  cases related with
  | none => exact .none
  | some here => exact .some (turn _ rfl _ rfl here)

/-- What is there in all three or in none can be compared at once. -/
theorem optionRel_chain {found between other : Option α}
    (chain : ∀ a, found = some a → ∀ b, between = some b → ∀ c, other = some c →
      R a b → R b c → R a c)
    (related : Option.Rel R found between) (further : Option.Rel R between other) :
    Option.Rel R found other := by
  cases related with
  | none => exact further
  | some here =>
    cases further with
    | some there => exact .some (chain _ rfl _ rfl _ rfl here there)

/-- What is there in one of them is there in the other. -/
theorem isSome_eq_of_optionRel {found other : Option α} (related : Option.Rel R found other) :
    found.isSome = other.isSome := by
  cases related <;> rfl

end Pairing

namespace Value

/-- Every record that is made of such values has each name once. -/
theorem NamesDistinct.recordOf {pairs : List (String × Value)}
    (inside : ∀ pair ∈ pairs, pair.2.NamesDistinct) : (recordOf pairs).NamesDistinct :=
  have made := Fields.ofPairs_of_pairs pairs
  .record made.1 fun field mem => inside field (made.2 field mem)

section Shapes

variable {other : Value}

/-- Only the same integer is equal to an integer. -/
theorem equal_integer_iff {n : Integer} : (integer n).equal other = true ↔ other = integer n := by
  cases other <;> simp [eq_comm (a := n)]

/-- Only the same bits are equal to a double. -/
theorem equal_float_iff {x : Double} : (float x).equal other = true ↔ other = float x := by
  cases other <;> simp [eq_comm (a := x)]

/-- Only the same text is equal to a text. -/
theorem equal_text_iff {s : String} : (text s).equal other = true ↔ other = text s := by
  cases other <;> simp [eq_comm (a := s)]

/-- Equal to a sequence are the sequences with equal items at the same positions. -/
theorem equal_sequence_iff {items : List Value} :
    (sequence items).equal other = true ↔ ∃ others, other = sequence others ∧
      List.Forall₂ (fun item other => item.equal other = true) items others := by
  cases other <;> simp [equalItems_iff]

/-- Equal to a reference are the references to the same object. -/
theorem equal_reference_iff {target : Reference} :
    (reference target).equal other = true ↔
      ∃ same, other = reference same ∧ target.object = same.object := by
  cases other <;> simp

/-- Only a record is equal to a record. -/
theorem exists_of_equal_record {fields : Fields Value}
    (alike : (record fields).equal other = true) : ∃ others, other = record others := by
  cases other <;> simp at alike ⊢

end Shapes

/-- The fields of a record are within others if each of them has an equal one there. -/
theorem equalWithin_iff {fields others : Fields Value} :
    equalWithin fields others = true ↔
      ∀ field ∈ fields, ∃ other, others.find? field.1 = some other ∧
        field.2.equal other = true := by
  induction fields with
  | nil => simp
  | cons field fields ih =>
    rw [equalWithin, Bool.and_eq_true, ih, List.forall_mem_cons]
    refine and_congr_left fun _ => ?_
    cases others.find? field.1 <;> simp

/-- A name stands for equal values in two records, or for none in both. -/
def StandsAlike (fields others : Fields Value) (name : String) : Prop :=
  Option.Rel (fun value other => value.equal other = true) (fields.find? name) (others.find? name)

/-- Two records in which each name stands alike have the same names. -/
theorem names_perm_of_standsAlike {fields others : Fields Value} (distinct : fields.names.Nodup)
    (otherDistinct : others.names.Nodup) (alike : ∀ name, StandsAlike fields others name) :
    fields.names.Perm others.names := by
  refine (List.perm_ext_iff_of_nodup distinct otherDistinct).2 fun name => ?_
  rw [← Fields.find?_isSome_iff, ← Fields.find?_isSome_iff, isSome_eq_of_optionRel (alike name)]

/-- Records are equal exactly if each name stands for equal values in both, or for none in both. -/
theorem equal_record_iff {fields others : Fields Value} (distinct : fields.names.Nodup)
    (otherDistinct : others.names.Nodup) :
    (record fields).equal (record others) = true ↔ ∀ name, StandsAlike fields others name := by
  have length_names (entries : Fields Value) : entries.names.length = entries.length :=
    List.length_map _
  rw [equal, Bool.and_eq_true, beq_iff_eq, equalWithin_iff]
  constructor
  · rintro ⟨length, matched⟩ name
    have within : fields.names ⊆ others.names := by
      intro name mem
      obtain ⟨field, there, rfl⟩ := List.mem_map.1 mem
      obtain ⟨other, found, _⟩ := matched field there
      exact (Fields.find?_isSome_iff _ _).1 (Option.isSome_iff_exists.2 ⟨other, found⟩)
    -- Neither has a name that the other has not, as both have as many.
    have same : fields.names.Perm others.names :=
      (List.subperm_of_subset distinct within).perm_of_length_le
        (by rw [length_names, length_names]; exact Nat.le_of_eq length.symm)
    rw [StandsAlike]
    cases found : fields.find? name with
    | some value =>
      obtain ⟨other, there, alike⟩ := matched _ (Fields.mem_of_find? found)
      rw [there]
      exact .some alike
    | none =>
      have absent : ¬ (others.find? name).isSome = true := by
        rw [Fields.find?_isSome_iff, ← same.mem_iff, ← Fields.find?_isSome_iff, found]
        exact Bool.false_ne_true
      rw [Option.not_isSome_iff_eq_none.1 absent]
      exact .none
  · intro matched
    have same := names_perm_of_standsAlike distinct otherDistinct matched
    refine ⟨by rw [← length_names, ← length_names, same.length_eq], fun field mem => ?_⟩
    have stands := matched field.1
    rw [StandsAlike, Fields.find?_of_mem distinct mem] at stands
    generalize others.find? field.1 = found at stands ⊢
    cases stands with
    | some alike => exact ⟨_, rfl, alike⟩

/-- Equality can be turned round. -/
theorem equal_symm {value other : Value} (distinct : value.NamesDistinct)
    (otherDistinct : other.NamesDistinct) (alike : value.equal other = true) :
    other.equal value = true := by
  induction value generalizing other with
  | integer n => rw [equal_integer_iff.1 alike]; exact equal_integer_iff.2 rfl
  | float x => rw [equal_float_iff.1 alike]; exact equal_float_iff.2 rfl
  | text s => rw [equal_text_iff.1 alike]; exact equal_text_iff.2 rfl
  | sequence items ih =>
    obtain ⟨others, rfl, paired⟩ := equal_sequence_iff.1 alike
    cases distinct with
    | sequence inside =>
      cases otherDistinct with
      | sequence otherInside =>
        refine equal_sequence_iff.2 ⟨items, rfl,
          forall₂_turn (fun item mem other there => ?_) paired⟩
        exact ih item mem (inside item mem) (otherInside other there)
  | record fields ih =>
    obtain ⟨others, rfl⟩ := exists_of_equal_record alike
    cases distinct with
    | record names inside =>
      cases otherDistinct with
      | record otherNames otherInside =>
        rw [equal_record_iff names otherNames] at alike
        refine (equal_record_iff otherNames names).2 fun name =>
          optionRel_turn (fun part found other there => ?_) (alike name)
        have mem := Fields.mem_of_find? found
        exact ih _ mem (inside _ mem) (otherInside _ (Fields.mem_of_find? there))
  | reference target =>
    obtain ⟨same, rfl, object⟩ := equal_reference_iff.1 alike
    exact equal_reference_iff.2 ⟨target, rfl, object.symm⟩

/-- Equality can be chained. -/
theorem equal_trans {value between other : Value} (distinct : value.NamesDistinct)
    (middleDistinct : between.NamesDistinct) (otherDistinct : other.NamesDistinct)
    (alike : value.equal between = true) (further : between.equal other = true) :
    value.equal other = true := by
  induction value generalizing between other with
  | integer n => rwa [equal_integer_iff.1 alike] at further
  | float x => rwa [equal_float_iff.1 alike] at further
  | text s => rwa [equal_text_iff.1 alike] at further
  | sequence items ih =>
    obtain ⟨middles, rfl, paired⟩ := equal_sequence_iff.1 alike
    obtain ⟨others, rfl, later⟩ := equal_sequence_iff.1 further
    cases distinct with
    | sequence inside =>
      cases middleDistinct with
      | sequence middleInside =>
        cases otherDistinct with
        | sequence otherInside =>
          refine equal_sequence_iff.2 ⟨others, rfl,
            forall₂_chain (fun item mem middle between other there => ?_) paired later⟩
          exact ih item mem (inside item mem) (middleInside middle between)
            (otherInside other there)
  | record fields ih =>
    obtain ⟨middles, rfl⟩ := exists_of_equal_record alike
    obtain ⟨others, rfl⟩ := exists_of_equal_record further
    cases distinct with
    | record names inside =>
      cases middleDistinct with
      | record middleNames middleInside =>
        cases otherDistinct with
        | record otherNames otherInside =>
          rw [equal_record_iff names middleNames] at alike
          rw [equal_record_iff middleNames otherNames] at further
          refine (equal_record_iff names otherNames).2 fun name => optionRel_chain
            (fun part found middle between other there => ?_) (alike name) (further name)
          have mem := Fields.mem_of_find? found
          exact ih _ mem (inside _ mem) (middleInside _ (Fields.mem_of_find? between))
            (otherInside _ (Fields.mem_of_find? there))
  | reference target =>
    obtain ⟨middle, rfl, object⟩ := equal_reference_iff.1 alike
    obtain ⟨same, rfl, later⟩ := equal_reference_iff.1 further
    exact equal_reference_iff.2 ⟨same, rfl, object.trans later⟩

/-- Two readings come to equal values, or both fail. -/
inductive Agrees : Except Fault Value → Except Fault Value → Prop where
  /-- To equal values. -/
  | values {value other : Value} (alike : (value == other) = true) : Agrees (.ok value) (.ok other)
  /-- Both fail. -/
  | faults (fault other : Fault) : Agrees (.error fault) (.error other)

/-- What is there in both or in neither is read from both or from neither. -/
theorem agrees_of_optionRel {found other : Option Value} {fault otherFault : Fault}
    (related : Option.Rel (fun value other => value.equal other = true) found other) :
    Agrees (Fault.orElse fault found) (Fault.orElse otherFault other) := by
  cases related with
  | none => exact .faults _ _
  | some alike => exact .values alike

end Value

open Value

namespace Heap

variable {heap : Heap} {reference other : Reference}

/-- References to the same object show the same fields. -/
theorem getField_agrees (distinct : heap.NamesDistinct) (same : reference.object = other.object)
    (name : String) : Agrees (heap.getField reference name) (heap.getField other name) := by
  have one : heap.object? other = heap.object? reference := by rw [object?, object?, same]
  rw [getField, getField, one]
  cases held : heap.object? reference with
  | none => exact .faults _ _
  | some object =>
    have values := distinct object (List.mem_of_getElem? held)
    cases object with
    | record fields =>
      dsimp only
      cases found : fields.find? name with
      | none => exact .faults _ _
      | some value =>
        have mem := List.mem_map_of_mem (f := Prod.snd) (Fields.mem_of_find? found)
        exact .values (equal_self (values value mem))
    | function own routine =>
      dsimp only
      split
      · exact .values (equal_self (.text own))
      · exact .faults _ _
    | array items => exact .faults _ _
    | handle => exact .faults _ _

/-- References to the same object show the same items. -/
theorem getIndex_agrees (distinct : heap.NamesDistinct) (same : reference.object = other.object)
    (position : Nat) :
    Agrees (heap.getIndex reference position) (heap.getIndex other position) := by
  have one : heap.object? other = heap.object? reference := by rw [object?, object?, same]
  rw [getIndex, getIndex, one]
  cases held : heap.object? reference with
  | none => exact .faults _ _
  | some object =>
    have values := distinct object (List.mem_of_getElem? held)
    cases object with
    | array items =>
      dsimp only
      rw [Value.item]
      cases found : items[position]? with
      | none => exact .faults _ _
      | some value => exact .values (equal_self (values value (List.mem_of_getElem? found)))
    | record fields => exact .faults _ _
    | function own routine => exact .faults _ _
    | handle => exact .faults _ _

end Heap

namespace Value

variable {heap : Heap} {value other : Value}

/-- A field of equal values is read as equal values, or from neither. -/
theorem field_agrees (held : heap.NamesDistinct) (distinct : value.NamesDistinct)
    (otherDistinct : other.NamesDistinct) (alike : value.equal other = true) (name : String) :
    Agrees (value.field heap name) (other.field heap name) := by
  cases value with
  | integer n => rw [equal_integer_iff.1 alike]; exact .faults _ _
  | float x => rw [equal_float_iff.1 alike]; exact .faults _ _
  | text s => rw [equal_text_iff.1 alike]; exact .faults _ _
  | sequence items =>
    obtain ⟨others, rfl, _⟩ := equal_sequence_iff.1 alike
    exact .faults _ _
  | record fields =>
    obtain ⟨others, rfl⟩ := exists_of_equal_record alike
    cases distinct with
    | record names inside =>
      cases otherDistinct with
      | record otherNames otherInside =>
        exact agrees_of_optionRel ((equal_record_iff names otherNames).1 alike name)
  | reference target =>
    obtain ⟨same, rfl, object⟩ := equal_reference_iff.1 alike
    exact Heap.getField_agrees held object name

/-- An item of equal values is read as equal values, or from neither. -/
theorem index_agrees (held : heap.NamesDistinct) (alike : value.equal other = true)
    (position : Nat) : Agrees (value.index heap position) (other.index heap position) := by
  cases value with
  | integer n => rw [equal_integer_iff.1 alike]; exact .faults _ _
  | float x => rw [equal_float_iff.1 alike]; exact .faults _ _
  | text s => rw [equal_text_iff.1 alike]; exact .faults _ _
  | sequence items =>
    obtain ⟨others, rfl, paired⟩ := equal_sequence_iff.1 alike
    exact agrees_of_optionRel (optionRel_of_forall₂ paired position)
  | record fields =>
    obtain ⟨others, rfl⟩ := exists_of_equal_record alike
    exact .faults _ _
  | reference target =>
    obtain ⟨same, rfl, object⟩ := equal_reference_iff.1 alike
    exact Heap.getIndex_agrees held object position

/-- Each name stands alike in two records if they have the same names and each of them stands for
equal values. -/
theorem standsAlike_iff {fields others : Fields Value} (distinct : fields.names.Nodup)
    (otherDistinct : others.names.Nodup) :
    (∀ name, StandsAlike fields others name) ↔
      (∀ name, name ∈ fields.names ↔ name ∈ others.names) ∧
      ∀ name value other, (name, value) ∈ fields → (name, other) ∈ others →
        (value == other) = true := by
  constructor
  · intro alike
    refine ⟨fun name => (names_perm_of_standsAlike distinct otherDistinct alike).mem_iff, ?_⟩
    intro name value other mem there
    have stands := alike name
    rw [StandsAlike, Fields.find?_of_mem distinct mem, Fields.find?_of_mem otherDistinct there]
      at stands
    cases stands with
    | some alike => exact alike
  · rintro ⟨names, values⟩ name
    have both := names name
    rw [← Fields.find?_isSome_iff, ← Fields.find?_isSome_iff] at both
    rw [StandsAlike]
    cases found : fields.find? name with
    | none =>
      rw [found, Option.isSome_none] at both
      have absent : Fields.find? name others = none :=
        Option.not_isSome_iff_eq_none.1 fun there => Bool.false_ne_true (both.2 there)
      rw [absent]
      exact .none
    | some value =>
      rw [found, Option.isSome_some] at both
      obtain ⟨other, there⟩ := Option.isSome_iff_exists.1 (both.1 rfl)
      rw [there]
      exact .some (values name value other (Fields.mem_of_find? found) (Fields.mem_of_find? there))

/-- Equality is an equivalence on the values in which no record has a name twice, which are all
that records made of pairs can be made of. Records are equal if they have the same names and each
name stands for equal values, in whatever order; sequences if they have equal items at the same
positions; doubles if they have the same bits, integers if they are the same number, texts if they
are the same, references if they stand for the same object; and values of different types never.
While the shared objects are as they are, any field and any item of two equal values is read as
equal values, or cannot be read from either. -/
theorem equality_is_lawful :
    Equivalence (fun value other : { value : Value // value.NamesDistinct } =>
      (value.1 == other.1) = true) ∧
    (∀ pairs : List (String × Value), (∀ pair ∈ pairs, pair.2.NamesDistinct) →
      (recordOf pairs).NamesDistinct) ∧
    (∀ fields others : Fields Value,
      (record fields).NamesDistinct → (record others).NamesDistinct →
      ((record fields == record others) = true ↔
        (∀ name, name ∈ fields.names ↔ name ∈ others.names) ∧
        ∀ name value other, (name, value) ∈ fields → (name, other) ∈ others →
          (value == other) = true)) ∧
    (∀ items others : List Value, (sequence items == sequence others) = true ↔
      items.length = others.length ∧
      ∀ position (here : position < items.length) (there : position < others.length),
        (items[position] == others[position]) = true) ∧
    (∀ x y : Double, (float x == float y) = true ↔ x.bits = y.bits) ∧
    (∀ m n : Integer, (integer m == integer n) = true ↔ m.toInt = n.toInt) ∧
    (∀ s t : String, (text s == text t) = true ↔ s = t) ∧
    (∀ target other : Reference,
      (reference target == reference other) = true ↔ target.object = other.object) ∧
    (∀ value other : Value, value.typeName ≠ other.typeName → (value == other) = false) ∧
    ∀ (heap : Heap) (value other : Value), heap.NamesDistinct →
      value.NamesDistinct → other.NamesDistinct → (value == other) = true →
      (∀ name, Agrees (value.field heap name) (other.field heap name)) ∧
      ∀ position, Agrees (value.index heap position) (other.index heap position) := by
  refine ⟨⟨fun value => equal_self value.2, ?_, ?_⟩, fun pairs inside => .recordOf inside,
    ?_, ?_, ?_, ?_, ?_, ?_, ?_, ?_⟩
  · exact fun {value other} alike => equal_symm value.2 other.2 alike
  · exact fun {value between other} => equal_trans value.2 between.2 other.2
  · intro fields others distinct otherDistinct
    cases distinct with
    | record names _ =>
      cases otherDistinct with
      | record otherNames _ =>
        exact (equal_record_iff names otherNames).trans (standsAlike_iff names otherNames)
  · intro items others
    exact equalItems_iff.trans List.forall₂_iff_get
  · intro x y
    have same : (x == y) = true ↔ x = y := beq_iff_eq
    refine same.trans ⟨congrArg Double.bits, fun bits => ?_⟩
    cases x
    exact congrArg Double.mk bits
  · intro m n
    have same : (m == n) = true ↔ m = n := beq_iff_eq
    refine same.trans ⟨congrArg Integer.toInt, fun number => ?_⟩
    rw [← Integer.ofInt_toInt m, number, Integer.ofInt_toInt]
  · exact fun s t => beq_iff_eq (a := s)
  · exact fun target other => beq_iff_eq (a := target.object)
  · intro value other different
    cases value <;> cases other <;> first | rfl | exact absurd rfl different
  · intro heap value other held distinct otherDistinct alike
    exact ⟨field_agrees held distinct otherDistinct alike, index_agrees held alike⟩

/-- A record with a list of its own in it, and the same fields the other way round. -/
def sample (turned : Bool) : Value :=
  let fields := [("list", reference ⟨⟨0⟩, 0, .array⟩), ("not a number", float Double.quietNaN)]
  record (if turned then fields.reverse else fields)

/-- The objects that the record refers to: one list with one double in it. -/
def sampleHeap : Heap := ⟨[.array [float ⟨0⟩]]⟩

/-- The two records are equal, though a NaN is in them, and what is read from them is equal; the two
zeros are not. -/
theorem equality_is_lawful_of_turned :
    (sample true == sample false) = true ∧ (sample false == sample true) = true ∧
    Agrees ((sample true).field sampleHeap "list") ((sample false).field sampleHeap "list") ∧
    Agrees ((sample true).index sampleHeap 0) ((sample false).index sampleHeap 0) ∧
    (float ⟨0⟩ == float ⟨0x8000000000000000⟩) = false := by
  have held : sampleHeap.NamesDistinct := by
    simp only [Heap.NamesDistinct, sampleHeap, SharedObject.values, List.forall_mem_singleton]
    exact .float _
  have distinct (turned : Bool) : (sample turned).NamesDistinct := by
    refine .record (by cases turned <;> decide) fun field mem => ?_
    have listed : field = ("list", reference ⟨⟨0⟩, 0, .array⟩) ∨
        field = ("not a number", float Double.quietNaN) := by
      cases turned <;> simpa [or_comm] using mem
    rcases listed with rfl | rfl
    · exact .reference _
    · exact .float _
  obtain ⟨⟨_, turn, _⟩, _, _, _, doubles, _, _, _, _, reading⟩ := equality_is_lawful
  have alike : (sample true == sample false) = true := by decide
  have back := turn (x := ⟨_, distinct true⟩) (y := ⟨_, distinct false⟩) alike
  obtain ⟨field, index⟩ := reading sampleHeap _ _ held (distinct true) (distinct false) alike
  have apart := mt (doubles ⟨0⟩ ⟨0x8000000000000000⟩).1 (by decide)
  exact ⟨alike, back, field "list", index 0, Bool.eq_false_iff.2 apart⟩

end Value

end Interchange
