import Interchange.Proofs.Value.Equality
import Interchange.Statements.Expression

/-!
# What equal values look like to the statement language

Two equal values may have the fields of their records in different orders, but the statement
language sorts fields by name. So it makes the same item of both
(`Statements.Item.ofValue_of_equal`), or refuses both, and no script can tell them apart
(`equal_values_look_alike`). Equality of references only asks for the same object, while a reference
also shows which context it came from; this is why each object has to have one reference
(`Value.WrappedOnce`).
-/
namespace Interchange

section Lookups

variable {α β : Type} {alike : α → α → Prop} {related : α → β → Prop} {found other : Option α}

/-- What is related to one of two parts that are alike is related to the other one. -/
theorem optionRel_carry {made : Option β}
    (each : ∀ a, found = some a → ∀ b, other = some b → alike a b → ∀ c, related a c → related b c)
    (both : Option.Rel alike found other) (first : Option.Rel related found made) :
    Option.Rel related other made := by
  cases both with
  | none => exact first
  | some here =>
    cases first with
    | some there => exact .some (each _ rfl _ rfl here _ there)

/-- What is related to a part is determined if only one thing is related to each part. -/
theorem optionRel_unique {made again : Option β}
    (unique : ∀ a b c, related a b → related a c → b = c) (first : Option.Rel related found made)
    (second : Option.Rel related found again) : made = again := by
  cases first with
  | none =>
    cases second
    rfl
  | some here =>
    cases second with
    | some there => rw [unique _ _ _ here there]

end Lookups

namespace Value

/-- Where two values refer to the same object they hold the same reference to it. -/
def WrappedOnce (value other : Value) : Prop :=
  ∀ target ∈ value.references, ∀ same ∈ other.references,
    target.object = same.object → target = same

/-- It does not matter which of the values comes first. -/
theorem WrappedOnce.symm {value other : Value} (once : value.WrappedOnce other) :
    other.WrappedOnce value :=
  fun target mem same there object => (once same there target mem object.symm).symm

/-- The items of sequences hold no other references. -/
theorem WrappedOnce.item {items others : List Value}
    (once : (sequence items).WrappedOnce (sequence others)) {item other : Value}
    (mem : item ∈ items) (there : other ∈ others) : item.WrappedOnce other := by
  intro target held same kept
  refine once target ?_ same ?_
  · rw [references, referencesOfItems_eq]
    exact List.mem_flatMap.2 ⟨item, mem, held⟩
  · rw [references, referencesOfItems_eq]
    exact List.mem_flatMap.2 ⟨other, there, kept⟩

/-- The fields of records hold no other references. -/
theorem WrappedOnce.field {fields others : Fields Value}
    (once : (record fields).WrappedOnce (record others)) {field other : String × Value}
    (mem : field ∈ fields) (there : other ∈ others) : field.2.WrappedOnce other.2 := by
  intro target held same kept
  refine once target ?_ same ?_
  · rw [references, referencesOfFields_eq]
    exact List.mem_flatMap.2 ⟨field, mem, held⟩
  · rw [references, referencesOfFields_eq]
    exact List.mem_flatMap.2 ⟨other, there, kept⟩

end Value

namespace Statements.Item

open Outcome Value

/-- What the statement language makes of paired values is the same if it is for each pair. -/
theorem ofValues_of_paired {values others : List Value} {items : List Item}
    (each : ∀ value ∈ values, ∀ other ∈ others, value.equal other = true →
      ∀ item, ofValue value = .ok item → ofValue other = .ok item)
    (paired : List.Forall₂ (fun value other => value.equal other = true) values others)
    (made : ofValues values = .ok items) : ofValues others = .ok items := by
  induction paired generalizing items with
  | nil => exact made
  | cons alike _ ih =>
    simp only [ofValues, bind_ok_iff, pure_ok_iff] at made ⊢
    obtain ⟨item, first, rest, made, rfl⟩ := made
    refine ⟨item, each _ List.mem_cons_self _ List.mem_cons_self alike item first, rest, ?_, rfl⟩
    exact ih (fun value mem other there => each value (List.mem_cons_of_mem _ mem) other
      (List.mem_cons_of_mem _ there)) made

/-- What the statement language makes of the fields of two records is the same when it is sorted,
if each name stands alike in them and it makes the same of what the name stands for. -/
theorem ofPairs_of_standsAlike {fields others : Fields Value} {members : Fields Item}
    (distinct : fields.names.Nodup) (otherDistinct : others.names.Nodup)
    (each : ∀ field ∈ fields, ∀ other ∈ others, field.2.equal other.2 = true →
      ∀ item, ofValue field.2 = .ok item → ofValue other.2 = .ok item)
    (alike : ∀ name, StandsAlike fields others name) (made : ofPairs fields = .ok members) :
    ∃ otherMembers, ofPairs others = .ok otherMembers ∧
      Fields.sorted otherMembers = Fields.sorted members := by
  have matched := ofPairs_eq_ok_iff.1 made
  -- What a name stands for in the second record has the item that stands there in the members.
  have carried (name : String) :
      Option.Rel (fun other item => ofValue other = .ok item) (Fields.find? name others)
        (Fields.find? name members) := by
    refine optionRel_carry (fun value found other there equal item first => ?_) (alike name)
      (matched.find? name)
    exact each _ (Fields.mem_of_find? found) _ (Fields.mem_of_find? there) equal item first
  obtain ⟨otherMembers, otherMade⟩ := (ofPairs_ok_iff others).2 fun field mem => by
    have here := carried field.1
    rw [Fields.find?_of_mem otherDistinct mem] at here
    generalize Fields.find? field.1 members = held at here
    cases here with
    | some taken => exact ⟨_, taken⟩
  have otherMatched := ofPairs_eq_ok_iff.1 otherMade
  refine ⟨otherMembers, otherMade, Fields.sorted_eq_of_find?_eq
    (otherMatched.names_eq ▸ otherDistinct) (matched.names_eq ▸ distinct) fun name => ?_⟩
  exact optionRel_unique (fun other item again taken made => Except.ok.inj (taken.symm.trans made))
    (otherMatched.find? name) (carried name)

/-- Of a value that is equal to another one the statement language makes the same item. -/
theorem ofValue_of_equal {value other : Value} {item : Item} (distinct : value.NamesDistinct)
    (otherDistinct : other.NamesDistinct) (once : value.WrappedOnce other)
    (alike : value.equal other = true) (made : ofValue value = .ok item) :
    ofValue other = .ok item := by
  induction value generalizing other item with
  | integer n => rwa [equal_integer_iff.1 alike]
  | float x => rwa [equal_float_iff.1 alike]
  | text s => rwa [equal_text_iff.1 alike]
  | sequence items ih =>
    obtain ⟨others, rfl, paired⟩ := equal_sequence_iff.1 alike
    cases distinct with
    | sequence inside =>
      cases otherDistinct with
      | sequence otherInside =>
        simp only [ofValue, bind_ok_iff, pure_ok_iff] at made ⊢
        obtain ⟨parts, made, rfl⟩ := made
        refine ⟨parts, ofValues_of_paired (fun part mem other there alike item made => ?_) paired
          made, rfl⟩
        exact ih part mem (inside part mem) (otherInside other there) (once.item mem there) alike
          made
  | record fields ih =>
    obtain ⟨others, rfl⟩ := exists_of_equal_record alike
    cases distinct with
    | record names inside =>
      cases otherDistinct with
      | record otherNames otherInside =>
        rw [equal_record_iff names otherNames] at alike
        simp only [ofValue, bind_ok_iff, pure_ok_iff] at made ⊢
        obtain ⟨members, made, rfl⟩ := made
        obtain ⟨otherMembers, otherMade, same⟩ := ofPairs_of_standsAlike names otherNames
          (fun field mem other there alike item made => ih field mem (inside field mem)
            (otherInside other there) (once.field mem there) alike made) alike made
        exact ⟨otherMembers, otherMade, congrArg object same⟩
  | reference target =>
    obtain ⟨same, rfl, object⟩ := equal_reference_iff.1 alike
    rwa [← once target (by simp) same (by simp) object]

end Statements.Item

open Statements (Item Step)

/-- Scripts of the statement language cannot tell equal values apart, if each object that is
referred to has one reference. They take both values or neither. If they do, then the items print
the same text, every path of names and indexes comes to the same item from both or fails for the
same reason, whatever the shared objects are, and both items are given back as one value, which is
equal to the two that came in. -/
theorem equal_values_look_alike {value other : Value} (distinct : value.NamesDistinct)
    (otherDistinct : other.NamesDistinct) (once : value.WrappedOnce other)
    (alike : (value == other) = true) :
    ((∃ item, Item.ofValue value = .ok item) ↔ ∃ item, Item.ofValue other = .ok item) ∧
    ∀ item otherItem, Item.ofValue value = .ok item → Item.ofValue other = .ok otherItem →
      item.written = otherItem.written ∧ item.display = otherItem.display ∧
      (∀ (heap : Heap) (path : List Step),
        path.foldlM (Step.follow heap) item = path.foldlM (Step.follow heap) otherItem) ∧
      ∃ given, item.toValue = .ok given ∧ otherItem.toValue = .ok given ∧
        (given == value) = true ∧ (given == other) = true := by
  have back : other.equal value = true := Value.equal_symm distinct otherDistinct alike
  refine ⟨⟨fun ⟨item, made⟩ => ⟨item, Item.ofValue_of_equal distinct otherDistinct once alike made⟩,
    fun ⟨item, made⟩ => ⟨item, Item.ofValue_of_equal otherDistinct distinct once.symm back made⟩⟩,
    fun item otherItem made otherMade => ?_⟩
  have same := Item.ofValue_of_equal distinct otherDistinct once alike made
  obtain rfl := Except.ok.inj (same.symm.trans otherMade)
  have given := Item.toValue_of_ofValue made
  have sorted : value.sorted = other.sorted :=
    Except.ok.inj (given.symm.trans (Item.toValue_of_ofValue otherMade))
  refine ⟨rfl, rfl, fun heap path => rfl, value.sorted, given, given,
    Value.sorted_equal distinct, ?_⟩
  rw [sorted]
  exact Value.sorted_equal otherDistinct

/-- A list with a record in it that has a record and a reference in it, and the same with the fields
of both records the other way round. -/
def Value.carton : (turned : Bool) → Value
  | false => sequence [record [("tag", text "x"), ("inner",
      record [("size", integer (.word 5)), ("list", reference ⟨⟨0⟩, 0, .array⟩)])]]
  | true => sequence [record [
      ("inner", record [("list", reference ⟨⟨0⟩, 0, .array⟩), ("size", integer (.word 5))]),
      ("tag", text "x")]]

/-- The path to the second item of the list that the carton refers to. -/
def Value.cartonPath : List Step :=
  [.index 0, .field "inner".toList, .field "list".toList, .index 1]

/-- The carton prints the same whichever way round its fields are, the same is read from it, and it
is given back as one value that is equal to both. -/
theorem carton_looks_alike :
    (Value.carton false == Value.carton true) = true ∧
    ∃ item otherItem, Item.ofValue (.carton false) = .ok item ∧
      Item.ofValue (.carton true) = .ok otherItem ∧ item.written = otherItem.written ∧
      Value.cartonPath.foldlM (Step.follow ⟨[.array [.text "a", .text "b"]]⟩) item =
        Value.cartonPath.foldlM (Step.follow ⟨[.array [.text "a", .text "b"]]⟩) otherItem ∧
      ∃ given, item.toValue = .ok given ∧ otherItem.toValue = .ok given ∧
        (given == Value.carton false) = true ∧ (given == Value.carton true) = true := by
  have distinct : (Value.carton false).NamesDistinct := by
    have inner : (Value.record [("size", .integer (.word 5)),
        ("list", .reference ⟨⟨0⟩, 0, .array⟩)]).NamesDistinct :=
      .record (by decide) (List.forall_mem_cons.2 ⟨.integer _,
        List.forall_mem_singleton.2 (.reference _)⟩)
    exact .sequence (List.forall_mem_singleton.2 (.record (by decide)
      (List.forall_mem_cons.2 ⟨.text _, List.forall_mem_singleton.2 inner⟩)))
  have turnedDistinct : (Value.carton true).NamesDistinct := by
    have inner : (Value.record [("list", .reference ⟨⟨0⟩, 0, .array⟩),
        ("size", .integer (.word 5))]).NamesDistinct :=
      .record (by decide) (List.forall_mem_cons.2 ⟨.reference _,
        List.forall_mem_singleton.2 (.integer _)⟩)
    exact .sequence (List.forall_mem_singleton.2 (.record (by decide)
      (List.forall_mem_cons.2 ⟨inner, List.forall_mem_singleton.2 (.text _)⟩)))
  have once : (Value.carton false).WrappedOnce (.carton true) := by
    intro target held same kept _
    have one : (Value.carton false).references = [⟨⟨0⟩, 0, .array⟩] := rfl
    have other : (Value.carton true).references = [⟨⟨0⟩, 0, .array⟩] := rfl
    rw [one] at held
    rw [other] at kept
    rw [List.mem_singleton.1 held, List.mem_singleton.1 kept]
  have alike : (Value.carton false == Value.carton true) = true := by decide
  obtain ⟨both, look⟩ := equal_values_look_alike distinct turnedDistinct once alike
  have made : Item.ofValue (.carton false) = .ok (.array [.object
      [("inner", .object [("list", .foreign ⟨⟨0⟩, 0, .array⟩), ("size", .number (.natural 5))]),
        ("tag", .string "x")]]) := rfl
  obtain ⟨otherItem, otherMade⟩ := both.1 ⟨_, made⟩
  obtain ⟨written, _, reads, given⟩ := look _ _ made otherMade
  exact ⟨alike, _, otherItem, made, otherMade, written, reads _ _, given⟩

end Interchange
