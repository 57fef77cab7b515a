import Interchange.Proofs.Fields
import Interchange.Value.Equal
import Mathlib.Data.List.Perm.Basic

/-!
# Values with sorted fields

A value whose records, at any depth, have their fields sorted by name (`Value.sorted`). It is
equal to the value it comes from in both directions and holds the same references, so nothing
but the order of fields is lost. All of this supposes that no record repeats a name, which every
way to make a record ensures (`Value.NamesDistinct`).
-/
namespace Interchange.Value

/-- What holds of a sequence or a record if it holds of all its parts holds of all values. -/
@[elab_as_elim, induction_eliminator]
theorem induction {P : Value → Prop} (integer : ∀ n, P (.integer n)) (float : ∀ x, P (.float x))
    (text : ∀ s, P (.text s))
    (sequence : ∀ items, (∀ item ∈ items, P item) → P (.sequence items))
    (record : ∀ fields, (∀ field ∈ fields, P field.2) → P (.record fields))
    (reference : ∀ target, P (.reference target)) : ∀ value, P value
  | .integer n => integer n
  | .float x => float x
  | .text s => text s
  | .sequence items => sequence items fun item _ =>
    induction integer float text sequence record reference item
  | .record fields => record fields fun field mem =>
    have _smaller := List.sizeOf_lt_of_mem mem
    induction integer float text sequence record reference field.2
  | .reference target => reference target
termination_by value => sizeOf value
decreasing_by
  · decreasing_tactic
  · cases field
    simp only [Prod.mk.sizeOf_spec, Value.record.sizeOf_spec] at *
    omega

/-- No record in the value, at any depth, has a name twice. -/
inductive NamesDistinct : Value → Prop where
  /-- An integer has no records in it. -/
  | integer (n : Integer) : NamesDistinct (.integer n)
  /-- A double has no records in it. -/
  | float (x : Double) : NamesDistinct (.float x)
  /-- A text has no records in it. -/
  | text (s : String) : NamesDistinct (.text s)
  /-- The items of a sequence decide. -/
  | sequence {items : List Value} (inside : ∀ item ∈ items, NamesDistinct item) :
      NamesDistinct (.sequence items)
  /-- The names of a record and its fields decide. -/
  | record {fields : List (String × Value)} (distinct : (Fields.names fields).Nodup)
      (inside : ∀ field ∈ fields, NamesDistinct field.2) : NamesDistinct (.record fields)
  /-- What a reference stands for lies outside the value. -/
  | reference (target : Reference) : NamesDistinct (.reference target)

mutual

/-- The value with the fields of all its records sorted by name. -/
def sorted : Value → Value
  | integer n => integer n
  | float x => float x
  | text s => text s
  | sequence items => sequence (sortedItems items)
  | record fields => record (Fields.sorted (sortedFields fields))
  | reference target => reference target

/-- The items with the fields of all their records sorted. -/
def sortedItems : List Value → List Value
  | [] => []
  | item :: items => item.sorted :: sortedItems items

/-- The fields in their order, with the fields of all records in them sorted. -/
def sortedFields : List (String × Value) → List (String × Value)
  | [] => []
  | (name, value) :: fields => (name, value.sorted) :: sortedFields fields

end

mutual

/-- The references in a value, from the first to the last. -/
def references : Value → List Reference
  | sequence items => referencesOfItems items
  | record fields => referencesOfFields fields
  | reference target => [target]
  | _ => []

/-- The references in the items of a sequence. -/
def referencesOfItems : List Value → List Reference
  | [] => []
  | item :: items => item.references ++ referencesOfItems items

/-- The references in the fields of a record. -/
def referencesOfFields : List (String × Value) → List Reference
  | [] => []
  | (_, value) :: fields => value.references ++ referencesOfFields fields

end

-- What these functions do to each kind of value is for `simp` to unfold.
attribute [simp] equal equalItems equalWithin sorted sortedItems sortedFields references
  referencesOfItems referencesOfFields

/-- Sorting a sequence sorts its items. -/
theorem sortedItems_eq (items : List Value) : sortedItems items = items.map sorted := by
  induction items with
  | nil => rfl
  | cons item items ih => rw [sortedItems, ih, List.map_cons]

/-- Sorting a record sorts what its fields stand for. -/
theorem sortedFields_eq (fields : List (String × Value)) :
    sortedFields fields = fields.map fun field => (field.1, field.2.sorted) := by
  induction fields with
  | nil => rfl
  | cons field fields ih => rw [sortedFields, ih, List.map_cons]

/-- Sorting what fields stand for keeps their names. -/
theorem names_sortedFields (fields : Fields Value) :
    Fields.names (sortedFields fields) = fields.names := by
  simp [Fields.names, sortedFields_eq]

/-- The references of a sequence are those of its items. -/
theorem referencesOfItems_eq (items : List Value) :
    referencesOfItems items = items.flatMap references := by
  induction items with
  | nil => rfl
  | cons item items ih => rw [referencesOfItems, ih, List.flatMap_cons]

/-- The references of a record are those of its fields. -/
theorem referencesOfFields_eq (fields : List (String × Value)) :
    referencesOfFields fields = fields.flatMap fun field => field.2.references := by
  induction fields with
  | nil => rfl
  | cons field fields ih => rw [referencesOfFields, ih, List.flatMap_cons]

/-- Sequences are equal if their items are, one by one. -/
theorem equal_sequence {f g : Value → Value} {items : List Value}
    (equal : ∀ item ∈ items, (f item).equal (g item) = true) :
    (sequence (items.map f)).equal (sequence (items.map g)) = true := by
  rw [Value.equal]
  induction items with
  | nil => rfl
  | cons item items ih =>
    obtain ⟨first, later⟩ := List.forall_mem_cons.1 equal
    rw [List.map_cons, List.map_cons, equalItems, first, Bool.true_and]
    exact ih later

/-- Records of the same length are equal if each field of the one has a field of the same name
in the other, with an equal value. -/
theorem equal_record {fields others : Fields Value} (distinct : others.names.Nodup)
    (length : fields.length = others.length)
    (matched : ∀ field ∈ fields, ∃ other, (field.1, other) ∈ others ∧
      field.2.equal other = true) :
    (record fields).equal (record others) = true := by
  rw [Value.equal, length, beq_self_eq_true, Bool.true_and]
  clear length
  induction fields with
  | nil => rfl
  | cons field fields ih =>
    obtain ⟨⟨other, there, equal⟩, later⟩ := List.forall_mem_cons.1 matched
    simp only [equalWithin, Fields.find?_of_mem distinct there, equal, Bool.true_and]
    exact ih later

/-- Every value is equal to itself. -/
theorem equal_self {value : Value} (distinct : value.NamesDistinct) :
    value.equal value = true := by
  induction value with
  | integer n => simp
  | float x => simp
  | text s => simp
  | sequence items ih =>
    cases distinct with
    | sequence inside =>
      simpa using equal_sequence (f := id) (g := id) fun item mem => ih item mem (inside item mem)
  | record fields ih =>
    cases distinct with
    | record distinct inside =>
      exact equal_record distinct rfl fun field mem =>
        ⟨field.2, mem, ih field mem (inside field mem)⟩
  | reference target => simp

/-- The names of a record with sorted fields are distinct, and each stands for what it stood
for, with its fields sorted. -/
theorem mem_sorted_sortedFields {fields : Fields Value} (distinct : fields.names.Nodup)
    {field : String × Value} :
    field ∈ Fields.sorted (sortedFields fields) ↔
      ∃ value, (field.1, value) ∈ fields ∧ field.2 = value.sorted := by
  rw [(Fields.sorted_perm (by rwa [names_sortedFields])).mem_iff, sortedFields_eq, List.mem_map]
  constructor
  · rintro ⟨⟨name, value⟩, mem, rfl⟩
    exact ⟨value, mem, rfl⟩
  · rintro ⟨value, mem, same⟩
    exact ⟨_, mem, by rw [← same]⟩

/-- A record keeps the number of its fields. -/
theorem length_sorted_sortedFields {fields : Fields Value} (distinct : fields.names.Nodup) :
    (Fields.sorted (sortedFields fields)).length = fields.length := by
  rw [(Fields.sorted_perm (by rwa [names_sortedFields])).length_eq, sortedFields_eq,
    List.length_map]

/-- Every value is equal to itself with its fields sorted. -/
theorem equal_sorted {value : Value} (distinct : value.NamesDistinct) :
    value.equal value.sorted = true := by
  induction value with
  | integer n => simp
  | float x => simp
  | text s => simp
  | sequence items ih =>
    cases distinct with
    | sequence inside =>
      rw [sorted, sortedItems_eq]
      simpa using equal_sequence (f := id) fun item mem => ih item mem (inside item mem)
  | record fields ih =>
    cases distinct with
    | record distinct inside =>
      exact equal_record (Fields.sorted_isSorted _).nodup
        (length_sorted_sortedFields distinct).symm fun field mem =>
          ⟨field.2.sorted, (mem_sorted_sortedFields distinct).2 ⟨field.2, mem, rfl⟩,
            ih field mem (inside field mem)⟩
  | reference target => simp

/-- Every value with its fields sorted is equal to the value itself. -/
theorem sorted_equal {value : Value} (distinct : value.NamesDistinct) :
    value.sorted.equal value = true := by
  induction value with
  | integer n => simp
  | float x => simp
  | text s => simp
  | sequence items ih =>
    cases distinct with
    | sequence inside =>
      rw [sorted, sortedItems_eq]
      simpa using equal_sequence (g := id) fun item mem => ih item mem (inside item mem)
  | record fields ih =>
    cases distinct with
    | record distinct inside =>
      refine equal_record distinct (length_sorted_sortedFields distinct) fun field mem => ?_
      obtain ⟨value, there, same⟩ := (mem_sorted_sortedFields distinct).1 mem
      refine ⟨value, there, ?_⟩
      rw [same]
      exact ih _ there (inside _ there)
  | reference target => simp

/-- Sorting keeps names distinct. -/
theorem NamesDistinct.sorted {value : Value} (distinct : value.NamesDistinct) :
    value.sorted.NamesDistinct := by
  induction value with
  | integer n => exact .integer n
  | float x => exact .float x
  | text s => exact .text s
  | sequence items ih =>
    cases distinct with
    | sequence inside =>
      rw [Value.sorted, sortedItems_eq]
      refine .sequence fun item mem => ?_
      obtain ⟨original, there, rfl⟩ := List.mem_map.1 mem
      exact ih original there (inside original there)
  | record fields ih =>
    cases distinct with
    | record distinct inside =>
      refine .record (Fields.sorted_isSorted _).nodup fun field mem => ?_
      obtain ⟨value, there, same⟩ := (mem_sorted_sortedFields distinct).1 mem
      rw [same]
      exact ih _ there (inside _ there)
  | reference target => exact .reference target

/-- Sorting twice is sorting once. -/
theorem sorted_sorted (value : Value) : value.sorted.sorted = value.sorted := by
  induction value with
  | integer n => rfl
  | float x => rfl
  | text s => rfl
  | sequence items ih =>
    simp only [sorted, sortedItems_eq, List.map_map, sequence.injEq]
    exact List.map_congr_left ih
  | record fields ih =>
    have settled : (sortedFields fields).map (fun field => (field.1, field.2.sorted)) =
        sortedFields fields := by
      rw [sortedFields_eq, List.map_map]
      exact List.map_congr_left fun field mem => by simp [ih field mem]
    simp only [sorted, record.injEq]
    rw [sortedFields_eq (Fields.sorted _), Fields.map_sorted, settled]
    exact (Fields.sorted_isSorted _).sorted_eq
  | reference target => rfl

/-- Sorting keeps all references. -/
theorem references_sorted {value : Value} (distinct : value.NamesDistinct) :
    value.sorted.references.Perm value.references := by
  induction value with
  | integer n => exact .refl _
  | float x => exact .refl _
  | text s => exact .refl _
  | sequence items ih =>
    cases distinct with
    | sequence inside =>
      simp only [sorted, references, sortedItems_eq, referencesOfItems_eq, List.flatMap_map]
      exact List.Perm.flatMap_left _ fun item mem => ih item mem (inside item mem)
  | record fields ih =>
    cases distinct with
    | record distinct inside =>
      have moved : (Fields.sorted (sortedFields fields)).Perm (sortedFields fields) :=
        Fields.sorted_perm (by rwa [names_sortedFields])
      simp only [sorted, references, referencesOfFields_eq]
      refine (moved.flatMap_right _).trans ?_
      rw [sortedFields_eq, List.flatMap_map]
      exact List.Perm.flatMap_left _ fun field mem => ih field mem (inside field mem)
  | reference target => exact .refl _

end Interchange.Value
