import Interchange.Native
import Interchange.Proofs.Value.Items
import Mathlib.Data.List.Forall2

/-!
# Native data as values and back

Data of every shape is written as a value and read back unchanged (`Shape.read_write`), and what
is read from a value is written as an equal value (`Shape.equal_of_read`). Reading refuses a
value for one of two reasons: something of another type stands in it, or an integer that no
signed word can hold stands where a word is needed (`Shape.fault_of_read`). All of this is an
induction over the shape; the data of a list or a table is read one part at a time, so the parts
and what was read from them go together (`Outcome.mapM_ok_iff`).
-/
namespace Interchange

/-- Sequences are equal exactly if their items are, one by one. -/
theorem Value.equalItems_iff {items others : List Value} :
    equalItems items others = true ↔
      List.Forall₂ (fun item other => item.equal other = true) items others := by
  induction items generalizing others with
  | nil => cases others <;> simp
  | cons item items ih =>
    cases others with
    | nil => simp
    | cons other others => rw [equalItems, Bool.and_eq_true, ih, List.forall₂_cons]

namespace Shape

/-- Data as the host can have it: a table is sorted by name, and no record of a value has a name
twice. -/
def Tidy : (shape : Shape) → shape.Native → Prop
  | value, v => v.NamesDistinct
  | list element, items => ∀ item ∈ items, element.Tidy item
  | table element, entries => Fields.Sorted entries ∧ ∀ entry ∈ entries, element.Tidy entry.2
  | integer, _ | word, _ | whole, _ | real, _ | text, _ | reference, _ => True

/-- An integer in a value stands where data of a shape has a signed word. -/
inductive MeetsWord (n : Integer) : Shape → Value → Prop where
  /-- The value is the integer and the data is the word. -/
  | here : MeetsWord n word (.integer n)
  /-- It does so in an item of a sequence. -/
  | item {element : Shape} {items : List Value} {part : Value} (mem : part ∈ items)
      (inside : MeetsWord n element part) : MeetsWord n (list element) (.sequence items)
  /-- It does so in a field of a record. -/
  | field {element : Shape} {fields : List (String × Value)} {part : String × Value}
      (mem : part ∈ fields) (inside : MeetsWord n element part.2) :
      MeetsWord n (table element) (.record fields)

/-- The fault of an integer that stands where a signed word is needed. -/
def outOfRange (n : Integer) : Fault := .unrepresentable "i64" (n.numeral ++ " is out of range")

/-- Read one field of a record. -/
def readField (element : Shape) (field : String × Value) :
    Except Fault (String × element.Native) := do
  return (field.1, ← element.read field.2)

/-- A field was read if what it stands for was, and it keeps its name. -/
theorem readField_ok_iff {element : Shape} {field : String × Value}
    {entry : String × element.Native} :
    element.readField field = .ok entry ↔
      entry.1 = field.1 ∧ element.read field.2 = .ok entry.2 := by
  obtain ⟨name, data⟩ := entry
  simp only [readField, Outcome.bind_ok_iff, Outcome.pure_ok_iff, Prod.mk.injEq]
  constructor
  · rintro ⟨_, done, rfl, rfl⟩
    exact ⟨rfl, done⟩
  · rintro ⟨rfl, done⟩
    exact ⟨data, done, rfl, rfl⟩

/-- A word is read from an integer that is kept in a word. -/
theorem read_word_ok_iff {value : Value} {data : Int64} :
    word.read value = .ok data ↔ ∃ n : Integer, value = .integer n ∧ n.toWord? = some data := by
  rw [read, Outcome.bind_ok_iff]
  cases value with
  | integer n => cases held : n.toWord? <;> simp [Value.asInteger, Fault.orElse, held]
  | _ => simp [Value.asInteger]

/-- A number of any size is read from an integer. -/
theorem read_whole_ok_iff {value : Value} {data : Int} :
    whole.read value = .ok data ↔ ∃ n : Integer, value = .integer n ∧ n.toInt = data := by
  cases value <;> simp [read, Value.asInteger, Except.map]

/-- A list is read from a sequence, item by item. -/
theorem read_list_ok_iff {element : Shape} {value : Value} {data : (list element).Native} :
    (list element).read value = .ok data ↔
      ∃ items, value = .sequence items ∧ items.mapM element.read = .ok data := by
  rw [read, Outcome.bind_ok_iff]
  cases value <;> simp [Value.asSequence]

/-- A table is read field by field and then sorted. -/
theorem read_table_eq (element : Shape) (value : Value) :
    (table element).read value = (do
      let fields ← value.asRecord
      let pairs ← fields.mapM element.readField
      return Fields.sorted pairs) := rfl

/-- A table is read from a record. -/
theorem read_table_ok_iff {element : Shape} {value : Value} {data : (table element).Native} :
    (table element).read value = .ok data ↔
      ∃ (fields : Fields Value) (pairs : Fields element.Native), value = .record fields ∧
        fields.mapM element.readField = .ok pairs ∧ Fields.sorted pairs = data := by
  rw [read_table_eq, Outcome.bind_ok_iff]
  simp only [Outcome.bind_ok_iff, Outcome.pure_ok_iff]
  cases value <;> simp [Value.asRecord]

/-- Fields that were read keep their names in order. -/
theorem names_of_readFields {element : Shape} {fields : Fields Value}
    {pairs : Fields element.Native} (done : fields.mapM element.readField = .ok pairs) :
    pairs.names = fields.names := by
  have paired := Outcome.mapM_ok_iff.1 done
  clear done
  induction paired with
  | nil => rfl
  | cons first later ih =>
    have name := (readField_ok_iff.1 first).1
    rw [Fields.names, Fields.names, List.map_cons, List.map_cons, name]
    exact congrArg _ ih

/-- Fields that were read have distinct names if they had. -/
theorem nodup_of_readFields {element : Shape} {fields : Fields Value}
    {pairs : Fields element.Native} (done : fields.mapM element.readField = .ok pairs)
    (distinct : fields.names.Nodup) : pairs.names.Nodup :=
  (names_of_readFields done).symm ▸ distinct

/-- What stands for the names of a table does not matter for its order. -/
theorem names_map {α β : Type} (f : α → β) (entries : Fields α) :
    Fields.names (entries.map fun entry => (entry.1, f entry.2)) = entries.names := by
  simp [Fields.names]

/-- A table with distinct names is written as the record of its entries. -/
theorem write_table {element : Shape} {entries : Fields element.Native}
    (distinct : entries.names.Nodup) :
    (table element).write entries =
      .record (entries.map fun entry => (entry.1, element.write entry.2)) := by
  rw [write, Value.recordOf, Fields.ofPairs_of_nodup]
  rwa [names_map]

/-- Data is read back as it was written. -/
theorem read_write {shape : Shape} {data : shape.Native} (tidy : shape.Tidy data) :
    shape.read (shape.write data) = .ok data := by
  induction shape with
  | value | integer | word | real | text | reference => rfl
  | whole => exact congrArg Except.ok (Integer.toInt_ofInt data)
  | list element ih =>
    refine read_list_ok_iff.2 ⟨_, rfl, Outcome.mapM_ok_iff.2 ?_⟩
    exact List.forall₂_map_left_iff.2 (List.forall₂_same.2 fun item mem => ih (tidy item mem))
  | table element ih =>
    obtain ⟨sorted, each⟩ := tidy
    rw [write_table sorted.nodup]
    refine read_table_ok_iff.2 ⟨_, data, rfl, Outcome.mapM_ok_iff.2 ?_, sorted.sorted_eq⟩
    exact List.forall₂_map_left_iff.2 (List.forall₂_same.2 fun entry mem =>
      readField_ok_iff.2 ⟨rfl, ih (each entry mem)⟩)

/-- What is written has no record with a name twice. -/
theorem namesDistinct_write {shape : Shape} {data : shape.Native} (tidy : shape.Tidy data) :
    (shape.write data).NamesDistinct := by
  induction shape with
  | value => exact tidy
  | integer | word | whole => exact .integer _
  | real => exact .float _
  | text => exact .text _
  | reference => exact .reference _
  | list element ih =>
    refine .sequence fun item mem => ?_
    obtain ⟨part, there, rfl⟩ := List.mem_map.1 mem
    exact ih (tidy part there)
  | table element ih =>
    obtain ⟨sorted, each⟩ := tidy
    rw [write_table sorted.nodup]
    refine .record ?_ fun field mem => ?_
    · rw [names_map]
      exact sorted.nodup
    · obtain ⟨entry, there, rfl⟩ := List.mem_map.1 mem
      exact ih (each entry there)

/-- What is read is data as the host can have it. -/
theorem tidy_of_read {shape : Shape} {value : Value} {data : shape.Native}
    (distinct : value.NamesDistinct) (done : shape.read value = .ok data) : shape.Tidy data := by
  induction shape generalizing value with
  | value => exact Except.ok.inj done ▸ distinct
  | integer | word | whole | real | text | reference => exact trivial
  | list element ih =>
    obtain ⟨items, rfl, parts⟩ := read_list_ok_iff.1 done
    cases distinct with
    | sequence inside =>
      intro item mem
      obtain ⟨part, there, done⟩ := Outcome.exists_of_mem_results parts mem
      exact ih (inside part there) done
  | table element ih =>
    obtain ⟨fields, pairs, rfl, parts, rfl⟩ := read_table_ok_iff.1 done
    cases distinct with
    | record names inside =>
      refine ⟨Fields.sorted_isSorted pairs, fun entry mem => ?_⟩
      have listed := (Fields.sorted_perm (nodup_of_readFields parts names)).mem_iff.1 mem
      obtain ⟨field, there, done⟩ := Outcome.exists_of_mem_results parts listed
      exact ih (inside field there) (readField_ok_iff.1 done).2

/-- A sequence is equal to the one that is written of what was read from it, if each item is. -/
theorem equal_of_read_list {element : Shape} {items : List Value} {data : List element.Native}
    (each : ∀ item ∈ items, ∀ part, element.read item = .ok part →
      (element.write part).equal item = true)
    (parts : items.mapM element.read = .ok data) :
    ((list element).write data).equal (.sequence items) = true := by
  have paired := Outcome.mapM_ok_iff.1 parts
  clear parts
  rw [write, Value.equal, Value.equalItems_iff, List.forall₂_map_left_iff]
  induction paired with
  | nil => exact .nil
  | cons first later ih =>
    obtain ⟨here, others⟩ := List.forall_mem_cons.1 each
    exact .cons (here _ first) (ih others)

/-- A record is equal to the one that is written of what was read from it, if each field is. -/
theorem equal_of_read_table {element : Shape} {fields : Fields Value}
    {pairs : Fields element.Native} (names : fields.names.Nodup)
    (each : ∀ field ∈ fields, ∀ part, element.read field.2 = .ok part →
      (element.write part).equal field.2 = true)
    (parts : fields.mapM element.readField = .ok pairs) :
    ((table element).write (Fields.sorted pairs)).equal (.record fields) = true := by
  have moved := Fields.sorted_perm (nodup_of_readFields parts names)
  have length : (Fields.sorted pairs).length = fields.length := by
    have read := congrArg List.length (names_of_readFields parts)
    rw [Fields.names, Fields.names, List.length_map, List.length_map] at read
    rw [moved.length_eq, read]
  rw [write_table (Fields.sorted_isSorted pairs).nodup]
  refine Value.equal_record names ?_ fun field mem => ?_
  · rw [List.length_map, length]
  · obtain ⟨entry, listed, rfl⟩ := List.mem_map.1 mem
    obtain ⟨origin, there, done⟩ := Outcome.exists_of_mem_results parts (moved.mem_iff.1 listed)
    obtain ⟨name, done⟩ := readField_ok_iff.1 done
    refine ⟨origin.2, ?_, each origin there entry.2 done⟩
    rw [name]
    exact there

/-- What is read from a value is written as an equal value. -/
theorem equal_of_read {shape : Shape} {value : Value} {data : shape.Native}
    (distinct : value.NamesDistinct) (done : shape.read value = .ok data) :
    (shape.write data).equal value = true := by
  induction shape generalizing value with
  | value =>
    obtain rfl := Except.ok.inj done
    exact Value.equal_self distinct
  | integer | real | text | reference =>
    cases value <;> cases done
    exact Value.equal_self distinct
  | word =>
    obtain ⟨n, rfl, held⟩ := read_word_ok_iff.1 done
    cases n with
    | word n =>
      obtain rfl := Option.some.inj held
      exact Value.equal_self distinct
    | wide n outside =>
      rw [Integer.toWord?_wide] at held
      cases held
  | whole =>
    obtain ⟨n, rfl, rfl⟩ := read_whole_ok_iff.1 done
    rw [write, Integer.ofInt_toInt]
    exact Value.equal_self distinct
  | list element ih =>
    obtain ⟨items, rfl, parts⟩ := read_list_ok_iff.1 done
    cases distinct with
    | sequence inside =>
      exact equal_of_read_list (fun item mem part done => ih (inside item mem) done) parts
  | table element ih =>
    obtain ⟨fields, pairs, rfl, parts, rfl⟩ := read_table_ok_iff.1 done
    cases distinct with
    | record names inside =>
      exact equal_of_read_table names (fun field mem part done => ih (inside field mem) done) parts

/-- What stands in the way when data of a shape is read from a value: something of another type,
or an integer where a word is needed that cannot hold it. -/
theorem fault_of_read {shape : Shape} {value : Value} {fault : Fault}
    (failed : shape.read value = .error fault) :
    (∃ expected found, fault = .typeMismatch expected found) ∨
      ∃ n : Integer, MeetsWord n shape value ∧ ¬ FitsWord n.toInt ∧ fault = outOfRange n := by
  induction shape generalizing value with
  | value => cases failed
  | integer | whole | real | text | reference =>
    cases value <;> cases failed <;> exact .inl ⟨_, _, rfl⟩
  | word =>
    rw [read, Outcome.bind_error_iff] at failed
    rcases failed with other | ⟨n, opened, failed⟩
    · cases value <;> cases other <;> exact .inl ⟨_, _, rfl⟩
    · have whole : value = .integer n := by cases value <;> cases opened; rfl
      subst whole
      cases held : n.toWord? with
      | some word => rw [held] at failed; cases failed
      | none =>
        rw [held] at failed
        cases failed
        exact .inr ⟨n, .here, (Integer.toWord?_eq_none_iff n).1 held, rfl⟩
  | list element ih =>
    rw [read, Outcome.bind_error_iff] at failed
    rcases failed with other | ⟨items, opened, failed⟩
    · cases value <;> cases other <;> exact .inl ⟨_, _, rfl⟩
    · have whole : value = .sequence items := by cases value <;> cases opened; rfl
      subst whole
      obtain ⟨item, mem, failed⟩ := Outcome.exists_of_mapM_error failed
      rcases ih failed with other | ⟨n, inside, outside, same⟩
      · exact .inl other
      · exact .inr ⟨n, .item mem inside, outside, same⟩
  | table element ih =>
    rw [read_table_eq, Outcome.bind_error_iff] at failed
    rcases failed with other | ⟨fields, opened, failed⟩
    · cases value <;> cases other <;> exact .inl ⟨_, _, rfl⟩
    · have whole : value = .record fields := by cases value <;> cases opened; rfl
      subst whole
      obtain ⟨field, mem, failed⟩ :=
        Outcome.exists_of_mapM_error (Statements.Item.returned_error_iff.1 failed)
      rcases ih (Statements.Item.returned_error_iff.1 failed) with
        other | ⟨n, inside, outside, same⟩
      · exact .inl other
      · exact .inr ⟨n, .field mem inside, outside, same⟩

/-- An integer that stands where a word is needed can be held in one, if data was read. -/
theorem fits_of_read {shape : Shape} {value : Value} {data : shape.Native} {n : Integer}
    (done : shape.read value = .ok data) (meets : MeetsWord n shape value) : FitsWord n.toInt := by
  induction meets with
  | here =>
    obtain ⟨_, same, held⟩ := read_word_ok_iff.1 done
    obtain rfl := Value.integer.inj same
    by_contra outside
    rw [(Integer.toWord?_eq_none_iff n).2 outside] at held
    cases held
  | item mem inside ih =>
    obtain ⟨_, same, parts⟩ := read_list_ok_iff.1 done
    obtain rfl := Value.sequence.inj same
    obtain ⟨part, done⟩ := Outcome.exists_of_mem_list parts mem
    exact ih done
  | field mem inside ih =>
    obtain ⟨_, pairs, same, parts, _⟩ := read_table_ok_iff.1 done
    obtain rfl := Value.record.inj same
    obtain ⟨entry, done⟩ := Outcome.exists_of_mem_list parts mem
    exact ih (readField_ok_iff.1 done).2

/-- Data of every shape passes through values exactly. Written, it is a value in which no record
has a name twice, and it is read back unchanged. Read, it is data as the host can have it, and it
is written as an equal value. Reading fails only because something of another type stands in the
value, or because an integer stands where a word is needed that cannot hold it; and with such an
integer no data is read. -/
theorem passes_values_exactly (shape : Shape) :
    (∀ data, shape.Tidy data →
      (shape.write data).NamesDistinct ∧ shape.read (shape.write data) = .ok data) ∧
    (∀ value data, value.NamesDistinct → shape.read value = .ok data →
      shape.Tidy data ∧ (shape.write data).equal value = true) ∧
    (∀ value fault, shape.read value = .error fault →
      (∃ expected found, fault = .typeMismatch expected found) ∨
      ∃ n : Integer, MeetsWord n shape value ∧ ¬ FitsWord n.toInt ∧
        fault = .unrepresentable "i64" (n.numeral ++ " is out of range")) ∧
    ∀ value (n : Integer), MeetsWord n shape value → ¬ FitsWord n.toInt →
      ∃ fault, shape.read value = .error fault := by
  refine ⟨fun data tidy => ⟨namesDistinct_write tidy, read_write tidy⟩,
    fun value data distinct done => ⟨tidy_of_read distinct done, equal_of_read distinct done⟩,
    fun value fault failed => fault_of_read failed, fun value n meets outside => ?_⟩
  cases result : shape.read value with
  | ok data => exact absurd (fits_of_read result meets) outside
  | error fault => exact ⟨fault, rfl⟩

/-- Words by name are read from a record in any order and sorted, and the record of them is equal
to it. Where a word is needed, the first number past the words is not read. -/
theorem passes_values_exactly_of_words :
    let entries : (table (list word)).Native := [("a", [3, -4]), ("b", [])]
    let given : Value := .record [("b", .sequence []),
      ("a", .sequence [.integer (.word 3), .integer (.word (-4))])]
    let beyond : Value := .record [("c", .sequence [.integer (Integer.ofInt 0x8000000000000000)])]
    (table (list word)).read ((table (list word)).write entries) = .ok entries ∧
    ((table (list word)).write entries).equal given = true ∧
    ((table (list word)).read beyond).isOk = false := by
  intro entries given beyond
  have tidy : (table (list word)).Tidy entries := by
    refine ⟨?_, fun _ _ _ _ => trivial⟩
    show List.Pairwise _ ["a", "b"]
    decide
  have distinct : given.NamesDistinct := by
    have words : ∀ item ∈ [Value.integer (.word 3), .integer (.word (-4))],
        item.NamesDistinct := by
      simp only [List.forall_mem_cons]
      exact ⟨.integer _, .integer _, fun _ none => absurd none List.not_mem_nil⟩
    refine .record (by decide) (List.forall_mem_cons.2 ⟨?_, List.forall_mem_singleton.2 ?_⟩)
    · exact .sequence fun _ none => absurd none List.not_mem_nil
    · exact .sequence words
  have meets : MeetsWord (Integer.ofInt 0x8000000000000000) (table (list word)) beyond :=
    .field List.mem_cons_self (.item List.mem_cons_self .here)
  have exact := passes_values_exactly (table (list word))
  obtain ⟨fault, refused⟩ := exact.2.2.2 beyond _ meets (by decide)
  exact ⟨(exact.1 entries tidy).2, (exact.2.1 given entries distinct rfl).2, by rw [refused]; rfl⟩

end Shape

end Interchange
