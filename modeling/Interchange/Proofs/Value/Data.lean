import Interchange.Proofs.Value.Paths

/-!
# Data without repeated names

The records of the form language are lists of fields. Reading a field takes the first one with its
name, and turning a record into a value takes the last one. Where no record repeats a name, at any
depth (`Forms.Datum.NamesDistinct`), the two agree: a datum that has a value is the datum of that
value (`Forms.Datum.ofValue_of_toValue`), and is read as the value is
(`Forms.Datum.NamesDistinct.readsAs`). What has no value is nil and truth values, and data with one
of them inside (`Forms.Datum.toValue_error_iff`).
-/
namespace Interchange.Forms.Datum

/-- What holds of a list or a record if it holds of all its parts holds of all data. -/
@[elab_as_elim, induction_eliminator]
theorem induction {P : Datum → Prop} (nil : P .nil) (bool : ∀ b, P (.bool b))
    (integer : ∀ n, P (.integer n)) (float : ∀ x, P (.float x)) (string : ∀ s, P (.string s))
    (list : ∀ items, (∀ item ∈ items, P item) → P (.list items))
    (record : ∀ fields, (∀ field ∈ fields, P field.2) → P (.record fields))
    (foreign : ∀ target, P (.foreign target)) : ∀ datum, P datum
  | .nil => nil
  | .bool b => bool b
  | .integer n => integer n
  | .float x => float x
  | .string s => string s
  | .list items => list items fun item _ =>
    induction nil bool integer float string list record foreign item
  | .record fields => record fields fun field mem =>
    have _smaller := List.sizeOf_lt_of_mem mem
    induction nil bool integer float string list record foreign field.2
  | .foreign target => foreign target
termination_by datum => sizeOf datum
decreasing_by
  · decreasing_tactic
  · cases field
    simp only [Prod.mk.sizeOf_spec, Datum.record.sizeOf_spec] at *
    omega

/-- No record in the datum, at any depth, has a name twice. -/
inductive NamesDistinct : Datum → Prop where
  /-- Nil has no records in it. -/
  | nil : NamesDistinct .nil
  /-- A truth value has no records in it. -/
  | bool (b : Bool) : NamesDistinct (.bool b)
  /-- An integer has no records in it. -/
  | integer (n : Integer) : NamesDistinct (.integer n)
  /-- A double has no records in it. -/
  | float (x : Double) : NamesDistinct (.float x)
  /-- A string has no records in it. -/
  | string (s : String) : NamesDistinct (.string s)
  /-- The items of a list decide. -/
  | list {items : List Datum} (inside : ∀ item ∈ items, NamesDistinct item) :
      NamesDistinct (.list items)
  /-- The names of a record and its fields decide. -/
  | record {fields : List (String × Datum)} (distinct : (Fields.names fields).Nodup)
      (inside : ∀ field ∈ fields, NamesDistinct field.2) : NamesDistinct (.record fields)
  /-- What a reference stands for lies outside the datum. -/
  | foreign (target : Reference) : NamesDistinct (.foreign target)

/-- Nil or a truth value occurs in the datum, at some depth. -/
inductive LacksValue : Datum → Prop where
  /-- It is nil. -/
  | nil : LacksValue .nil
  /-- It is a truth value. -/
  | bool (b : Bool) : LacksValue (.bool b)
  /-- One occurs in an item. -/
  | item {items : List Datum} {item : Datum} (mem : item ∈ items) (inside : LacksValue item) :
      LacksValue (.list items)
  /-- One occurs in a field. -/
  | field {fields : List (String × Datum)} {field : String × Datum} (mem : field ∈ fields)
      (inside : LacksValue field.2) : LacksValue (.record fields)

open Outcome

/-- Data in order have values if each of them has one. -/
theorem toValues_eq_ok_iff {data : List Datum} {values : List Value} :
    toValues data = .ok values ↔
      List.Forall₂ (fun datum value => datum.toValue = .ok value) data values := by
  induction data generalizing values with
  | nil => simp [toValues, eq_comm]
  | cons datum data ih =>
    simp only [toValues, bind_ok_iff, pure_ok_iff, ih, List.forall₂_cons_left_iff]
    constructor
    · rintro ⟨value, given, rest, paired, rfl⟩
      exact ⟨value, rest, given, paired, rfl⟩
    · rintro ⟨value, rest, given, paired, rfl⟩
      exact ⟨value, given, rest, paired, rfl⟩

/-- Named data have values if each of them has one, under its name. -/
theorem toPairs_eq_ok_iff {fields : List (String × Datum)} {pairs : List (String × Value)} :
    toPairs fields = .ok pairs ↔
      Fields.Matched (fun datum value => datum.toValue = .ok value) fields pairs := by
  induction fields generalizing pairs with
  | nil => simp [toPairs, Fields.Matched, eq_comm]
  | cons field fields ih =>
    simp only [toPairs, bind_ok_iff, pure_ok_iff, ih, Fields.Matched, List.forall₂_cons_left_iff]
    constructor
    · rintro ⟨value, given, rest, matched, rfl⟩
      exact ⟨(field.1, value), rest, ⟨rfl, given⟩, matched, rfl⟩
    · rintro ⟨⟨name, value⟩, rest, ⟨rfl, given⟩, matched, rfl⟩
      exact ⟨value, given, rest, matched, rfl⟩

/-- A list has the sequence of the values of its items. -/
theorem toValue_list_iff {items : List Datum} {value : Value} :
    toValue (.list items) = .ok value ↔
      ∃ values, List.Forall₂ (fun datum value => datum.toValue = .ok value) items values ∧
        .sequence values = value := by
  simp only [toValue, bind_ok_iff, pure_ok_iff, toValues_eq_ok_iff]

/-- A record has the record of the values of its fields. -/
theorem toValue_record_iff {fields : List (String × Datum)} {value : Value} :
    toValue (.record fields) = .ok value ↔
      ∃ pairs, Fields.Matched (fun datum value => datum.toValue = .ok value) fields pairs ∧
        Value.recordOf pairs = value := by
  simp only [toValue, bind_ok_iff, pure_ok_iff, toPairs_eq_ok_iff]

/-- Something can be paired off with all of some elements if it can be with each of them. -/
theorem exists_forall₂_iff {α β : Type} {R : α → β → Prop} {elements : List α} :
    (∃ others, List.Forall₂ R elements others) ↔
      ∀ element ∈ elements, ∃ other, R element other := by
  induction elements with
  | nil => exact iff_of_true ⟨[], .nil⟩ fun element mem => absurd mem List.not_mem_nil
  | cons element elements ih =>
    rw [List.forall_mem_cons, ← ih]
    constructor
    · rintro ⟨others, paired⟩
      cases paired with
      | cons first rest => exact ⟨⟨_, first⟩, _, rest⟩
    · rintro ⟨⟨other, first⟩, others, rest⟩
      exact ⟨other :: others, .cons first rest⟩

/-- What something is paired off with is paired off with it. -/
theorem exists_of_mem_right {α β : Type} {R : α → β → Prop} {elements : List α} {others : List β}
    (paired : List.Forall₂ R elements others) {other : β} (mem : other ∈ others) :
    ∃ element ∈ elements, R element other := by
  induction paired with
  | nil => exact absurd mem List.not_mem_nil
  | cons first _ ih =>
    rcases List.mem_cons.1 mem with rfl | later
    · exact ⟨_, List.mem_cons_self, first⟩
    · obtain ⟨element, there, related⟩ := ih later
      exact ⟨element, List.mem_cons_of_mem _ there, related⟩

/-- A datum has a value exactly if nothing in it lacks one. -/
theorem exists_toValue_iff (datum : Datum) :
    (∃ value, datum.toValue = .ok value) ↔ ¬ datum.LacksValue := by
  induction datum with
  | nil =>
    refine iff_of_false (fun ⟨value, impossible⟩ => ?_) (not_not_intro .nil)
    cases impossible
  | bool b =>
    refine iff_of_false (fun ⟨value, impossible⟩ => ?_) (not_not_intro (.bool b))
    cases impossible
  | integer n => exact iff_of_true ⟨_, rfl⟩ fun lacks => by cases lacks
  | float x => exact iff_of_true ⟨_, rfl⟩ fun lacks => by cases lacks
  | string s => exact iff_of_true ⟨_, rfl⟩ fun lacks => by cases lacks
  | foreign target => exact iff_of_true ⟨_, rfl⟩ fun lacks => by cases lacks
  | list items ih =>
    have parts : (∃ value, toValue (.list items) = .ok value) ↔
        ∀ item ∈ items, ∃ value, item.toValue = .ok value := by
      simp only [toValue_list_iff, ← exists_forall₂_iff]
      exact ⟨fun ⟨_, values, paired, _⟩ => ⟨values, paired⟩,
        fun ⟨values, paired⟩ => ⟨_, values, paired, rfl⟩⟩
    rw [parts]
    constructor
    · intro each lacks
      cases lacks with
      | item mem inside => exact (ih _ mem).1 (each _ mem) inside
    · intro whole item mem
      exact (ih item mem).2 fun inside => whole (.item mem inside)
  | record fields ih =>
    have parts : (∃ value, toValue (.record fields) = .ok value) ↔
        ∀ field ∈ fields, ∃ value, field.2.toValue = .ok value := by
      have named (field : String × Datum) : (∃ value, field.2.toValue = .ok value) ↔
          ∃ pair : String × Value, field.1 = pair.1 ∧ field.2.toValue = .ok pair.2 :=
        ⟨fun ⟨value, given⟩ => ⟨(field.1, value), rfl, given⟩, fun ⟨pair, _, given⟩ => ⟨_, given⟩⟩
      simp only [toValue_record_iff, named, ← exists_forall₂_iff]
      exact ⟨fun ⟨_, pairs, matched, _⟩ => ⟨pairs, matched⟩,
        fun ⟨pairs, matched⟩ => ⟨_, pairs, matched, rfl⟩⟩
    rw [parts]
    constructor
    · intro each lacks
      cases lacks with
      | field mem inside => exact (ih _ mem).1 (each _ mem) inside
    · intro whole field mem
      exact (ih field mem).2 fun inside => whole (.field mem inside)

/-- Turning a datum into a value fails exactly if something in it lacks one. -/
theorem toValue_error_iff (datum : Datum) :
    (∃ fault, datum.toValue = .error fault) ↔ datum.LacksValue := by
  rw [← not_iff_not, ← exists_toValue_iff]
  cases datum.toValue with
  | ok value => exact iff_of_true (fun ⟨_, impossible⟩ => by cases impossible) ⟨value, rfl⟩
  | error fault => exact iff_of_false (not_not_intro ⟨fault, rfl⟩) fun ⟨_, same⟩ => by cases same

/-- What a datum is turned into has no name twice in a record, even if the datum has. -/
theorem namesDistinct_of_toValue {datum : Datum} {value : Value}
    (given : datum.toValue = .ok value) : value.NamesDistinct := by
  induction datum generalizing value with
  | nil => cases given
  | bool b => cases given
  | integer n => exact Except.ok.inj given ▸ .integer n
  | float x => exact Except.ok.inj given ▸ .float x
  | string s => exact Except.ok.inj given ▸ .text s
  | foreign target => exact Except.ok.inj given ▸ .reference target
  | list items ih =>
    obtain ⟨values, paired, rfl⟩ := toValue_list_iff.1 given
    refine .sequence fun value mem => ?_
    obtain ⟨item, there, made⟩ := exists_of_mem_right paired mem
    exact ih item there made
  | record fields ih =>
    obtain ⟨pairs, matched, rfl⟩ := toValue_record_iff.1 given
    obtain ⟨distinct, among⟩ := Fields.ofPairs_of_pairs pairs
    refine .record distinct fun pair mem => ?_
    obtain ⟨field, there, _, made⟩ := exists_of_mem_right matched (among pair mem)
    exact ih field there made

/-- Data in order are those of their values if each of them is. -/
theorem ofValues_of_paired {items : List Datum} {values : List Value}
    (paired : List.Forall₂ (fun datum value => datum.toValue = .ok value) items values)
    (each : ∀ item ∈ items, ∀ value, item.toValue = .ok value → ofValue value = item) :
    ofValues values = items := by
  induction paired with
  | nil => rfl
  | cons first _ ih =>
    obtain ⟨one, others⟩ := List.forall_mem_cons.1 each
    rw [ofValues, one _ first, ih others]

/-- Named data are those of their values if each of them is. -/
theorem ofPairs_of_matched {fields : List (String × Datum)} {pairs : List (String × Value)}
    (matched : Fields.Matched (fun datum value => datum.toValue = .ok value) fields pairs)
    (each : ∀ field ∈ fields, ∀ value, field.2.toValue = .ok value → ofValue value = field.2) :
    ofPairs pairs = fields := by
  induction matched with
  | nil => rfl
  | @cons field pair fields pairs first _ ih =>
    obtain ⟨one, others⟩ := List.forall_mem_cons.1 each
    obtain ⟨same, given⟩ := first
    rw [ofPairs, ← same, one _ given, ih others]

/-- A datum that has no name twice in a record and has a value is the datum of that value. -/
theorem ofValue_of_toValue {datum : Datum} {value : Value} (distinct : datum.NamesDistinct)
    (given : datum.toValue = .ok value) : ofValue value = datum := by
  induction datum generalizing value with
  | nil => cases given
  | bool b => cases given
  | integer n => exact Except.ok.inj given ▸ rfl
  | float x => exact Except.ok.inj given ▸ rfl
  | string s => exact Except.ok.inj given ▸ rfl
  | foreign target => exact Except.ok.inj given ▸ rfl
  | list items ih =>
    obtain ⟨values, paired, rfl⟩ := toValue_list_iff.1 given
    cases distinct with
    | list inside =>
      have back := ofValues_of_paired paired fun item mem value made =>
        ih item mem (inside item mem) made
      rw [ofValue, back]
  | record fields ih =>
    obtain ⟨pairs, matched, rfl⟩ := toValue_record_iff.1 given
    cases distinct with
    | record names inside =>
      have back := ofPairs_of_matched matched fun field mem value made =>
        ih field mem (inside field mem) made
      -- No name is repeated, so that the value has the fields as they are.
      rw [matched.names_eq] at names
      rw [Value.recordOf, Fields.ofPairs_of_nodup names, ofValue, back]

/-- The datum of a value has no name twice in a record if the value has none. -/
theorem NamesDistinct.ofValue {value : Value} (distinct : value.NamesDistinct) :
    (ofValue value).NamesDistinct := by
  induction value with
  | integer n => exact .integer n
  | float x => exact .float x
  | text s => exact .string s
  | reference target => exact .foreign target
  | sequence items ih =>
    cases distinct with
    | sequence inside =>
      refine .list fun datum mem => ?_
      obtain ⟨item, there, rfl⟩ := exists_of_mem_right (forall₂_ofValues items) mem
      exact ih item there (inside item there)
  | record fields ih =>
    cases distinct with
    | record names inside =>
      have matched := matched_ofPairs fields
      refine .record (matched.names_eq ▸ names) fun datum mem => ?_
      obtain ⟨field, there, _, made⟩ := exists_of_mem_right matched mem
      rw [made]
      exact ih field there (inside field there)

/-- A datum is read as a value is, and is the datum of that value. -/
structure ReadsAs (heap : Heap) (datum : Datum) (value : Value) : Prop where
  /-- It is the datum of the value. -/
  back : Datum.ofValue value = datum
  /-- A field comes to one whose value is the field of the value, or both fail for the same
  reason. -/
  field : ∀ name, GoTogether (fun part inner => inner.toValue = .ok part)
    (value.field heap name) (datum.field heap name)
  /-- So does an item. -/
  nth : ∀ position, GoTogether (fun part inner => inner.toValue = .ok part)
    (value.index heap position) (datum.nth heap position)
  /-- A list is as long as the sequence. -/
  listLength : ∀ items, value = .sequence items → datum.length heap = .ok items.length
  /-- A record has as many fields as the record. -/
  recordLength : ∀ fields, value = .record fields → datum.length heap = .ok fields.length

/-- Where no record repeats a name, a datum is read as its value is. -/
theorem NamesDistinct.readsAs {heap : Heap} (held : heap.NamesDistinct) {datum : Datum}
    {value : Value} (distinct : datum.NamesDistinct) (given : datum.toValue = .ok value) :
    datum.ReadsAs heap value := by
  obtain rfl := ofValue_of_toValue distinct given
  have names := namesDistinct_of_toValue given
  -- What a step comes to has no name twice either, so its datum has it as its value.
  have step (step : Statements.Step) :
      GoTogether (fun part inner => inner.toValue = .ok part) (value.follow heap step)
        ((Datum.ofValue value).follow heap step) := by
    have together := follow_ofValue heap value step
    generalize (Datum.ofValue value).follow heap step = inner at together ⊢
    cases followed : value.follow heap step with
    | ok part =>
      rw [followed] at together
      cases together with
      | parts same =>
        rw [same]
        exact .parts (toValue_ofValue (names.follow held followed))
    | error fault =>
      rw [followed] at together
      cases together with
      | faults same => exact .faults same
  refine ⟨rfl, fun name => ?_, fun position => step (.index position), ?_, ?_⟩
  · have field := step (.field name.toList)
    rw [Value.follow, follow, String.ofList_toList] at field
    exact field
  · rintro items rfl
    rw [(forall₂_ofValues items).length_eq]
    rfl
  · rintro fields rfl
    rw [(matched_ofPairs fields).length_eq]
    rfl

end Interchange.Forms.Datum
