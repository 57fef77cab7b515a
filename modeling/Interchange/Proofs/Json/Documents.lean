import Interchange.Json.Reader
import Interchange.Proofs.Value.Items

/-!
# The values of JSON documents

A document without nulls and booleans stands for an exchanged value (`Json.exists_value?`): its
integers keep their number, its doubles their bits, and the members of its objects are sorted by
name, the last one of a repeated name. The statement language turns the document into exactly that
value and the value back into what it made of the document (`Json.ofJson_of_value?`).
-/
namespace Interchange

open Statements (Item)

namespace Json

/-- What holds of an array or an object if it holds of all its parts holds of all documents. -/
@[elab_as_elim, induction_eliminator]
theorem induction {P : Json → Prop} (null : P .null) (bool : ∀ b, P (.bool b))
    (number : ∀ n, P (.number n)) (string : ∀ s, P (.string s))
    (array : ∀ items, (∀ item ∈ items, P item) → P (.array items))
    (object : ∀ members, (∀ member ∈ members, P member.2) → P (.object members)) :
    ∀ document, P document
  | .null => null
  | .bool b => bool b
  | .number n => number n
  | .string s => string s
  | .array items => array items fun item _ =>
    induction null bool number string array object item
  | .object members => object members fun member mem =>
    have _smaller := List.sizeOf_lt_of_mem mem
    induction null bool number string array object member.2
termination_by document => sizeOf document
decreasing_by
  · decreasing_tactic
  · cases member
    simp only [Prod.mk.sizeOf_spec, Json.object.sizeOf_spec] at *
    omega

/-- No null and no boolean is in the document, at any depth. -/
inductive IsPlain : Json → Prop where
  /-- A number is none of them. -/
  | number (n : Number) : IsPlain (.number n)
  /-- A string is none of them. -/
  | string (s : String) : IsPlain (.string s)
  /-- The items of an array decide. -/
  | array {items : List Json} (inside : ∀ item ∈ items, IsPlain item) : IsPlain (.array items)
  /-- The members of an object decide. -/
  | object {members : List (String × Json)} (inside : ∀ member ∈ members, IsPlain member.2) :
      IsPlain (.object members)

/-- The value that a number stands for: the same number, and a double only if it was one. -/
def Number.value : Number → Value
  | natural n => .integer (.ofInt n.toNat)
  | negative n _ => .integer (.ofInt n.toInt)
  | real x _ => .float x

mutual

/-- The value that a document stands for. Nulls and booleans stand for none. -/
def value? : Json → Option Value
  | null => none
  | bool _ => none
  | number n => some n.value
  | string s => some (.text s)
  | array items => (values? items).map .sequence
  | object members => (pairs? members).map fun pairs => .record (Fields.sorted pairs)

/-- The values of the documents in an array. -/
def values? : List Json → Option (List Value)
  | [] => some []
  | document :: documents => do return (← document.value?) :: (← values? documents)

/-- The named values of the members of an object. -/
def pairs? : List (String × Json) → Option (List (String × Value))
  | [] => some []
  | (name, member) :: members => do return (name, ← member.value?) :: (← pairs? members)

end

/-- Documents stand for values if each of them does. -/
theorem values?_eq_some_iff {documents : List Json} {values : List Value} :
    values? documents = some values ↔
      List.Forall₂ (fun document value => document.value? = some value) documents values := by
  induction documents generalizing values with
  | nil => simp [values?, eq_comm]
  | cons document documents ih =>
    simp only [values?, Option.bind_eq_bind, Option.pure_def, Option.bind_eq_some_iff, ih,
      List.forall₂_cons_left_iff, Option.some.injEq]
    constructor
    · rintro ⟨value, stands, rest, paired, rfl⟩
      exact ⟨value, rest, stands, paired, rfl⟩
    · rintro ⟨value, rest, stands, paired, rfl⟩
      exact ⟨value, stands, rest, paired, rfl⟩

/-- Members stand for named values if each of them does, under its name. -/
theorem pairs?_eq_some_iff {members : List (String × Json)} {pairs : List (String × Value)} :
    pairs? members = some pairs ↔
      Fields.Matched (fun document value => document.value? = some value) members pairs := by
  induction members generalizing pairs with
  | nil => simp [pairs?, Fields.Matched, eq_comm]
  | cons member members ih =>
    simp only [pairs?, Option.bind_eq_bind, Option.pure_def, Option.bind_eq_some_iff, ih,
      Fields.Matched, List.forall₂_cons_left_iff, Option.some.injEq]
    constructor
    · rintro ⟨value, stands, rest, matched, rfl⟩
      exact ⟨(member.1, value), rest, ⟨rfl, stands⟩, matched, rfl⟩
    · rintro ⟨⟨name, value⟩, rest, ⟨rfl, stands⟩, matched, rfl⟩
      exact ⟨value, stands, rest, matched, rfl⟩

/-- Documents stand for values if each of them stands for one. -/
theorem exists_values?_iff (documents : List Json) :
    (∃ values, values? documents = some values) ↔
      ∀ document ∈ documents, ∃ value, document.value? = some value := by
  simp only [values?_eq_some_iff]
  induction documents with
  | nil => simp
  | cons document documents ih =>
    rw [List.forall_mem_cons, ← ih]
    constructor
    · rintro ⟨_, _ | ⟨stands, paired⟩⟩
      exact ⟨⟨_, stands⟩, _, paired⟩
    · rintro ⟨⟨_, stands⟩, _, paired⟩
      exact ⟨_, .cons stands paired⟩

/-- Members stand for named values if each of them stands for one. -/
theorem exists_pairs?_iff (members : List (String × Json)) :
    (∃ pairs, pairs? members = some pairs) ↔
      ∀ member ∈ members, ∃ value, member.2.value? = some value := by
  simp only [pairs?_eq_some_iff, Fields.Matched]
  induction members with
  | nil => simp
  | cons member members ih =>
    rw [List.forall_mem_cons, ← ih]
    constructor
    · rintro ⟨_, _ | ⟨⟨_, stands⟩, paired⟩⟩
      exact ⟨⟨_, stands⟩, _, paired⟩
    · rintro ⟨⟨value, stands⟩, _, paired⟩
      exact ⟨_, .cons (b := (member.1, value)) ⟨rfl, stands⟩ paired⟩

/-- A document stands for a value exactly if no null and no boolean is in it. -/
theorem exists_value?_iff (document : Json) :
    (∃ value, document.value? = some value) ↔ document.IsPlain := by
  induction document with
  | null => exact ⟨fun ⟨_, stands⟩ => (by cases stands), fun plain => (by cases plain)⟩
  | bool b => exact ⟨fun ⟨_, stands⟩ => (by cases stands), fun plain => (by cases plain)⟩
  | number n => exact ⟨fun _ => .number n, fun _ => ⟨n.value, rfl⟩⟩
  | string s => exact ⟨fun _ => .string s, fun _ => ⟨.text s, rfl⟩⟩
  | array items ih =>
    have inside : (∃ value, (array items).value? = some value) ↔
        ∃ values, values? items = some values := by
      simp [value?, Option.map_eq_some_iff]
    rw [inside, exists_values?_iff]
    exact ⟨fun each => .array fun item mem => (ih item mem).1 (each item mem),
      fun | .array plain => fun item mem => (ih item mem).2 (plain item mem)⟩
  | object members ih =>
    have inside : (∃ value, (object members).value? = some value) ↔
        ∃ pairs, pairs? members = some pairs := by
      simp [value?, Option.map_eq_some_iff]
    rw [inside, exists_pairs?_iff]
    exact ⟨fun each => .object fun member mem => (ih member mem).1 (each member mem),
      fun | .object plain => fun member mem => (ih member mem).2 (plain member mem)⟩

/-- The statement language takes a number for the value that it stands for. -/
theorem Number.numberValue_eq (n : Number) : Item.numberValue n = n.value := by
  cases n with
  | natural n => rw [Item.numberValue, value, Integer.ofUnsigned_eq]
  | negative n below => rw [Item.numberValue, value, Integer.ofInt_toInt_word]
  | real x finite => rfl

/-- The integer of an unsigned word becomes that word again. -/
theorem Number.ofInteger?_natural (n : UInt64) :
    ofInteger? (.ofInt n.toNat) = some (.natural n) := by
  by_cases fits : FitsWord n.toNat
  · have same : (Int64.ofInt n.toNat).toInt = n.toNat := Integer.toInt_word_ofInt fits
    have notBelow : ¬ Int64.ofInt n.toNat < 0 := by
      rw [Int64.lt_iff_toInt_lt, same, Int64.toInt_zero]
      omega
    have word : (Int64.ofInt n.toNat).toUInt64 = n := UInt64.toBitVec_inj.1 (by simp)
    rw [Integer.ofInt, dif_pos fits, ofInteger?, Integer.toWord?]
    simp only [ofWord, notBelow, dif_neg, not_false_eq_true, word]
  · have unsigned : (Integer.wide n.toNat fits).toUnsigned? = some n :=
      Integer.toUnsigned?_eq_some_iff.2 rfl
    rw [Integer.ofInt, dif_neg fits, ofInteger?, Integer.toWord?_wide, unsigned]
    rfl

/-- The value of a number becomes that number in the statement language. -/
theorem Number.ofValue_value (n : Number) : Item.ofValue n.value = .ok (.number n) := by
  cases n with
  | natural n =>
    rw [value, Item.ofValue, Item.ofInteger, ofInteger?_natural]
    rfl
  | negative n below =>
    have held : ofInteger? (.word n) = some (.negative n below) := congrArg some (dif_pos below)
    rw [value, Item.ofValue, Item.ofInteger, Integer.ofInt_toInt_word, held]
    rfl
  | real x finite =>
    rw [value, Item.ofValue, Item.ofDouble, ofDouble?, dif_pos finite]
    rfl

/-- What the statement language makes of documents and of the values that they stand for. -/
theorem ofDocuments_of_paired {documents : List Json} {values : List Value}
    (each : ∀ document ∈ documents, ∀ value, document.value? = some value →
      (Item.ofJson document).toValue = .ok value ∧
        Item.ofValue value = .ok (Item.ofJson document))
    (stands : values? documents = some values) :
    Item.toValues (Item.ofDocuments documents) = .ok values ∧
      Item.ofValues values = .ok (Item.ofDocuments documents) := by
  rw [values?_eq_some_iff] at stands
  induction stands with
  | nil => exact ⟨rfl, rfl⟩
  | cons first rest ih =>
    obtain ⟨now, later⟩ := List.forall_mem_cons.1 each
    obtain ⟨given, made⟩ := now _ first
    obtain ⟨givenRest, madeRest⟩ := ih later
    simp only [Item.ofDocuments, Item.toValues, Item.ofValues, given, made, givenRest, madeRest]
    exact ⟨rfl, rfl⟩

/-- What the statement language makes of members and of the named values that they stand for. -/
theorem ofMembers_of_matched {members : List (String × Json)} {pairs : List (String × Value)}
    (each : ∀ member ∈ members, ∀ value, member.2.value? = some value →
      (Item.ofJson member.2).toValue = .ok value ∧
        Item.ofValue value = .ok (Item.ofJson member.2))
    (stands : pairs? members = some pairs) :
    Item.toPairs (Item.ofMembers members) = .ok pairs ∧
      Item.ofPairs pairs = .ok (Item.ofMembers members) := by
  rw [pairs?_eq_some_iff] at stands
  induction stands with
  | nil => exact ⟨rfl, rfl⟩
  | @cons member pair members pairs first rest ih =>
    obtain ⟨name, document⟩ := member
    obtain ⟨_, value⟩ := pair
    obtain ⟨rfl, first⟩ := first
    obtain ⟨now, later⟩ := List.forall_mem_cons.1 each
    obtain ⟨given, made⟩ := now _ first
    obtain ⟨givenRest, madeRest⟩ := ih later
    simp only [Item.ofMembers, Item.toPairs, Item.ofPairs, given, made, givenRest, madeRest]
    exact ⟨rfl, rfl⟩

/-- The statement language turns a document into the value that it stands for, and that value into
what it made of the document. -/
theorem ofJson_of_value? {document : Json} {value : Value}
    (stands : document.value? = some value) :
    (Item.ofJson document).toValue = .ok value ∧
      Item.ofValue value = .ok (Item.ofJson document) := by
  induction document generalizing value with
  | null => cases stands
  | bool b => cases stands
  | number n =>
    obtain rfl := Option.some.inj stands
    exact ⟨congrArg Except.ok n.numberValue_eq, n.ofValue_value⟩
  | string s =>
    obtain rfl := Option.some.inj stands
    exact ⟨rfl, rfl⟩
  | array items ih =>
    obtain ⟨values, inside, rfl⟩ := Option.map_eq_some_iff.1 stands
    obtain ⟨given, made⟩ := ofDocuments_of_paired (fun item mem _ => ih item mem) inside
    rw [Item.ofJson, Item.toValue, Item.ofValue, given, made]
    exact ⟨rfl, rfl⟩
  | object members ih =>
    obtain ⟨pairs, inside, rfl⟩ := Option.map_eq_some_iff.1 stands
    obtain ⟨given, made⟩ := ofMembers_of_matched (fun member mem _ => ih member mem) inside
    have distinct := (Fields.sorted_isSorted pairs).nodup
    have ordered := (Fields.sorted_isSorted (Item.ofMembers members)).sorted_eq
    rw [Item.ofJson, Item.toValue, Item.ofValue, Item.toPairs_sorted given,
      Item.ofPairs_sorted made]
    constructor
    · exact congrArg (fun fields => Except.ok (Value.record fields))
        (Fields.ofPairs_of_nodup distinct)
    · exact congrArg (fun fields => Except.ok (Item.object fields)) ordered

/-- Of a text of a document only white space is left. -/
theorem exists_of_read? {text : List Char} {document : Json} (read : read? text = some document) :
    ∃ rest, readFront? depthLimit text = some (document, rest) ∧ skipSpace rest = [] := by
  unfold read? at read
  split at read
  · rename_i first rest found
    split at read
    · rename_i nothing
      obtain rfl := Option.some.inj read
      exact ⟨rest, found, List.isEmpty_iff.1 nothing⟩
    · cases read
  · cases read

/-- A number without a sign begins with a digit. -/
theorem isDigit_of_readMagnitude? {text : List Char} {read : Number × List Char}
    (found : readMagnitude? false text = some read) : ∃ c rest, text = c :: rest ∧ c.isDigit := by
  have collected : (collectDigits 0 text).collected ≠ 0 := by
    intro none
    rw [readMagnitude?] at found
    dsimp only at found
    rw [if_pos (.inl none)] at found
    cases found
  cases text with
  | nil => exact absurd rfl collected
  | cons c rest =>
    refine ⟨c, rest, rfl, ?_⟩
    by_contra other
    rw [Bool.not_eq_true] at other
    simp [collectDigits, other] at collected

/-- The words that are documents. -/
def words : List (List Char) := ["null".toList, "true".toList, "false".toList]

/-- A document is a word, or begins with a quote, a sign, a bracket, a brace or a digit. -/
theorem head_of_readFront? {depth : Nat} {text rest : List Char} {document : Json}
    (read : readFront? depth text = some (document, rest)) :
    (∃ word ∈ words, skipSpace text = word ++ rest) ∨
      ∃ c more, skipSpace text = c :: more ∧
        (c = '"' ∨ c = '-' ∨ c = '[' ∨ c = '\x7b' ∨ c.isDigit) := by
  unfold readFront? at read
  split at read
  · rename_i begins
    obtain ⟨_, rfl⟩ := Prod.mk.inj (Option.some.inj read)
    exact .inl ⟨"null".toList, by decide, begins⟩
  · rename_i begins
    obtain ⟨_, rfl⟩ := Prod.mk.inj (Option.some.inj read)
    exact .inl ⟨"true".toList, by decide, begins⟩
  · rename_i begins
    obtain ⟨_, rfl⟩ := Prod.mk.inj (Option.some.inj read)
    exact .inl ⟨"false".toList, by decide, begins⟩
  · rename_i more begins
    exact .inr ⟨_, more, begins, .inl rfl⟩
  · rename_i more begins
    exact .inr ⟨_, more, begins, .inr (.inl rfl)⟩
  · rename_i more begins
    exact .inr ⟨_, more, begins, .inr (.inr (.inl rfl))⟩
  · rename_i more begins
    exact .inr ⟨_, more, begins, .inr (.inr (.inr (.inl rfl)))⟩
  · obtain ⟨n, found, _⟩ := Option.map_eq_some_iff.1 read
    obtain ⟨c, more, begins, digit⟩ := isDigit_of_readMagnitude? found
    exact .inr ⟨c, more, begins, .inr (.inr (.inr (.inr digit)))⟩

end Json

end Interchange
