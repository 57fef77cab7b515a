import Interchange.Proofs.Guests.QuotedNames
import Interchange.Proofs.Json.RoundTrip

/-!
# Printed items read back

The written form of an item without references is JSON, and the item of that JSON is the item itself
(`Statements.Item.written_reads_back`). So a literal that is copied from what an item prints comes
to that item again. The objects of an item are sorted by name, which is how all items are made
(`Statements.Item.isData_ofJson`).
-/
namespace Interchange

namespace Json

variable {limit : Nat} {document : Json}

/-- The characters of numbers are no white space. -/
theorem isBlank_of_isNumeric {c : Char} (numeric : isNumeric c) : Text.isBlank c = false := by
  simp only [isNumeric, Bool.or_eq_true, beq_iff_eq] at numeric
  rcases numeric with ((((digit | rfl) | rfl) | rfl) | rfl) | rfl
  · exact Statements.isBlank_of_continuesName
      (by simp [Statements.continuesName, Char.isAlphanum, digit])
  all_goals rfl

/-- No white space is around what is written of a document. -/
theorem IsReadable.isTrimmed (readable : document.IsReadable limit) :
    Text.IsTrimmed document.render.toList := by
  have enclosed {opening closing : Char} {inner : List Char}
      (opens : Text.isBlank opening = false) (closes : Text.isBlank closing = false) :
      Text.IsTrimmed (opening :: (inner ++ [closing])) := by
    have front : Text.IsTrimmed [opening] := Text.isTrimmed_of_not_isBlank (by simp [opens])
    have back : Text.IsTrimmed [closing] := Text.isTrimmed_of_not_isBlank (by simp [closes])
    exact front.append back (by simp) (by simp) inner
  cases readable with
  | null => exact Text.isTrimmed_of_not_isBlank (by decide)
  | bool limit b => cases b <;> exact Text.isTrimmed_of_not_isBlank (by decide)
  | @number limit n back =>
    refine Text.isTrimmed_of_not_isBlank (List.any_eq_false.2 fun c mem => ?_)
    rw [Bool.not_eq_true, isBlank_of_isNumeric (n.isNumeric_numeral c mem)]
  | string limit s => exact Statements.isTrimmed_stringLiteral s
  | array => rw [toList_render_array]; exact enclosed rfl rfl
  | object => rw [toList_render_object]; exact enclosed rfl rfl

end Json

namespace Statements.Item

mutual

/-- How many arrays and objects are inside each other. -/
def depth : Item → Nat
  | array items => deepest items + 1
  | object members => deepestMember members + 1
  | _ => 0

/-- The depth of the deepest one of some items. -/
def deepest : List Item → Nat
  | [] => 0
  | item :: items => max item.depth (deepest items)

/-- The depth of the deepest one of some members. -/
def deepestMember : List (String × Item) → Nat
  | [] => 0
  | (_, item) :: members => max item.depth (deepestMember members)

end

mutual

/-- The numbers in an item, at any depth. -/
def numbers : Item → List Json.Number
  | number n => [n]
  | array items => numbersOf items
  | object members => memberNumbers members
  | _ => []

/-- The numbers in some items. -/
def numbersOf : List Item → List Json.Number
  | [] => []
  | item :: items => item.numbers ++ numbersOf items

/-- The numbers in some members. -/
def memberNumbers : List (String × Item) → List Json.Number
  | [] => []
  | (_, item) :: members => item.numbers ++ memberNumbers members

end

/-- No reference is in the item, and its objects are sorted by name, at any depth. -/
inductive IsData : Item → Prop where
  /-- A null is data. -/
  | null : IsData null
  /-- A boolean is data. -/
  | bool (b : Bool) : IsData (bool b)
  /-- A number is data. -/
  | number (n : Json.Number) : IsData (number n)
  /-- A string is data. -/
  | string (s : String) : IsData (string s)
  /-- The items of an array decide. -/
  | array {items : List Item} (inside : ∀ item ∈ items, IsData item) : IsData (array items)
  /-- The members of an object decide, and their order. -/
  | object {members : List (String × Item)} (sorted : Fields.Sorted members)
      (inside : ∀ member ∈ members, IsData member.2) : IsData (object members)

variable {limit : Nat} {item : Item} {items : List Item} {members : List (String × Item)}

/-- No item is deeper than the deepest one. -/
theorem depth_le_deepest (mem : item ∈ items) : item.depth ≤ deepest items := by
  induction items with
  | nil => cases mem
  | cons first items ih =>
    rw [deepest]
    rcases List.mem_cons.1 mem with rfl | mem
    · exact Nat.le_max_left ..
    · exact Nat.le_trans (ih mem) (Nat.le_max_right ..)

/-- No member is deeper than the deepest one. -/
theorem depth_le_deepestMember {member : String × Item} (mem : member ∈ members) :
    member.2.depth ≤ deepestMember members := by
  induction members with
  | nil => cases mem
  | cons first members ih =>
    rw [deepestMember]
    rcases List.mem_cons.1 mem with rfl | mem
    · exact Nat.le_max_left ..
    · exact Nat.le_trans (ih mem) (Nat.le_max_right ..)

/-- The numbers in an item are among those of all items. -/
theorem mem_numbersOf {n : Json.Number} (inside : n ∈ item.numbers) (mem : item ∈ items) :
    n ∈ numbersOf items := by
  induction items with
  | nil => cases mem
  | cons first items ih =>
    rw [numbersOf, List.mem_append]
    rcases List.mem_cons.1 mem with rfl | mem
    · exact .inl inside
    · exact .inr (ih mem)

/-- The numbers in a member are among those of all members. -/
theorem mem_memberNumbers {n : Json.Number} {member : String × Item}
    (inside : n ∈ member.2.numbers) (mem : member ∈ members) : n ∈ memberNumbers members := by
  induction members with
  | nil => cases mem
  | cons first members ih =>
    rw [memberNumbers, List.mem_append]
    rcases List.mem_cons.1 mem with rfl | mem
    · exact .inl inside
    · exact .inr (ih mem)

/-- A readable document is written like the item, and the item is made of it. -/
structure Writes (limit : Nat) (document : Json) (item : Item) : Prop where
  /-- The document can be read back. -/
  readable : document.IsReadable limit
  /-- The item is made of it. -/
  made : ofJson document = item
  /-- Both are written alike. -/
  alike : document.render = item.written

/-- If each item is written like a document, so are all of them. -/
theorem exists_documents (each : ∀ item ∈ items, ∃ document, Writes limit document item) :
    ∃ documents, (∀ document ∈ documents, document.IsReadable limit) ∧
      ofDocuments documents = items ∧ Json.renderItems documents = writtenItems items := by
  induction items with
  | nil => exact ⟨[], by simp, rfl, rfl⟩
  | cons item items ih =>
    obtain ⟨⟨document, writes⟩, others⟩ := List.forall_mem_cons.1 each
    obtain ⟨documents, readable, made, alike⟩ := ih others
    refine ⟨document :: documents, List.forall_mem_cons.2 ⟨writes.readable, readable⟩, ?_, ?_⟩
    · rw [ofDocuments, writes.made, made]
    · rw [Json.renderItems, writtenItems, writes.alike, alike]

/-- If each member is written like a document, so are all of them. -/
theorem exists_members (each : ∀ member ∈ members, ∃ document, Writes limit document member.2) :
    ∃ documents : List (String × Json), (∀ member ∈ documents, member.2.IsReadable limit) ∧
      ofMembers documents = members ∧ Json.renderMembers documents = writtenMembers members := by
  induction members with
  | nil => exact ⟨[], by simp, rfl, rfl⟩
  | cons member members ih =>
    obtain ⟨⟨document, writes⟩, others⟩ := List.forall_mem_cons.1 each
    obtain ⟨documents, readable, made, alike⟩ := ih others
    refine ⟨(member.1, document) :: documents, List.forall_mem_cons.2 ⟨writes.readable, readable⟩,
      ?_, ?_⟩
    · rw [ofMembers, writes.made, made]
    · rw [Json.renderMembers, writtenMembers, writes.alike, alike]

/-- Data that is not nested too deep and whose numbers are read back is written like a document. -/
theorem IsData.exists_document (data : item.IsData) (nested : item.depth ≤ limit)
    (back : ∀ n ∈ item.numbers, n.ReadsBack) : ∃ document, Writes limit document item := by
  induction data generalizing limit with
  | null => exact ⟨.null, .null limit, rfl, rfl⟩
  | bool b => exact ⟨.bool b, .bool limit b, rfl, rfl⟩
  | number n => exact ⟨.number n, .number limit (back n (List.mem_singleton.2 rfl)), rfl, rfl⟩
  | string s => exact ⟨.string s, .string limit s, rfl, rfl⟩
  | @array items inside ih =>
    rw [depth] at nested
    obtain ⟨inner, rfl⟩ := Nat.exists_eq_add_of_le' (Nat.le_trans (Nat.le_add_left 1 _) nested)
    obtain ⟨documents, readable, made, alike⟩ := exists_documents fun item mem =>
      ih item mem (Nat.le_trans (depth_le_deepest mem) (Nat.le_of_succ_le_succ nested))
        fun n inside => back n (mem_numbersOf inside mem)
    refine ⟨.array documents, .array readable, ?_, ?_⟩
    · rw [ofJson, made]
    · rw [Json.render, written, alike]
  | @object members sorted inside ih =>
    rw [depth] at nested
    obtain ⟨inner, rfl⟩ := Nat.exists_eq_add_of_le' (Nat.le_trans (Nat.le_add_left 1 _) nested)
    obtain ⟨documents, readable, made, alike⟩ := exists_members fun member mem =>
      ih member mem (Nat.le_trans (depth_le_deepestMember mem) (Nat.le_of_succ_le_succ nested))
        fun n inside => back n (mem_memberNumbers inside mem)
    refine ⟨.object documents, .object readable, ?_, ?_⟩
    · rw [ofJson, made, sorted.sorted_eq]
    · rw [Json.render, written, alike]

/-- The item of a document is data. -/
theorem isData_ofJson (document : Json) : (ofJson document).IsData := by
  have ofDocuments {documents : List Json}
      (each : ∀ document ∈ documents, (ofJson document).IsData) :
      ∀ item ∈ ofDocuments documents, item.IsData := by
    induction documents with
    | nil => simp [Item.ofDocuments]
    | cons document documents ih =>
      obtain ⟨first, others⟩ := List.forall_mem_cons.1 each
      exact List.forall_mem_cons.2 ⟨first, ih others⟩
  have ofMembers {members : List (String × Json)}
      (each : ∀ member ∈ members, (ofJson member.2).IsData) :
      ∀ member ∈ ofMembers members, member.2.IsData := by
    induction members with
    | nil => simp [Item.ofMembers]
    | cons member members ih =>
      obtain ⟨first, others⟩ := List.forall_mem_cons.1 each
      exact List.forall_mem_cons.2 ⟨first, ih others⟩
  induction document with
  | null => exact .null
  | bool b => exact .bool b
  | number n => exact .number n
  | string s => exact .string s
  | array items ih => exact .array (ofDocuments ih)
  | object members ih =>
    exact .object (Fields.sorted_isSorted _) fun member mem =>
      ofMembers ih member (Fields.mem_of_mem_sorted mem)

/-- Items print as JSON that reads back. What is written of an item without references, whose
objects are sorted by name and which is not nested deeper than the reader goes, is JSON, and the
item of that JSON is the item itself. As an expression the same text is the item as a literal, so
that it comes to the item and asks for nothing. Of the doubles in the item it is assumed that each
one is read back if it stands alone. -/
theorem written_reads_back {item : Item} (data : item.IsData)
    (nested : item.depth ≤ Json.depthLimit)
    (doubles : ∀ x finite, Json.Number.real x finite ∈ item.numbers →
      Json.read? (Json.Number.layout.render x).toList = some (.number (.real x finite))) :
    (∃ document, Json.read? item.written.toList = some document ∧ ofJson document = item) ∧
    Expression.read item.written.toList = .literal item ∧
    ∀ locals line, ((Expression.read item.written.toList).eval locals line).run =
      .done (.ok item) := by
  have back : ∀ n ∈ item.numbers, n.ReadsBack := by
    intro n mem
    cases n with
    | natural word => exact Json.Number.readsBack_natural word
    | negative word below => exact Json.Number.readsBack_negative word below
    | real x finite => exact doubles x finite mem
  obtain ⟨document, readable, made, alike⟩ := data.exists_document nested back
  have read := Json.read?_render readable
  have trimmed := readable.isTrimmed
  rw [alike] at read trimmed
  have literal : Expression.read item.written.toList = .literal item := by
    rw [Expression.read_of_document (by rw [trimmed.trim_eq]; exact read), made]
  refine ⟨⟨document, read, made⟩, literal, fun locals line => ?_⟩
  rw [literal]
  rfl

/-- Two and a half. -/
def twoAndHalf : Double := ⟨0x4004000000000000⟩

/-- Two and a half is read back. -/
theorem twoAndHalf_reads_back :
    Json.read? (Json.Number.layout.render twoAndHalf).toList =
      some (.number (.real twoAndHalf rfl)) := by
  have scaled : Decimal.scaled? (Double.ofNat 25) (-1) = some twoAndHalf := by
    rw [Decimal.scaled?]
    decide +kernel
  have real : Json.realNumber? false 25 (-1) = some (.real twoAndHalf rfl) := by
    rw [Json.realNumber?, scaled]
    rfl
  have magnitude : Json.readMagnitude? false "2.5".toList =
      (Json.realNumber? false 25 (-1)).map (·, []) := rfl
  have front := Json.readFront?_digit Json.depthLimit (c := '2') rfl ".5".toList
  rw [real] at magnitude
  exact Json.read?_of_readFront? (front.trans (congrArg _ magnitude))

/-- A piece of data with names that need escapes, empty parts and numbers of different kinds. -/
def ledger : Item :=
  .object [("\"],\\", .array [.number (.real twoAndHalf rfl), .number (.natural 7), .array []]),
    ("tab\t", .object [("", .null), ("x", .object [])]), ("z", .bool true)]

/-- The ledger is read back from what is written of it, also as a literal. -/
theorem ledger_reads_back :
    ledger.written =
      "\x7b\"\\\"],\\\\\":[2.5,7,[]],\"tab\\t\":\x7b\"\":null,\"x\":\x7b\x7d\x7d,\"z\":true\x7d" ∧
    (∃ document, Json.read? ledger.written.toList = some document ∧ ofJson document = ledger) ∧
    Expression.read ledger.written.toList = .literal ledger := by
  have data : ledger.IsData := by
    refine .object (by decide) (List.forall_mem_cons.2 ⟨.array ?_, List.forall_mem_cons.2
      ⟨.object (by decide) ?_, List.forall_mem_singleton.2 (.bool true)⟩⟩)
    · exact List.forall_mem_cons.2 ⟨.number _, List.forall_mem_cons.2 ⟨.number _,
        List.forall_mem_singleton.2 (.array (by simp))⟩⟩
    · exact List.forall_mem_cons.2 ⟨.null, List.forall_mem_singleton.2
        (.object (by decide) (by simp))⟩
  have doubles : ∀ x finite, Json.Number.real x finite ∈ ledger.numbers →
      Json.read? (Json.Number.layout.render x).toList = some (.number (.real x finite)) := by
    intro x finite mem
    have listed : ledger.numbers = [.real twoAndHalf rfl, .natural 7] := rfl
    rw [listed] at mem
    rcases List.mem_cons.1 mem with same | mem
    · cases same
      exact twoAndHalf_reads_back
    · cases List.mem_singleton.1 mem
  obtain ⟨read, literal, _⟩ := written_reads_back data (by decide) doubles
  exact ⟨by decide +kernel, read, literal⟩

end Statements.Item

end Interchange
