import Interchange.Proofs.Json.Numbers
import Interchange.Proofs.Json.Strings

/-!
# Documents read back

What is written of a document is read as that document, whatever strings, names and empty arrays and
objects it has, if it is not nested too deep and its numbers are read back one by one
(`Json.read?_render`). Integers always are (`Json.Number.readsBack_natural`,
`Json.Number.readsBack_negative`).
-/
namespace Interchange

namespace Json

/-- The text has no characters but those of numbers. -/
def IsNumeric (text : String) : Prop := ∀ c ∈ text.toList, isNumeric c

instance (text : String) : Decidable (IsNumeric text) :=
  List.decidableBAll (fun c => isNumeric c) text.toList

/-- One text after the other. -/
theorem IsNumeric.append {first second : String} (begins : IsNumeric first)
    (ends : IsNumeric second) : IsNumeric (first ++ second) := by
  intro c mem
  rw [String.toList_append] at mem
  exact (List.mem_append.1 mem).elim (begins c) (ends c)

/-- Characters of numbers taken together. -/
theorem IsNumeric.ofList {chars : List Char} (each : ∀ c ∈ chars, isNumeric c) :
    IsNumeric (String.ofList chars) := by
  rwa [IsNumeric, String.toList_ofList]

/-- The numeral of a natural number has only digits. -/
theorem isNumeric_repr (n : Nat) : IsNumeric n.repr := by
  intro c mem
  rw [Nat.toList_repr] at mem
  exact isNumeric_of_isDigit (Numerals.isDigit_of_mem_toDigits mem)

end Json

namespace Decimal.Layout

open Json (IsNumeric)

variable {digits : List Char}

/-- A numeral written in full has only digits and a point. -/
theorem isNumeric_plain (each : ∀ c ∈ digits, Json.isNumeric c) (exponent : Int) :
    IsNumeric (plain digits exponent) := by
  have zeros (count : Nat) : ∀ c ∈ List.replicate count '0', Json.isNumeric c := by
    intro c mem
    rw [List.eq_of_mem_replicate mem]
    rfl
  unfold plain
  split
  · exact .append (by decide) (.ofList (List.forall_mem_append.2 ⟨zeros _, each⟩))
  · refine .append (.append (.ofList (List.forall_mem_append.2 ⟨?_, zeros _⟩)) (by decide)) ?_
    · exact fun c mem => each c (List.mem_of_mem_take mem)
    · split
      · decide
      · exact .ofList fun c mem => each c (List.mem_of_mem_drop mem)

/-- A numeral with an exponent has only digits, a point, signs and the mark of the exponent. -/
theorem isNumeric_scientific (layout : Layout) (each : ∀ c ∈ digits, Json.isNumeric c)
    (exponent : Int) : IsNumeric (layout.scientific digits exponent) := by
  have first : IsNumeric (String.ofList (digits.take 1)) :=
    .ofList fun c mem => each c (List.mem_of_mem_take mem)
  have fraction : IsNumeric
      (if (digits.drop 1).isEmpty then "" else "." ++ String.ofList (digits.drop 1)) := by
    split
    · decide
    · exact .append (by decide) (.ofList fun c mem => each c (List.mem_of_mem_drop mem))
  have sign :
      IsNumeric (if exponent < 0 then "-" else if layout.exponentPlus then "+" else "") := by
    split
    · decide
    · split <;> decide
  exact (((first.append fraction).append (by decide)).append sign).append (Json.isNumeric_repr _)

/-- The written form of a finite double has only the characters of numbers. -/
theorem isNumeric_render (layout : Layout) {x : Double} (finite : x.isFinite = true) :
    IsNumeric (layout.render x) := by
  have small : x.exponentField ≠ 2047 := Nat.ne_of_lt (of_decide_eq_true finite)
  have number : x.isNaN = false := by simp [Double.isNaN, small]
  have bounded : x.isInfinite = false := by simp [Double.isInfinite, small]
  have sign : IsNumeric (if x.negative then "-" else "") := by split <;> decide
  rw [render, number, bounded, if_neg Bool.false_ne_true, if_neg Bool.false_ne_true]
  refine sign.append ?_
  split
  · decide
  · have each : ∀ c ∈ Nat.toDigits 10 (shortest layout.tie x).digits, Json.isNumeric c :=
      fun c mem => Json.isNumeric_of_isDigit (Numerals.isDigit_of_mem_toDigits mem)
    unfold ofNumeral
    dsimp only
    split
    · exact isNumeric_plain each _
    · exact isNumeric_scientific layout each _

end Decimal.Layout

namespace Json

/-- The numeral of a number has only the characters of numbers. -/
theorem Number.isNumeric_numeral (n : Number) : IsNumeric n.numeral := by
  cases n with
  | natural n => exact isNumeric_repr n.toNat
  | negative n below =>
    obtain ⟨digits, written, each, _⟩ := readMagnitude?_negative n below
    rw [IsNumeric, written]
    exact List.forall_mem_cons.2 ⟨rfl, fun c mem => isNumeric_of_isDigit (each c mem)⟩
  | real x finite => exact Decimal.Layout.isNumeric_render layout finite

/-- A number is read from what is written of it. -/
def Number.ReadsBack (n : Number) : Prop := read? n.numeral.toList = some (.number n)

variable {depth : Nat} {text rest : List Char} {c : Char} {n : Number}

/-- A character of numbers means something. -/
theorem not_isSpace_of_isNumeric (numeric : isNumeric c) : isSpace c = false := by
  rw [Bool.eq_false_iff]
  intro space
  simp only [isSpace, Bool.or_eq_true, beq_iff_eq] at space
  rcases space with ((rfl | rfl) | rfl) | rfl <;> cases numeric

/-- Nothing is skipped in front of a character that means something. -/
theorem skipSpace_cons (bare : isSpace c = false) : skipSpace (c :: text) = c :: text := by
  rw [skipSpace, List.dropWhile_cons, bare, if_neg Bool.false_ne_true]

/-- A document that begins with a minus sign is a number. -/
theorem readFront?_minus (depth : Nat) (text : List Char) :
    readFront? depth ('-' :: text) =
      (readMagnitude? true text).map fun (n, after) => (number n, after) := by
  unfold readFront?
  rfl

/-- A document that begins with a digit is a number. -/
theorem readFront?_digit (depth : Nat) (digit : c.isDigit) (text : List Char) :
    readFront? depth (c :: text) =
      (readMagnitude? false (c :: text)).map fun (n, after) => (number n, after) := by
  have bare := not_isSpace_of_isNumeric (isNumeric_of_isDigit digit)
  have other {d : Char} {more : List Char} (letter : d.isDigit = false) :
      c :: text ≠ d :: more := by
    intro same
    rw [(List.cons.inj same).1, letter] at digit
    cases digit
  unfold readFront?
  rw [skipSpace_cons bare]
  split
  · rename_i same; exact absurd same (other rfl)
  · rename_i same; exact absurd same (other rfl)
  · rename_i same; exact absurd same (other rfl)
  · rename_i same; exact absurd same (other rfl)
  · rename_i same; exact absurd same (other rfl)
  · rename_i same; exact absurd same (other rfl)
  · rename_i same; exact absurd same (other rfl)
  · rfl

/-- A document that is read as a number has a minus sign and a magnitude, or only that. -/
theorem readMagnitude?_of_readFront? (spared : skipSpace text = text)
    (read : readFront? depth text = some (number n, rest)) :
    (∃ more, text = '-' :: more ∧ readMagnitude? true more = some (n, rest)) ∨
      readMagnitude? false text = some (n, rest) := by
  unfold readFront? at read
  rw [spared] at read
  split at read
  · cases read
  · cases read
  · cases read
  · obtain ⟨_, _, same⟩ := Option.map_eq_some_iff.1 read
    cases same
  · rename_i more
    obtain ⟨_, found, same⟩ := Option.map_eq_some_iff.1 read
    cases same
    exact .inl ⟨more, rfl, found⟩
  · split at read
    · cases read
    · split at read
      · cases read
      · obtain ⟨_, _, same⟩ := Option.map_eq_some_iff.1 read
        cases same
  · split at read
    · cases read
    · split at read
      · cases read
      · obtain ⟨_, _, same⟩ := Option.map_eq_some_iff.1 read
        cases same
  · obtain ⟨_, found, same⟩ := Option.map_eq_some_iff.1 read
    cases same
    exact .inr found

/-- What only has characters of numbers does not end in white space. -/
theorem eq_nil_of_past {left : List Char} (past : Past text left)
    (numeric : ∀ c ∈ text, isNumeric c) (nothing : skipSpace left = []) : left = [] := by
  obtain ⟨used, rfl, _⟩ := past
  cases left with
  | nil => rfl
  | cons c left =>
    have bare := not_isSpace_of_isNumeric (numeric c (by simp))
    rw [skipSpace_cons bare] at nothing
    cases nothing

/-- A number that is read back is so in front of anything that does not go on with it. -/
theorem Number.ReadsBack.readFront? (back : n.ReadsBack) (ends : EndsNumber rest) (depth : Nat) :
    readFront? depth (n.numeral.toList ++ rest) = some (.number n, rest) := by
  have numeric := n.isNumeric_numeral
  have spared : skipSpace n.numeral.toList = n.numeral.toList := by
    cases same : n.numeral.toList with
    | nil => rfl
    | cons c more => exact skipSpace_cons (not_isSpace_of_isNumeric (numeric c (by simp [same])))
  obtain ⟨left, found, nothing⟩ := exists_of_read? back
  rcases readMagnitude?_of_readFront? spared found with ⟨more, minus, read⟩ | read
  · have past := past_of_readMagnitude? read
    rw [IsNumeric, minus] at numeric
    obtain rfl := eq_nil_of_past past (List.forall_mem_cons.1 numeric).2 nothing
    rw [minus, List.cons_append, readFront?_minus, ends.readMagnitude?_append, read]
    rfl
  · obtain rfl := eq_nil_of_past (past_of_readMagnitude? read) numeric nothing
    obtain ⟨c, more, first, digit⟩ := isDigit_of_readMagnitude? read
    rw [first] at read
    rw [first, List.cons_append, readFront?_digit depth digit, ← List.cons_append,
      ends.readMagnitude?_append, read]
    rfl

/-- What is read to the end is read. -/
theorem read?_of_readFront? {document : Json}
    (found : Json.readFront? depthLimit text = some (document, [])) :
    read? text = some document := by
  rw [read?, found]
  rfl

/-- Unsigned words are read back. -/
theorem Number.readsBack_natural (word : UInt64) : (natural word).ReadsBack := by
  have digits := readMagnitude?_natural word
  obtain ⟨c, more, first, digit⟩ := isDigit_of_readMagnitude? digits
  refine read?_of_readFront? ?_
  rw [numeral, Nat.toList_repr, first, readFront?_digit depthLimit digit, ← first, digits]
  rfl

/-- Negative words are read back. -/
theorem Number.readsBack_negative (word : Int64) (below : word < 0) :
    (negative word below).ReadsBack := by
  obtain ⟨digits, written, _, read⟩ := readMagnitude?_negative word below
  refine read?_of_readFront? ?_
  rw [written, readFront?_minus, read]
  rfl

section Documents

variable {limit : Nat} {document : Json} {documents : List Json} {members : List (String × Json)}

/-- The document is not nested deeper than a limit, and all its numbers are read back. -/
inductive IsReadable : Nat → Json → Prop where
  /-- A null is not nested. -/
  | null (limit : Nat) : IsReadable limit .null
  /-- A boolean is not nested. -/
  | bool (limit : Nat) (b : Bool) : IsReadable limit (.bool b)
  /-- A number is not nested, but has to be read back. -/
  | number (limit : Nat) {n : Number} (back : n.ReadsBack) : IsReadable limit (.number n)
  /-- A string is not nested. -/
  | string (limit : Nat) (s : String) : IsReadable limit (.string s)
  /-- The items of an array may not be nested as deep. -/
  | array {limit : Nat} {items : List Json} (inside : ∀ item ∈ items, IsReadable limit item) :
      IsReadable (limit + 1) (.array items)
  /-- The members of an object may not be nested as deep. -/
  | object {limit : Nat} {members : List (String × Json)}
      (inside : ∀ member ∈ members, IsReadable limit member.2) :
      IsReadable (limit + 1) (.object members)

/-- The items of an array are written one by one. -/
theorem renderItems_eq (documents : List Json) : renderItems documents = documents.map render := by
  induction documents with
  | nil => rfl
  | cons document documents ih => rw [renderItems, ih, List.map_cons]

/-- The members of an object are written one by one, after their names. -/
theorem renderMembers_eq (members : List (String × Json)) :
    renderMembers members =
      members.map fun member => stringLiteral member.1 ++ ":" ++ member.2.render := by
  induction members with
  | nil => rfl
  | cons member members ih => rw [renderMembers, ih, List.map_cons]

/-- An array is written in brackets, with commas between its items. -/
theorem toList_render_array (items : List Json) : (array items).render.toList =
    '[' :: ([','].intercalate ((renderItems items).map String.toList) ++ [']']) := by
  simp [render]

/-- An object is written in braces, with commas between its members. -/
theorem toList_render_object (members : List (String × Json)) : (object members).render.toList =
    '\x7b' :: ([','].intercalate ((renderMembers members).map String.toList) ++ ['\x7d']) := by
  simp [render]

/-- No more texts are joined than the joined text has characters. -/
theorem length_le_intercalate {texts : List (List Char)} (filled : ∀ text ∈ texts, text ≠ [])
    (rest : List Char) : texts.length ≤ ([','].intercalate texts ++ rest).length := by
  rw [List.length_append]
  induction texts with
  | nil => exact Nat.zero_le _
  | cons text texts ih =>
    obtain ⟨first, others⟩ := List.forall_mem_cons.1 filled
    have positive := List.length_pos_iff.2 first
    cases texts with
    | nil =>
      rw [List.intercalate_singleton, List.length_singleton]
      omega
    | cons next texts =>
      have later := ih others
      rw [List.intercalate_cons_cons]
      simp only [List.length_cons, List.length_append, List.length_nil] at later ⊢
      omega

/-- Joined texts begin like the first of them. -/
theorem exists_intercalate (text : List Char) (texts : List (List Char)) :
    ∃ tail, [','].intercalate (text :: texts) = text ++ tail := by
  cases texts with
  | nil => exact ⟨[], by rw [List.intercalate_singleton, List.append_nil]⟩
  | cons next texts =>
    exact ⟨_, by rw [List.intercalate_cons_cons, List.append_assoc]⟩

/-- What a document is written with begins with a character that means something and is no closing
bracket. -/
theorem IsReadable.head (readable : document.IsReadable limit) :
    ∃ c more, document.render.toList = c :: more ∧ isSpace c = false ∧ c ≠ ']' := by
  cases readable with
  | null => exact ⟨'n', _, rfl, rfl, by decide⟩
  | bool limit b =>
    cases b with
    | true => exact ⟨'t', _, rfl, rfl, by decide⟩
    | false => exact ⟨'f', _, rfl, rfl, by decide⟩
  | @number limit n back =>
    cases same : n.numeral.toList with
    | nil =>
      rw [Number.ReadsBack, same] at back
      cases back
    | cons c more =>
      have numeric := n.isNumeric_numeral c (by rw [same]; exact List.mem_cons_self)
      refine ⟨c, more, same, not_isSpace_of_isNumeric numeric, ?_⟩
      rintro rfl
      cases numeric
  | string limit s => exact ⟨'"', _, String.toList_ofList, rfl, by decide⟩
  | array => exact ⟨'[', _, toList_render_array _, rfl, by decide⟩
  | object => exact ⟨'\x7b', _, toList_render_object _, rfl, by decide⟩

/-- The items of an array are read up to the closing bracket. -/
theorem readItems?_render {readOne : List Char → Option (Json × List Char)} {rounds : Nat}
    (filled : documents ≠ []) (enough : documents.length ≤ rounds)
    (each : ∀ document ∈ documents, ∀ rest, EndsNumber rest →
      readOne (document.render.toList ++ rest) = some (document, rest)) (rest : List Char) :
    readItems? readOne rounds
        ([','].intercalate ((renderItems documents).map String.toList) ++ ']' :: rest) =
      some (documents, rest) := by
  induction documents generalizing rounds with
  | nil => exact absurd rfl filled
  | cons document documents ih =>
    obtain ⟨first, others⟩ := List.forall_mem_cons.1 each
    obtain ⟨rounds, rfl⟩ : ∃ fewer, rounds = fewer + 1 :=
      Nat.exists_eq_succ_of_ne_zero (by rw [List.length_cons] at enough; omega)
    cases documents with
    | nil =>
      have read := first (']' :: rest) fun c same => by cases same; rfl
      simp only [renderItems, List.map_cons, List.map_nil, List.intercalate_singleton, readItems?,
        read, Option.bind_eq_bind, Option.bind_some, skipSpace_cons (c := ']') rfl]
    | cons next documents =>
      have later := @ih rounds (List.cons_ne_nil _ _) (Nat.le_of_succ_le_succ enough) others
      rw [renderItems, List.map_cons] at later
      have read := first (',' :: ([','].intercalate
        (next.render.toList :: (renderItems documents).map String.toList) ++ ']' :: rest))
        fun c same => by cases same; rfl
      have whole : [','].intercalate ((renderItems (document :: next :: documents)).map
          String.toList) ++ ']' :: rest = document.render.toList ++ ',' :: ([','].intercalate
            (next.render.toList :: (renderItems documents).map String.toList) ++ ']' :: rest) := by
        simp [renderItems, List.intercalate_cons_cons]
      simp only [whole, readItems?, read, Option.bind_eq_bind, Option.bind_some,
        skipSpace_cons (c := ',') rfl, later]

/-- The members of an object are read up to the closing brace. -/
theorem readMembers?_render {readOne : List Char → Option (Json × List Char)} {rounds : Nat}
    (filled : members ≠ []) (enough : members.length ≤ rounds)
    (each : ∀ member ∈ members, ∀ rest, EndsNumber rest →
      readOne (member.2.render.toList ++ rest) = some (member.2, rest)) (rest : List Char) :
    readMembers? readOne rounds
        ([','].intercalate ((renderMembers members).map String.toList) ++ '\x7d' :: rest) =
      some (members, rest) := by
  induction members generalizing rounds with
  | nil => exact absurd rfl filled
  | cons member members ih =>
    obtain ⟨name, document⟩ := member
    obtain ⟨first, others⟩ := List.forall_mem_cons.1 each
    obtain ⟨rounds, rfl⟩ : ∃ fewer, rounds = fewer + 1 :=
      Nat.exists_eq_succ_of_ne_zero (by rw [List.length_cons] at enough; omega)
    cases members with
    | nil =>
      have read := first ('\x7d' :: rest) fun c same => by cases same; rfl
      have whole : [','].intercalate ((renderMembers [(name, document)]).map String.toList) ++
          '\x7d' :: rest = '"' :: (name.toList.flatMap stringChar ++ '"' :: ':' ::
            (document.render.toList ++ '\x7d' :: rest)) := by
        simp [renderMembers, toList_stringLiteral]
      simp only [whole, readMembers?, skipSpace_cons (c := '"') rfl, readString?_closed,
        skipSpace_cons (c := ':') rfl, read, Option.bind_eq_bind, Option.bind_some,
        skipSpace_cons (c := '\x7d') rfl, String.ofList_toList]
    | cons next members =>
      have later := @ih rounds (List.cons_ne_nil _ _) (Nat.le_of_succ_le_succ enough) others
      have read := first (',' :: ([','].intercalate
        ((renderMembers (next :: members)).map String.toList) ++ '\x7d' :: rest))
        fun c same => by cases same; rfl
      have whole : [','].intercalate ((renderMembers ((name, document) :: next :: members)).map
          String.toList) ++ '\x7d' :: rest = '"' :: (name.toList.flatMap stringChar ++ '"' :: ':' ::
            (document.render.toList ++ ',' :: ([','].intercalate
              ((renderMembers (next :: members)).map String.toList) ++ '\x7d' :: rest))) := by
        simp [renderMembers, toList_stringLiteral, List.intercalate_cons_cons]
      simp only [whole, readMembers?, skipSpace_cons (c := '"') rfl, readString?_closed,
        skipSpace_cons (c := ':') rfl, read, Option.bind_eq_bind, Option.bind_some,
        skipSpace_cons (c := ',') rfl, later, String.ofList_toList]

/-- An array with a first item is read item by item. -/
theorem readFront?_bracket (inner : Nat) {c : Char} (bare : isSpace c = false) (item : c ≠ ']')
    (text : List Char) : readFront? (inner + 1) ('[' :: c :: text) =
      (readItems? (readFront? inner) (c :: text).length (c :: text)).map
        fun (items, after) => (array items, after) := by
  conv_lhs => unfold readFront?
  rw [skipSpace_cons (c := '[') rfl]
  simp only [skipSpace_cons bare]
  split
  · rename_i same
    exact absurd (List.cons.inj same).1 item
  · rfl

/-- An object with a first member is read member by member. -/
theorem readFront?_brace (inner : Nat) (text : List Char) :
    readFront? (inner + 1) ('\x7b' :: '"' :: text) =
      (readMembers? (readFront? inner) ('"' :: text).length ('"' :: text)).map
        fun (members, after) => (object members, after) := by
  conv_lhs => unfold readFront?
  rfl

/-- A readable document is read back in front of anything that does not go on with a number. -/
theorem IsReadable.readFront?_render (readable : document.IsReadable limit) {rest : List Char}
    (ends : EndsNumber rest) :
    readFront? limit (document.render.toList ++ rest) = some (document, rest) := by
  induction readable generalizing rest with
  | null limit =>
    unfold readFront?
    rfl
  | bool limit b => cases b <;> (unfold readFront?; rfl)
  | number limit back => exact back.readFront? ends limit
  | string limit s =>
    rw [render, toList_stringLiteral, List.append_assoc, List.cons_append, readFront?_quote,
      List.singleton_append, readString?_closed]
    simp
  | @array limit items inside ih =>
    rw [toList_render_array, List.cons_append, List.append_assoc, List.singleton_append]
    cases items with
    | nil =>
      unfold readFront?
      rfl
    | cons first others =>
      have filled : ∀ text ∈ (renderItems (first :: others)).map String.toList, text ≠ [] := by
        intro text mem
        rw [renderItems_eq, List.map_map] at mem
        obtain ⟨item, among, rfl⟩ := List.mem_map.1 mem
        obtain ⟨c, more, same, _⟩ := (inside item among).head
        exact fun empty => List.cons_ne_nil c more (same.symm.trans empty)
      have enough := length_le_intercalate filled (']' :: rest)
      rw [List.length_map, renderItems_eq, List.length_map, ← renderItems_eq] at enough
      have read := readItems?_render (List.cons_ne_nil first others) enough
        (fun item mem rest ends => ih item mem ends) rest
      -- The first item does not begin like the closing bracket.
      obtain ⟨c, more, same, bare, item⟩ := (inside first List.mem_cons_self).head
      obtain ⟨tail, begins⟩ :=
        exists_intercalate first.render.toList ((renderItems others).map String.toList)
      have joined : [','].intercalate ((renderItems (first :: others)).map String.toList) ++
          ']' :: rest = c :: (more ++ tail ++ ']' :: rest) := by
        rw [renderItems, List.map_cons, begins, same]
        rfl
      rw [joined] at read ⊢
      rw [readFront?_bracket limit bare item, read]
      rfl
  | @object limit members inside ih =>
    rw [toList_render_object, List.cons_append, List.append_assoc, List.singleton_append]
    cases members with
    | nil =>
      unfold readFront?
      rfl
    | cons first others =>
      have filled : ∀ text ∈ (renderMembers (first :: others)).map String.toList, text ≠ [] := by
        intro text mem
        rw [renderMembers_eq, List.map_map] at mem
        obtain ⟨member, _, rfl⟩ := List.mem_map.1 mem
        simp [toList_stringLiteral]
      have enough := length_le_intercalate filled ('\x7d' :: rest)
      rw [List.length_map, renderMembers_eq, List.length_map, ← renderMembers_eq] at enough
      have read := readMembers?_render (List.cons_ne_nil first others) enough
        (fun member mem rest ends => ih member mem ends) rest
      obtain ⟨tail, begins⟩ := exists_intercalate
        (stringLiteral first.1 ++ ":" ++ first.2.render).toList
        ((renderMembers others).map String.toList)
      obtain ⟨more, joined⟩ : ∃ more,
          [','].intercalate ((renderMembers (first :: others)).map String.toList) ++
            '\x7d' :: rest = '"' :: more := by
        rw [renderMembers, List.map_cons, begins, String.toList_append, String.toList_append,
          toList_stringLiteral]
        exact ⟨_, rfl⟩
      rw [joined] at read ⊢
      rw [readFront?_brace limit, read]
      rfl

/-- What is written of a readable document is read as that document. -/
theorem read?_render (readable : document.IsReadable depthLimit) :
    read? document.render.toList = some document := by
  have read : readFront? depthLimit (document.render.toList ++ []) = some (document, []) :=
    readable.readFront?_render (by simp [EndsNumber])
  rw [List.append_nil] at read
  exact read?_of_readFront? read

end Documents

end Json

end Interchange
