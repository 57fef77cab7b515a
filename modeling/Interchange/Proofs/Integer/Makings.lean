import Interchange.Proofs.Integer.Exact
import Interchange.Proofs.Numerals
import Interchange.Proofs.Outcome

/-!
# What integers are made of

An integer is made of a word, of a number or of a numeral, or it is the sum of integers made before
(`Integer.Making`). A numeral is a run of digits, among which underscores may stand, after a sign or
none, and it is read as the number that the digits spell (`Integer.read_eq_ok_iff`). By induction
over the making, whatever is made denotes the number that plain arithmetic gives
(`Integer.make_eq_ok_iff`), and since each number has one form, everything else follows from that
number (`Integer.makings_are_exact`).
-/
namespace Interchange.Integer

/-! ### Numerals -/

/-- A run of digits: a digit first, and then digits and underscores. -/
def IsRun : List Char → Prop
  | [] => False
  | first :: rest => first.isDigit ∧ ∀ c ∈ rest, c.isDigit ∨ c = '_'

/-- The number of a run of digits, its underscores left out. -/
def runValue (run : List Char) : Nat := Decimal.digitsValue (run.filter Char.isDigit)

/-- The numerals of numbers: runs of digits after a sign or none. -/
inductive Spells : List Char → Int → Prop where
  /-- Without a sign the number is not negative. -/
  | bare {run : List Char} (isRun : IsRun run) : Spells run (runValue run)
  /-- A plus sign changes nothing. -/
  | plus {run : List Char} (isRun : IsRun run) : Spells ('+' :: run) (runValue run)
  /-- After a minus sign the number is not positive. -/
  | minus {run : List Char} (isRun : IsRun run) : Spells ('-' :: run) (-(runValue run : Int))

/-- Digits and underscores are read as the number of the digits, and nothing else is. -/
theorem foldlM_addDigit? (digits : List Char) (start n : Nat) :
    digits.foldlM addDigit? start = some n ↔
      (∀ c ∈ digits, c.isDigit ∨ c = '_') ∧
        Nat.ofDigitChars 10 (digits.filter Char.isDigit) start = n := by
  induction digits generalizing start with
  | nil => simp
  | cons c rest ih =>
    rw [List.foldlM_cons, List.forall_mem_cons]
    by_cases score : c = '_'
    · have none : c.isDigit = false := by rw [score]; rfl
      rw [addDigit?, if_pos score, Option.bind_eq_bind, Option.bind_some, ih,
        List.filter_cons_of_neg (by simp [none])]
      simp [score]
    · rw [addDigit?, if_neg score]
      by_cases digit : c.isDigit = true
      · rw [if_pos digit, Option.bind_eq_bind, Option.bind_some, ih,
          List.filter_cons_of_pos digit, Nat.ofDigitChars_cons]
        simp [digit]
      · rw [if_neg digit]
        simp [digit, score]

/-- A run of digits is read as its number, and nothing else is. -/
theorem readDigits_eq_ok_iff (digits : List Char) (n : Nat) :
    readDigits digits = .ok n ↔ IsRun digits ∧ runValue digits = n := by
  unfold readDigits
  split
  · simp [IsRun]
  · simp [IsRun]
  · rename_i filled notScore
    have value := foldlM_addDigit? digits 0 n
    -- The first character is no underscore, so it is a digit if the others are as they should be.
    have isRun : IsRun digits ↔ ∀ c ∈ digits, c.isDigit ∨ c = '_' := by
      cases digits with
      | nil => exact absurd rfl filled
      | cons first rest =>
        have notFirst : first ≠ '_' := fun score => notScore rest (score ▸ rfl)
        rw [IsRun, List.forall_mem_cons, or_iff_left notFirst]
    rw [isRun, runValue, Numerals.digitsValue_eq, ← value, digitsValue?]
    cases digits.foldlM addDigit? 0 <;> simp

/-- An unsigned numeral is a run of digits, after a plus sign or none. -/
theorem readUnsigned_eq_ok_iff (text : List Char) (n : Nat) :
    readUnsigned text = .ok n ↔
      (IsRun text ∧ runValue text = n) ∨
        ∃ run, text = '+' :: run ∧ IsRun run ∧ runValue run = n := by
  unfold readUnsigned
  split
  · simp [readDigits_eq_ok_iff, IsRun]
  · simp [readDigits_eq_ok_iff, IsRun]
  · rename_i notPlus
    rw [readDigits_eq_ok_iff, or_iff_left]
    rintro ⟨run, same, -⟩
    exact notPlus run same

/-- A number that was read is given its form. -/
theorem map_ofInt_eq_ok_iff (found : Except NumeralFault Nat) (number : Nat → Int) (n : Integer) :
    (found.map fun m => ofInt (number m)) = .ok n ↔ ∃ m, found = .ok m ∧ number m = n.toInt := by
  cases found <;> simp [Except.map, ofInt_eq_iff]

/-- A numeral is a run of digits, or one after a plus sign, or one after a minus sign. -/
theorem spells_iff {text : List Char} {value : Int} : Spells text value ↔
    ((IsRun text ∧ (runValue text : Int) = value) ∨
      ∃ run, text = '+' :: run ∧ IsRun run ∧ (runValue run : Int) = value) ∨
      ∃ run, text = '-' :: run ∧ IsRun run ∧ -(runValue run : Int) = value := by
  constructor
  · intro spelled
    cases spelled with
    | bare isRun => exact .inl (.inl ⟨isRun, rfl⟩)
    | plus isRun => exact .inl (.inr ⟨_, rfl, isRun, rfl⟩)
    | minus isRun => exact .inr ⟨_, rfl, isRun, rfl⟩
  · rintro ((⟨isRun, rfl⟩ | ⟨run, rfl, isRun, rfl⟩) | ⟨run, rfl, isRun, rfl⟩)
    · exact .bare isRun
    · exact .plus isRun
    · exact .minus isRun

/-- A text is read as the integer whose number it spells. -/
theorem read_eq_ok_iff (text : String) (n : Integer) :
    read text = .ok n ↔ Spells text.toList n.toInt := by
  rw [spells_iff]
  unfold read
  -- Two signs, a minus sign alone, or no minus sign stand in front.
  split
  · rename_i rest same
    simp [same, IsRun]
  · rename_i rest notPlus same
    rw [same, map_ofInt_eq_ok_iff]
    simp only [readUnsigned_eq_ok_iff]
    constructor
    · rintro ⟨m, ⟨isRun, rfl⟩ | ⟨run, signed, -⟩, value⟩
      · exact .inr ⟨rest, rfl, isRun, value⟩
      · exact (notPlus run signed).elim
    · rintro ((⟨isRun, -⟩ | ⟨run, other, -⟩) | ⟨run, other, isRun, value⟩)
      · cases isRun.1
      · cases other
      · obtain rfl := (List.cons.inj other).2
        exact ⟨runValue rest, .inl ⟨isRun, rfl⟩, value⟩
  · rename_i notPlus notMinus
    rw [map_ofInt_eq_ok_iff]
    simp only [readUnsigned_eq_ok_iff]
    constructor
    · rintro ⟨m, ⟨isRun, rfl⟩ | ⟨run, signed, isRun, rfl⟩, value⟩
      · exact .inl (.inl ⟨isRun, value⟩)
      · exact .inl (.inr ⟨run, signed, isRun, value⟩)
    · rintro ((⟨isRun, value⟩ | ⟨run, signed, isRun, value⟩) | ⟨run, signed, -⟩)
      · exact ⟨runValue text.toList, .inl ⟨isRun, rfl⟩, value⟩
      · exact ⟨runValue run, .inr ⟨run, signed, isRun, rfl⟩, value⟩
      · exact (notMinus run signed).elim

/-- The numeral of a number is a run of digits with that number. -/
theorem isRun_toDigits (n : Nat) :
    IsRun (Nat.toDigits 10 n) ∧ runValue (Nat.toDigits 10 n) = n := by
  have digits : ∀ c ∈ Nat.toDigits 10 n, c.isDigit :=
    fun c mem => Numerals.isDigit_of_mem_toDigits mem
  constructor
  · cases same : Nat.toDigits 10 n with
    | nil => exact absurd same Nat.toDigits_ne_nil
    | cons first rest =>
      rw [same, List.forall_mem_cons] at digits
      exact ⟨digits.1, fun c mem => .inl (digits.2 c mem)⟩
  · rw [runValue, List.filter_eq_self.2 digits, Numerals.digitsValue_toDigits]

/-- The numeral of an integer spells its number. -/
theorem spells_numeral (n : Integer) : Spells n.numeral.toList n.toInt := by
  rw [numeral]
  split
  · rename_i k same
    obtain ⟨isRun, value⟩ := isRun_toDigits k
    rw [same, Nat.toList_repr]
    have spelled := Spells.bare isRun
    rwa [value] at spelled
  · rename_i k same
    obtain ⟨isRun, value⟩ := isRun_toDigits (k + 1)
    rw [same, String.toList_append, Nat.toList_repr]
    have spelled := Spells.minus isRun
    rwa [value] at spelled

/-- The numeral of an integer is read as that integer. -/
theorem read_numeral (n : Integer) : read n.numeral = .ok n :=
  (read_eq_ok_iff _ n).2 (spells_numeral n)

/-! ### Makings -/

/-- A way to make an integer. -/
inductive Making where
  /-- Of a signed word. -/
  | word (value : Int64)
  /-- Of an unsigned word. -/
  | unsigned (value : UInt64)
  /-- Of a number of any size. -/
  | number (value : Int)
  /-- Of a text that is a numeral. -/
  | text (numeral : String)
  /-- The sum of two integers made before. -/
  | sum (first second : Making)

/-- The integer that is made, if all texts are numerals. -/
def make : Making → Except NumeralFault Integer
  | .word value => .ok (.word value)
  | .unsigned value => .ok (ofUnsigned value)
  | .number value => .ok (ofInt value)
  | .text numeral => read numeral
  | .sum first second => do return (← make first) + (← make second)

/-- The number that should come out: that of the word or the numeral, or the sum of numbers. -/
inductive Denotes : Making → Int → Prop where
  /-- A signed word denotes its number. -/
  | word (value : Int64) : Denotes (.word value) value.toInt
  /-- An unsigned word denotes its number. -/
  | unsigned (value : UInt64) : Denotes (.unsigned value) value.toNat
  /-- A number denotes itself. -/
  | number (value : Int) : Denotes (.number value) value
  /-- A numeral denotes what it spells. -/
  | text {numeral : String} {value : Int} (spelled : Spells numeral.toList value) :
      Denotes (.text numeral) value
  /-- A sum denotes the sum. -/
  | sum {first second : Making} {m n : Int} (left : Denotes first m) (right : Denotes second n) :
      Denotes (.sum first second) (m + n)

/-- Where a number should come out, its one form is made. -/
theorem make_of_denotes {making : Making} {value : Int} (denotes : Denotes making value) :
    make making = .ok (ofInt value) := by
  induction denotes with
  | word word => rw [make, ofInt_toInt_word]
  | unsigned word => rw [make, ofUnsigned_eq]
  | number value => rfl
  | @text numeral value spelled =>
    rw [make, read_eq_ok_iff, toInt_ofInt]
    exact spelled
  | @sum first second m n _ _ left right =>
    -- Whatever the forms of the operands are, their sum has the form of the sum.
    have added : ofInt m + ofInt n = ofInt (m + n) := by
      rw [add_eq, toInt_ofInt, toInt_ofInt]
    rw [make, left, right, ← added]
    rfl

/-- What is made denotes the number that should come out. -/
theorem denotes_of_make {making : Making} {n : Integer} (made : make making = .ok n) :
    Denotes making n.toInt := by
  induction making generalizing n with
  | word word =>
    obtain rfl := Except.ok.inj made
    exact .word word
  | unsigned word =>
    obtain rfl := Except.ok.inj made
    rw [ofUnsigned_eq, toInt_ofInt]
    exact .unsigned word
  | number value =>
    obtain rfl := Except.ok.inj made
    rw [toInt_ofInt]
    exact .number value
  | text numeral => exact .text ((read_eq_ok_iff numeral n).1 made)
  | sum first second left right =>
    obtain ⟨a, one, further⟩ := Outcome.bind_ok_iff.1 made
    obtain ⟨b, other, added⟩ := Outcome.bind_ok_iff.1 further
    obtain rfl : a + b = n := Except.ok.inj added
    rw [toInt_add]
    exact .sum (left one) (right other)

/-- Exactly the number that should come out is made. -/
theorem make_eq_ok_iff (making : Making) (n : Integer) :
    make making = .ok n ↔ Denotes making n.toInt := by
  refine ⟨denotes_of_make, fun denotes => ?_⟩
  rw [make_of_denotes denotes, ofInt_toInt]

/-- Integers are canonical and exact. Words, numbers of any size, numerals and any sums of them make
exactly the integer of the number that plain arithmetic gives. An integer is kept in full exactly if
no signed word can hold its number; two integers are equal exactly if they denote the same number;
the signed or unsigned word of an integer is the one with the same number, and there is one exactly
if the number lies in the range of the word; sums are exact, whether or not words overflow or large
numbers cancel; and the numeral of an integer is read as that integer. -/
theorem makings_are_exact :
    (∀ making (n : Integer), make making = .ok n ↔ Denotes making n.toInt) ∧
    (∀ n : Integer, (∃ value outside, n = .wide value outside) ↔ ¬ FitsWord n.toInt) ∧
    (∀ a b : Integer, (a == b) = true ↔ a.toInt = b.toInt) ∧
    (∀ (n : Integer) (word : Int64), n.toWord? = some word ↔ word.toInt = n.toInt) ∧
    (∀ n : Integer, n.toWord?.isSome = true ↔ FitsWord n.toInt) ∧
    (∀ (n : Integer) (word : UInt64), n.toUnsigned? = some word ↔ (word.toNat : Int) = n.toInt) ∧
    (∀ n : Integer, n.toUnsigned?.isSome = true ↔
      0 ≤ n.toInt ∧ n.toInt < 0x10000000000000000) ∧
    (∀ a b : Integer, (a + b).toInt = a.toInt + b.toInt) ∧
    ∀ n : Integer, read n.numeral = .ok n := by
  have equal (a b : Integer) : (a == b) = true ↔ a.toInt = b.toInt := by
    rw [beq_iff_eq, toInt_inj]
  have word (n : Integer) : n.toWord?.isSome = true ↔ FitsWord n.toInt := by
    rw [Option.isSome_iff_ne_none, Ne, toWord?_eq_none_iff, not_not]
  exact ⟨make_eq_ok_iff, wide_iff, equal, fun n w => toWord?_eq_some_iff, word,
    fun n w => toUnsigned?_eq_some_iff, toUnsigned?_isSome_iff, toInt_add, read_numeral⟩

/-- Two large numbers of opposite sign cancel to a word, and two words overflow. -/
example :
    make (.sum (.text "+9_223372036854775808") (.text "-9223372036854775809")) =
      .ok (.word (-1)) ∧
    make (.sum (.word 0x7fffffffffffffff) (.unsigned 1)) =
      .ok (.wide 0x8000000000000000 (by decide)) := by
  decide +kernel

end Interchange.Integer
