/-!
# Integers of any size

A number that fits a signed 64-bit word is kept in the word; every other number is kept in
full. The full form carries the proof that it was needed, so each number has one form and two
integers are equal exactly when they denote the same number. Two words are added as words unless
the sum overflows; every other sum is computed in full, and `Integer.ofInt` chooses its form.
-/
namespace Interchange

/-- A number in the range of a signed 64-bit word. -/
def FitsWord (n : Int) : Prop := -0x8000000000000000 ≤ n ∧ n < 0x8000000000000000

instance (n : Int) : Decidable (FitsWord n) := inferInstanceAs (Decidable (_ ∧ _))

/-- An exact integer, kept in a word whenever a word can hold it. -/
inductive Integer where
  /-- A number held in a signed 64-bit word. -/
  | word (value : Int64)
  /-- A number that no signed 64-bit word can hold. -/
  | wide (value : Int) (outside : ¬ FitsWord value)
  deriving DecidableEq

/-- Why a text is not the numeral of an integer. -/
inductive NumeralFault where
  /-- There are no digits at all. -/
  | empty
  /-- A character that is not a digit stands where a digit is needed. -/
  | invalidDigit
  deriving DecidableEq

/-- The wording of a numeral fault. -/
def NumeralFault.message : NumeralFault → String
  | .empty => "cannot parse integer from empty string"
  | .invalidDigit => "invalid digit found in string"

namespace Integer

/-- The number an integer denotes. -/
def toInt : Integer → Int
  | .word value => value.toInt
  | .wide value _ => value

/-- The one form of a number. -/
def ofInt (n : Int) : Integer :=
  if fits : FitsWord n then .word (Int64.ofInt n) else .wide n fits

/-- The integer of an unsigned 64-bit word, kept in a signed word if it is small enough. -/
def ofUnsigned (n : UInt64) : Integer :=
  if small : n.toNat < 0x8000000000000000 then .word n.toInt64
  else .wide n.toNat fun fits => small (Int.ofNat_lt.1 fits.2)

/-- The signed word that holds the number, if one does. -/
def toWord? : Integer → Option Int64
  | .word value => some value
  | .wide value _ => if FitsWord value then some (Int64.ofInt value) else none

/-- The unsigned word that holds the number, if one does. -/
def toUnsigned? : Integer → Option UInt64
  | .word value => if 0 ≤ value then some value.toUInt64 else none
  | .wide value _ =>
    if 0 ≤ value ∧ value < 0x10000000000000000 then some (UInt64.ofNat value.toNat) else none

/-- The sum of two numbers held in words, if it does not overflow. -/
def wordSum? : Integer → Integer → Option Int64
  | .word m, .word n => if FitsWord (m.toInt + n.toInt) then some (m + n) else none
  | _, _ => none

/-- The exact sum, computed in words if that is possible and in full otherwise. -/
def add (a b : Integer) : Integer :=
  match wordSum? a b with
  | some sum => .word sum
  | none => ofInt (a.toInt + b.toInt)

instance : Add Integer := ⟨add⟩

/-- Zero, the empty sum. -/
def zero : Integer := .word 0

instance : Inhabited Integer := ⟨zero⟩

/-- The decimal numeral, with a minus sign for a negative number. -/
def numeral (n : Integer) : String :=
  match n.toInt with
  | .ofNat k => k.repr
  | .negSucc k => "-" ++ (k + 1).repr

/-- The number of a run of digits after one more character: a digit counts, an underscore is
ignored, and any other character spoils the run. -/
def addDigit? (value : Nat) (c : Char) : Option Nat :=
  if c = '_' then some value
  else if c.isDigit then some (10 * value + (c.toNat - '0'.toNat))
  else none

/-- The number of a run of digits in which underscores are ignored; `none` if any other
character occurs. -/
def digitsValue? (digits : List Char) : Option Nat := digits.foldlM addDigit? 0

/-- Read a run of digits that begins with a real one. -/
def readDigits (digits : List Char) : Except NumeralFault Nat :=
  match digits with
  | [] => .error .empty
  | '_' :: _ => .error .invalidDigit
  | _ => match digitsValue? digits with
    | some n => .ok n
    | none => .error .invalidDigit

/-- Read an unsigned numeral, in front of which one plus sign may stand. -/
def readUnsigned (text : List Char) : Except NumeralFault Nat :=
  match text with
  | '+' :: '+' :: _ => readDigits text
  | '+' :: rest => readDigits rest
  | _ => readDigits text

/-- Read a numeral with an optional sign; a minus sign is not followed by a plus sign. -/
def read (text : String) : Except NumeralFault Integer :=
  match text.toList with
  | '-' :: '+' :: _ => .error .invalidDigit
  | '-' :: rest => (readUnsigned rest).map fun (n : Nat) => ofInt (-(n : Int))
  | unsigned => (readUnsigned unsigned).map fun (n : Nat) => ofInt n

end Integer

end Interchange
