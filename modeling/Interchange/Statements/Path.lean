import Interchange.Text.Blank
import Interchange.Text.Split

/-!
# Paths into variables

A path names a variable and goes on with fields after dots and positions in brackets. A
variable name is a letter or an underscore followed by letters, digits, underscores and dashes;
a field is any text without a dot and an opening bracket; a position is a number of the
unsigned word with white space around it.
-/
namespace Interchange.Statements

/-- One step of a path. -/
inductive Step where
  /-- To the field with a name. -/
  | field (name : List Char)
  /-- To the item at a position. -/
  | index (position : Nat)
  deriving DecidableEq

/-- A variable and the steps to follow from its value. -/
structure Path where
  /-- The name of the variable. -/
  name : List Char
  /-- The steps in order. -/
  steps : List Step
  deriving DecidableEq

/-- Why a text is no path. -/
inductive PathFault where
  /-- It does not begin with a variable name. -/
  | expectedName
  /-- Nothing stands between a dot and what follows it. -/
  | emptyField
  /-- A bracket is not closed. -/
  | unclosedBracket
  /-- What stands in brackets is no position. -/
  | invalidIndex
  /-- Something other than a step follows a bracket. -/
  | unexpectedCharacter
  deriving DecidableEq

/-- The wording of a path fault. -/
def PathFault.message : PathFault → String
  | expectedName => "expected a variable name"
  | emptyField => "empty field name"
  | unclosedBracket => "unclosed `[`"
  | invalidIndex => "index is not a non-negative integer"
  | unexpectedCharacter => "unexpected character"

/-- Whether a variable name can begin with a character. -/
def startsName (c : Char) : Bool := c.isAlpha || c == '_'

/-- Whether a variable name can go on with a character. -/
def continuesName (c : Char) : Bool := c.isAlphanum || c == '_' || c == '-'

/-- Whether a text is a variable name. -/
def isIdentifier : List Char → Bool
  | [] => false
  | c :: rest => startsName c && rest.all continuesName

/-- Whether a character belongs to the name before it rather than to the next step. -/
def isNamePart (c : Char) : Bool := c != '.' && c != '['

/-- The number of a run of decimal digits; `none` if there is none or another character. -/
def digitsValue? : List Char → Option Nat
  | [] => none
  | digits => digits.foldlM (fun value c =>
      if c.isDigit then some (10 * value + (c.toNat - '0'.toNat)) else none) 0

/-- The position that a text between brackets gives: digits, perhaps after a plus sign, whose
number fits an unsigned word. -/
def readPosition? (text : List Char) : Option Nat :=
  let digits := match Text.trim text with
    | '+' :: rest => rest
    | other => other
  (digitsValue? digits).filter fun n => n < UInt64.size

/-- What follows the mark of a cut is shorter than the text. -/
theorem length_of_splitFirst? {isMark : Char → Bool} {text before after : List Char}
    (cut : Text.splitFirst? isMark text = some (before, after)) :
    before.length + after.length < text.length := by
  obtain ⟨mark, _, rfl⟩ := Text.eq_of_splitFirst? cut
  simp only [List.length_append, List.length_cons]
  omega

/-- Read the steps of a path. -/
def readSteps (text : List Char) : Except PathFault (List Step) :=
  match text with
  | [] => .ok []
  | '.' :: after =>
    let name := after.takeWhile isNamePart
    if name = [] then .error .emptyField
    else (readSteps (after.dropWhile isNamePart)).map (.field name :: ·)
  | '[' :: after =>
    match cut : Text.splitFirst? (· == ']') after with
    | none => .error .unclosedBracket
    | some (position, next) =>
      have _shorter := length_of_splitFirst? cut
      match readPosition? position with
      | none => .error .invalidIndex
      | some position => (readSteps next).map (.index position :: ·)
  | _ => .error .unexpectedCharacter
termination_by text.length
decreasing_by
  · exact Nat.lt_succ_of_le (List.dropWhile_suffix isNamePart).length_le
  · simp only [List.length_cons]
    omega

/-- Read a path. -/
def Path.read (text : List Char) : Except PathFault Path :=
  let name := text.takeWhile isNamePart
  if isIdentifier name then
    (readSteps (text.dropWhile isNamePart)).map fun steps => ⟨name, steps⟩
  else .error .expectedName

end Interchange.Statements
