import Interchange.Decimal.Reading
import Interchange.Json.Basic

/-!
# Reading JSON

`Json.read?` accepts exactly one document with white space around it. Strings must not hold raw
control characters or half of a surrogate pair. Digits of a number are collected in one
unsigned word: integer digits beyond it only raise the exponent and fraction digits beyond it
are dropped, and a number that is not an integer is scaled from that word
(`Decimal.scaled?`). Arrays and objects may be nested 127 deep.
-/
namespace Interchange.Json

/-- The characters between the parts of a document that mean nothing. -/
def isSpace (c : Char) : Bool := c == ' ' || c == '\n' || c == '\t' || c == '\r'

/-- The text after leading white space. -/
def skipSpace (text : List Char) : List Char := text.dropWhile isSpace

/-- The number of four hexadecimal digits. -/
def codeUnit? (a b c d : Char) : Option Nat := Decimal.hexValue? [a, b, c, d]

/-- The character of a short escape. -/
def escaped? : Char → Option Char
  | '"' => some '"'
  | '\\' => some '\\'
  | '/' => some '/'
  | 'b' => some '\x08'
  | 'f' => some '\x0c'
  | 'n' => some '\n'
  | 'r' => some '\r'
  | 't' => some '\t'
  | _ => none

/-- Read the rest of a string up to its closing quote: the characters it stands for and the
text after it. -/
def readString? : List Char → Option (List Char × List Char)
  | [] => none
  | '"' :: rest => some ([], rest)
  | '\\' :: 'u' :: a :: b :: c :: d :: rest =>
    match codeUnit? a b c d with
    | none => none
    | some unit =>
      if 0xd800 ≤ unit ∧ unit < 0xdc00 then
        match rest with
        | '\\' :: 'u' :: e :: f :: g :: h :: rest =>
          match codeUnit? e f g h with
          | none => none
          | some low =>
            if 0xdc00 ≤ low ∧ low < 0xe000 then
              (readString? rest).map fun (chars, after) =>
                (Char.ofNat (0x10000 + (unit - 0xd800) * 0x400 + (low - 0xdc00)) :: chars, after)
            else none
        | _ => none
      else if 0xdc00 ≤ unit ∧ unit < 0xe000 then none
      else (readString? rest).map fun (chars, after) => (Char.ofNat unit :: chars, after)
  | '\\' :: mark :: rest =>
    match escaped? mark with
    | none => none
    | some c => (readString? rest).map fun (chars, after) => (c :: chars, after)
  | c :: rest =>
    if c = '\\' ∨ c < ' ' then none
    else (readString? rest).map fun (chars, after) => (c :: chars, after)

/-- The largest number an unsigned word holds. -/
def wordLimit : Nat := 0xffffffffffffffff

/-- Digits collected from a text. -/
structure Digits where
  /-- The digits that fit into an unsigned word. -/
  significand : Nat
  /-- How many digits were collected. -/
  collected : Nat
  /-- How many digits no longer fitted and were passed over. -/
  dropped : Nat
  /-- The text after the digits. -/
  rest : List Char

/-- Collect digits onto a significand as long as they fit into an unsigned word, and pass over
the digits after that. -/
def collectDigits (significand : Nat) : List Char → Digits
  | [] => ⟨significand, 0, 0, []⟩
  | c :: rest =>
    if !c.isDigit then ⟨significand, 0, 0, c :: rest⟩
    else
      let next := 10 * significand + (c.toNat - '0'.toNat)
      if next ≤ wordLimit then
        let more := collectDigits next rest
        { more with collected := more.collected + 1 }
      else
        ⟨significand, 0, 1 + (rest.takeWhile Char.isDigit).length,
          rest.dropWhile Char.isDigit⟩

/-- A number that is not an integer: the digits scaled by the exponent, with its sign. -/
def realNumber? (negative : Bool) (significand : Nat) (exponent : Int) : Option Number := do
  let x ← Decimal.scaled? (Double.ofNat significand) exponent
  Number.ofDouble? (if negative then x.negate else x)

/-- Read what follows the mark of an exponent: an optional sign and digits. An exponent beyond a
signed 32-bit word means zero, or is out of range. -/
def readExponent? (negative : Bool) (significand : Nat) (start : Int) (text : List Char) :
    Option (Number × List Char) := do
  let (below, digits) := match text with
    | '-' :: rest => (true, rest)
    | '+' :: rest => (false, rest)
    | _ => (false, text)
  let run := digits.takeWhile Char.isDigit
  let rest := digits.dropWhile Char.isDigit
  if run.isEmpty then none
  else
    let size := Decimal.digitsValue run
    if size < 0x80000000 then
      let x ← realNumber? negative significand (if below then start - size else start + size)
      some (x, rest)
    else if significand ≠ 0 ∧ !below then none
    else
      let x ← realNumber? negative 0 0
      some (x, rest)

/-- The number that the collected integer digits make if nothing else follows. -/
def integerNumber? (negative : Bool) (significand : Nat) : Option Number :=
  if !negative then some (.natural (UInt64.ofNat significand))
  else if 0 < significand ∧ significand ≤ 0x8000000000000000 then
    Number.ofInteger? (Integer.ofInt (-(significand : Int)))
  else realNumber? true significand 0

/-- Read the part of a number after its sign. -/
def readMagnitude? (negative : Bool) (text : List Char) : Option (Number × List Char) :=
  let whole := collectDigits 0 text
  if whole.collected = 0 ∨ (text.head? = some '0' ∧ whole.collected ≠ 1) then none
  else match whole.rest with
    | '.' :: afterPoint =>
      let fraction := collectDigits whole.significand afterPoint
      if fraction.collected = 0 ∧ fraction.dropped = 0 then none
      else scale fraction.significand (whole.dropped - fraction.collected) fraction.rest
    | rest =>
      if whole.dropped = 0 ∧ rest.head? ≠ some 'e' ∧ rest.head? ≠ some 'E' then
        (integerNumber? negative whole.significand).map (·, rest)
      else scale whole.significand whole.dropped rest
where
  /-- Read the exponent, if there is one, and scale the digits. -/
  scale (significand : Nat) (exponent : Int) (rest : List Char) : Option (Number × List Char) :=
    match rest with
    | 'e' :: marked => readExponent? negative significand exponent marked
    | 'E' :: marked => readExponent? negative significand exponent marked
    | _ => (realNumber? negative significand exponent).map (·, rest)

/-- Read the items of an array after its opening bracket, the first of them not optional. At
most `rounds` items are read. -/
def readItems? (readOne : List Char → Option (Json × List Char)) :
    Nat → List Char → Option (List Json × List Char)
  | 0, _ => none
  | rounds + 1, text => do
    let (item, rest) ← readOne text
    match skipSpace rest with
    | ',' :: rest =>
      let (items, rest) ← readItems? readOne rounds rest
      some (item :: items, rest)
    | ']' :: rest => some ([item], rest)
    | _ => none

/-- Read the members of an object after its opening brace, the first of them not optional. At
most `rounds` members are read. -/
def readMembers? (readOne : List Char → Option (Json × List Char)) :
    Nat → List Char → Option (List (String × Json) × List Char)
  | 0, _ => none
  | rounds + 1, text =>
    match skipSpace text with
    | '"' :: rest => do
      let (name, rest) ← readString? rest
      match skipSpace rest with
      | ':' :: rest =>
        let (member, rest) ← readOne rest
        match skipSpace rest with
        | ',' :: rest =>
          let (members, rest) ← readMembers? readOne rounds rest
          some ((String.ofList name, member) :: members, rest)
        | '\x7d' :: rest => some ([(String.ofList name, member)], rest)
        | _ => none
      | _ => none
    | _ => none

/-- Read one document from the front of a text, with at most `depth` arrays and objects inside
each other. -/
def readFront? (depth : Nat) (text : List Char) : Option (Json × List Char) :=
  match skipSpace text with
  | 'n' :: 'u' :: 'l' :: 'l' :: rest => some (null, rest)
  | 't' :: 'r' :: 'u' :: 'e' :: rest => some (bool true, rest)
  | 'f' :: 'a' :: 'l' :: 's' :: 'e' :: rest => some (bool false, rest)
  | '"' :: rest =>
    (readString? rest).map fun (chars, after) => (string (String.ofList chars), after)
  | '-' :: rest => (readMagnitude? true rest).map fun (n, after) => (number n, after)
  | '[' :: rest => match depth with
    | 0 => none
    | inner + 1 => match skipSpace rest with
      | ']' :: after => some (array [], after)
      | _ => (readItems? (readFront? inner) rest.length rest).map
          fun (items, after) => (array items, after)
  | '\x7b' :: rest => match depth with
    | 0 => none
    | inner + 1 => match skipSpace rest with
      | '\x7d' :: after => some (object [], after)
      | _ => (readMembers? (readFront? inner) rest.length rest).map
          fun (members, after) => (object members, after)
  | other => (readMagnitude? false other).map fun (n, after) => (number n, after)

/-- How many arrays and objects may be inside each other. -/
def depthLimit : Nat := 127

/-- Read a text that is one document. -/
def read? (text : List Char) : Option Json :=
  match readFront? depthLimit text with
  | some (document, rest) => if (skipSpace rest).isEmpty then some document else none
  | none => none

/-- Read a text that is one string. -/
def readText? (text : List Char) : Option String :=
  match read? text with
  | some (string s) => some s
  | _ => none

end Interchange.Json
