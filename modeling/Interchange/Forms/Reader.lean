import Interchange.Decimal.Reading
import Interchange.Forms.Sexp

/-!
# Reading forms

`Reader.forms` reads a text form by form, each with the line it starts on, up to the end or the
first place where the text is no form; everything before that place is still read. Lines are
counted from one and columns in bytes from zero. A fault is reported at the cursor or one byte
behind it (`Cursor.here`, `Cursor.behind`).
-/
namespace Interchange.Forms.Reader

/-- Why and where a text is no form. -/
structure ReadFault where
  /-- What is wrong. -/
  what : String
  /-- The line, from one. -/
  line : Nat
  /-- How many bytes of the line lie before the place. -/
  column : Nat
  deriving DecidableEq

/-- The wording of a read fault. -/
def ReadFault.message (fault : ReadFault) : String :=
  fault.what ++ " at line " ++ fault.line.repr ++ " column " ++ fault.column.repr

/-- A place in a text: what is left to read, and where that is. -/
structure Cursor where
  /-- The text from this place on. -/
  rest : List Char
  /-- The line, from one. -/
  line : Nat
  /-- How many bytes of the line lie before the place. -/
  column : Nat

namespace Cursor

/-- The start of a text. -/
def start (text : List Char) : Cursor := ⟨text, 1, 0⟩

/-- The place after one character. -/
def past (cursor : Cursor) (c : Char) (rest : List Char) : Cursor :=
  if c = '\n' then ⟨rest, cursor.line + 1, 0⟩
  else ⟨rest, cursor.line, cursor.column + c.utf8Size⟩

/-- The place after the next character; the end stays where it is. -/
def next (cursor : Cursor) : Cursor :=
  match cursor.rest with
  | [] => cursor
  | c :: rest => cursor.past c rest

/-- The place one byte further. Inside a character of several bytes nothing can be read. -/
def nextByte (cursor : Cursor) : Cursor :=
  match cursor.rest with
  | [] => cursor
  | c :: rest =>
    if c.utf8Size = 1 then cursor.past c rest
    else ⟨cursor.rest, cursor.line, cursor.column + 1⟩

/-- A fault at this place. -/
def here (cursor : Cursor) (what : String) : ReadFault := ⟨what, cursor.line, cursor.column⟩

/-- A fault one byte behind this place. -/
def behind (cursor : Cursor) (what : String) : ReadFault := cursor.nextByte.here what

/-- The place after as many characters as are of a class. -/
def pastWhile (isMember : Char → Bool) (cursor : Cursor) : Cursor :=
  go cursor.rest cursor.line cursor.column
where
  /-- Count the characters of the class. -/
  go (rest : List Char) (line column : Nat) : Cursor :=
    match rest with
    | [] => ⟨[], line, column⟩
    | c :: more =>
      if isMember c then
        if c = '\n' then go more (line + 1) 0 else go more line (column + c.utf8Size)
      else ⟨c :: more, line, column⟩

/-- The place of the next character that is neither white space nor part of a comment, which
runs from a semicolon to the end of its line. -/
def skip (cursor : Cursor) : Cursor :=
  go false cursor.rest cursor.line cursor.column
where
  /-- Pass over white space, and inside a comment over everything. -/
  go (comment : Bool) (rest : List Char) (line column : Nat) : Cursor :=
    match rest with
    | [] => ⟨[], line, column⟩
    | c :: more =>
      if c = '\n' then go false more (line + 1) 0
      else if comment then go true more line (column + c.utf8Size)
      else if c = ' ' ∨ c = '\t' ∨ c = '\r' ∨ c = '\x0c' then go false more line (column + 1)
      else if c = ';' then go true more line (column + 1)
      else ⟨c :: more, line, column⟩

end Cursor

/-- What a step of the reader yields, or why it cannot go on. -/
abbrev Result (α : Type) := Except ReadFault α

/-- Whether a symbol goes on with a character. -/
def isSymbolChar (c : Char) : Bool := !" \n\t\r)]([;".toList.contains c

/-- Whether a symbol can start with a character, signs apart. -/
def startsSymbol (c : Char) : Bool := c.isAlpha || ":!$%&*./<=>?@^_~".toList.contains c

/-- Whether a sign or a dot stands alone before what follows: the end, a null character, white
space, a bar, a parenthesis or a quote. -/
def standsAlone : List Char → Bool
  | [] => true
  | c :: _ => " \t\n\x0c\r|()\"\x00".toList.contains c

/-- Read the rest of a symbol whose first characters are given. -/
def readSymbol (first : List Char) (cursor : Cursor) : Result (Sexp × Cursor) :=
  let name := first ++ cursor.rest.takeWhile isSymbolChar
  let after := cursor.pastWhile isSymbolChar
  if name = ['.'] then .error (after.here "invalid symbol")
  else .ok (.symbol (String.ofList name), after)

/-- The number of a hexadecimal digit in front of a text. -/
def frontDigit? (cursor : Cursor) : Option Nat := cursor.rest.head?.bind Decimal.hexDigit?

/-- The scaled number of the digits read, with its sign. -/
def scaledNumber (negative : Bool) (significand : Nat) (exponent : Int) (cursor : Cursor) :
    Result (Sexp × Cursor) :=
  match Decimal.scaled? (Double.ofNat significand) exponent with
  | some x => .ok (.float (if negative then x.negate else x), cursor)
  | none => .error (cursor.here "number out of range")

/-- Read the digits of an exponent after the first. The exponent must fit a signed 32-bit word;
beyond it the number is zero or out of range. -/
def readExponentDigits (negative below : Bool) (significand : Nat) (start : Int) (size : Nat) :
    List Char → Cursor → Result (Sexp × Cursor)
  | [], cursor => finish size cursor
  | c :: more, cursor =>
    if !c.isDigit then finish size cursor
    else
      let size := 10 * size + (c.toNat - '0'.toNat)
      let after := cursor.past c more
      if size < 0x80000000 then readExponentDigits negative below significand start size more after
      else if significand ≠ 0 ∧ !below then .error (after.here "number out of range")
      else scaledNumber negative 0 0 (after.pastWhile Char.isDigit)
where
  /-- Scale by the whole exponent. -/
  finish (size : Nat) (cursor : Cursor) : Result (Sexp × Cursor) :=
    scaledNumber negative significand (if below then start - size else start + size) cursor

/-- Read what follows the mark of an exponent. -/
def readExponent (negative : Bool) (significand : Nat) (start : Int) (cursor : Cursor) :
    Result (Sexp × Cursor) :=
  let (below, digits) := match cursor.rest with
    | '-' :: _ => (true, cursor.next)
    | '+' :: _ => (false, cursor.next)
    | _ => (false, cursor)
  match digits.rest with
  | c :: more =>
    if c.isDigit then
      readExponentDigits negative below significand start (c.toNat - '0'.toNat) more digits.next
    else .error (digits.nextByte.here "invalid number")
  | [] => .error (digits.here "invalid number")

/-- Read the fraction digits of a number after its point. Digits that no longer fit the word of
the significand are passed over. -/
def readFraction (negative : Bool) (significand collected : Nat) (exponent : Int) :
    List Char → Cursor → Result (Sexp × Cursor)
  | c :: more, cursor =>
    if c.isDigit then
      let size := 10 * significand + (c.toNat - '0'.toNat)
      if size < UInt64.size then
        readFraction negative size (collected + 1) (exponent - 1) more (cursor.past c more)
      else finish significand exponent (cursor.pastWhile Char.isDigit)
    else if collected = 0 then .error (cursor.behind "invalid number")
    else finish significand exponent cursor
  | [], cursor =>
    if collected = 0 then .error (cursor.behind "invalid number")
    else finish significand exponent cursor
where
  /-- Read the exponent, if there is one, and scale. -/
  finish (significand : Nat) (exponent : Int) (cursor : Cursor) : Result (Sexp × Cursor) :=
    match cursor.rest with
    | 'e' :: _ => readExponent negative significand exponent cursor.next
    | 'E' :: _ => readExponent negative significand exponent cursor.next
    | _ => scaledNumber negative significand exponent cursor

/-- Read what follows the integer digits of a number: a point, which only a decimal number may
have, or anything else, which ends the number. -/
def readAfterDigits (negative : Bool) (radix significand dropped : Nat) (cursor : Cursor) :
    Result (Sexp × Cursor) :=
  match cursor.rest with
  | '.' :: more =>
    if radix ≠ 10 then .error (cursor.behind "invalid number")
    else readFraction negative significand 0 dropped more cursor.next
  | _ =>
    if dropped ≠ 0 then scaledNumber negative significand dropped cursor
    else if !negative then .ok (.integer (Integer.ofInt significand), cursor)
    else if significand ≤ 0x8000000000000000 then
      .ok (.integer (Integer.ofInt (-significand)), cursor)
    else scaledNumber true significand 0 cursor

/-- Whether a character ends a number among the digits that are counted only. Below radix ten a
letter does, even if it is a hexadecimal digit, except for the mark of an exponent. -/
def endsCount (radix : Nat) (c : Char) : Bool :=
  radix < 10 && c.isAlpha && c != 'e' && c != 'E'

/-- Read the integer digits of a number after the first. The digits that no longer fit the word
of the significand are counted only; a digit too large for the radix is a fault. -/
def readDigits (negative : Bool) (radix significand dropped : Nat) :
    List Char → Cursor → Result (Sexp × Cursor)
  | c :: more, cursor =>
    match Decimal.hexDigit? c with
    | some digit =>
      if dropped ≠ 0 ∧ endsCount radix c then
        readAfterDigits negative radix significand dropped cursor
      else if radix ≤ digit then .error (cursor.behind "invalid number")
      else
        let after := cursor.past c more
        if dropped = 0 ∧ radix * significand + digit < UInt64.size then
          readDigits negative radix (radix * significand + digit) 0 more after
        else readDigits negative radix significand (dropped + 1) more after
    | none => readAfterDigits negative radix significand dropped cursor
  | [], cursor => readAfterDigits negative radix significand dropped cursor

/-- Read a number without its sign. The first character must be a digit of the radix. -/
def readNumber (negative : Bool) (radix : Nat) (cursor : Cursor) : Result (Sexp × Cursor) :=
  match frontDigit? cursor, cursor.rest with
  | some digit, _ :: more =>
    if digit < radix then readDigits negative radix digit 0 more cursor.next
    else .error (cursor.next.behind "invalid number")
  | _, _ => .error (cursor.nextByte.behind "invalid number")

/-- Read a number with an optional sign. -/
def readSigned (radix : Nat) (cursor : Cursor) : Result (Sexp × Cursor) :=
  match cursor.rest with
  | '-' :: _ => readNumber true radix cursor.next
  | '+' :: _ => readNumber false radix cursor.next
  | _ => readNumber false radix cursor

/-- Whether a number is the code of a character. -/
def isScalar (code : Nat) : Bool := code < 0xd800 || (0xe000 ≤ code && code < 0x110000)

/-- The character of a short escape in a string. -/
def escaped? : Char → Option Char
  | '"' => some '"'
  | '\\' => some '\\'
  | '|' => some '|'
  | 'a' => some '\x07'
  | 'b' => some '\x08'
  | 'f' => some '\x0c'
  | 'n' => some '\n'
  | 'r' => some '\r'
  | 't' => some '\t'
  | 'v' => some '\x0b'
  | _ => none

/-- Where the reading of a string stands. -/
inductive StringState where
  /-- Between characters. -/
  | plain
  /-- After a backslash. -/
  | escape
  /-- In the hexadecimal digits of a code. -/
  | code (value : Nat)

/-- Read the rest of a string; `read` are its characters so far, the last one first. -/
def readString (read : List Char) : StringState → List Char → Cursor → Result (Sexp × Cursor)
  | _, [], cursor => .error (cursor.here "EOF while parsing a string")
  | .plain, c :: more, cursor =>
    let after := cursor.past c more
    if c = '"' then .ok (.string (String.ofList read.reverse), after)
    else if c = '\\' then readString read .escape more after
    else readString (c :: read) .plain more after
  | .escape, c :: more, cursor =>
    let after := cursor.past c more
    if c = 'x' then readString read (.code 0) more after
    else match escaped? c with
      | some meant => readString (meant :: read) .plain more after
      | none => .error (cursor.nextByte.here "invalid escape")
  | .code value, c :: more, cursor =>
    let after := cursor.past c more
    if c = ';' then
      if isScalar value then readString (Char.ofNat value :: read) .plain more after
      else .error (after.here "invalid unicode code point")
    else match Decimal.hexDigit? c with
      | some digit =>
        if 0x1000000 ≤ value then .error (after.here "invalid unicode code point")
        else readString read (.code (16 * value + digit)) more after
      | none => .error (cursor.nextByte.here "EOF while parsing a string")

/-- Whether a character ends a character constant. -/
def endsConstant (c : Char) : Bool := "()[]\";# \n\t\r\x0c".toList.contains c

/-- The names of characters. -/
def characterNames : List String :=
  ["nul", "alarm", "backspace", "tab", "linefeed", "newline", "vtab", "page", "return", "esc",
    "space", "delete"]

/-- Read the code of a character constant in hexadecimal; `digits` tells whether there was a
digit. -/
def readCode (value : Nat) (digits : Bool) : List Char → Cursor → Result (Sexp × Cursor)
  | [], cursor => finish cursor
  | c :: more, cursor =>
    if endsConstant c then finish cursor
    else match Decimal.hexDigit? c with
      | some digit =>
        let after := cursor.past c more
        if 0x1000000 ≤ value then .error (after.here "invalid unicode code point")
        else readCode (16 * value + digit) true more after
      | none => .error (cursor.nextByte.here "EOF while parsing a character constant")
where
  /-- The constant is the letter itself if no digit follows it. -/
  finish (cursor : Cursor) : Result (Sexp × Cursor) :=
    if !digits || isScalar value then .ok (.other, cursor)
    else .error (cursor.here "invalid unicode code point")

/-- Read a character constant after its mark. Characters whose encoding has two bytes and
begins below the thirteenth row of the code table are refused. -/
def readCharacter (cursor : Cursor) : Result (Sexp × Cursor) :=
  match cursor.rest with
  | [] => .error (cursor.here "EOF while parsing a character constant")
  | 'x' :: more => readCode 0 false more cursor.next
  | c :: more =>
    let after := cursor.next
    if 0x80 ≤ c.toNat then
      if c.toNat < 0x400 then .error (cursor.nextByte.here "invalid unicode code point")
      else .ok (.other, after)
    else
      let name := more.takeWhile fun d => !endsConstant d
      let finish := after.pastWhile fun d => !endsConstant d
      if name = [] ∨ characterNames.contains (String.ofList (c :: name)) then .ok (.other, finish)
      else .error (finish.here "invalid character constant")

/-- Read given characters, one after the other. -/
def readIdent (ident : List Char) (meant : Sexp) (cursor : Cursor) : Result (Sexp × Cursor) :=
  match ident with
  | [] => .ok (meant, cursor)
  | c :: ident =>
    if cursor.rest.head? = some c then readIdent ident meant cursor.next
    else .error (cursor.nextByte.here "expected ident")

/-- Read one byte of a vector of bytes. -/
def readOctet (cursor : Cursor) : Result (Sexp × Cursor) := do
  let (number, after) ←
    match cursor.rest with
    | '#' :: 'b' :: _ => readSigned 2 cursor.next.next
    | '#' :: 'o' :: _ => readSigned 8 cursor.next.next
    | '#' :: 'd' :: _ => readSigned 10 cursor.next.next
    | '#' :: 'x' :: _ => readSigned 16 cursor.next.next
    | '#' :: _ => .error (cursor.next.nextByte.behind "invalid number")
    | _ => readSigned 10 cursor
  match number with
  | .integer n =>
    if 0 ≤ n.toInt ∧ n.toInt < 256 then .ok (.other, after)
    else .error (after.behind "expected octet")
  | _ => .error (after.behind "expected octet")

/-- Read the bytes of a vector of bytes up to its closing parenthesis, at most `rounds` of
them. -/
def readOctets : Nat → Cursor → Result (Sexp × Cursor)
  | 0, cursor => .error (cursor.behind "EOF while parsing a list")
  | rounds + 1, cursor =>
    let place := cursor.skip
    match place.rest with
    | [] => .error (place.behind "EOF while parsing a list")
    | ')' :: _ => .ok (.other, place.next)
    | _ => do
      let (_, after) ← readOctet place
      readOctets rounds after

/-- Read a vector of bytes after its mark. -/
def readOctetVector (mark : Sexp × Cursor) : Result (Sexp × Cursor) :=
  let place := mark.2.skip
  match place.rest with
  | [] => .error (place.behind "EOF while parsing a list")
  | '(' :: _ => readOctets (place.rest.length + 1) place.next
  | _ => .error (place.behind "expected vector")

/-- How many lists and vectors may be inside each other, one more than are allowed. -/
def depthLimit : Nat := 128

mutual

/-- Read the next form, if there is one. `depth` is how many more lists may be opened, and
`rounds` bounds the characters that are still to be read. -/
def readForm (rounds depth : Nat) (cursor : Cursor) : Result (Option Sexp × Cursor) :=
  let place := cursor.skip
  match rounds with
  | 0 => .ok (none, place)
  | rounds + 1 =>
    match place.rest with
    | [] => .ok (none, place)
    | '#' :: _ => (readMarked rounds depth place.next).map fun (form, after) => (some form, after)
    | '"' :: more => (readString [] .plain more place.next).map
        fun (form, after) => (some form, after)
    | '(' :: _ => (openList rounds depth ')' place.next).map fun (form, after) => (some form, after)
    | '[' :: _ => (openList rounds depth ']' place.next).map fun (form, after) => (some form, after)
    | '\'' :: _ => (readQuoted rounds depth "quote" place.next).map
        fun (form, after) => (some form, after)
    | '`' :: _ => (readQuoted rounds depth "quasiquote" place.next).map
        fun (form, after) => (some form, after)
    | ',' :: '@' :: _ => (readQuoted rounds depth "unquote-splicing" place.next.next).map
        fun (form, after) => (some form, after)
    | ',' :: _ => (readQuoted rounds depth "unquote" place.next).map
        fun (form, after) => (some form, after)
    | c :: more =>
      let read :=
        if c = '-' ∨ c = '+' then
          if standsAlone more ∨
              (more.head?.any fun d => startsSymbol d && d != '.' || d == '-' || d == '+') then
            readSymbol [c] place.next
          else readNumber (c = '-') 10 place.next
        else if c.isDigit then readNumber false 10 place
        else if startsSymbol c then readSymbol [] place
        else .error (place.behind "expected value")
      read.map fun (form, after) => (some form, after)

/-- Read a form after its number sign. -/
def readMarked (rounds depth : Nat) (cursor : Cursor) : Result (Sexp × Cursor) :=
  match cursor.rest with
  | [] => .error (cursor.behind "EOF while parsing a value")
  | 't' :: _ => .ok (.bool true, cursor.next)
  | 'f' :: _ => .ok (.bool false, cursor.next)
  | 'n' :: _ => readIdent ['i', 'l'] (.empty false) cursor.next
  | '(' :: _ =>
    match rounds, depth with
    | rounds + 1, inner + 2 => do
      let (items, after) ← readVector rounds (inner + 1) cursor.next
      return (.vector items, after)
    | _, _ => .error (cursor.next.behind "recursion limit exceeded")
  | ':' :: _ =>
    (readSymbol [] cursor.next).map fun (_, after) => (.other, after)
  | 'v' :: _ => do readOctetVector (← readIdent ['u', '8'] .other cursor.next)
  | 'u' :: _ => do readOctetVector (← readIdent ['8'] .other cursor.next)
  | 'b' :: _ => readSigned 2 cursor.next
  | 'o' :: _ => readSigned 8 cursor.next
  | 'd' :: _ => readSigned 10 cursor.next
  | 'x' :: _ => readSigned 16 cursor.next
  | '\\' :: _ => readCharacter cursor.next
  | _ => .error (cursor.nextByte.behind "expected ident")

/-- Read the form that a quote mark stands before. -/
def readQuoted (rounds depth : Nat) (name : String) (cursor : Cursor) : Result (Sexp × Cursor) :=
  match rounds with
  | 0 => .error (cursor.behind "EOF while parsing a list")
  | rounds + 1 => do
    match ← readForm rounds depth cursor with
    | (some form, after) => .ok (.list [.symbol name, form] none, after)
    | (none, after) => .error (after.behind "EOF while parsing a list")

/-- Read a list after its opening bracket, if one more may be opened. -/
def openList (rounds depth : Nat) (closer : Char) (cursor : Cursor) : Result (Sexp × Cursor) :=
  match rounds, depth with
  | rounds + 1, inner + 2 => readList rounds (inner + 1) closer [] cursor
  | _, _ => .error (cursor.behind "recursion limit exceeded")

/-- Read the rest of a list; `read` are its elements so far, the last one first. -/
def readList (rounds depth : Nat) (closer : Char) (read : List Sexp) (cursor : Cursor) :
    Result (Sexp × Cursor) :=
  let place := cursor.skip
  match rounds with
  | 0 => .error (place.behind "EOF while parsing a list")
  | rounds + 1 =>
    match place.rest with
    | [] => .error (place.behind "EOF while parsing a list")
    | c :: more =>
      if c = ')' ∨ c = ']' then
        if c = closer then .ok (Sexp.listOf read.reverse none, place.next)
        else .error (place.behind "mismatched parenthesis")
      else if c = '.' ∧ standsAlone more then
        if read.isEmpty then .error (place.next.behind "expected value")
        else do
          match ← readForm rounds depth place.next with
          | (none, after) => .error (after.behind "EOF while parsing a value")
          | (some tail, after) =>
            let finish := after.skip
            match finish.rest with
            | [] => .error (finish.behind "EOF while parsing a list")
            | d :: _ =>
              if d = ')' ∧ closer = ')' then
                .ok (Sexp.listOf read.reverse (some tail), finish.next)
              else .error (finish.behind "trailing characters")
      else do
        match ← readForm rounds depth place with
        | (some form, after) => readList rounds depth closer (form :: read) after
        | (none, after) => .error (after.behind "EOF while parsing a list")

/-- Read the items of a vector up to its closing parenthesis. -/
def readVector (rounds depth : Nat) (cursor : Cursor) : Result (List Sexp × Cursor) :=
  let place := cursor.skip
  match rounds with
  | 0 => .error (place.behind "EOF while parsing a vector")
  | rounds + 1 =>
    match place.rest with
    | [] => .error (place.behind "EOF while parsing a vector")
    | ')' :: _ => .ok ([], place.next)
    | ']' :: _ => .error (place.behind "mismatched parenthesis")
    | _ => do
      match ← readForm rounds depth place with
      | (some form, after) =>
        let (items, after) ← readVector rounds depth after
        return (form :: items, after)
      | (none, after) => .error (after.behind "EOF while parsing a vector")

end

/-- Read all forms from a place on, each with its line, and what stopped the reading short of
the end. -/
def readAll : Nat → Cursor → List (Nat × Sexp) × Option ReadFault
  | 0, _ => ([], none)
  | rounds + 1, cursor =>
    let place := cursor.skip
    match readForm (3 * place.rest.length + 3) depthLimit place with
    | .error fault => ([], some fault)
    | .ok (none, _) => ([], none)
    | .ok (some form, after) =>
      let (forms, fault) := readAll rounds after
      ((place.line, form) :: forms, fault)

/-- The forms of a text, each with the line it starts on, and what stopped the reading short of
the end. -/
def forms (text : String) : List (Nat × Sexp) × Option ReadFault :=
  readAll (text.toList.length + 1) (Cursor.start text.toList)

end Interchange.Forms.Reader
