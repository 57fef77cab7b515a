import Interchange.Double

/-!
# Reading decimals

`readDouble?` reads a host's numeral exactly: the nearest double to the written number, the
names of the special values, or sixteen hexadecimal digits that give the bits themselves.
`scaled?` is the arithmetic of the guests' readers, which is not exact: the digits collected in
one word are converted first and then multiplied or divided by a power of ten, each step
rounding once.
-/
namespace Interchange.Decimal

/-- The double nearest to a power of ten. -/
def tenTo (power : Nat) : Double := Double.ofQuotient false (Nat.pow 10 power) 1

/-- A significand scaled by a power of ten. Beyond the powers that a double can hold, the
number is divided down in steps until nothing is left; `none` if it is out of range. -/
def scaled? (value : Double) (exponent : Int) : Option Double :=
  if exponent.natAbs ≤ 308 then
    if 0 ≤ exponent then
      let product := value.times (tenTo exponent.toNat)
      if product.isInfinite then none else some product
    else some (value.dividedBy (tenTo exponent.natAbs))
  else if value.isZero then some value
  else if 0 ≤ exponent then none
  else scaled? (value.dividedBy (tenTo 308)) (exponent + 308)
termination_by exponent.natAbs

/-- The number of a run of decimal digits. -/
def digitsValue (digits : List Char) : Nat :=
  digits.foldl (fun value c => 10 * value + (c.toNat - '0'.toNat)) 0

/-- The value of a hexadecimal digit of either case. -/
def hexDigit? (c : Char) : Option Nat :=
  if c.isDigit then some (c.toNat - '0'.toNat)
  else if 'a' ≤ c ∧ c ≤ 'f' then some (c.toNat - 'a'.toNat + 10)
  else if 'A' ≤ c ∧ c ≤ 'F' then some (c.toNat - 'A'.toNat + 10)
  else none

/-- The number of a run of hexadecimal digits; `none` if any other character occurs. -/
def hexValue? (digits : List Char) : Option Nat :=
  digits.foldlM (fun value c => (hexDigit? c).map (16 * value + ·)) 0

/-- An exponent: an optional sign and at least one digit. -/
def readExponent? (text : List Char) : Option Int :=
  let (negative, digits) := match text with
    | '-' :: rest => (true, rest)
    | '+' :: rest => (false, rest)
    | _ => (false, text)
  if digits.isEmpty ∨ !digits.all Char.isDigit then none
  else
    let value : Int := digitsValue digits
    some (if negative then -value else value)

/-- An unsigned number: digits with at most one point and an optional exponent. -/
def readMagnitude? (negative : Bool) (text : List Char) : Option Double := do
  let whole := text.takeWhile Char.isDigit
  let rest := text.dropWhile Char.isDigit
  let (fraction, rest) := match rest with
    | '.' :: after => (after.takeWhile Char.isDigit, after.dropWhile Char.isDigit)
    | _ => ([], rest)
  if whole.isEmpty ∧ fraction.isEmpty then none
  else
    let exponent ← match rest with
      | [] => some 0
      | mark :: after => if mark = 'e' ∨ mark = 'E' then readExponent? after else none
    some (Double.ofDecimal negative (digitsValue (whole ++ fraction))
      (exponent - fraction.length))

/-- A signed number or one of the special values. -/
def readSigned? (text : List Char) : Option Double :=
  let (negative, magnitude) := match text with
    | '-' :: rest => (true, rest)
    | '+' :: rest => (false, rest)
    | _ => (false, text)
  let word := String.ofList (magnitude.map Char.toLower)
  if word = "nan" then some (if negative then Double.quietNaN.negate else Double.quietNaN)
  else if word = "inf" ∨ word = "infinity" then some (Double.infinity negative)
  else readMagnitude? negative magnitude

/-- Read the text of a double: a decimal, a special value, or the bits in hexadecimal. -/
def readDouble? (text : String) : Option Double :=
  match text.toList with
  | '0' :: 'x' :: digits => (hexValue? digits).map fun bits => ⟨UInt64.ofNat bits⟩
  | other => readSigned? other

end Interchange.Decimal
