/-!
# Double-precision numbers

A double is its 64 bits: two doubles are equal exactly when all bits are, so a NaN equals
itself and the two zeros differ. A finite double is the exact number `significand · 2 ^ scale`
with a sign, and every operation here computes with those exact numbers and rounds once, to the
nearest double and on a tie to the one with an even significand (`Double.ofQuotient`).
-/
namespace Interchange

/-- A 64-bit binary floating-point number. -/
structure Double where
  /-- Sign, eleven exponent bits and fifty-two fraction bits, from the top. -/
  bits : UInt64
  deriving DecidableEq, Inhabited

namespace Double

/-- The sign bit. -/
def negative (x : Double) : Bool := x.bits >>> 63 == 1

/-- The exponent bits as a number; 2047 marks the infinities and the NaNs. -/
def exponentField (x : Double) : Nat := ((x.bits >>> 52) &&& 0x7ff).toNat

/-- The fraction bits as a number. -/
def fraction (x : Double) : Nat := (x.bits &&& 0xfffffffffffff).toNat

/-- Neither infinite nor a NaN. -/
def isFinite (x : Double) : Bool := x.exponentField < 2047

/-- One of the two infinities. -/
def isInfinite (x : Double) : Bool := x.exponentField == 2047 && x.fraction == 0

/-- Not a number. -/
def isNaN (x : Double) : Bool := x.exponentField == 2047 && x.fraction != 0

/-- The integer significand of a finite double. -/
def significand (x : Double) : Nat :=
  if x.exponentField = 0 then x.fraction else 0x10000000000000 + x.fraction

/-- The power of two that the significand of a finite double counts. -/
def scale (x : Double) : Int := (max x.exponentField 1 : Nat) - 1075

/-- One of the two zeros. -/
def isZero (x : Double) : Bool := x.exponentField == 0 && x.fraction == 0

/-- The infinity of a sign. -/
def infinity (negative : Bool) : Double :=
  ⟨if negative then 0xfff0000000000000 else 0x7ff0000000000000⟩

/-- The NaN that stands for an input without a payload. -/
def quietNaN : Double := ⟨0x7ff8000000000000⟩

/-- The NaN that an operation without a numeric result yields. -/
def invalidNaN : Double := ⟨0xfff8000000000000⟩

/-- The double whose magnitude has the given bits. -/
def ofMagnitudeBits (negative : Bool) (magnitude : Nat) : Double :=
  ⟨UInt64.ofNat (if negative then 0x8000000000000000 + magnitude else magnitude)⟩

/-- The quotient rounded to the nearest natural number, a tie to the even neighbour. -/
def roundQuotient (numerator denominator : Nat) : Nat :=
  let quotient := numerator / denominator
  let twice := 2 * (numerator % denominator)
  if twice < denominator then quotient
  else if denominator < twice then quotient + 1
  else if quotient % 2 = 0 then quotient else quotient + 1

/-- The factor `2 ^ power` of a natural number, for a non-negative power; one otherwise. -/
def powerOfTwo (power : Int) : Nat := Nat.pow 2 power.toNat

/-- The scale at which a positive quotient has a significand of at most fifty-three bits, and
of exactly as many unless the scale is the least there is. -/
def scaleOfQuotient (numerator denominator : Nat) : Int :=
  let guess := max ((numerator.log2 : Int) - denominator.log2 - 53) (-1074)
  if numerator * powerOfTwo (-guess) / (denominator * powerOfTwo guess) < 0x20000000000000
  then guess else guess + 1

/-- The double nearest to a quotient of natural numbers with a sign in front; beyond the
largest double the infinity. -/
def ofQuotient (negative : Bool) (numerator denominator : Nat) : Double :=
  if numerator = 0 then ofMagnitudeBits negative 0
  else
    let scale := scaleOfQuotient numerator denominator
    let significand :=
      roundQuotient (numerator * powerOfTwo (-scale)) (denominator * powerOfTwo scale)
    let magnitude := (scale + 1074).toNat * 0x10000000000000 + significand
    if magnitude < 0x7ff0000000000000 then ofMagnitudeBits negative magnitude else infinity negative

/-- The double nearest to `significand · 2 ^ scale`. -/
def ofBinary (negative : Bool) (significand : Nat) (scale : Int) : Double :=
  ofQuotient negative (significand * powerOfTwo scale) (powerOfTwo (-scale))

/-- The double nearest to a natural number. -/
def ofNat (n : Nat) : Double := ofQuotient false n 1

/-- The double nearest to `significand · 10 ^ exponent`. Exponents that lead past either end of
the range are recognised by the number of digits, so no power of ten grows large. -/
def ofDecimal (negative : Bool) (significand : Nat) (exponent : Int) : Double :=
  let digits : Int := (Nat.toDigits 10 significand).length
  if significand = 0 ∨ exponent + digits < -330 then ofMagnitudeBits negative 0
  else if 310 < exponent + digits then infinity negative
  else ofQuotient negative (significand * Nat.pow 10 exponent.toNat)
    (Nat.pow 10 (-exponent).toNat)

/-- The same number with the other sign. -/
def negate (x : Double) : Double := ⟨x.bits ^^^ 0x8000000000000000⟩

/-- The product of two finite doubles. -/
def times (x y : Double) : Double :=
  ofBinary (x.negative ^^ y.negative) (x.significand * y.significand) (x.scale + y.scale)

/-- The quotient of two finite doubles, the second not zero. -/
def dividedBy (x y : Double) : Double :=
  let scale := x.scale - y.scale
  ofQuotient (x.negative ^^ y.negative) (x.significand * powerOfTwo scale)
    (y.significand * powerOfTwo (-scale))

/-- The significand with its sign. -/
def signedSignificand (x : Double) : Int :=
  if x.negative then -(x.significand : Int) else x.significand

/-- The sum of two finite doubles. An exact zero is positive unless both operands are
negative. -/
def addFinite (x y : Double) : Double :=
  let scale := min x.scale y.scale
  let sum := x.signedSignificand * powerOfTwo (x.scale - scale) +
    y.signedSignificand * powerOfTwo (y.scale - scale)
  if sum = 0 then ofMagnitudeBits (x.negative && y.negative) 0
  else ofBinary (sum < 0) sum.natAbs scale

/-- A NaN with the quiet bit set, its sign and payload kept. -/
def quieted (x : Double) : Double := ⟨x.bits ||| 0x8000000000000⟩

/-- The sum. A NaN operand is the result, the first one if both are; infinities of opposite
signs have no sum. -/
def add (x y : Double) : Double :=
  if x.isNaN then x.quieted
  else if y.isNaN then y.quieted
  else if x.isInfinite then
    if y.isInfinite && x.negative != y.negative then invalidNaN else x
  else if y.isInfinite then y
  else addFinite x y

instance : Add Double := ⟨add⟩

/-- The place of a double in the total order of bit patterns: negative numbers, the largest
magnitude first, then positive ones, the smallest first. -/
def orderKey (x : Double) : Int :=
  if x.negative then -((x.bits &&& 0x7fffffffffffffff).toNat : Int) - 1 else x.bits.toNat

instance : Ord Double := ⟨fun x y => compare x.orderKey y.orderKey⟩

end Double

end Interchange
