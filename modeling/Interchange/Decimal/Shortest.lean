import Interchange.Double

/-!
# The shortest decimal of a double

A double stands for every real number that rounds to it. Among the decimals in that interval
`shortest` chooses one with the fewest digits, of those the nearest to the double itself, and
where two are equally near it follows the given rule. All comparisons are between exact natural
numbers.
-/
namespace Interchange.Decimal

/-- Which of two equally near decimals is chosen. -/
inductive Tie where
  /-- The one whose last digit is even. -/
  | toEven
  /-- The larger one. -/
  | up
  deriving DecidableEq

/-- The positive number `digits · 10 ^ exponent`. -/
structure Numeral where
  /-- All significant digits, read as one natural number. -/
  digits : Nat
  /-- The power of ten of the last digit. -/
  exponent : Int
  deriving DecidableEq

/-- A power of ten with a natural exponent; one for a negative exponent. -/
def powerOfTen (power : Int) : Nat := Nat.pow 10 power.toNat

/-- Compare `digits · 10 ^ exponent` with `significand · 2 ^ scale`. -/
def compareScaled (digits : Nat) (exponent : Int) (significand : Nat) (scale : Int) : Ordering :=
  compare (digits * powerOfTen exponent * Double.powerOfTwo (-scale))
    (significand * Double.powerOfTwo scale * powerOfTen (-exponent))

/-- The lower end of the reals that round to a finite double, in quarters of its unit. Below a
power of two the neighbouring double is half as far away as above it. -/
def lowerQuarters (x : Double) : Nat :=
  if x.fraction = 0 ∧ 1 < x.exponentField then 4 * x.significand - 1 else 4 * x.significand - 2

/-- The upper end of the reals that round to a finite double, in quarters of its unit. -/
def upperQuarters (x : Double) : Nat := 4 * x.significand + 2

/-- Whether a decimal lies among the reals that round to a positive finite double. The ends
belong to the interval exactly when the significand is even. -/
def readsBack (x : Double) (numeral : Numeral) : Bool :=
  let lower := compareScaled numeral.digits numeral.exponent (lowerQuarters x) (x.scale - 2)
  let upper := compareScaled numeral.digits numeral.exponent (upperQuarters x) (x.scale - 2)
  let ends := x.significand % 2 == 0
  (lower == .gt || (ends && lower == .eq)) && (upper == .lt || (ends && upper == .eq))

/-- The least power of ten above a positive finite double. -/
def magnitude (x : Double) : Int :=
  let bits : Int := x.significand.log2 + x.scale
  let guess := bits * 30103 / 100000 - 1
  let above (power : Int) : Bool :=
    compareScaled 1 power x.significand x.scale == .gt
  if above guess then guess
  else if above (guess + 1) then guess + 1
  else if above (guess + 2) then guess + 2
  else guess + 3

/-- The best decimal with the given power of ten as its last place, if one reads back: the
multiple below the double or the one above it, whichever is nearer. -/
def onGrid? (tie : Tie) (x : Double) (exponent : Int) : Option Numeral :=
  let numerator := x.significand * Double.powerOfTwo x.scale * powerOfTen (-exponent)
  let denominator := Double.powerOfTwo (-x.scale) * powerOfTen exponent
  let below := numerator / denominator
  let lower : Numeral := ⟨below, exponent⟩
  let upper : Numeral := ⟨below + 1, exponent⟩
  match readsBack x lower, readsBack x upper with
  | false, false => none
  | true, false => some lower
  | false, true => some upper
  | true, true =>
    match compare (2 * (numerator % denominator)) denominator with
    | .lt => some lower
    | .gt => some upper
    | .eq => match tie with
      | .up => some upper
      | .toEven => if below % 2 = 0 then some lower else some upper

/-- The same number without trailing zero digits. At most `rounds` zeros are moved into the
exponent. -/
def Numeral.trimmed : Nat → Numeral → Numeral
  | 0, numeral => numeral
  | rounds + 1, numeral =>
    if numeral.digits ≠ 0 ∧ numeral.digits % 10 = 0 then
      trimmed rounds ⟨numeral.digits / 10, numeral.exponent + 1⟩
    else numeral

/-- The exact decimal value of a finite double. -/
def exact (x : Double) : Numeral :=
  ⟨x.significand * Double.powerOfTwo x.scale * Nat.pow 5 (-x.scale).toNat, min x.scale 0⟩

/-- The shortest decimal that reads back as a positive finite double. -/
def shortest (tie : Tie) (x : Double) : Numeral :=
  let top := magnitude x
  let found := (List.range 17).findSome? fun (places : Nat) => onGrid? tie x (top - 1 - places)
  (found.getD (exact x)).trimmed 400

end Interchange.Decimal
