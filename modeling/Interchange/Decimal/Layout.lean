import Interchange.Decimal.Shortest

/-!
# Layouts of decimal numbers

A layout fixes how the shortest digits of a double are written out: for which magnitudes in
full, how an exponent looks otherwise, and which digits a tie chooses. `Layout.render` is the
one printer of doubles; the two layouts in use are values of the record.
-/
namespace Interchange.Decimal

/-- The decisions in which written forms of doubles differ. -/
structure Layout where
  /-- The least exponent of the leading digit that is written in full. -/
  plainFrom : Int
  /-- The least exponent of the leading digit that is too large to be written in full. -/
  plainBelow : Int
  /-- Whether a non-negative exponent has a plus sign. -/
  exponentPlus : Bool
  /-- Which of two equally near digit strings is taken. -/
  tie : Tie

namespace Layout

/-- Digits with a point in them and at least one digit on either side: `exponent` is the power
of ten of the leading digit. -/
def plain (digits : List Char) (exponent : Int) : String :=
  if exponent < 0 then
    "0." ++ String.ofList (List.replicate (-exponent - 1).toNat '0' ++ digits)
  else
    let whole := exponent.toNat + 1
    let fraction := digits.drop whole
    String.ofList (digits.take whole ++ List.replicate (whole - digits.length) '0') ++ "." ++
      (if fraction.isEmpty then "0" else String.ofList fraction)

/-- One digit, the others after a point if there are any, and the exponent. -/
def scientific (layout : Layout) (digits : List Char) (exponent : Int) : String :=
  let fraction := digits.drop 1
  let sign := if exponent < 0 then "-" else if layout.exponentPlus then "+" else ""
  String.ofList (digits.take 1) ++
    (if fraction.isEmpty then "" else "." ++ String.ofList fraction) ++
    "e" ++ sign ++ exponent.natAbs.repr

/-- The written form of a positive decimal. -/
def ofNumeral (layout : Layout) (numeral : Numeral) : String :=
  let digits := Nat.toDigits 10 numeral.digits
  let exponent := numeral.exponent + digits.length - 1
  if layout.plainFrom ≤ exponent ∧ exponent < layout.plainBelow then plain digits exponent
  else layout.scientific digits exponent

/-- The written form of any double. -/
def render (layout : Layout) (x : Double) : String :=
  if x.isNaN then "NaN"
  else
    (if x.negative then "-" else "") ++
      (if x.isInfinite then "inf"
       else if x.isZero then "0.0"
       else layout.ofNumeral (shortest layout.tie x))

/-- The layout of exchanged numbers: in full from a ten-thousandth up to ten to the sixteenth,
no plus sign in an exponent, and a tie goes up. -/
def exchange : Layout := ⟨-4, 16, false, .up⟩

end Layout

end Interchange.Decimal

namespace Interchange

/-- The written form of a double in messages and printed values. -/
def Double.numeral (x : Double) : String := Decimal.Layout.exchange.render x

end Interchange
