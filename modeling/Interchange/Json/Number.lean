import Interchange.Decimal.Layout
import Interchange.Integer

/-!
# Numbers of JSON

A number is an unsigned word, a negative signed word or a finite double; the three are kept
apart, so no integer passes through a double.
-/
namespace Interchange.Json

/-- A number as a JSON text can give it. -/
inductive Number where
  /-- A number from zero up. -/
  | natural (n : UInt64)
  /-- A number below zero. -/
  | negative (n : Int64) (below : n < 0)
  /-- A finite double. -/
  | real (x : Double) (finite : x.isFinite = true)
  deriving DecidableEq

namespace Number

/-- The layout of doubles in JSON: in full from a hundred-thousandth up to ten to the
sixteenth, a plus sign before a non-negative exponent, and a tie goes to the even digit. -/
def layout : Decimal.Layout := ⟨-5, 16, true, .toEven⟩

/-- The written form of a number. -/
def numeral : Number → String
  | natural n => n.toNat.repr
  | negative n _ => (Integer.word n).numeral
  | real x _ => layout.render x

/-- The number of a signed word. -/
def ofWord (n : Int64) : Number :=
  if below : n < 0 then negative n below else natural n.toUInt64

/-- The number of an integer, if an unsigned or a signed word can hold it. -/
def ofInteger? (n : Integer) : Option Number :=
  match n.toWord? with
  | some w => some (ofWord w)
  | none => n.toUnsigned?.map natural

/-- The number of a double, if it is finite. -/
def ofDouble? (x : Double) : Option Number :=
  if finite : x.isFinite = true then some (real x finite) else none

end Number

end Interchange.Json
