import Interchange.Integer
import Interchange.Double

/-!
# Written forms

What a reader makes of the text of a form: atoms, vectors, and lists of at least one element,
each with what stands behind its last dot if the list has one. A list behind the dot is part of
the list before it, so a tail is never a list.
-/
namespace Interchange.Forms

/-- A form as read. -/
inductive Sexp where
  /-- The list without elements, or the marker of absence. -/
  | empty (isList : Bool)
  /-- True or false. -/
  | bool (b : Bool)
  /-- An exact integer. -/
  | integer (n : Integer)
  /-- A double. -/
  | float (x : Double)
  /-- A string. -/
  | string (s : String)
  /-- A symbol. -/
  | symbol (name : String)
  /-- A vector. -/
  | vector (items : List Sexp)
  /-- A list of one or more elements, and what stands behind its dot. -/
  | list (items : List Sexp) (tail : Option Sexp)
  /-- A character, a keyword or a vector of bytes, which the language reads and cannot use. -/
  | other
  deriving Inhabited

namespace Sexp

/-- The list of the given elements, continued by a tail if one stands behind a dot. -/
def listOf (items : List Sexp) (tail : Option Sexp) : Sexp :=
  match items, tail with
  | [], none => empty true
  | [], some tail => tail
  | items, some (list more tail) => list (items ++ more) tail
  | items, some (empty true) => list items none
  | items, tail => list items tail

end Sexp

end Interchange.Forms
