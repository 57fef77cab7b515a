import Interchange.Value.Basic

/-!
# Equality of exchanged values

Integers are compared by number, doubles by their bits, sequences position by position and
records by what their names stand for, in any order. References are equal when they stand for
the same object. Values of different types are never equal.
-/
namespace Interchange.Value

mutual

/-- Whether two values are equal. -/
def equal : Value → Value → Bool
  | integer a, integer b => a == b
  | float x, float y => x == y
  | text s, text t => s == t
  | sequence items, sequence others => equalItems items others
  | record fields, record others =>
    fields.length == others.length && equalWithin fields others
  | reference target, reference other => target.object == other.object
  | _, _ => false

/-- Whether two sequences have equal items at the same positions. -/
def equalItems : List Value → List Value → Bool
  | [], [] => true
  | item :: items, other :: others => item.equal other && equalItems items others
  | _, _ => false

/-- Whether each field has an equal one of the same name among the others. -/
def equalWithin : List (String × Value) → List (String × Value) → Bool
  | [], _ => true
  | (name, value) :: rest, others =>
    (match Fields.find? name others with
      | some other => value.equal other
      | none => false) && equalWithin rest others

end

instance : BEq Value := ⟨equal⟩

end Interchange.Value
