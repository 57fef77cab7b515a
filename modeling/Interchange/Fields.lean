/-!
# Named entries in order

A list of names with what each of them stands for. Two orders are in use: entries that keep the
place where their name first came up (`Fields.put`), and entries sorted by name
(`Fields.insert`), names being compared by their code points. Both keep each name once.
-/
namespace Interchange

/-- Names with what each stands for, in order. -/
abbrev Fields (α : Type) := List (String × α)

namespace Fields

variable {α : Type}

/-- What the first entry with a name stands for. -/
def find? (name : String) : Fields α → Option α
  | [] => none
  | (other, value) :: rest => if other = name then some value else find? name rest

/-- Give a name a value: in its place if the name is there, at the end otherwise. -/
def put (name : String) (value : α) : Fields α → Fields α
  | [] => [(name, value)]
  | (other, old) :: rest =>
    if other = name then (other, value) :: rest else (other, old) :: put name value rest

/-- Entries given one after the other: each name at its first place with its last value. -/
def ofPairs (pairs : List (String × α)) : Fields α :=
  pairs.foldl (fun fields (name, value) => fields.put name value) []

/-- Give a name a value in entries sorted by name. -/
def insert (name : String) (value : α) : Fields α → Fields α
  | [] => [(name, value)]
  | (other, old) :: rest =>
    if name < other then (name, value) :: (other, old) :: rest
    else if name = other then (name, value) :: rest
    else (other, old) :: insert name value rest

/-- Entries given one after the other, sorted by name: each name with its last value. -/
def sorted (pairs : List (String × α)) : Fields α :=
  pairs.foldl (fun fields (name, value) => fields.insert name value) []

/-- The names in order. -/
def names (fields : Fields α) : List String := fields.map Prod.fst

/-- A name that was just put is found with its value. -/
theorem find?_put_self (name : String) (value : α) (fields : Fields α) :
    (fields.put name value).find? name = some value := by
  induction fields with
  | nil => simp [put, find?]
  | cons entry rest ih =>
    obtain ⟨other, old⟩ := entry
    by_cases same : other = name <;> simp [put, find?, same, ih]

/-- Putting one name leaves what every other name stands for. -/
theorem find?_put_of_ne {name other : String} (value : α) (fields : Fields α)
    (different : other ≠ name) : (fields.put name value).find? other = fields.find? other := by
  induction fields with
  | nil => simp [put, find?, different.symm]
  | cons entry rest ih =>
    obtain ⟨third, old⟩ := entry
    by_cases same : third = name
    · subst same
      simp [put, find?, different.symm]
    · rw [put, if_neg same, find?, find?, ih]

end Fields

end Interchange
