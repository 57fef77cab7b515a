import Interchange.Json.Number

/-!
# JSON documents

The tree that a JSON text stands for, objects with their members in written order. `render`
writes a tree without any white space.
-/
namespace Interchange

/-- A JSON document. -/
inductive Json where
  /-- The absent value. -/
  | null
  /-- True or false. -/
  | bool (b : Bool)
  /-- A number. -/
  | number (n : Json.Number)
  /-- A string. -/
  | string (s : String)
  /-- Documents by position. -/
  | array (items : List Json)
  /-- Documents by name, as written: names may repeat. -/
  | object (members : List (String × Json))
  deriving Inhabited

namespace Json

/-- The lower-case hexadecimal digit of a number below sixteen. -/
def hexDigit (n : Nat) : Char := Nat.digitChar n

/-- The written form of one character of a string. -/
def stringChar (c : Char) : List Char :=
  if c = '"' then ['\\', '"']
  else if c = '\\' then ['\\', '\\']
  else if c = '\x08' then ['\\', 'b']
  else if c = '\x0c' then ['\\', 'f']
  else if c = '\n' then ['\\', 'n']
  else if c = '\r' then ['\\', 'r']
  else if c = '\t' then ['\\', 't']
  else if c < ' ' then ['\\', 'u', '0', '0', hexDigit (c.toNat / 16), hexDigit (c.toNat % 16)]
  else [c]

/-- The written form of a string: in double quotes, control characters, quotes and backslashes
escaped and everything else as it is. -/
def stringLiteral (s : String) : String :=
  String.ofList ('"' :: s.toList.flatMap stringChar ++ ['"'])

mutual

/-- The written form of a document. -/
def render : Json → String
  | null => "null"
  | bool b => if b then "true" else "false"
  | number n => n.numeral
  | string s => stringLiteral s
  | array items => "[" ++ ",".intercalate (renderItems items) ++ "]"
  | object members => "\x7b" ++ ",".intercalate (renderMembers members) ++ "\x7d"

/-- The written forms of the items of an array. -/
def renderItems : List Json → List String
  | [] => []
  | item :: items => item.render :: renderItems items

/-- The written forms of the members of an object. -/
def renderMembers : List (String × Json) → List String
  | [] => []
  | (name, member) :: members =>
    (stringLiteral name ++ ":" ++ member.render) :: renderMembers members

end

end Json

end Interchange
