import Interchange.Text.Unprintable

/-!
# Quoted text

The form in which a text is shown inside a printed value: between double quotes, with short
escapes for the common control characters, the quote and the backslash, and the code point in
hexadecimal for every other character that has no visible form of its own.
-/
namespace Interchange.Text

/-- The written form of one character between quotes. -/
def quotedChar (c : Char) : List Char :=
  if c = '\x00' then ['\\', '0']
  else if c = '\t' then ['\\', 't']
  else if c = '\r' then ['\\', 'r']
  else if c = '\n' then ['\\', 'n']
  else if c = '"' then ['\\', '"']
  else if c = '\\' then ['\\', '\\']
  else if isUnprintable c then
    ['\\', 'u', '\x7b'] ++ Nat.toDigits 16 c.toNat ++ ['\x7d']
  else [c]

/-- A text between quotes. -/
def quoted (text : String) : String :=
  String.ofList ('"' :: text.toList.flatMap quotedChar ++ ['"'])

end Interchange.Text
