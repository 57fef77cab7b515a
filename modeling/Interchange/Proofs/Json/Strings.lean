import Interchange.Json.Reader
import Interchange.Text.Blank

/-!
# Strings of JSON read back

What is written of a string is read as that string, whatever characters it has
(`Json.readText?_stringLiteral`), and without the closing quote it is read as no string. No
control character shows in the written form, and white space only where the string has it
(`Json.plain_of_mem_stringChar`).
-/
namespace Interchange.Json

/-- A character is written with a short escape, with the four digits of its code, or as it is. -/
theorem stringChar_cases (c : Char) :
    (∃ mark, stringChar c = ['\\', mark] ∧ escaped? mark = some c) ∨
      (c < ' ' ∧ stringChar c =
        ['\\', 'u', '0', '0', hexDigit (c.toNat / 16), hexDigit (c.toNat % 16)]) ∨
      (c ≠ '"' ∧ c ≠ '\\' ∧ ¬ c < ' ' ∧ stringChar c = [c]) := by
  by_cases quote : c = '"'
  · exact .inl ⟨'"', by rw [quote]; rfl, by rw [quote]; rfl⟩
  by_cases backslash : c = '\\'
  · exact .inl ⟨'\\', by rw [backslash]; rfl, by rw [backslash]; rfl⟩
  by_cases backspace : c = '\x08'
  · exact .inl ⟨'b', by rw [backspace]; rfl, by rw [backspace]; rfl⟩
  by_cases formFeed : c = '\x0c'
  · exact .inl ⟨'f', by rw [formFeed]; rfl, by rw [formFeed]; rfl⟩
  by_cases lineFeed : c = '\n'
  · exact .inl ⟨'n', by rw [lineFeed]; rfl, by rw [lineFeed]; rfl⟩
  by_cases carriageReturn : c = '\r'
  · exact .inl ⟨'r', by rw [carriageReturn]; rfl, by rw [carriageReturn]; rfl⟩
  by_cases tab : c = '\t'
  · exact .inl ⟨'t', by rw [tab]; rfl, by rw [tab]; rfl⟩
  have unescaped : stringChar c =
      if c < ' ' then ['\\', 'u', '0', '0', hexDigit (c.toNat / 16), hexDigit (c.toNat % 16)]
      else [c] := by
    simp only [stringChar, quote, backslash, backspace, formFeed, lineFeed, carriageReturn, tab,
      if_false]
  by_cases control : c < ' '
  · exact .inr (.inl ⟨control, unescaped.trans (if_pos control)⟩)
  · exact .inr (.inr ⟨quote, backslash, control, unescaped.trans (if_neg control)⟩)

/-- The four digits of a control character are read as its code. -/
theorem codeUnit?_control {c : Char} (control : c < ' ') :
    codeUnit? '0' '0' (hexDigit (c.toNat / 16)) (hexDigit (c.toNat % 16)) = some c.toNat := by
  have codes : ∀ code < 32,
      codeUnit? '0' '0' (hexDigit (code / 16)) (hexDigit (code % 16)) = some code := by decide
  exact codes c.toNat control

/-- What is written of one character is read as that character. -/
theorem readString?_stringChar (c : Char) (text : List Char) :
    readString? (stringChar c ++ text) =
      (readString? text).map fun (chars, after) => (c :: chars, after) := by
  rcases stringChar_cases c with
    ⟨mark, written, read⟩ | ⟨control, written⟩ | ⟨quote, backslash, plain, written⟩
  · have notDigits : mark ≠ 'u' := by
      rintro rfl
      cases read
    rw [written, List.cons_append, List.cons_append, List.nil_append, readString?, read]
    exact fun _ _ _ _ _ same => absurd same notDigits
  · have small : c.toNat < 32 := control
    simp only [written, List.cons_append, List.nil_append, readString?, codeUnit?_control control]
    rw [if_neg (by omega), if_neg (by omega), Char.ofNat_toNat]
  · rw [written, List.singleton_append, readString?, if_neg (not_or.2 ⟨backslash, plain⟩)]
    · exact quote
    · exact fun _ _ _ _ _ same => absurd same backslash
    · exact fun _ _ same => absurd same backslash

/-- What is written of some characters is read as those characters. -/
theorem readString?_flatMap (chars text : List Char) :
    readString? (chars.flatMap stringChar ++ text) =
      (readString? text).map fun (more, after) => (chars ++ more, after) := by
  induction chars with
  | nil => exact (Option.map_id' ..).symm
  | cons c chars ih =>
    rw [List.flatMap_cons, List.append_assoc, readString?_stringChar, ih, Option.map_map]
    rfl

/-- A document that begins with a quote is a string. -/
theorem readFront?_quote (depth : Nat) (text : List Char) :
    readFront? depth ('"' :: text) =
      (readString? text).map fun (chars, after) => (string (String.ofList chars), after) := by
  unfold readFront?
  rfl

/-- The rest of a string is read up to its closing quote. -/
theorem readString?_closed (chars rest : List Char) :
    readString? (chars.flatMap stringChar ++ '"' :: rest) = some (chars, rest) := by
  have closed : readString? ('"' :: rest) = some ([], rest) := by rw [readString?]
  rw [readString?_flatMap, closed]
  simp

/-- A string is written in quotes. -/
theorem toList_stringLiteral (s : String) :
    (stringLiteral s).toList = '"' :: s.toList.flatMap stringChar ++ ['"'] := by
  rw [stringLiteral, String.toList_ofList]

/-- What is written of a string is read as that string. -/
theorem readText?_stringLiteral (s : String) : readText? (stringLiteral s).toList = some s := by
  rw [toList_stringLiteral, List.cons_append, readText?, read?, readFront?_quote,
    readString?_closed]
  simp [skipSpace]

/-- What is written of some characters is no string without the closing quote. -/
theorem readText?_unclosed (chars : List Char) :
    readText? ('"' :: chars.flatMap stringChar) = none := by
  have unclosed := readString?_flatMap chars []
  rw [List.append_nil] at unclosed
  rw [readText?, read?, readFront?_quote, unclosed]
  rfl

/-- The mark of a short escape is neither a control character nor white space. -/
theorem plain_of_escaped? {mark c : Char} (read : escaped? mark = some c) :
    ¬ mark < ' ' ∧ Text.isBlank mark = false := by
  unfold escaped? at read
  split at read
  case h_9 => cases read
  all_goals decide

/-- The written form of a character holds no control character, and no white space but the
character itself. -/
theorem plain_of_mem_stringChar {c part : Char} (mem : part ∈ stringChar c) :
    ¬ part < ' ' ∧ (Text.isBlank part → part = c) := by
  suffices ¬ part < ' ' ∧ (Text.isBlank part = false ∨ part = c) from
    ⟨this.1, fun blank => this.2.resolve_left (by simp [blank])⟩
  rcases stringChar_cases c with
    ⟨mark, written, read⟩ | ⟨control, written⟩ | ⟨_, _, plain, written⟩
  · rw [written] at mem
    rcases List.mem_cons.1 mem with rfl | mem
    · exact ⟨by decide, .inl rfl⟩
    · rw [List.mem_singleton.1 mem]
      exact (plain_of_escaped? read).imp_right .inl
  · have digits : ∀ code < 32,
        ['\\', 'u', '0', '0', hexDigit (code / 16), hexDigit (code % 16)].any
          (fun part => part < ' ' || Text.isBlank part) = false := by decide
    rw [written] at mem
    have none := List.any_eq_false.1 (digits c.toNat control) part mem
    rw [Bool.not_eq_true, Bool.or_eq_false_iff, decide_eq_false_iff_not] at none
    exact none.imp_right .inl
  · rw [written] at mem
    rw [List.mem_singleton.1 mem]
    exact ⟨plain, .inr rfl⟩

/-- White space that is no control character is written as it is. -/
theorem stringChar_of_isBlank {c : Char} (blank : Text.isBlank c) (plain : ¬ c < ' ') :
    stringChar c = [c] := by
  have other {d : Char} (different : ¬ (Text.isBlank d ∧ ¬ d < ' ')) : c ≠ d := by
    rintro rfl
    exact different ⟨blank, plain⟩
  rw [stringChar, if_neg (other (by decide)), if_neg (other (by decide)),
    if_neg (other (by decide)), if_neg (other (by decide)), if_neg (other (by decide)),
    if_neg (other (by decide)), if_neg (other (by decide)), if_neg plain]

/-- The written form of a string holds no line feed. -/
theorem newline_not_mem_stringLiteral (s : String) : '\n' ∉ (stringLiteral s).toList := by
  rw [toList_stringLiteral]
  intro mem
  rcases List.mem_append.1 mem with mem | mem
  · rcases List.mem_cons.1 mem with quote | mem
    · cases quote
    · obtain ⟨c, _, written⟩ := List.mem_flatMap.1 mem
      exact (plain_of_mem_stringChar written).1 (by decide)
  · cases List.mem_singleton.1 mem

end Interchange.Json
