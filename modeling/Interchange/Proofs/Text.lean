import Interchange.Text.Blank
import Interchange.Text.Lines
import Interchange.Text.Split
import Mathlib.Data.List.TakeWhile

/-!
# Cutting texts

What is left of a text without the white space at its ends, and what the cuts of a text give if
the place of the cut is known. A text that begins and ends with other characters is left as it is
(`Text.IsTrimmed`), whatever stands between them.
-/
namespace Interchange.Text

/-- The text neither begins nor ends with white space. -/
def IsTrimmed (text : List Char) : Prop :=
  (∀ c ∈ text.head?, isBlank c = false) ∧ ∀ c ∈ text.getLast?, isBlank c = false

instance (text : List Char) : Decidable (IsTrimmed text) :=
  decidable_of_iff (text.head?.all (!isBlank ·) ∧ text.getLast?.all (!isBlank ·))
    (by simp [IsTrimmed, Option.all_eq_true])

/-- Where the first character stays, nothing is dropped. -/
theorem dropWhile_of_head? {text : List Char} (bare : ∀ c ∈ text.head?, isBlank c = false) :
    text.dropWhile isBlank = text := by
  cases text with
  | nil => rfl
  | cons c rest => rw [List.dropWhile_cons, bare c rfl, if_neg Bool.false_ne_true]

/-- A text that neither begins nor ends with white space is left as it is. -/
theorem IsTrimmed.trim_eq {text : List Char} (trimmed : IsTrimmed text) : trim text = text := by
  have last : ∀ c ∈ text.reverse.head?, isBlank c = false := by
    rw [List.head?_reverse]
    exact trimmed.2
  rw [trim, trimStart, dropWhile_of_head? trimmed.1, trimEnd, dropWhile_of_head? last,
    List.reverse_reverse]

/-- A text without white space is trimmed. -/
theorem isTrimmed_of_not_isBlank {text : List Char} (bare : text.any isBlank = false) :
    IsTrimmed text := by
  have each : ∀ c ∈ text, isBlank c = false := fun c mem =>
    Bool.eq_false_iff.2 (List.any_eq_false.1 bare c mem)
  exact ⟨fun c first => each c (List.mem_of_mem_head? first),
    fun c last => each c (List.mem_of_mem_getLast? last)⟩

/-- A text that begins like one trimmed text and ends like another is trimmed. -/
theorem IsTrimmed.append {first last : List Char} (begins : IsTrimmed first)
    (ends : IsTrimmed last) (front : first ≠ []) (back : last ≠ []) (between : List Char) :
    IsTrimmed (first ++ between ++ last) := by
  constructor
  · obtain ⟨c, rest, rfl⟩ := List.exists_cons_of_ne_nil front
    exact begins.1
  · have ended := List.getLast?_eq_some_getLast back
    rw [List.getLast?_append, ended, Option.some_or, ← ended]
    exact ends.2

/-- White space in front of a text is cut off. -/
theorem trim_blanks_append {blanks : List Char} (blank : ∀ c ∈ blanks, isBlank c)
    (text : List Char) : trim (blanks ++ text) = trim text := by
  rw [trim, trimStart, List.dropWhile_append_of_pos blank, trim, trimStart]

/-- White space at the end of a text is cut off. -/
theorem trimEnd_append_blanks (text : List Char) {blanks : List Char}
    (blank : ∀ c ∈ blanks, isBlank c) : trimEnd (text ++ blanks) = trimEnd text := by
  have turned : ∀ c ∈ blanks.reverse, isBlank c := fun c mem => blank c (List.mem_reverse.1 mem)
  rw [trimEnd, List.reverse_append, List.dropWhile_append_of_pos turned, trimEnd]

/-- White space at the end of a text is cut off, also if nothing else is there. -/
theorem trim_append_blanks (text : List Char) {blanks : List Char}
    (blank : ∀ c ∈ blanks, isBlank c) : trim (text ++ blanks) = trim text := by
  rw [trim, trimStart, List.dropWhile_append]
  split
  · rename_i empty
    rw [List.dropWhile_eq_nil_iff.2 blank, trim, trimStart, List.isEmpty_iff.1 empty]
  · exact trimEnd_append_blanks _ blank

/-- What is left after dropping white space does not begin with any. -/
theorem head?_dropWhile (text : List Char) :
    ∀ c ∈ (text.dropWhile isBlank).head?, isBlank c = false := by
  intro c first
  have kept := List.head?_dropWhile_not isBlank text
  rw [Option.mem_def.1 first] at kept
  simpa using kept

/-- A text is what is left of it with white space on both sides. -/
theorem exists_trim (text : List Char) :
    ∃ before after, text = before ++ trim text ++ after ∧ (∀ c ∈ before, isBlank c) ∧
      (∀ c ∈ after, isBlank c) ∧ IsTrimmed (trim text) := by
  have front := List.takeWhile_append_dropWhile (p := isBlank) (l := text)
  have back := List.takeWhile_append_dropWhile (p := isBlank) (l := (trimStart text).reverse)
  have whole : trimStart text =
      trim text ++ ((trimStart text).reverse.takeWhile isBlank).reverse := by
    rw [trim, trimEnd, ← List.reverse_append, back, List.reverse_reverse]
  refine ⟨text.takeWhile isBlank, ((trimStart text).reverse.takeWhile isBlank).reverse, ?_,
    fun c mem => List.mem_takeWhile_imp mem,
    fun c mem => List.mem_takeWhile_imp (List.mem_reverse.1 mem), fun c first => ?_, ?_⟩
  · rw [List.append_assoc, ← whole, trimStart, front]
  · refine head?_dropWhile text c ?_
    have same : (trimStart text).head? = some c := by
      rw [whole, List.head?_append, Option.mem_def.1 first, Option.some_or]
    exact same
  · rw [trim, trimEnd, List.getLast?_reverse]
    exact head?_dropWhile _

/-- Of a text with a character that is no white space something is left. -/
theorem trim_ne_nil {text : List Char} {c : Char} (mem : c ∈ text) (bare : isBlank c = false) :
    trim text ≠ [] := by
  intro empty
  obtain ⟨before, after, whole, blankBefore, blankAfter, _⟩ := exists_trim text
  rw [whole, empty, List.append_nil] at mem
  have blank := (List.mem_append.1 mem).elim (blankBefore c) (blankAfter c)
  rw [bare] at blank
  cases blank

/-- A text is cut at its first mark. -/
theorem splitFirst?_append {isMark : Char → Bool} {before : List Char} {mark : Char}
    (none : ∀ c ∈ before, isMark c = false) (marked : isMark mark) (after : List Char) :
    splitFirst? isMark (before ++ mark :: after) = some (before, after) := by
  induction before with
  | nil => simp [splitFirst?, marked]
  | cons c rest ih =>
    obtain ⟨first, later⟩ := List.forall_mem_cons.1 none
    simp [splitFirst?, first, ih later]

/-- A text without a line feed goes on with the line that it is in, and ends it. -/
theorem linesFrom_of_not_mem {current text : List Char} (some : current ≠ [] ∨ text ≠ [])
    (oneLine : '\n' ∉ text) : linesFrom current text = [current.reverse ++ text] := by
  induction text generalizing current with
  | nil =>
    have begun := some.resolve_right fun different => different rfl
    rw [linesFrom, List.isEmpty_eq_false_iff.2 begun, if_neg Bool.false_ne_true, List.append_nil]
  | cons c rest ih =>
    rw [List.mem_cons, not_or] at oneLine
    rw [linesFrom, if_neg (Ne.symm oneLine.1), ih (.inl (List.cons_ne_nil c current)) oneLine.2,
      List.reverse_cons, List.append_assoc, List.singleton_append]

/-- A text without a line feed is one line, unless it is empty. -/
theorem lines_of_not_mem {text : List Char} (some : text ≠ []) (oneLine : '\n' ∉ text) :
    lines text = [text] :=
  linesFrom_of_not_mem (.inr some) oneLine

end Interchange.Text
