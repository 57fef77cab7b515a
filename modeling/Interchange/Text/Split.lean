/-!
# Cutting texts apart

Cuts at single characters and after leading words. The cut characters belong to neither side.
-/
namespace Interchange.Text

/-- The text before the first character of a class and the text after that character; `none`
if no character of the class occurs. -/
def splitFirst? (isMark : Char → Bool) : List Char → Option (List Char × List Char)
  | [] => none
  | c :: rest =>
    if isMark c then some ([], rest)
    else (splitFirst? isMark rest).map fun (before, after) => (c :: before, after)

/-- The pieces of a text between the occurrences of a character; next to each other, two of them
have an empty piece between them. -/
def splitAll (mark : Char) : List Char → List (List Char)
  | [] => [[]]
  | c :: rest =>
    if c = mark then [] :: splitAll mark rest
    else match splitAll mark rest with
      | [] => [[c]]
      | piece :: more => (c :: piece) :: more

/-- The rest of a text after a leading word, if the text begins with it. -/
def after? : List Char → List Char → Option (List Char)
  | [], text => some text
  | c :: word, d :: text => if c = d then after? word text else none
  | _ :: _, [] => none

/-- A cut text is what stood before the mark, the mark, and what stood after it. -/
theorem eq_of_splitFirst? {isMark : Char → Bool} {text before after : List Char}
    (cut : splitFirst? isMark text = some (before, after)) :
    ∃ mark, isMark mark ∧ text = before ++ mark :: after := by
  induction text generalizing before with
  | nil => simp [splitFirst?] at cut
  | cons c rest ih =>
    by_cases marked : isMark c
    · simp only [splitFirst?, marked, if_true, Option.some.injEq, Prod.mk.injEq] at cut
      exact ⟨c, marked, by simp [← cut.1, ← cut.2]⟩
    · simp only [splitFirst?, marked, Bool.false_eq_true, if_false, Option.map_eq_some_iff,
        Prod.mk.injEq] at cut
      obtain ⟨⟨first, second⟩, found, rfl, rfl⟩ := cut
      obtain ⟨mark, isMark, rfl⟩ := ih found
      exact ⟨mark, isMark, rfl⟩

/-- What is left after a leading word is the text without that word. -/
theorem eq_of_after? {word text rest : List Char} (found : after? word text = some rest) :
    text = word ++ rest := by
  induction word generalizing text with
  | nil => simpa [after?] using found
  | cons c word ih =>
    cases text with
    | nil => simp [after?] at found
    | cons d text =>
      by_cases same : c = d
      · simp only [after?, same, if_true] at found
        rw [ih found, same, List.cons_append]
      · simp [after?, same] at found

/-- A text without the character is one piece. -/
theorem splitAll_of_not_mem {mark : Char} {text : List Char} (absent : mark ∉ text) :
    splitAll mark text = [text] := by
  induction text with
  | nil => rfl
  | cons c rest ih =>
    rw [List.mem_cons, not_or] at absent
    simp [splitAll, ih absent.2, Ne.symm absent.1]

end Interchange.Text
