import Interchange.Text.Blank

/-!
# Arguments of a call

The text between the parentheses of a call is cut at the commas that stand outside all strings
and brackets. Brackets of every kind count alike, and a closing one without an opening one
counts for nothing.
-/
namespace Interchange.Statements

/-- Where a scan for commas stands. -/
inductive Scan where
  /-- Outside strings, inside a number of brackets. -/
  | code (depth : Nat)
  /-- Inside a string. -/
  | string (depth : Nat)
  /-- Inside a string, after a backslash. -/
  | escape (depth : Nat)
  deriving DecidableEq

/-- Where a scan stands after one more character. -/
def Scan.after (c : Char) : Scan → Scan
  | escape depth => string depth
  | string depth =>
    if c = '\\' then escape depth else if c = '"' then code depth else string depth
  | code depth =>
    if c = '"' then string depth
    else if c = '[' ∨ c = '\x7b' ∨ c = '(' then code (depth + 1)
    else if c = ']' ∨ c = '\x7d' ∨ c = ')' then code (depth - 1)
    else code depth

/-- The pieces of a text between its separating commas, of which there is at least one. The
characters of the first piece so far are given, the last one first. -/
def cutArguments (scan : Scan) (current : List Char) : List Char → List (List Char)
  | [] => [current.reverse]
  | c :: rest =>
    if c = ',' ∧ scan = .code 0 then current.reverse :: cutArguments scan [] rest
    else cutArguments (scan.after c) (c :: current) rest

/-- The arguments in a text, without white space around them. White space alone holds none. -/
def splitArguments (text : List Char) : List (List Char) :=
  match (cutArguments (.code 0) [] text).map Text.trim with
  | [[]] => []
  | arguments => arguments

/-- No piece is longer than the text and what was read before it. -/
theorem length_le_of_mem_cutArguments {scan : Scan} {current text piece : List Char}
    (mem : piece ∈ cutArguments scan current text) :
    piece.length ≤ current.length + text.length := by
  induction text generalizing scan current with
  | nil =>
    simp only [cutArguments, List.mem_singleton] at mem
    simp [mem]
  | cons c rest ih =>
    rw [cutArguments] at mem
    split at mem
    · rcases List.mem_cons.1 mem with rfl | mem
      · simp
      · have shorter := ih mem
        simp only [List.length_nil, List.length_cons] at shorter ⊢
        omega
    · have shorter := ih mem
      simp only [List.length_cons] at shorter ⊢
      omega

/-- No argument is longer than the text. -/
theorem length_le_of_mem_splitArguments {text argument : List Char}
    (mem : argument ∈ splitArguments text) : argument.length ≤ text.length := by
  have cut : argument ∈ (cutArguments (.code 0) [] text).map Text.trim := by
    unfold splitArguments at mem
    split at mem
    · simp at mem
    · exact mem
  obtain ⟨piece, inPieces, rfl⟩ := List.mem_map.1 cut
  have shorter := length_le_of_mem_cutArguments inPieces
  have trimmed := Text.length_trim_le piece
  simp only [List.length_nil] at shorter
  omega

end Interchange.Statements
