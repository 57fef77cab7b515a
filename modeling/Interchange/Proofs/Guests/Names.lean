import Interchange.Proofs.Text
import Interchange.Statements.Statement

/-!
# Variable names as expressions

A variable name stands for itself wherever it is read: as the name that a statement binds, as an
expression (`Expression.read_of_isIdentifier`) and as a name to be exported
(`Statement.read_export`). No keyword, no quote, no step of a path and no white space can be read
into it. Three names are read as literals, though, although a statement can bind them.
-/
namespace Interchange

/-- What is read as a string begins with a quote. -/
theorem Json.quote_of_readFront? {depth : Nat} {text rest : List Char} {s : String}
    (read : readFront? depth text = some (string s, rest)) :
    ∃ more, skipSpace text = '"' :: more := by
  unfold readFront? at read
  split at read
  case h_4 more quoted => exact ⟨more, quoted⟩
  case h_6 =>
    -- An array.
    split at read
    · simp at read
    · split at read <;> simp at read
  case h_7 =>
    -- An object.
    split at read
    · simp at read
    · split at read <;> simp at read
  all_goals simp at read

namespace Statements

/-- The codes of letters. -/
theorem toNat_of_isAlpha {c : Char} (letter : c.isAlpha) :
    65 ≤ c.toNat ∧ c.toNat ≤ 90 ∨ 97 ≤ c.toNat ∧ c.toNat ≤ 122 := by
  have codes : c.isAlpha = (decide (c.val ≥ 'A'.val ∧ c.val ≤ 'Z'.val) ||
      (decide (c.val ≥ 'a'.val) && decide (c.val ≤ 'z'.val))) := rfl
  rw [codes, Bool.or_eq_true, Bool.and_eq_true, decide_eq_true_eq, decide_eq_true_eq,
    decide_eq_true_eq] at letter
  exact letter

/-- The codes of digits. -/
theorem toNat_of_isDigit {c : Char} (digit : c.isDigit) : 48 ≤ c.toNat ∧ c.toNat ≤ 57 := by
  have codes : c.isDigit = (decide (c.val ≥ '0'.val) && decide (c.val ≤ '9'.val)) := rfl
  rw [codes, Bool.and_eq_true, decide_eq_true_eq, decide_eq_true_eq] at digit
  exact digit

/-- What a variable name goes on with is no white space. -/
theorem isBlank_of_continuesName {c : Char} (part : continuesName c) : Text.isBlank c = false := by
  rw [Bool.eq_false_iff]
  intro blank
  have code : c.toNat = 45 ∨ 48 ≤ c.toNat ∧ c.toNat ≤ 122 := by
    simp only [continuesName, Char.isAlphanum, Bool.or_eq_true, beq_iff_eq] at part
    rcases part with ((letter | digit) | rfl) | rfl
    · have range := toNat_of_isAlpha letter
      omega
    · have range := toNat_of_isDigit digit
      omega
    · decide
    · decide
  simp only [Text.isBlank, Bool.or_eq_true, Bool.and_eq_true, decide_eq_true_eq,
    beq_iff_eq] at blank
  omega

/-- What a variable name goes on with begins no step of a path. -/
theorem isNamePart_of_continuesName {c : Char} (part : continuesName c) : isNamePart c := by
  simp only [isNamePart, Bool.and_eq_true, bne_iff_ne]
  constructor
  · rintro rfl
    exact absurd part (by decide)
  · rintro rfl
    exact absurd part (by decide)

/-- What a variable name begins with it can go on with. -/
theorem continuesName_of_startsName {c : Char} (starts : startsName c) : continuesName c := by
  simp only [startsName, continuesName, Char.isAlphanum, Bool.or_eq_true] at starts ⊢
  rcases starts with letter | underscore
  · exact .inl (.inl (.inl letter))
  · exact .inl (.inr underscore)

/-- What follows `export` is read without white space around it. -/
theorem Statement.read_export_eq (text : List Char) :
    Statement.read ("export ".toList ++ text) = readExport (Text.trim text) := by
  have cut : Text.splitFirst? Text.isBlank ("export ".toList ++ text) =
      some ("export".toList, text) := rfl
  rw [Statement.read, splitWord, cut]
  rfl

/-- A text that begins neither like an import nor like a call is a path or data. -/
theorem Expression.read_of_plain {text : List Char} (some : Text.trim text ≠ [])
    (imports : Text.after? "import ".toList (Text.trim text) = none)
    (calls : Text.after? "call ".toList (Text.trim text) = none) :
    Expression.read text = readPlain (Text.trim text) := by
  rw [Expression.read, if_neg some]
  split
  · rename_i read
    cases imports.symm.trans read
  · split
    · rfl
    · rename_i read
      cases calls.symm.trans read

section Identifiers

variable {text : List Char} (name : isIdentifier text)
include name

/-- A variable name begins with a character that it can begin with. -/
theorem exists_of_isIdentifier : ∃ c rest, text = c :: rest ∧ startsName c := by
  cases text with
  | nil => cases name
  | cons c rest =>
    simp only [isIdentifier, Bool.and_eq_true] at name
    exact ⟨c, rest, rfl, name.1⟩

/-- All characters of a variable name are such as it can go on with. -/
theorem continuesName_of_isIdentifier : ∀ c ∈ text, continuesName c := by
  obtain ⟨c, rest, rfl, starts⟩ := exists_of_isIdentifier name
  simp only [isIdentifier, Bool.and_eq_true, List.all_eq_true] at name
  exact List.forall_mem_cons.2 ⟨continuesName_of_startsName starts, name.2⟩

/-- A variable name has no white space at its ends. -/
theorem trim_of_isIdentifier : Text.trim text = text :=
  (Text.isTrimmed_of_not_isBlank (List.any_eq_false.2 fun c mem => Bool.eq_false_iff.1
    (isBlank_of_continuesName (continuesName_of_isIdentifier name c mem)))).trim_eq

/-- No white space splits a variable name. -/
theorem splitFirst?_of_isIdentifier : Text.splitFirst? Text.isBlank text = none := by
  cases found : Text.splitFirst? Text.isBlank text with
  | none => rfl
  | some cut =>
    obtain ⟨mark, blank, same⟩ := Text.eq_of_splitFirst? found
    have part := continuesName_of_isIdentifier name mark (by simp [same])
    rw [isBlank_of_continuesName part] at blank
    cases blank

omit name in
/-- A path begins with the name of its variable. -/
theorem name_of_read {path : Path} (read : Path.read text = .ok path) :
    path.name = text.takeWhile isNamePart ∧ isIdentifier (text.takeWhile isNamePart) := by
  rw [Path.read] at read
  split at read
  · rename_i identifier
    cases steps : readSteps (text.dropWhile isNamePart) with
    | ok steps =>
      rw [steps] at read
      exact ⟨congrArg Path.name (Except.ok.inj read).symm, identifier⟩
    | error fault =>
      rw [steps] at read
      cases read
  · cases read

omit name in
/-- A path does not begin with a word and a space. -/
theorem after?_of_path {path : Path} (read : Path.read text = .ok path) {word : List Char}
    (parts : ∀ c ∈ word, isNamePart c) (space : ' ' ∈ word) : Text.after? word text = none := by
  cases found : Text.after? word text with
  | none => rfl
  | some rest =>
    have mem : ' ' ∈ text.takeWhile isNamePart := by
      rw [Text.eq_of_after? found, List.takeWhile_append_of_pos parts]
      exact List.mem_append_left _ space
    have identifier := (name_of_read read).2
    exact absurd (continuesName_of_isIdentifier identifier _ mem) (by decide)

omit name in
/-- As an expression a path is followed, unless it is a literal. -/
theorem Expression.read_of_path {path : Path} (read : Path.read text = .ok path)
    (trimmed : Text.trim text = text) (plain : isLiteralWord text = false) :
    Expression.read text = .path path := by
  obtain ⟨c, rest, front, starts⟩ := exists_of_isIdentifier (name_of_read read).2
  have begins : text.head? = some c := by
    cases text with
    | nil => cases front
    | cons d text =>
      rw [List.takeWhile_cons] at front
      split at front
      · rw [(List.cons.inj front).1, List.head?_cons]
      · cases front
  have some : Text.trim text ≠ [] := by
    rw [trimmed]
    rintro rfl
    cases begins
  have imports : Text.after? "import ".toList text = none :=
    after?_of_path read (List.all_eq_true.1 rfl) (by decide)
  have calls : Text.after? "call ".toList text = none :=
    after?_of_path read (List.all_eq_true.1 rfl) (by decide)
  rw [read_of_plain some (by rw [trimmed, imports]) (by rw [trimmed, calls]), trimmed, readPlain,
    begins, Option.any_some, starts, plain, read]
  rfl

/-- A variable name is no string. -/
theorem unquote_of_isIdentifier : unquote text = String.ofList text := by
  have text? : Json.readText? text = none := by
    obtain ⟨c, rest, rfl, starts⟩ := exists_of_isIdentifier name
    have bare : Json.isSpace c = false := by
      rw [Bool.eq_false_iff]
      intro space
      simp only [Json.isSpace, Bool.or_eq_true, beq_iff_eq] at space
      rcases space with ((rfl | rfl) | rfl) | rfl <;> exact absurd starts (by decide)
    unfold Json.readText? Json.read?
    cases front : Json.readFront? Json.depthLimit (c :: rest) with
    | none => rfl
    | some ended =>
      obtain ⟨document, after⟩ := ended
      cases document with
      | string s =>
        obtain ⟨more, quoted⟩ := Json.quote_of_readFront? front
        rw [Json.skipSpace, List.dropWhile_cons, bare] at quoted
        obtain ⟨rfl, _⟩ := List.cons.inj quoted
        exact absurd starts (by decide)
      | _ =>
        dsimp only
        split <;> simp_all
  rw [unquote, text?, Option.getD_none]

/-- A variable name is a path without steps. -/
theorem Path.read_of_isIdentifier : Path.read text = .ok ⟨text, []⟩ := by
  have parts : ∀ c ∈ text, isNamePart c := fun c mem =>
    isNamePart_of_continuesName (continuesName_of_isIdentifier name c mem)
  have taken : text.takeWhile isNamePart = text := List.takeWhile_eq_self_iff.2 parts
  have dropped : text.dropWhile isNamePart = [] := List.dropWhile_eq_nil_iff.2 parts
  simp only [Path.read, taken, dropped, name, if_true, readSteps]
  rfl

/-- As an expression a variable name is the variable, unless it is a literal. -/
theorem Expression.read_of_isIdentifier (plain : isLiteralWord text = false) :
    Expression.read text = .path ⟨text, []⟩ :=
  Expression.read_of_path (Path.read_of_isIdentifier name) (trim_of_isIdentifier name) plain

/-- To export a bare name is to export it as an expression, under itself. -/
theorem Statement.read_export :
    Statement.read ("export ".toList ++ text) =
      .publish (String.ofList text) (Expression.read text) := by
  have trimmed := trim_of_isIdentifier name
  have alone : splitWord text = (text, []) := by
    rw [splitWord, splitFirst?_of_isIdentifier name]
  have named := unquote_of_isIdentifier name
  have full : (String.ofList text).isEmpty = false := by
    obtain ⟨c, rest, rfl, _⟩ := exists_of_isIdentifier name
    rw [Bool.eq_false_iff]
    intro empty
    have none := congrArg String.toList (String.isEmpty_iff.1 empty)
    rw [String.toList_ofList] at none
    cases none
  rw [read_export_eq, trimmed, readExport, alone]
  dsimp only
  rw [named, full, String.toList_ofList]
  rfl

end Identifiers

/-- What a statement binds is a variable name. -/
theorem Statement.isIdentifier_of_read {text : List Char} {name : String} {source : Expression}
    (reads : Statement.read text = .bindLocal name source) : isIdentifier name.toList := by
  unfold Statement.read at reads
  dsimp only at reads
  split at reads
  · unfold readBinding at reads
    split at reads
    · cases reads
    · split at reads
      · rename_i identifier
        cases reads
        rw [String.toList_ofList]
        exact identifier
      · cases reads
  · unfold readExport at reads
    dsimp only at reads
    split at reads <;> cases reads
  · unfold readEval at reads
    split at reads <;> cases reads
  · cases reads
  · unfold readAssignment at reads
    split at reads
    · cases reads
    · split at reads <;> cases reads
  · cases reads

end Statements

end Interchange
