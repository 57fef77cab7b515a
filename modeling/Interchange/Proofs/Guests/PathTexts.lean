import Interchange.Proofs.Guests.Names
import Interchange.Proofs.Numerals

/-!
# Texts of paths

A path is written as its variable, a dot before each field, and each position in brackets
(`Statements.Path.text`). A position may also have a plus sign, zeros in front and white space
around it (`Statements.Step.Spelled`). These are all the texts that are read as paths
(`Statements.Path.read_eq_ok_iff`), each as the one path that it spells, and every other text is
told what is wrong with it.
-/
namespace Interchange.Statements

/-- A step that a text can spell: a field has a name without dots and opening brackets, and a
position fits an unsigned word. -/
def Step.IsWellFormed : Step → Prop
  | field name => name ≠ [] ∧ ∀ c ∈ name, isNamePart c
  | index position => position < UInt64.size

/-- A path that a text can spell. -/
structure Path.IsWellFormed (path : Path) : Prop where
  /-- It begins at a variable. -/
  name : isIdentifier path.name
  /-- It goes on with steps that can be spelled. -/
  steps : ∀ step ∈ path.steps, step.IsWellFormed

/-- The text of a step. -/
def Step.text : Step → List Char
  | field name => '.' :: name
  | index position => '[' :: (Nat.toDigits 10 position ++ [']'])

/-- The text of a path. -/
def Path.text (path : Path) : List Char := path.name ++ path.steps.flatMap Step.text

/-- The texts between brackets that spell a position: its digits, perhaps with zeros in front, a
plus sign before them, and white space around all of it. -/
inductive Positioned (position : Nat) : List Char → Prop where
  /-- All parts that there may be. -/
  | intro {before plus after : List Char} (zeros : Nat) (blankBefore : ∀ c ∈ before, Text.isBlank c)
      (sign : plus = [] ∨ plus = ['+']) (blankAfter : ∀ c ∈ after, Text.isBlank c) :
      Positioned position
        (before ++ (plus ++ (List.replicate zeros '0' ++ Nat.toDigits 10 position)) ++ after)

/-- The texts that spell a step. -/
inductive Step.Spelled : Step → List Char → Prop where
  /-- A field is spelled in one way. -/
  | field (name : List Char) : Spelled (.field name) ('.' :: name)
  /-- A position may have more around it. -/
  | index {position : Nat} {inner : List Char} (positioned : Positioned position inner) :
      Spelled (.index position) ('[' :: (inner ++ [']']))

/-- The texts that spell steps one after the other. -/
inductive Spelled : List Step → List Char → Prop where
  /-- No step has no text. -/
  | nil : Spelled [] []
  /-- The text of a step stands before those of the others. -/
  | cons {step : Step} {steps : List Step} {text rest : List Char} (first : step.Spelled text)
      (later : Spelled steps rest) : Spelled (step :: steps) (text ++ rest)

/-- The texts that spell a path. -/
def Path.Spelled (path : Path) (text : List Char) : Prop :=
  ∃ rest, text = path.name ++ rest ∧ Statements.Spelled path.steps rest

/-- Digits are taken together if all characters are digits. -/
theorem digitsValue?_eq_some_iff {digits : List Char} {n : Nat} :
    digitsValue? digits = some n ↔
      digits ≠ [] ∧ (∀ c ∈ digits, c.isDigit) ∧ Decimal.digitsValue digits = n := by
  have folded (digits : List Char) (start : Nat) :
      digits.foldlM (fun value c =>
          if c.isDigit then some (10 * value + (c.toNat - '0'.toNat)) else none) start = some n ↔
        (∀ c ∈ digits, c.isDigit) ∧ Nat.ofDigitChars 10 digits start = n := by
    induction digits generalizing start with
    | nil => simp
    | cons c digits ih =>
      by_cases digit : c.isDigit = true
      · rw [List.foldlM_cons, if_pos digit, Option.bind_eq_bind, Option.bind_some, ih,
          Nat.ofDigitChars_cons, List.forall_mem_cons]
        simp [digit]
      · simp [digit]
  cases digits with
  | nil => simp [digitsValue?]
  | cons c digits =>
    rw [digitsValue?, folded (c :: digits) 0]
    · exact (and_iff_right (List.cons_ne_nil c digits)).symm
    · exact List.cons_ne_nil c digits

/-- What the digits of a position come to is the position, with zeros in front. -/
theorem digitsValue?_numeral (zeros position : Nat) :
    digitsValue? (List.replicate zeros '0' ++ Nat.toDigits 10 position) = some position := by
  refine digitsValue?_eq_some_iff.2 ⟨by simp, fun c mem => ?_, ?_⟩
  · rcases List.mem_append.1 mem with zero | digit
    · rw [List.eq_of_mem_replicate zero]
      rfl
    · exact Numerals.isDigit_of_mem_toDigits digit
  · rw [Numerals.digitsValue_zeros, Numerals.digitsValue_toDigits]

/-- Digits that come to a number are its digits, with zeros in front. -/
theorem exists_zeros_of_digitsValue? {digits : List Char} {n : Nat}
    (read : digitsValue? digits = some n) :
    ∃ zeros, digits = List.replicate zeros '0' ++ Nat.toDigits 10 n := by
  obtain ⟨some, each, value⟩ := digitsValue?_eq_some_iff.1 read
  rw [← value]
  exact Numerals.exists_zeros some each

/-- A digit is no white space. -/
theorem isBlank_of_isDigit {c : Char} (digit : c.isDigit) : Text.isBlank c = false := by
  refine isBlank_of_continuesName ?_
  simp [continuesName, Char.isAlphanum, digit]

/-- What a text between brackets spells it is read as, unless that is too large. -/
theorem Positioned.read {position : Nat} {inner : List Char}
    (positioned : Positioned position inner) :
    readPosition? inner = (some position).filter fun n => n < UInt64.size := by
  obtain ⟨zeros, blankBefore, sign, blankAfter⟩ := positioned
  rename_i before plus after
  have digits : ∀ c ∈ List.replicate zeros '0' ++ Nat.toDigits 10 position, c.isDigit :=
    (digitsValue?_eq_some_iff.1 (digitsValue?_numeral zeros position)).2.1
  have trimmed : Text.trim (before ++ (plus ++ (List.replicate zeros '0' ++
      Nat.toDigits 10 position)) ++ after) =
        plus ++ (List.replicate zeros '0' ++ Nat.toDigits 10 position) := by
    rw [Text.trim_append_blanks _ blankAfter, Text.trim_blanks_append blankBefore]
    refine (Text.isTrimmed_of_not_isBlank (List.any_eq_false.2 fun c mem => ?_)).trim_eq
    rw [Bool.not_eq_true]
    rcases List.mem_append.1 mem with mem | mem
    · rcases sign with rfl | rfl
      · cases mem
      · rw [List.mem_singleton.1 mem]
        rfl
    · exact isBlank_of_isDigit (digits c mem)
  rw [← digitsValue?_numeral zeros position, readPosition?, trimmed]
  rcases sign with rfl | rfl
  · rw [List.nil_append]
    split
    · rename_i same
      rw [same] at digits
      exact absurd (digits '+' List.mem_cons_self) (by decide)
    · rfl
  · rfl

/-- What is read as a position spells that position. -/
theorem positioned_of_readPosition? {inner : List Char} {position : Nat}
    (read : readPosition? inner = some position) :
    Positioned position inner ∧ position < UInt64.size := by
  obtain ⟨before, after, whole, blankBefore, blankAfter, _⟩ := Text.exists_trim inner
  obtain ⟨value, small⟩ := Option.filter_eq_some_iff.1 read
  refine ⟨?_, by simpa using small⟩
  rw [whole]
  split at value
  · rename_i rest signed
    obtain ⟨zeros, same⟩ := exists_zeros_of_digitsValue? value
    rw [signed, same, ← List.singleton_append]
    exact .intro zeros blankBefore (.inr rfl) blankAfter
  · obtain ⟨zeros, same⟩ := exists_zeros_of_digitsValue? value
    rw [same, ← List.nil_append (List.replicate zeros '0')]
    exact .intro zeros blankBefore (.inl rfl) blankAfter

/-- What spells a position consists of white space, plus signs and digits. -/
theorem Positioned.parts {position : Nat} {inner : List Char}
    (positioned : Positioned position inner) :
    ∀ c ∈ inner, Text.isBlank c ∨ c = '+' ∨ c.isDigit := by
  obtain ⟨zeros, blankBefore, sign, blankAfter⟩ := positioned
  intro c mem
  simp only [List.mem_append] at mem
  rcases mem with (front | plus | zero | number) | back
  · exact .inl (blankBefore c front)
  · rcases sign with rfl | rfl
    · cases plus
    · exact .inr (.inl (List.mem_singleton.1 plus))
  · rw [List.eq_of_mem_replicate zero]
    exact .inr (.inr rfl)
  · exact .inr (.inr (Numerals.isDigit_of_mem_toDigits number))
  · exact .inl (blankAfter c back)

/-- No closing bracket is in what spells a position. -/
theorem Positioned.bracket_not_mem {position : Nat} {inner : List Char}
    (positioned : Positioned position inner) : ∀ c ∈ inner, (c == ']') = false := by
  intro c mem
  rw [beq_eq_false_iff_ne]
  rintro rfl
  rcases positioned.parts ']' mem with blank | plus | digit
  · cases blank
  · cases plus
  · cases digit

section Reading

variable {rest : List Char}

/-- A name goes up to the next step. -/
theorem cut_of_isNamePart {name : List Char} (parts : ∀ c ∈ name, isNamePart c)
    (ends : ∀ c ∈ rest.head?, isNamePart c = false) :
    (name ++ rest).takeWhile isNamePart = name ∧ (name ++ rest).dropWhile isNamePart = rest := by
  rw [List.takeWhile_append_of_pos parts, List.dropWhile_append_of_pos parts]
  cases rest with
  | nil => simp
  | cons c rest => simp [ends c rfl]

/-- A field goes up to the next step. -/
theorem readSteps_field {name : List Char} (wellFormed : (Step.field name).IsWellFormed)
    (ends : ∀ c ∈ rest.head?, isNamePart c = false) :
    readSteps ('.' :: (name ++ rest)) = (readSteps rest).map (.field name :: ·) := by
  obtain ⟨taken, dropped⟩ := cut_of_isNamePart wellFormed.2 ends
  rw [readSteps, taken, dropped, if_neg wellFormed.1]

/-- What stands between brackets is read as a position, and what follows as further steps. -/
theorem readSteps_index {inner : List Char} (closed : ∀ c ∈ inner, (c == ']') = false) :
    readSteps ('[' :: (inner ++ ']' :: rest)) =
      match readPosition? inner with
      | none => .error .invalidIndex
      | some position => (readSteps rest).map (.index position :: ·) := by
  rw [readSteps]
  have cut := Text.splitFirst?_append closed (beq_self_eq_true ']') rest
  split
  · rename_i none
    cases cut.symm.trans none
  · rename_i found
    obtain ⟨rfl, rfl⟩ := Prod.mk.inj (Option.some.inj (cut.symm.trans found))
    rfl

/-- A position that fits is read as itself. -/
theorem readSteps_positioned {position : Nat} {inner : List Char}
    (positioned : Positioned position inner) (fits : position < UInt64.size) :
    readSteps ('[' :: (inner ++ ']' :: rest)) = (readSteps rest).map (.index position :: ·) := by
  have read : readPosition? inner = some position := by
    rw [positioned.read, Option.filter_some, if_pos (decide_eq_true fits)]
  rw [readSteps_index positioned.bracket_not_mem, read]

/-- A step begins with a dot or an opening bracket. -/
theorem Step.Spelled.head? {step : Step} {text : List Char} (spelled : step.Spelled text) :
    ∀ c ∈ text.head?, isNamePart c = false := by
  intro c first
  cases spelled with
  | field name =>
    obtain rfl := Option.some.inj first
    rfl
  | index positioned =>
    obtain rfl := Option.some.inj first
    rfl

/-- What begins like a step still does so after the text of other steps. -/
theorem Spelled.head? {steps : List Step} {text : List Char} (spelled : Spelled steps text)
    (ends : ∀ c ∈ rest.head?, isNamePart c = false) :
    ∀ c ∈ (text ++ rest).head?, isNamePart c = false := by
  cases spelled with
  | nil => exact ends
  | cons first _ =>
    intro c head
    refine first.head? c ?_
    cases first <;> exact head

/-- What spells steps is read as those steps, and what follows as further ones, if it begins like a
step. -/
theorem Spelled.readSteps_append {steps : List Step} {text : List Char}
    (spelled : Spelled steps text) (wellFormed : ∀ step ∈ steps, step.IsWellFormed)
    (ends : ∀ c ∈ rest.head?, isNamePart c = false) :
    readSteps (text ++ rest) = (readSteps rest).map (steps ++ ·) := by
  induction spelled with
  | nil =>
    rw [List.nil_append]
    cases readSteps rest <;> rfl
  | @cons step steps text more first later ih =>
    obtain ⟨here, others⟩ := List.forall_mem_cons.1 wellFormed
    have goesOn : readSteps (more ++ rest) = (readSteps rest).map (steps ++ ·) := ih others
    cases first with
    | field name =>
      rw [List.append_assoc, List.cons_append, readSteps_field here (later.head? ends), goesOn]
      cases readSteps rest <;> rfl
    | index positioned =>
      rw [List.append_assoc, List.cons_append, List.append_assoc, List.singleton_append,
        readSteps_positioned positioned here, goesOn]
      cases readSteps rest <;> rfl

end Reading

/-- An outcome that is changed is a value if it was one. -/
theorem exists_of_map_ok {ε α β : Type} {outcome : Except ε α} {change : α → β} {result : β}
    (changed : outcome.map change = .ok result) :
    ∃ value, outcome = .ok value ∧ result = change value := by
  cases outcome with
  | ok value => exact ⟨value, rfl, (Except.ok.inj changed).symm⟩
  | error fault => cases changed

/-- What is read as steps spells them. -/
theorem spelled_of_readSteps {text : List Char} {steps : List Step}
    (read : readSteps text = .ok steps) :
    Spelled steps text ∧ ∀ step ∈ steps, step.IsWellFormed := by
  fun_induction readSteps text generalizing steps with
  | case1 =>
    obtain rfl := Except.ok.inj read
    exact ⟨.nil, by simp⟩
  | case2 => cases read
  | case3 =>
    rename_i after name filled ih
    obtain ⟨others, later, rfl⟩ := exists_of_map_ok read
    obtain ⟨spelled, wellFormed⟩ := ih later
    have parts : ∀ c ∈ name, isNamePart c := fun c mem => List.mem_takeWhile_imp mem
    have whole : '.' :: after = ('.' :: name) ++ after.dropWhile isNamePart := by
      rw [List.cons_append, List.takeWhile_append_dropWhile]
    rw [whole]
    exact ⟨.cons (.field name) spelled, List.forall_mem_cons.2 ⟨⟨filled, parts⟩, wellFormed⟩⟩
  | case4 => cases read
  | case5 => cases read
  | case6 after inner next cut _ position found ih =>
    obtain ⟨others, later, rfl⟩ := exists_of_map_ok read
    obtain ⟨spelled, wellFormed⟩ := ih later
    obtain ⟨positioned, fits⟩ := positioned_of_readPosition? found
    obtain ⟨mark, isMark, rfl⟩ := Text.eq_of_splitFirst? cut
    obtain rfl := beq_iff_eq.1 isMark
    have whole : '[' :: (inner ++ ']' :: next) = ('[' :: (inner ++ [']'])) ++ next := by simp
    rw [whole]
    exact ⟨.cons (.index positioned) spelled, List.forall_mem_cons.2 ⟨fits, wellFormed⟩⟩
  | case7 => cases read

/-- What spells a path is read as the path, and what follows as further steps, if it begins like a
step. -/
theorem Path.Spelled.read_append {path : Path} {text rest : List Char} (spelled : path.Spelled text)
    (wellFormed : path.IsWellFormed) (ends : ∀ c ∈ rest.head?, isNamePart c = false) :
    Path.read (text ++ rest) =
      (readSteps rest).map fun more => ⟨path.name, path.steps ++ more⟩ := by
  obtain ⟨after, rfl, steps⟩ := spelled
  have parts : ∀ c ∈ path.name, isNamePart c := fun c mem =>
    isNamePart_of_continuesName (continuesName_of_isIdentifier wellFormed.name c mem)
  obtain ⟨taken, dropped⟩ := cut_of_isNamePart parts (steps.head? ends)
  rw [List.append_assoc, Path.read, taken, dropped, if_pos wellFormed.name,
    steps.readSteps_append wellFormed.steps ends]
  cases readSteps rest <;> rfl

/-- A text is read as a path exactly if it spells it. -/
theorem Path.read_eq_ok_iff {text : List Char} {path : Path} :
    Path.read text = .ok path ↔ path.IsWellFormed ∧ path.Spelled text := by
  constructor
  · intro read
    rw [Path.read] at read
    split at read
    · rename_i name
      obtain ⟨steps, later, rfl⟩ := exists_of_map_ok read
      obtain ⟨spelled, wellFormed⟩ := spelled_of_readSteps later
      exact ⟨⟨name, wellFormed⟩, text.dropWhile isNamePart, List.takeWhile_append_dropWhile.symm,
        spelled⟩
    · cases read
  · rintro ⟨wellFormed, spelled⟩
    have whole : Path.read (text ++ []) = (readSteps []).map fun more =>
        ⟨path.name, path.steps ++ more⟩ := spelled.read_append wellFormed (by simp)
    rw [List.append_nil, readSteps] at whole
    rw [whole]
    exact congrArg (fun steps => Except.ok (Path.mk path.name steps)) (List.append_nil path.steps)

/-- The text of a path spells it. -/
theorem Path.spelled_text (path : Path) : path.Spelled path.text := by
  refine ⟨path.steps.flatMap Step.text, rfl, ?_⟩
  induction path.steps with
  | nil => exact .nil
  | cons step steps ih =>
    rw [List.flatMap_cons]
    refine .cons ?_ ih
    cases step with
    | field name => exact .field name
    | index position =>
      have plain : Positioned position ([] ++ ([] ++ (List.replicate 0 '0' ++
          Nat.toDigits 10 position)) ++ []) := .intro 0 (by simp) (.inl rfl) (by simp)
      rw [List.append_nil] at plain
      exact .index plain

section Faults

variable {path : Path} {before : List Char} (wellFormed : path.IsWellFormed)
  (spelled : path.Spelled before)
include wellFormed spelled

/-- What follows a path and begins with a bracket decides about what is wrong. -/
theorem Path.read_of_bracket_error {rest : List Char} {fault : PathFault}
    (wrong : readSteps ('[' :: rest) = .error fault) :
    Path.read (before ++ '[' :: rest) = .error fault := by
  have begins : ∀ c ∈ ('[' :: rest).head?, isNamePart c = false := by
    intro c head
    obtain rfl := Option.some.inj head
    rfl
  rw [spelled.read_append wellFormed begins, wrong]
  rfl

/-- A position that does not fit an unsigned word is none. -/
theorem Path.read_large {position : Nat} {inner : List Char} (rest : List Char)
    (large : UInt64.size ≤ position) (positioned : Positioned position inner) :
    Path.read (before ++ '[' :: (inner ++ ']' :: rest)) = .error .invalidIndex := by
  refine read_of_bracket_error wellFormed spelled ?_
  have refused : readPosition? inner = none := by
    rw [positioned.read, Option.filter_some, if_neg (by simpa using large)]
  rw [readSteps_index positioned.bracket_not_mem, refused]

/-- A bracket has to be closed. -/
theorem Path.read_unclosed {rest : List Char} (unclosed : ']' ∉ rest) :
    Path.read (before ++ '[' :: rest) = .error .unclosedBracket := by
  refine read_of_bracket_error wellFormed spelled ?_
  have cut : Text.splitFirst? (· == ']') rest = none := by
    cases found : Text.splitFirst? (· == ']') rest with
    | none => rfl
    | some parts =>
      obtain ⟨mark, isMark, rfl⟩ := Text.eq_of_splitFirst? found
      obtain rfl := beq_iff_eq.1 isMark
      exact absurd (by simp) unclosed
  rw [readSteps]
  split
  · rfl
  · rename_i found
    cases cut.symm.trans found

/-- Only another step goes on after a closing bracket. -/
theorem Path.read_unexpected {position : Nat} {inner : List Char} {c : Char} (rest : List Char)
    (fits : position < UInt64.size) (positioned : Positioned position inner)
    (other : isNamePart c) :
    Path.read (before ++ '[' :: (inner ++ ']' :: c :: rest)) = .error .unexpectedCharacter := by
  refine read_of_bracket_error wellFormed spelled ?_
  simp only [isNamePart, Bool.and_eq_true, bne_iff_ne] at other
  have stops : readSteps (c :: rest) = .error .unexpectedCharacter := by
    rw [readSteps]
    · exact fun empty => by cases empty
    · exact fun _ same => other.1 (List.cons.inj same).1
    · exact fun _ same => other.2 (List.cons.inj same).1
  rw [readSteps_positioned positioned fits, stops]
  rfl

end Faults

/-- Paths are read exactly as they are spelled. The text of a path whose variable is a name, whose
fields are neither empty nor have dots or opening brackets in them, and whose positions are below
two to the sixty-fourth, is read as that path. A text is read as a path only if it spells such a
path, and then as that one: its text up to white space, a plus sign and zeros in front inside the
brackets. All other texts are faulty. In particular a position that is too large, a bracket that is
not closed, and anything but a dot or a bracket after a closing bracket are told apart wherever they
occur. -/
theorem Path.read_as_spelled :
    (∀ path : Path, path.IsWellFormed → Path.read path.text = .ok path) ∧
    (∀ (text : List Char) (path : Path),
      Path.read text = .ok path ↔ path.IsWellFormed ∧ path.Spelled text) ∧
    (∀ text : List Char, (∀ path : Path, path.IsWellFormed → ¬ path.Spelled text) →
      ∃ fault, Path.read text = .error fault) ∧
    ∀ (path : Path) (before : List Char), path.IsWellFormed → path.Spelled before →
      (∀ position inner rest, UInt64.size ≤ position → Positioned position inner →
        Path.read (before ++ '[' :: (inner ++ ']' :: rest)) = .error .invalidIndex) ∧
      (∀ rest, ']' ∉ rest → Path.read (before ++ '[' :: rest) = .error .unclosedBracket) ∧
      ∀ position inner c rest, position < UInt64.size → Positioned position inner →
        c ≠ '.' → c ≠ '[' →
        Path.read (before ++ '[' :: (inner ++ ']' :: c :: rest)) = .error .unexpectedCharacter := by
  refine ⟨fun path wellFormed => Path.read_eq_ok_iff.2 ⟨wellFormed, path.spelled_text⟩,
    fun text path => Path.read_eq_ok_iff, fun text none => ?_,
    fun path before wellFormed spelled => ⟨?_, ?_, ?_⟩⟩
  · cases read : Path.read text with
    | error fault => exact ⟨fault, rfl⟩
    | ok path =>
      obtain ⟨wellFormed, spelled⟩ := Path.read_eq_ok_iff.1 read
      exact absurd spelled (none path wellFormed)
  · exact fun position inner rest => Path.read_large wellFormed spelled rest
  · exact fun rest => Path.read_unclosed wellFormed spelled
  · intro position inner c rest fits positioned dot bracket
    exact Path.read_unexpected wellFormed spelled rest fits positioned
      (by simp [isNamePart, dot, bracket])

/-- The path to the labels of a user's third tag. -/
def Path.tagLabel : Path := ⟨"user".toList, [.field "tags".toList, .index 2, .field "label".toList]⟩

/-- The path to a user's tags. -/
def Path.tags : Path := ⟨"user".toList, [.field "tags".toList]⟩

/-- A position may be written in many ways, but it has to fit an unsigned word, and its bracket has
to be closed and to be followed by a step. What begins with a digit is no path. -/
theorem Path.tagLabel_read :
    Path.read "user.tags[2].label".toList = .ok tagLabel ∧
    Path.read "user.tags[ +002\t].label".toList = .ok tagLabel ∧
    Path.read "user.tags[18446744073709551616].label".toList = .error .invalidIndex ∧
    Path.read "user.tags[2".toList = .error .unclosedBracket ∧
    Path.read "user.tags[2]label".toList = .error .unexpectedCharacter ∧
    ∃ fault, Path.read "2fast".toList = .error fault := by
  obtain ⟨texts, spellings, others, wrong⟩ := Path.read_as_spelled
  have field {name : List Char} (filled : name ≠ []) (parts : name.all isNamePart) :
      (Step.field name).IsWellFormed := ⟨filled, List.all_eq_true.1 parts⟩
  have wellFormed : tags.IsWellFormed :=
    ⟨by decide, List.forall_mem_singleton.2 (field (by decide) (by decide))⟩
  have labelled : tagLabel.IsWellFormed :=
    ⟨by decide, List.forall_mem_cons.2 ⟨field (by decide) (by decide),
      List.forall_mem_cons.2 ⟨(by decide : 2 < UInt64.size),
        List.forall_mem_singleton.2 (field (by decide) (by decide))⟩⟩⟩
  have two : Positioned 2 "2".toList :=
    @Positioned.intro 2 [] [] [] 0 (by simp) (.inl rfl) (by simp)
  have padded : Positioned 2 " +002\t".toList :=
    @Positioned.intro 2 [' '] ['+'] ['\t'] 2 (List.all_eq_true.1 rfl) (.inr rfl)
      (List.all_eq_true.1 rfl)
  have large : Positioned UInt64.size "18446744073709551616".toList :=
    @Positioned.intro UInt64.size [] [] [] 0 (by simp) (.inl rfl) (by simp)
  have spelled : tagLabel.Spelled "user.tags[ +002\t].label".toList :=
    ⟨_, rfl, .cons (.field "tags".toList) (.cons (.index padded)
      (.cons (.field "label".toList) .nil))⟩
  obtain ⟨tooLarge, unclosed, unexpected⟩ := wrong tags _ wellFormed tags.spelled_text
  refine ⟨texts tagLabel labelled, (spellings _ _).2 ⟨labelled, spelled⟩,
    tooLarge _ _ ".label".toList (Nat.le_refl _) large, unclosed "2".toList (by decide),
    unexpected 2 _ 'l' "abel".toList (by decide) two (by decide) (by decide),
    others _ fun path wellFormed spelled => ?_⟩
  obtain ⟨c, rest, name, starts⟩ := exists_of_isIdentifier wellFormed.name
  obtain ⟨more, whole, _⟩ := spelled
  rw [name] at whole
  obtain ⟨rfl, _⟩ := List.cons.inj whole
  cases starts

end Interchange.Statements
