import Interchange.Proofs.Guests.PathTexts
import Interchange.Proofs.Json.Numbers
import Interchange.Statements.Arguments

/-!
# Scanning for separating commas

A scan that goes over a piece of an expression cuts nothing on its way, and stands outside strings
and inside as many brackets afterwards as before (`Statements.Scan.Passes`). This is so for JSON
documents, whatever is in their strings (`Statements.Scan.passes_of_read?`), and for paths whose
fields hold no comma, quote or bracket (`Statements.Scan.passes_of_path`).
-/
namespace Interchange.Statements

/-- The comma, the quote and the brackets. -/
def active : List Char := [',', '"', '[', ']', '\x7b', '\x7d', '(', ')']

/-- Neither a comma nor a quote nor a bracket. -/
def isInert (c : Char) : Bool := !active.contains c

variable {c d : Char}

/-- A character is none of those that are not inert. -/
theorem ne_of_isInert (inert : isInert c) (other : isInert d = false) : c ≠ d := by
  rintro rfl
  rw [inert] at other
  cases other

/-- The characters of a class without commas, quotes and brackets are inert. -/
theorem isInert_of_class {kind : Char → Bool} (apart : active.any kind = false) (holds : kind c) :
    isInert c := by
  rw [isInert, Bool.not_eq_true', List.contains_eq_mem, decide_eq_false_iff_not]
  exact fun mem => List.any_eq_false.1 apart c mem holds

/-- The characters of numbers are inert. -/
theorem isInert_of_isNumeric (numeric : Json.isNumeric c) : isInert c :=
  isInert_of_class (by decide) numeric

/-- White space is inert. -/
theorem isInert_of_isBlank (blank : Text.isBlank c) : isInert c :=
  isInert_of_class (by decide) blank

/-- What a variable name goes on with is inert. -/
theorem isInert_of_continuesName (continues : continuesName c) : isInert c :=
  isInert_of_class (by decide) continues

/-- No comma, quote or bracket is in the name of a field. -/
def Step.IsInert : Step → Prop
  | field name => ∀ c ∈ name, isInert c
  | index _ => True

/-- No comma, quote or bracket is in the fields of a path. -/
def Path.IsInert (path : Path) : Prop := ∀ step ∈ path.steps, step.IsInert

namespace Scan

/-- The scan goes over a text without a cut, and then stands where another one does. -/
def Passes (scan : Scan) (text : List Char) (last : Scan) : Prop :=
  ∀ current rest, cutArguments scan current (text ++ rest) =
    cutArguments last (text.reverse ++ current) rest

variable {scan middle last : Scan} {text more rest : List Char} {depth : Nat}

/-- Over nothing the scan stays where it stands. -/
theorem Passes.nil : Passes scan [] scan := fun _ _ => rfl

/-- Over one character that is no separating comma. -/
theorem Passes.single (scan : Scan) (c : Char) (spares : ¬ (c = ',' ∧ scan = .code 0)) :
    Passes scan [c] (scan.after c) := by
  intro current rest
  rw [List.singleton_append, cutArguments, if_neg spares]
  rfl

/-- Over one text and then over another. -/
theorem Passes.append (first : Passes scan text middle) (second : Passes middle more last) :
    Passes scan (text ++ more) last := by
  intro current rest
  rw [List.append_assoc, first, second, List.reverse_append, List.append_assoc]

/-- An inert character leaves a scan outside strings where it stands. -/
theorem passes_of_isInert (inert : ∀ c ∈ text, isInert c) :
    Passes (.code depth) text (.code depth) := by
  induction text with
  | nil => exact .nil
  | cons c text ih =>
    obtain ⟨here, others⟩ := List.forall_mem_cons.1 inert
    have other {d : Char} (active : isInert d = false) : c ≠ d := ne_of_isInert here active
    have stays : (code depth).after c = code depth := by
      simp only [after, other (d := '"') rfl, other (d := '[') rfl, other (d := ']') rfl,
        other (d := '\x7b') rfl, other (d := '\x7d') rfl, other (d := '(') rfl,
        other (d := ')') rfl, or_self, if_false]
    have single : Passes (.code depth) [c] (.code depth) := by
      have step := Passes.single (code depth) c fun cuts => other rfl cuts.1
      rwa [stays] at step
    exact single.append (ih others)

/-- What encloses a text counts while the scan goes over it, and no longer. -/
theorem Passes.enclosed {opening closing : Char}
    (opens : (code depth).after opening = code (depth + 1))
    (closes : (code (depth + 1)).after closing = code depth) (noComma : opening ≠ ',')
    (inside : Passes (.code (depth + 1)) text (.code (depth + 1))) :
    Passes (.code depth) (opening :: (text ++ [closing])) (.code depth) := by
  have before : Passes (.code depth) [opening] (.code (depth + 1)) := by
    have step := Passes.single (code depth) opening fun cuts => noComma cuts.1
    rwa [opens] at step
  have behind : Passes (.code (depth + 1)) [closing] (.code depth) := by
    have step := Passes.single (code (depth + 1)) closing fun cuts => by cases cuts.2
    rwa [closes] at step
  exact before.append (inside.append behind)

/-- The scan goes over the front of a text and leaves the rest. -/
def Covers (scan : Scan) (text : List Char) (last : Scan) (rest : List Char) : Prop :=
  ∃ used, text = used ++ rest ∧ Passes scan used last

/-- Nothing is gone over. -/
theorem Covers.refl (scan : Scan) (text : List Char) : Covers scan text scan text := ⟨[], rfl, .nil⟩

/-- One part after the other is gone over. -/
theorem Covers.trans {left : List Char} (first : Covers scan text middle left)
    (second : Covers middle left last rest) : Covers scan text last rest := by
  obtain ⟨used, rfl, covered⟩ := first
  obtain ⟨more, rfl, further⟩ := second
  exact ⟨used ++ more, (List.append_assoc ..).symm, covered.append further⟩

/-- Some characters in front are gone over first. -/
theorem Covers.behind (first : Passes scan more middle) (second : Covers middle text last rest) :
    Covers scan (more ++ text) last rest :=
  Covers.trans ⟨more, rfl, first⟩ second

/-- One character in front is gone over first. -/
theorem Covers.cons (spares : ¬ (c = ',' ∧ scan = .code 0))
    (further : Covers (scan.after c) text last rest) : Covers scan (c :: text) last rest :=
  Covers.behind (Passes.single scan c spares) further

section Strings

/-- The digits of a code are neither quotes nor backslashes. -/
theorem plain_of_codeUnit? {a b c d : Char} {unit : Nat}
    (read : Json.codeUnit? a b c d = some unit) : ∀ x ∈ [a, b, c, d], x ≠ '"' ∧ x ≠ '\\' := by
  have plain {x : Char} {value : Nat} (digit : Decimal.hexDigit? x = some value) :
      x ≠ '"' ∧ x ≠ '\\' := by
    constructor
    · rintro rfl
      cases digit
    · rintro rfl
      cases digit
  simp only [Json.codeUnit?, Decimal.hexValue?, List.foldlM_cons, List.foldlM_nil,
    Option.bind_eq_bind, Option.pure_def, Option.bind_eq_some_iff, Option.map_eq_some_iff] at read
  obtain ⟨_, ⟨_, first, _⟩, _, ⟨_, second, _⟩, _, ⟨_, third, _⟩, _, ⟨_, fourth, _⟩, _⟩ := read
  simp only [List.forall_mem_cons, List.not_mem_nil, false_imp_iff, implies_true, and_true]
  exact ⟨plain first, plain second, plain third, plain fourth⟩

/-- A character that does nothing in a string is gone over. -/
theorem passes_string (quote : c ≠ '"') (backslash : c ≠ '\\') :
    Passes (.string depth) [c] (.string depth) := by
  have step := Passes.single (string depth) c fun cuts => by cases cuts.2
  rwa [after, if_neg backslash, if_neg quote] at step

/-- The character after a backslash does nothing. -/
theorem passes_escape (depth : Nat) (mark : Char) :
    Passes (.string depth) ['\\', mark] (.string depth) := by
  have first := Passes.single (string depth) '\\' fun cuts => by cases cuts.2
  have second := Passes.single (escape depth) mark fun cuts => by cases cuts.2
  exact first.append second

/-- The digits of a code do nothing. -/
theorem passes_codeUnit {a b c d : Char} {unit : Nat} (depth : Nat)
    (read : Json.codeUnit? a b c d = some unit) :
    Passes (.string depth) ['\\', 'u', a, b, c, d] (.string depth) := by
  have plain := plain_of_codeUnit? read
  simp only [List.forall_mem_cons, List.not_mem_nil, false_imp_iff, implies_true, and_true] at plain
  obtain ⟨first, second, third, fourth⟩ := plain
  exact (passes_escape depth 'u').append ((passes_string first.1 first.2).append
    ((passes_string second.1 second.2).append ((passes_string third.1 third.2).append
      (passes_string fourth.1 fourth.2))))

/-- What is left of a text stays, however what was read of it is changed. -/
theorem exists_of_map_read {α β : Type} {read : Option (α × List Char)}
    {change : α × List Char → β × List Char} {changed : β}
    (found : read.map change = some (changed, rest))
    (keeps : ∀ given, (change given).2 = given.2) : ∃ given, read = some (given, rest) := by
  obtain ⟨⟨given, left⟩, same, given_eq⟩ := Option.map_eq_some_iff.1 found
  have left_eq : left = rest := (keeps (given, left)).symm.trans (congrArg Prod.snd given_eq)
  exact ⟨given, left_eq ▸ same⟩

/-- A string is gone over up to its closing quote. -/
theorem covers_of_readString? {chars : List Char} (depth : Nat)
    (read : Json.readString? text = some (chars, rest)) :
    Covers (.string depth) text (.code depth) rest := by
  fun_induction Json.readString? text generalizing chars rest with
  | case1 => cases read
  | case2 =>
    obtain ⟨_, rfl⟩ := Prod.mk.inj (Option.some.inj read)
    exact Covers.cons (fun cuts => by cases cuts.2) (.refl ..)
  | case3 => cases read
  | case4 => cases read
  | case5 a b c d _ high _ e f g h rest _ low _ ih =>
    -- A surrogate pair is two codes.
    obtain ⟨inner, found⟩ := exists_of_map_read read fun _ => rfl
    exact Covers.behind (passes_codeUnit depth high)
      (Covers.behind (passes_codeUnit depth low) (ih found))
  | case6 => cases read
  | case7 => cases read
  | case8 => cases read
  | case9 a b c d rest _ unit _ _ ih =>
    obtain ⟨inner, found⟩ := exists_of_map_read read fun _ => rfl
    exact Covers.behind (passes_codeUnit depth unit) (ih found)
  | case10 => cases read
  | case11 mark rest _ _ _ ih =>
    obtain ⟨inner, found⟩ := exists_of_map_read read fun _ => rfl
    exact Covers.behind (passes_escape depth mark) (ih found)
  | case12 => cases read
  | case13 c rest quote _ _ plain ih =>
    obtain ⟨inner, found⟩ := exists_of_map_read read fun _ => rfl
    exact Covers.behind (passes_string quote (not_or.1 plain).1) (ih found)

end Strings

section Documents

variable {document : Json}

/-- A character of code that neither separates nor opens nor closes anything is gone over. -/
theorem Covers.inert (inert : isInert c) (further : Covers (.code depth) text last rest) :
    Covers (.code depth) (c :: text) last rest :=
  Covers.behind (passes_of_isInert (List.forall_mem_singleton.2 inert)) further

/-- What means nothing between the parts of a document is gone over. -/
theorem covers_skipSpace (depth : Nat) (text : List Char) :
    Covers (.code depth) text (.code depth) (Json.skipSpace text) := by
  refine ⟨text.takeWhile Json.isSpace, List.takeWhile_append_dropWhile.symm,
    passes_of_isInert fun c mem => ?_⟩
  exact isInert_of_class (by decide) (List.mem_takeWhile_imp mem)

/-- A number is gone over. -/
theorem covers_of_past (depth : Nat) (past : Json.Past text rest) :
    Covers (.code depth) text (.code depth) rest := by
  obtain ⟨used, whole, numeric⟩ := past
  exact ⟨used, whole, passes_of_isInert fun c mem => isInert_of_isNumeric (numeric c mem)⟩

/-- Reading goes over what it reads, inside any number of brackets. -/
def Balanced {α : Type} (read : List Char → Option (α × List Char)) : Prop :=
  ∀ text found rest, read text = some (found, rest) →
    ∀ depth, Covers (.code depth) text (.code depth) rest

variable {readOne : List Char → Option (Json × List Char)}

/-- A mark is gone over inside brackets, with what means nothing before it. -/
theorem covers_mark {mark : Char} (begins : Json.skipSpace text = mark :: rest) :
    Covers (.code (depth + 1)) text ((code (depth + 1)).after mark) rest := by
  have upTo := covers_skipSpace (depth + 1) text
  rw [begins] at upTo
  exact upTo.trans (Covers.cons (fun cuts => by cases cuts.2) (.refl ..))

/-- The items of an array are gone over up to its closing bracket, with the commas between them. -/
theorem covers_of_readItems? (balanced : Balanced readOne) {rounds : Nat} {items : List Json}
    (read : Json.readItems? readOne rounds text = some (items, rest)) (depth : Nat) :
    Covers (.code (depth + 1)) text (.code depth) rest := by
  induction rounds generalizing text items with
  | zero => cases read
  | succ rounds ih =>
    obtain ⟨⟨item, left⟩, first, read⟩ := Option.bind_eq_some_iff.1 read
    have itself := balanced text item left first (depth + 1)
    dsimp only at read
    split at read
    · rename_i more mark
      obtain ⟨⟨items, left⟩, later, same⟩ := Option.bind_eq_some_iff.1 read
      obtain ⟨_, rfl⟩ := Prod.mk.inj (Option.some.inj same)
      exact itself.trans ((covers_mark mark).trans (ih later))
    · rename_i more mark
      obtain ⟨_, rfl⟩ := Prod.mk.inj (Option.some.inj read)
      exact itself.trans (covers_mark mark)
    · cases read

/-- The members of an object are gone over up to its closing brace, with the commas between them. -/
theorem covers_of_readMembers? (balanced : Balanced readOne) {rounds : Nat}
    {members : List (String × Json)}
    (read : Json.readMembers? readOne rounds text = some (members, rest)) (depth : Nat) :
    Covers (.code (depth + 1)) text (.code depth) rest := by
  induction rounds generalizing text members with
  | zero => cases read
  | succ rounds ih =>
    rw [Json.readMembers?] at read
    split at read
    · rename_i quoted quote
      obtain ⟨⟨name, left⟩, named, read⟩ := Option.bind_eq_some_iff.1 read
      have upToName := (covers_mark quote).trans (covers_of_readString? (depth + 1) named)
      dsimp only at read
      split at read
      · rename_i more colon
        obtain ⟨⟨member, left⟩, first, read⟩ := Option.bind_eq_some_iff.1 read
        have itself := upToName.trans
          ((covers_mark colon).trans (balanced more member left first (depth + 1)))
        dsimp only at read
        split at read
        · rename_i more mark
          obtain ⟨⟨members, left⟩, later, same⟩ := Option.bind_eq_some_iff.1 read
          obtain ⟨_, rfl⟩ := Prod.mk.inj (Option.some.inj same)
          exact itself.trans ((covers_mark mark).trans (ih later))
        · rename_i more mark
          obtain ⟨_, rfl⟩ := Prod.mk.inj (Option.some.inj read)
          exact itself.trans (covers_mark mark)
        · cases read
      · cases read
    · cases read

/-- A document is gone over if what may stand inside it is. -/
theorem balanced_readFront?_of_inner {limit : Nat}
    (inside : ∀ inner, limit = inner + 1 → Balanced (Json.readFront? inner)) :
    Balanced (Json.readFront? limit) := by
  intro text document rest read depth
  refine (covers_skipSpace depth text).trans ?_
  unfold Json.readFront? at read
  split at read
  · rename_i begins
    obtain ⟨_, rfl⟩ := Prod.mk.inj (Option.some.inj read)
    rw [begins]
    exact Covers.inert rfl (.inert rfl (.inert rfl (.inert rfl (.refl ..))))
  · rename_i begins
    obtain ⟨_, rfl⟩ := Prod.mk.inj (Option.some.inj read)
    rw [begins]
    exact Covers.inert rfl (.inert rfl (.inert rfl (.inert rfl (.refl ..))))
  · rename_i begins
    obtain ⟨_, rfl⟩ := Prod.mk.inj (Option.some.inj read)
    rw [begins]
    exact Covers.inert rfl (.inert rfl (.inert rfl (.inert rfl (.inert rfl (.refl ..)))))
  · rename_i begins
    obtain ⟨chars, found⟩ := exists_of_map_read read fun _ => rfl
    rw [begins]
    exact Covers.cons (fun cuts => by cases cuts.1) (covers_of_readString? depth found)
  · rename_i begins
    obtain ⟨n, found⟩ := exists_of_map_read read fun _ => rfl
    rw [begins]
    exact Covers.inert rfl (covers_of_past depth (Json.past_of_readMagnitude? found))
  · rename_i more begins
    rw [begins]
    refine Covers.cons (fun cuts => by cases cuts.1) ?_
    split at read
    · cases read
    · rename_i inner
      split at read
      · rename_i closes
        obtain ⟨_, rfl⟩ := Prod.mk.inj (Option.some.inj read)
        exact covers_mark closes
      · obtain ⟨items, found⟩ := exists_of_map_read read fun _ => rfl
        exact covers_of_readItems? (inside inner rfl) found depth
  · rename_i more begins
    rw [begins]
    refine Covers.cons (fun cuts => by cases cuts.1) ?_
    split at read
    · cases read
    · rename_i inner
      split at read
      · rename_i closes
        obtain ⟨_, rfl⟩ := Prod.mk.inj (Option.some.inj read)
        exact covers_mark closes
      · obtain ⟨members, found⟩ := exists_of_map_read read fun _ => rfl
        exact covers_of_readMembers? (inside inner rfl) found depth
  · obtain ⟨n, found⟩ := exists_of_map_read read fun _ => rfl
    exact covers_of_past depth (Json.past_of_readMagnitude? found)

/-- A document is gone over, however deep it is. -/
theorem balanced_readFront? (limit : Nat) : Balanced (Json.readFront? limit) := by
  induction limit with
  | zero => exact balanced_readFront?_of_inner fun inner none => by cases none
  | succ limit ih =>
    refine balanced_readFront?_of_inner fun inner same => ?_
    obtain rfl := Nat.succ.inj same
    exact ih

/-- A text that is one document is gone over, inside any number of brackets. -/
theorem passes_of_read? (depth : Nat) (read : Json.read? text = some document) :
    Passes (.code depth) text (.code depth) := by
  obtain ⟨rest, found, nothing⟩ := Json.exists_of_read? read
  have covered := (balanced_readFront? _ text document rest found depth).trans
    (covers_skipSpace depth rest)
  rw [nothing] at covered
  obtain ⟨used, whole, passes⟩ := covered
  rwa [whole, List.append_nil]

end Documents

section Paths

variable {path : Path} {position : Nat} {step : Step} {steps : List Step}

/-- What spells a position is inert. -/
theorem isInert_of_positioned (positioned : Positioned position text) : ∀ c ∈ text, isInert c := by
  intro c mem
  rcases positioned.parts c mem with blank | rfl | digit
  · exact isInert_of_isBlank blank
  · rfl
  · exact isInert_of_isNumeric (Json.isNumeric_of_isDigit digit)

/-- What spells a step is gone over. -/
theorem passes_of_step (spelled : step.Spelled text) (inert : step.IsInert) :
    Passes (.code depth) text (.code depth) := by
  cases spelled with
  | field name => exact passes_of_isInert (List.forall_mem_cons.2 ⟨rfl, inert⟩)
  | index positioned =>
    exact Passes.enclosed rfl rfl (by decide) (passes_of_isInert (isInert_of_positioned positioned))

/-- What spells steps is gone over. -/
theorem passes_of_steps (spelled : Spelled steps text) (inert : ∀ step ∈ steps, step.IsInert) :
    Passes (.code depth) text (.code depth) := by
  induction spelled with
  | nil => exact .nil
  | cons first _ ih =>
    obtain ⟨here, others⟩ := List.forall_mem_cons.1 inert
    exact (passes_of_step first here).append (ih others)

/-- What spells a path is gone over, inside any number of brackets. -/
theorem passes_of_path (depth : Nat) (read : Path.read text = .ok path) (inert : path.IsInert) :
    Passes (.code depth) text (.code depth) := by
  obtain ⟨wellFormed, rest, rfl, spelled⟩ := Path.read_eq_ok_iff.1 read
  have name : ∀ c ∈ path.name, isInert c := fun c mem =>
    isInert_of_continuesName (continuesName_of_isIdentifier wellFormed.name c mem)
  exact (passes_of_isInert name).append (passes_of_steps spelled inert)

end Paths

end Scan

end Interchange.Statements
