import Interchange.Proofs.Guests.Names
import Interchange.Proofs.Json.Documents
import Interchange.Proofs.Json.Strings
import Interchange.Proofs.Value.Relay

/-!
# Quoted names

The statement language takes a name of the exchange as a JSON string, and an import finds every
name that is written so (`Statements.Expression.read_import`). An export takes the name to end at
the first white space, though, before the string is read. White space that is a control character
is escaped in a string; any other white space cuts the string in two
(`Statements.quoted_names_cross`).
-/
namespace Interchange.Statements

/-- A text with a quoted name is read as the name. -/
theorem unquote_stringLiteral (name : String) :
    unquote (Json.stringLiteral name).toList = name := by
  rw [unquote, Json.readText?_stringLiteral, Option.getD_some]

/-- A quoted name has no white space at its ends. -/
theorem isTrimmed_stringLiteral (name : String) :
    Text.IsTrimmed (Json.stringLiteral name).toList := by
  rw [Json.toList_stringLiteral]
  constructor
  · intro c first
    obtain rfl := Option.some.inj first
    rfl
  · intro c last
    rw [List.getLast?_concat] at last
    obtain rfl := Option.some.inj last
    rfl

/-- What follows the word `import` is a name. -/
theorem Expression.read_of_import {text name : List Char}
    (follows : Text.after? "import ".toList (Text.trim text) = some name) :
    Expression.read text = .imported (unquote (Text.trim name)) := by
  unfold Expression.read
  split
  · rename_i empty
    rw [empty] at follows
    cases follows
  · split
    · rename_i read
      rw [Option.some.inj (follows.symm.trans read)]
    · rename_i read
      cases follows.symm.trans read

/-- Every quoted name can be looked up. -/
theorem Expression.read_import (name : String) :
    Expression.read ("import ".toList ++ (Json.stringLiteral name).toList) = .imported name := by
  have named := isTrimmed_stringLiteral name
  have keyword : Text.IsTrimmed "import".toList := Text.isTrimmed_of_not_isBlank (by decide)
  have quoted : (Json.stringLiteral name).toList ≠ [] := by simp [Json.toList_stringLiteral]
  have whole : Text.trim ("import ".toList ++ (Json.stringLiteral name).toList) =
      "import ".toList ++ (Json.stringLiteral name).toList :=
    (keyword.append named (by decide) quoted [' ']).trim_eq
  have follows : Text.after? "import ".toList
      ("import ".toList ++ (Json.stringLiteral name).toList) =
        some (Json.stringLiteral name).toList := rfl
  rw [read_of_import (by rw [whole]; exact follows), named.trim_eq, unquote_stringLiteral]

/-- No variable name begins with a digit. -/
theorem not_startsName_of_isDigit {c : Char} (digit : c.isDigit) : startsName c = false := by
  rw [Bool.eq_false_iff]
  intro starts
  rw [startsName, Bool.or_eq_true, beq_iff_eq] at starts
  have code := toNat_of_isDigit digit
  rcases starts with letter | rfl
  · have range := toNat_of_isAlpha letter
    omega
  · cases digit

/-- What means nothing in front of a document is white space. -/
theorem skipSpace_of_isTrimmed {text : List Char} (trimmed : Text.IsTrimmed text) :
    Json.skipSpace text = text := by
  cases text with
  | nil => rfl
  | cons c rest =>
    have bare : Json.isSpace c = false := by
      rw [Bool.eq_false_iff]
      intro space
      have notBlank := trimmed.1 c rfl
      simp only [Json.isSpace, Bool.or_eq_true, beq_iff_eq] at space
      rcases space with ((rfl | rfl) | rfl) | rfl <;> cases notBlank
    rw [Json.skipSpace, List.dropWhile_cons, bare, if_neg Bool.false_ne_true]

/-- Only white space means nothing after a document, so that nothing follows in a trimmed text. -/
theorem eq_nil_of_isTrimmed {front rest : List Char} (trimmed : Text.IsTrimmed (front ++ rest))
    (nothing : Json.skipSpace rest = []) : rest = [] := by
  cases last : rest.getLast? with
  | none => exact List.getLast?_eq_none_iff.1 last
  | some c =>
    have space := List.dropWhile_eq_nil_iff.1 nothing c (List.mem_of_getLast? last)
    have bare := trimmed.2 c (by rw [List.getLast?_append, last]; rfl)
    simp only [Json.isSpace, Bool.or_eq_true, beq_iff_eq] at space
    rcases space with ((rfl | rfl) | rfl) | rfl <;> cases bare

/-- A text that holds data is read as that data. -/
theorem Expression.read_of_document {text : List Char} {document : Json}
    (reads : Json.read? (Text.trim text) = some document) :
    Expression.read text = .literal (Item.ofJson document) := by
  obtain ⟨_, _, _, _, _, trimmed⟩ := Text.exists_trim text
  obtain ⟨rest, found, nothing⟩ := Json.exists_of_read? reads
  have begins := Json.head_of_readFront? found
  rw [skipSpace_of_isTrimmed trimmed] at begins
  suffices Text.trim text ≠ [] ∧ Text.after? "import ".toList (Text.trim text) = none ∧
      Text.after? "call ".toList (Text.trim text) = none ∧
        ((Text.trim text).head?.any startsName && !isLiteralWord (Text.trim text)) = false by
    obtain ⟨some, imports, calls, noPath⟩ := this
    rw [read_of_plain some imports calls, readPlain, noPath, if_neg Bool.false_ne_true, reads]
  rcases begins with ⟨word, known, whole⟩ | ⟨c, more, whole, first⟩
  · rw [whole] at trimmed
    rw [whole, eq_nil_of_isTrimmed trimmed nothing, List.append_nil]
    simp only [Json.words, List.mem_cons, List.not_mem_nil, or_false] at known
    rcases known with rfl | rfl | rfl <;> decide
  · have words : startsName c = false ∧ c ≠ 'i' ∧ c ≠ 'c' := by
      rcases first with rfl | rfl | rfl | rfl | digit
      · decide
      · decide
      · decide
      · decide
      · refine ⟨not_startsName_of_isDigit digit, ?_, ?_⟩
        · rintro rfl
          cases digit
        · rintro rfl
          cases digit
    obtain ⟨noName, noImport, noCall⟩ := words
    rw [whole, List.head?_cons, Option.any_some, noName]
    exact ⟨List.cons_ne_nil c more, if_neg noImport.symm, if_neg noCall.symm, rfl⟩

/-- The line that exports data under a quoted name. -/
def exportLine (name literal : String) : String :=
  "export " ++ Json.stringLiteral name ++ " " ++ literal

/-- All white space in the name is escaped when the name is quoted. -/
def IsUnbroken (name : String) : Prop := ∀ c ∈ name.toList, Text.isBlank c → c < ' '

instance (name : String) : Decidable (IsUnbroken name) :=
  List.decidableBAll (fun c => Text.isBlank c → c < ' ') name.toList

/-- An export is cut at the first white space into a name and data. -/
theorem Statement.readExport_cut {word source : List Char} {mark : Char}
    (bare : ∀ c ∈ word, Text.isBlank c = false) (blank : Text.isBlank mark)
    (named : unquote word ≠ "") (some : Text.trim source ≠ []) :
    readExport (word ++ mark :: source) =
      .publish (unquote word) (Expression.read (Text.trim source)) := by
  have cut : splitWord (word ++ mark :: source) = (word, Text.trim source) := by
    rw [splitWord, Text.splitFirst?_append bare blank]
  have full : (unquote word).isEmpty = false := by
    rw [Bool.eq_false_iff]
    exact fun empty => named (String.isEmpty_iff.1 empty)
  rw [readExport, cut]
  dsimp only
  rw [full, if_neg Bool.false_ne_true, if_neg some]

/-- The one statement of an export line. -/
theorem statements_exportLine (name : String) {literal : String} (oneLine : '\n' ∉ literal.toList)
    (some : Text.trim literal.toList ≠ []) :
    ∃ before, (∀ c ∈ before, Text.isBlank c) ∧ statements (exportLine name literal) =
      [(1, .readExport ((Json.stringLiteral name).toList ++
        ' ' :: (before ++ Text.trim literal.toList)))] := by
  obtain ⟨before, after, whole, blankBefore, blankAfter, trimmed⟩ := Text.exists_trim literal.toList
  have quoted : (Json.stringLiteral name).toList ≠ [] := by simp [Json.toList_stringLiteral]
  -- What follows `export` begins with a quote and ends like the data.
  have rest : Text.IsTrimmed ((Json.stringLiteral name).toList ++
      ' ' :: (before ++ Text.trim literal.toList)) := by
    have ends := (isTrimmed_stringLiteral name).append trimmed quoted some (' ' :: before)
    rwa [List.append_assoc, List.cons_append] at ends
  have keyword : Text.IsTrimmed "export".toList := Text.isTrimmed_of_not_isBlank (by decide)
  have line : (exportLine name literal).toList =
      "export ".toList ++ ((Json.stringLiteral name).toList ++
        ' ' :: (before ++ Text.trim literal.toList)) ++ after := by
    conv_lhs => rw [exportLine, String.toList_append, String.toList_append, String.toList_append,
      whole]
    simp [List.append_assoc]
  have one : Text.lines (exportLine name literal).toList = [(exportLine name literal).toList] := by
    refine Text.lines_of_not_mem (by simp [exportLine]) ?_
    simp only [exportLine, String.toList_append, List.mem_append, not_or]
    exact ⟨⟨⟨by decide, Json.newline_not_mem_stringLiteral name⟩, by decide⟩, oneLine⟩
  have cut : Text.trim (exportLine name literal).toList =
      "export ".toList ++ ((Json.stringLiteral name).toList ++
        ' ' :: (before ++ Text.trim literal.toList)) := by
    rw [line, Text.trim_append_blanks _ blankAfter]
    exact (keyword.append rest (by decide) (by simp) [' ']).trim_eq
  have read : Statement.ofLine? (exportLine name literal).toList =
      Option.some (Statement.read (Text.trim (exportLine name literal).toList)) := by
    unfold Statement.ofLine?
    rw [cut]
    rfl
  refine ⟨before, blankBefore, ?_⟩
  rw [statements, one, Statement.ofLines, read, cut, Statement.read_export_eq, rest.trim_eq]
  rfl

/-- The written form of characters whose white space is escaped holds no white space. -/
theorem bare_flatMap {chars : List Char} (escaped : ∀ c ∈ chars, Text.isBlank c → c < ' ') :
    ∀ c ∈ '"' :: chars.flatMap Json.stringChar, Text.isBlank c = false := by
  refine List.forall_mem_cons.2 ⟨rfl, fun part mem => ?_⟩
  obtain ⟨c, inside, written⟩ := List.mem_flatMap.1 mem
  obtain ⟨plain, itself⟩ := Json.plain_of_mem_stringChar written
  rw [Bool.eq_false_iff]
  intro blank
  obtain rfl := itself blank
  exact plain (escaped part inside blank)

/-- The quoted form of an unbroken name holds no white space. -/
theorem IsUnbroken.bare {name : String} (unbroken : IsUnbroken name) :
    ∀ c ∈ (Json.stringLiteral name).toList, Text.isBlank c = false := by
  rw [Json.toList_stringLiteral]
  intro c mem
  rcases List.mem_append.1 mem with mem | mem
  · exact bare_flatMap unbroken c mem
  · rw [List.mem_singleton.1 mem]
    rfl

/-- A name that is not unbroken begins with an unbroken part, and white space follows that is no
control character. -/
theorem exists_of_not_isUnbroken {name : String} (broken : ¬ IsUnbroken name) :
    ∃ before mark after, name.toList = before ++ mark :: after ∧
      (∀ c ∈ before, Text.isBlank c → c < ' ') ∧ Text.isBlank mark ∧ ¬ mark < ' ' := by
  unfold IsUnbroken at broken
  generalize name.toList = chars at broken ⊢
  induction chars with
  | nil => simp at broken
  | cons c rest ih =>
    by_cases escaped : Text.isBlank c → c < ' '
    · obtain ⟨before, mark, after, rfl, front, first⟩ :=
        ih fun later => broken (List.forall_mem_cons.2 ⟨escaped, later⟩)
      exact ⟨c :: before, mark, after, rfl, List.forall_mem_cons.2 ⟨escaped, front⟩, first⟩
    · exact ⟨[], c, rest, rfl, by simp, Classical.not_imp.1 escaped⟩

/-- An export line with an unbroken name exports the data under that name. -/
theorem statements_of_isUnbroken {name literal : String} {document : Json} (named : name ≠ "")
    (oneLine : '\n' ∉ literal.toList)
    (reads : Json.read? (Text.trim literal.toList) = some document) (unbroken : IsUnbroken name) :
    statements (exportLine name literal) =
      [(1, .publish name (.literal (Item.ofJson document)))] := by
  have some : Text.trim literal.toList ≠ [] := by
    intro empty
    rw [empty] at reads
    cases reads
  obtain ⟨_, _, _, _, _, trimmed⟩ := Text.exists_trim literal.toList
  obtain ⟨before, blank, only⟩ := statements_exportLine name oneLine some
  have data : Text.trim (before ++ Text.trim literal.toList) = Text.trim literal.toList := by
    rw [Text.trim_blanks_append blank, trimmed.trim_eq]
  have read : Expression.read (Text.trim literal.toList) = .literal (Item.ofJson document) :=
    Expression.read_of_document (by rw [trimmed.trim_eq, reads])
  rw [only, Statement.readExport_cut unbroken.bare rfl (by rwa [unquote_stringLiteral])
    (by rwa [data]), unquote_stringLiteral, data, read]

/-- An export line with any other name exports something under another name. -/
theorem statements_of_not_isUnbroken {name literal : String} (oneLine : '\n' ∉ literal.toList)
    (some : Text.trim literal.toList ≠ []) (broken : ¬ IsUnbroken name) :
    ∃ other source, other ≠ name ∧
      statements (exportLine name literal) = [(1, .publish other source)] := by
  obtain ⟨before, mark, after, same, escaped, blank, plain⟩ := exists_of_not_isUnbroken broken
  obtain ⟨space, blanks, only⟩ := statements_exportLine name oneLine some
  have bare := bare_flatMap escaped
  -- The first white space is written as it is, so what stands before it lacks a closing quote.
  have itself := Json.stringChar_of_isBlank blank plain
  have cut : (Json.stringLiteral name).toList ++ ' ' :: (space ++ Text.trim literal.toList) =
      ('"' :: before.flatMap Json.stringChar) ++ mark :: (after.flatMap Json.stringChar ++
        '"' :: ' ' :: (space ++ Text.trim literal.toList)) := by
    simp [Json.toList_stringLiteral, same, itself]
  have word : unquote ('"' :: before.flatMap Json.stringChar) =
      String.ofList ('"' :: before.flatMap Json.stringChar) := by
    rw [unquote, Json.readText?_unclosed, Option.getD_none]
  have source : Text.trim (after.flatMap Json.stringChar ++
      '"' :: ' ' :: (space ++ Text.trim literal.toList)) ≠ [] :=
    Text.trim_ne_nil (c := '"') (by simp) rfl
  rw [cut, Statement.readExport_cut bare blank (by simp [word]) source, word] at only
  refine ⟨_, _, fun equal => ?_, only⟩
  have inside : mark ∈ '"' :: before.flatMap Json.stringChar := by
    rw [← String.toList_ofList (l := '"' :: before.flatMap Json.stringChar), equal, same]
    simp
  rw [bare mark inside] at blank
  cases blank

/-- Exporting data binds its value and does nothing else. -/
theorem execute_publish {name : String} {item : Item} {value : Value} (line : Nat)
    (locals : Fields Item) (given : item.toValue = .ok value) :
    execute locals [(line, .publish name (.literal item))] =
      .ask (.exportValue name value (some line)) fun _ => .done (locals, .ok ()) := by
  simp only [execute_cons, execute_nil, Statement.yields, Expression.eval, Evaluation.run_bind,
    Evaluation.run_ofOutcome, Evaluation.run_pure, Evaluation.run_liftM, Program.bind, given,
    mapError_ok]
  rfl

/-- Evaluating an export line with an unbroken name is one request. -/
theorem evaluate_exportLine {name literal : String} {document : Json} {value : Value}
    (named : name ≠ "") (oneLine : '\n' ∉ literal.toList)
    (reads : Json.read? (Text.trim literal.toList) = some document)
    (stands : document.value? = some value) (unbroken : IsUnbroken name) (locals : Fields Item) :
    evaluate locals (exportLine name literal) =
      .ask (.exportValue name value (some 1)) fun _ => .done (locals, .ok ()) := by
  rw [evaluate, statements_of_isUnbroken named oneLine reads unbroken,
    execute_publish 1 locals (Json.ofJson_of_value? stands).1]
  rfl

/-- The import of a quoted name gives the item of the value that the name is bound to. -/
theorem run_import (routines : Routines) (allowance : Nat) {name : String} {value : Value}
    {item : Item} (made : Item.ofValue value = .ok item) (context : ContextId)
    (locals : Fields Item) (line : Nat) {world : World}
    (bound : world.registry.IsBoundTo name value) :
    Runner.within routines (allowance + 1) _ context
        ((Expression.read ("import ".toList ++ (Json.stringLiteral name).toList)).eval locals
          line).run world =
      some (.ok item,
        { world with registry := (world.registry.lookUp name context (some line)).2 }) := by
  obtain ⟨binding, found, ready⟩ := bound
  rw [Expression.read_import, Expression.eval, Evaluation.run_bind, Evaluation.run_request]
  simp only [Evaluation.run_ofOutcome, Runner.within, Program.importName, Program.send,
    Program.bind, Program.run, Engine.answer, Engine.importName, Registry.lookUp_fst, found, ready,
    Option.bind_some, mapError_ok, made]

/-- Data without nulls and booleans is exported under a quoted name exactly if all white space in
the name is escaped. Then its value is bound to that name and nothing else changes; if not,
something is exported under another name. An import with any quoted name gives the item of the
value that the name is bound to. -/
theorem quoted_names_cross (routines : Routines) (allowance : Nat) {name literal : String}
    {document : Json} (named : name ≠ "") (oneLine : '\n' ∉ literal.toList)
    (reads : Json.read? (Text.trim literal.toList) = some document) (plain : document.IsPlain) :
    ∃ value item, document.value? = some value ∧ Item.ofValue value = .ok item ∧
      (IsUnbroken name → ∀ context locals world, ∃ after,
        Runner.within routines (allowance + 1) _ context
            (evaluate locals (exportLine name literal)) world =
          some ((locals, .ok ()), after) ∧
        after.registry.IsBoundTo name value ∧
        (∀ other, other ≠ name → after.registry.find? other = world.registry.find? other) ∧
        after = { world with registry := after.registry }) ∧
      (¬ IsUnbroken name → ∃ other source, other ≠ name ∧
        statements (exportLine name literal) = [(1, .publish other source)]) ∧
      ∀ context locals line world, world.registry.IsBoundTo name value →
        Runner.within routines (allowance + 1) _ context
            ((Expression.read ("import ".toList ++ (Json.stringLiteral name).toList)).eval locals
              line).run world =
          some (.ok item,
            { world with registry := (world.registry.lookUp name context (some line)).2 }) := by
  obtain ⟨value, stands⟩ := (Json.exists_value?_iff document).2 plain
  obtain ⟨_, made⟩ := Json.ofJson_of_value? stands
  refine ⟨value, Item.ofJson document, stands, made, fun unbroken context locals world => ?_,
    fun broken => ?_, fun context locals line world => run_import routines allowance made context
      locals line⟩
  · have bound (other : String) := Registry.find?_bind world.registry name other (.ready value)
      context (some 1)
    refine ⟨Engine.bindName context name (.ready value) (some 1) world, ?_,
      ⟨_, (bound name).trans (if_pos rfl), rfl⟩,
      fun other different => (bound other).trans (if_neg different), rfl⟩
    rw [evaluate_exportLine named oneLine reads stands unbroken]
    rfl
  · have some : Text.trim literal.toList ≠ [] := by
      intro empty
      rw [empty] at reads
      cases reads
    exact statements_of_not_isUnbroken oneLine some broken

/-- A name with quotes, a backslash, brackets, separators and a tab. -/
def ruggedName : String := "a\"b\\[=],(\t)\x7b\x7d:#"

/-- The rugged name crosses: it is exported, stays apart from other names, and is imported. -/
theorem ruggedName_crosses :
    ∃ value after, Runner.within (Host.routines []) 1 _ ⟨1⟩
        (evaluate [] (exportLine ruggedName " \x7b\"k\": [1, \"x\"]\x7d "))
        (.exporting "other" (.text "kept")) = some (([], .ok ()), after) ∧
      after.registry.IsBoundTo ruggedName value ∧
      after.registry.IsBoundTo "other" (.text "kept") ∧
      ∃ item, Item.ofValue value = .ok item ∧
        (Runner.within (Host.routines []) 1 _ ⟨2⟩
          ((Expression.read ("import ".toList ++ (Json.stringLiteral ruggedName).toList)).eval []
            7).run after).map Prod.fst = some (.ok item) := by
  have plain : Json.IsPlain (.object [("k", .array [.number (.natural 1), .string "x"])]) := by
    refine .object (List.forall_mem_singleton.2 (.array ?_))
    exact List.forall_mem_cons.2 ⟨.number _, List.forall_mem_singleton.2 (.string _)⟩
  have reads : Json.read? (Text.trim " \x7b\"k\": [1, \"x\"]\x7d ".toList) =
      some (.object [("k", .array [.number (.natural 1), .string "x"])]) := rfl
  have named : ruggedName ≠ "" := by decide
  have oneLine : '\n' ∉ " \x7b\"k\": [1, \"x\"]\x7d ".toList := by decide
  obtain ⟨value, item, _, made, exported, _, imported⟩ :=
    quoted_names_cross (Host.routines []) 0 named oneLine reads plain
  obtain ⟨after, ran, bound, kept, _⟩ := exported (by decide) ⟨1⟩ []
    (.exporting "other" (.text "kept"))
  refine ⟨value, after, ran, bound, ⟨_, (kept "other" (by decide)).trans rfl, rfl⟩, item, made, ?_⟩
  rw [imported ⟨2⟩ [] 7 after bound]
  rfl

/-- A name with a space does not cross: the statement is cut inside the name, and fails. -/
theorem spaced_name_does_not_cross :
    ∃ fault, Runner.within (Host.routines []) 1 _ ⟨1⟩ (evaluate [] (exportLine "a b" "5"))
        (.exporting "other" (.text "kept")) =
          some (([], .error fault), .exporting "other" (.text "kept")) ∧
      (World.exporting "other" (.text "kept")).registry.find? "a b" = none := by
  have source : Expression.read "b\" 5".toList =
      .malformed (.rule "expected a variable name in `b\" 5`") := by
    rw [Expression.read]
    rfl
  have only : statements (exportLine "a b" "5") =
      [(1, .publish "\"a" (Expression.read "b\" 5".toList))] := rfl
  refine ⟨.guest languageName "line 1: expected a variable name in `b\" 5`", ?_, rfl⟩
  rw [evaluate, only, source]
  rfl

end Interchange.Statements
