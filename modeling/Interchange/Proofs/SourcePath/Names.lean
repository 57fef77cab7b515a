import Interchange.SourcePath

/-!
# The names on a path

A path is read as the names between its slashes, and written with one slash between each two of
them. Names that were written are read again (`names_ofNames`), and reducing names leaves some of
them in their order (`reduce_sublist`).
-/
namespace Interchange

namespace Text

/-- There is always a piece. -/
theorem exists_splitAll (mark : Char) (text : List Char) :
    ∃ piece more, splitAll mark text = piece :: more := by
  cases text with
  | nil => exact ⟨[], [], rfl⟩
  | cons c rest =>
    rw [splitAll]
    split
    · exact ⟨_, _, rfl⟩
    · split <;> exact ⟨_, _, rfl⟩

/-- The pieces of a text with a mark in it are those before the mark and those after it. -/
theorem splitAll_append (mark : Char) (first rest : List Char) :
    splitAll mark (first ++ mark :: rest) = splitAll mark first ++ splitAll mark rest := by
  induction first with
  | nil => exact if_pos rfl
  | cons c first ih =>
    obtain ⟨piece, more, cut⟩ := exists_splitAll mark first
    rw [List.cons_append, splitAll, splitAll, ih, cut]
    split <;> rfl

/-- The pieces of a text with the marks between them are the text. -/
theorem intercalate_splitAll (mark : Char) (text : List Char) :
    List.intercalate [mark] (splitAll mark text) = text := by
  induction text with
  | nil => rfl
  | cons c rest ih =>
    obtain ⟨piece, more, cut⟩ := exists_splitAll mark rest
    rw [cut] at ih
    rw [splitAll, cut]
    split
    · rename_i marked
      rw [List.intercalate_cons_cons, ih, marked]
      rfl
    · cases more with
      | nil =>
        rw [List.intercalate_singleton] at ih
        rw [← ih, List.intercalate_singleton]
      | cons next later =>
        rw [List.intercalate_cons_cons] at ih
        rw [← ih, List.intercalate_cons_cons]
        rfl

/-- Pieces with a mark between each two of them are cut at these marks. -/
theorem splitAll_intercalate {mark : Char} {pieces : List (List Char)} (some : pieces ≠ [])
    (absent : ∀ piece ∈ pieces, mark ∉ piece) :
    splitAll mark (List.intercalate [mark] pieces) = pieces := by
  induction pieces with
  | nil => exact absurd rfl some
  | cons piece rest ih =>
    have here := absent piece List.mem_cons_self
    cases rest with
    | nil => rw [List.intercalate_singleton, splitAll_of_not_mem here]
    | cons next later =>
      have others : ∀ other ∈ next :: later, mark ∉ other :=
        fun other mem => absent other (List.mem_cons_of_mem _ mem)
      have joined : List.intercalate [mark] (piece :: next :: later) =
          piece ++ mark :: List.intercalate [mark] (next :: later) := by
        rw [List.intercalate_cons_cons, List.append_assoc, List.singleton_append]
      rw [joined, splitAll_append, splitAll_of_not_mem here, ih (List.cons_ne_nil _ _) others,
        List.singleton_append]

/-- No piece holds the mark at which a text was cut. -/
theorem not_mem_of_mem_splitAll {mark : Char} {text piece : List Char}
    (cut : piece ∈ splitAll mark text) : mark ∉ piece := by
  induction text generalizing piece with
  | nil =>
    obtain rfl := List.mem_singleton.1 cut
    exact List.not_mem_nil
  | cons c rest ih =>
    by_cases marked : c = mark
    · rw [splitAll, if_pos marked] at cut
      rcases List.mem_cons.1 cut with rfl | later
      · exact List.not_mem_nil
      · exact ih later
    · rw [splitAll, if_neg marked] at cut
      have different : mark ≠ c := Ne.symm marked
      split at cut
      · obtain rfl := List.mem_singleton.1 cut
        rw [List.mem_singleton]
        exact different
      · rename_i first more pieces
        rcases List.mem_cons.1 cut with rfl | later
        · have inside := ih (pieces ▸ List.mem_cons_self)
          rw [List.mem_cons, not_or]
          exact ⟨different, inside⟩
        · exact ih (pieces ▸ List.mem_cons_of_mem _ later)

end Text

namespace SourcePath

/-- A piece of a path that means something; `..` is one of them. -/
structure IsName (piece : List Char) : Prop where
  /-- It is not empty. -/
  nonempty : piece ≠ []
  /-- It is not the name of the directory itself. -/
  other : piece ≠ ['.']
  /-- It is one piece. -/
  whole : '/' ∉ piece

/-- A name is no piece that means nothing. -/
theorem IsName.meaningful {piece : List Char} (proper : IsName piece) :
    ¬ (piece = [] ∨ piece = ['.']) := not_or.2 ⟨proper.nonempty, proper.other⟩

/-- What is read off a path are names. -/
theorem isName_of_mem_names {path : String} {name : List Char} (read : name ∈ names path) :
    IsName name := by
  obtain ⟨cut, meaning⟩ := List.mem_filter.1 read
  rw [Bool.and_eq_true, decide_eq_true_eq, decide_eq_true_eq] at meaning
  exact ⟨meaning.1, meaning.2, Text.not_mem_of_mem_splitAll cut⟩

/-- Reducing names leaves some of them in their order. -/
theorem reduce_sublist (names : List (List Char)) : (reduce names).Sublist names := by
  have followed : ∀ (names place : List (List Char)),
      (names.foldl follow place).reverse.Sublist (place.reverse ++ names) := by
    intro names
    induction names with
    | nil => exact fun place => by simp
    | cons name rest ih =>
      intro place
      refine (ih (follow place name)).trans ?_
      have step : (follow place name).reverse.Sublist (place.reverse ++ [name]) := by
        unfold follow
        split
        · cases place with
          | nil => exact .refl _
          | cons last above =>
            rw [List.reverse_cons, List.append_assoc]
            exact List.sublist_append_left _ _
        · exact (List.reverse_cons ..).symm ▸ .refl _
      have more := step.append (.refl rest)
      rwa [List.append_assoc, List.singleton_append] at more
  exact followed names []

/-- Reducing names brings in no other name. -/
theorem mem_of_mem_reduce {names : List (List Char)} {name : List Char}
    (mem : name ∈ reduce names) : name ∈ names := (reduce_sublist names).subset mem

/-- The first character of names that are written one after the other is that of a name. -/
theorem head?_intercalate_ne {names : List (List Char)} (each : ∀ name ∈ names, IsName name) :
    (List.intercalate ['/'] names).head? ≠ some '/' := by
  cases names with
  | nil => simp
  | cons name rest =>
    have first := each name List.mem_cons_self
    obtain ⟨c, more, rfl⟩ := List.exists_cons_of_ne_nil first.nonempty
    have different : c ≠ '/' := fun same => first.whole (same ▸ List.mem_cons_self)
    cases rest with
    | nil => simpa [List.intercalate_singleton] using different
    | cons next later => simpa [List.intercalate_cons_cons] using different

variable {names : List (List Char)}

/-- A path is written as absolute exactly if it is. -/
theorem isAbsolute_ofNames (absolute : Bool) (each : ∀ name ∈ names, IsName name) :
    isAbsolute (ofNames absolute names) = absolute := by
  have first := head?_intercalate_ne each
  cases absolute with
  | true => simp [isAbsolute, ofNames]
  | false =>
    rw [isAbsolute, ofNames, String.toList_ofList, if_neg Bool.false_ne_true, List.nil_append]
    exact beq_eq_false_iff_ne.2 first

/-- Names that are written are read again. -/
theorem names_ofNames (absolute : Bool) (each : ∀ name ∈ names, IsName name) :
    SourcePath.names (ofNames absolute names) = names := by
  have apart : ∀ name ∈ names, '/' ∉ name := fun name mem => (each name mem).whole
  have kept : names.filter (fun piece => piece ≠ [] && piece ≠ ['.']) = names := by
    refine List.filter_eq_self.2 fun name mem => ?_
    have proper := each name mem
    simp [proper.nonempty, proper.other]
  have relative : (Text.splitAll '/' (List.intercalate ['/'] names)).filter
      (fun piece => piece ≠ [] && piece ≠ ['.']) = names := by
    cases none : names with
    | nil => rfl
    | cons name rest =>
      rw [← none, Text.splitAll_intercalate (by rw [none]; exact List.cons_ne_nil _ _) apart, kept]
  cases absolute with
  | false =>
    rw [SourcePath.names, pieces, ofNames, String.toList_ofList, if_neg Bool.false_ne_true,
      List.nil_append]
    exact relative
  | true =>
    rw [SourcePath.names, pieces, ofNames, String.toList_ofList, if_pos rfl,
      List.singleton_append, Text.splitAll, if_pos rfl]
    exact relative

/-- The names that reducing leaves are names. -/
theorem isName_of_mem_reduce (each : ∀ name ∈ names, IsName name) :
    ∀ name ∈ reduce names, IsName name :=
  fun name mem => each name (mem_of_mem_reduce mem)

/-- A plain path is absolute if the path is. -/
theorem isAbsolute_normalize (path : String) : isAbsolute (normalize path) = isAbsolute path :=
  isAbsolute_ofNames _ (isName_of_mem_reduce fun _ => isName_of_mem_names)

/-- The names on a plain path are those that are left of the names on the path. -/
theorem names_normalize (path : String) :
    SourcePath.names (normalize path) = reduce (SourcePath.names path) :=
  names_ofNames _ (isName_of_mem_reduce fun _ => isName_of_mem_names)

end SourcePath

end Interchange
