import Interchange.Proofs.SourcePath.Location

/-!
# Joined paths and the length of plain paths

A directory and a name are joined to a path that has the name as its last piece, whatever the
directory ends in (`SourcePath.pieces_join`). A plain path holds nothing that the path does not
hold, and is no longer (`SourcePath.mem_normalize`, `SourcePath.utf8ByteSize_normalize_le`).
-/
namespace Interchange

namespace Text

/-- How many bytes a text takes. -/
def bytes (text : List Char) : Nat := (String.ofList text).utf8ByteSize

/-- One text after the other takes the bytes of both. -/
theorem bytes_append (first rest : List Char) :
    bytes (first ++ rest) = bytes first + bytes rest := by
  rw [bytes, String.ofList_append, String.utf8ByteSize_append, bytes, bytes]

/-- How many bytes pieces take, each with a mark of one byte. -/
def markedBytes : List (List Char) → Nat
  | [] => 0
  | piece :: more => bytes piece + 1 + markedBytes more

/-- Between pieces there is one slash less than there are pieces. -/
theorem bytes_intercalate (pieces : List (List Char)) :
    bytes (List.intercalate ['/'] pieces) = markedBytes pieces - 1 := by
  induction pieces with
  | nil => rfl
  | cons piece more ih =>
    cases more with
    | nil =>
      rw [List.intercalate_singleton]
      rfl
    | cons next later =>
      have slash : bytes ['/'] = 1 := by decide
      simp only [List.intercalate_cons_cons, bytes_append, ih, slash, markedBytes]
      omega

/-- Fewer pieces have no more bytes. -/
theorem markedBytes_le {fewer pieces : List (List Char)} (sublist : fewer.Sublist pieces) :
    markedBytes fewer ≤ markedBytes pieces := by
  induction sublist with
  | slnil => exact Nat.le_refl _
  | cons piece _ ih =>
    rw [markedBytes]
    omega
  | cons_cons piece _ ih =>
    rw [markedBytes, markedBytes]
    omega

/-- What stands in pieces with marks between them is a mark or stands in a piece. -/
theorem mem_intercalate {mark c : Char} {pieces : List (List Char)}
    (mem : c ∈ List.intercalate [mark] pieces) : c = mark ∨ ∃ piece ∈ pieces, c ∈ piece := by
  induction pieces with
  | nil => cases mem
  | cons piece more ih =>
    cases more with
    | nil =>
      rw [List.intercalate_singleton] at mem
      exact .inr ⟨piece, List.mem_cons_self, mem⟩
    | cons next later =>
      rw [List.intercalate_cons_cons, List.mem_append, List.mem_append, List.mem_singleton] at mem
      rcases mem with (here | marked) | there
      · exact .inr ⟨piece, List.mem_cons_self, here⟩
      · exact .inl marked
      · exact (ih there).imp_right fun ⟨other, inside, held⟩ =>
          ⟨other, List.mem_cons_of_mem _ inside, held⟩

/-- What stands in one of the pieces of a text stands in the text. -/
theorem mem_of_mem_splitAll {mark c : Char} {text piece : List Char}
    (cut : piece ∈ splitAll mark text) (mem : c ∈ piece) : c ∈ text := by
  induction text generalizing piece with
  | nil =>
    rw [List.mem_singleton.1 cut] at mem
    exact mem
  | cons d rest ih =>
    obtain ⟨first, more, pieces⟩ := exists_splitAll mark rest
    rw [splitAll, pieces] at cut
    rw [pieces] at ih
    split at cut
    · rcases List.mem_cons.1 cut with rfl | later
      · cases mem
      · exact List.mem_cons_of_mem _ (ih later mem)
    · rcases List.mem_cons.1 cut with rfl | later
      · rcases List.mem_cons.1 mem with rfl | inside
        · exact List.mem_cons_self
        · exact List.mem_cons_of_mem _ (ih List.mem_cons_self inside)
      · exact List.mem_cons_of_mem _ (ih (List.mem_cons_of_mem _ later) mem)

end Text

namespace SourcePath

/-- The names on a path are some of its pieces in their order. -/
theorem names_sublist (path : String) : (names path).Sublist (pieces path) := List.filter_sublist

/-- A plain path holds nothing that the path does not hold, slashes apart. -/
theorem mem_normalize {path : String} {c : Char} (mem : c ∈ (normalize path).toList) :
    c = '/' ∨ c ∈ path.toList := by
  rw [normalize, ofNames, String.toList_ofList, List.mem_append] at mem
  rcases mem with front | inside
  · split at front
    · exact .inl (List.mem_singleton.1 front)
    · cases front
  · rcases Text.mem_intercalate inside with slash | ⟨name, kept, held⟩
    · exact .inl slash
    · exact .inr (Text.mem_of_mem_splitAll
        ((names_sublist path).subset (mem_of_mem_reduce kept)) held)

/-- The pieces of an absolute path begin with an empty one in front of the first slash. -/
theorem pieces_of_isAbsolute {path : String} (absolute : isAbsolute path) :
    ∃ rest, pieces path = [] :: Text.splitAll '/' rest := by
  rw [isAbsolute, beq_iff_eq] at absolute
  obtain ⟨rest, whole⟩ := List.head?_eq_some_iff.1 absolute
  exact ⟨rest, by rw [pieces, whole, Text.splitAll, if_pos rfl]⟩

/-- A plain path is no longer than the path. -/
theorem utf8ByteSize_normalize_le (path : String) :
    (normalize path).utf8ByteSize ≤ path.utf8ByteSize := by
  have whole : path.utf8ByteSize = Text.markedBytes (pieces path) - 1 := by
    rw [← Text.bytes_intercalate, pieces, Text.intercalate_splitAll, Text.bytes,
      String.ofList_toList]
  rw [normalize, ofNames, ← Text.bytes, Text.bytes_append, Text.bytes_intercalate, whole]
  cases absolute : isAbsolute path with
  | false =>
    have none : Text.bytes [] = 0 := rfl
    have fewer := Text.markedBytes_le ((reduce_sublist _).trans (names_sublist path))
    rw [if_neg Bool.false_ne_true]
    omega
  | true =>
    -- The slash in front stands for the empty piece in front of it.
    obtain ⟨rest, cut⟩ := pieces_of_isAbsolute absolute
    have named : (names path).Sublist (Text.splitAll '/' rest) := by
      rw [names, cut, List.filter_cons_of_neg (by decide)]
      exact List.filter_sublist
    obtain ⟨first, more, some⟩ := Text.exists_splitAll '/' rest
    have slash : Text.bytes ['/'] = 1 := by decide
    have none : Text.bytes [] = 0 := rfl
    have fewer := Text.markedBytes_le ((reduce_sublist _).trans named)
    rw [some, Text.markedBytes] at fewer
    rw [if_pos rfl, cut, some, Text.markedBytes, Text.markedBytes]
    omega

/-- Joined paths stand one after the other, with at most one slash between them. -/
theorem toList_join (directory name : String) :
    ∃ between, (between = [] ∨ between = ['/']) ∧
      (join directory name).toList = directory.toList ++ (between ++ name.toList) := by
  unfold join
  split
  · exact ⟨[], .inl rfl, String.toList_append ..⟩
  · refine ⟨['/'], .inr rfl, ?_⟩
    rw [String.toList_append, String.toList_append, List.append_assoc]
    rfl

/-- A joined path is absolute if the directory is. -/
theorem isAbsolute_join {directory : String} (some : directory ≠ "") (name : String) :
    isAbsolute (join directory name) = isAbsolute directory := by
  obtain ⟨between, _, joined⟩ := toList_join directory name
  obtain ⟨c, rest, full⟩ :=
    List.exists_cons_of_ne_nil (mt String.toList_eq_nil_iff.1 some)
  rw [isAbsolute, joined, isAbsolute, full]
  rfl

/-- The pieces of joined paths are those of the one and then those of the other, without an empty
piece behind a slash at the end of the first. -/
theorem pieces_join {directory : String} (some : directory ≠ "") (path : String) :
    (∃ front, pieces directory = front ++ [[]] ∧
      pieces (join directory path) = front ++ pieces path) ∨
    pieces (join directory path) = pieces directory ++ pieces path := by
  have full : directory.isEmpty = false := by
    rw [Bool.eq_false_iff]
    exact fun empty => some (String.isEmpty_iff.1 empty)
  by_cases ends : directory.toList.getLast? = Option.some '/'
  · obtain ⟨front, cut⟩ := List.getLast?_eq_some_iff.1 ends
    have joined : (join directory path).toList = front ++ '/' :: path.toList := by
      rw [join, if_pos (.inr ends), String.toList_append, cut, List.append_assoc]
      rfl
    refine .inl ⟨Text.splitAll '/' front, ?_, ?_⟩
    · rw [pieces, cut, Text.splitAll_append]
      rfl
    · rw [pieces, joined, Text.splitAll_append, pieces]
  · have joined : (join directory path).toList = directory.toList ++ '/' :: path.toList := by
      rw [join, full, if_neg (by simp [ends]), String.toList_append, String.toList_append,
        List.append_assoc]
      rfl
    exact .inr (by rw [pieces, joined, Text.splitAll_append, pieces, pieces])

/-- The names on joined paths are those on the one and then those on the other. -/
theorem names_join {directory : String} (some : directory ≠ "") (path : String) :
    names (join directory path) = names directory ++ names path := by
  unfold names
  rcases pieces_join some path with ⟨front, cut, joined⟩ | joined
  · have idle : [([] : List Char)].filter (fun piece => piece ≠ [] && piece ≠ ['.']) = [] := rfl
    rw [joined, cut, List.filter_append, List.filter_append, idle, List.append_nil]
  · rw [joined, List.filter_append]

/-- A name is a path with one name on it. -/
theorem names_of_isName {name : String} (proper : IsName name.toList) :
    names name = [name.toList] := by
  rw [names, pieces, Text.splitAll_of_not_mem proper.whole]
  simp [proper.nonempty, proper.other]

/-- A name in a directory is one level below it. -/
theorem locate_join {directory name : String} (some : directory ≠ "")
    (proper : IsName name.toList) :
    locate (join directory name) = (locate directory).go name.toList := by
  rw [locate, Location.along_eq, isAbsolute_join some, names_join some, names_of_isName proper,
    List.foldl_append, locate, Location.along_eq]
  rfl

/-- A last name that leads down is left when names are reduced. -/
theorem reduce_concat (names : List (List Char)) {name : List Char} (down : name ≠ ['.', '.']) :
    reduce (names ++ [name]) = reduce names ++ [name] := by
  simp only [reduce, List.foldl_append, List.foldl_cons, List.foldl_nil, follow, if_neg down,
    List.reverse_cons]

/-- So something is left of names that end in it. -/
theorem reduce_concat_ne_nil (names : List (List Char)) {name : List Char}
    (down : name ≠ ['.', '.']) : reduce (names ++ [name]) ≠ [] := by
  rw [reduce_concat names down]
  exact List.concat_ne_nil _ _

/-- A name in a directory is that of a host script if it is on its own. -/
theorem isHost_join {directory name : String} (some : directory ≠ "")
    (proper : IsName name.toList) :
    isHost (join directory name) = isHost name := by
  have same : fileName? (join directory name) = fileName? name := by
    rw [fileName?, fileName?, names_join some, names_of_isName proper, List.getLast?_concat]
    rfl
  rw [isHost, isHost, same]

end SourcePath

end Interchange
