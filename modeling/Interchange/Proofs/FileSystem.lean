import Interchange.Proofs.Outcome
import Interchange.Proofs.SourcePath.Joining

/-!
# Walks through the file system

A walk that comes to its end comes to the place that its path means: going up as many levels as the
place lies above the start and then down along its names leads to the same end
(`FileSystem.Leads.foldl`). There are no links, so a plain path leads where the path leads, unless
it loses levels (`FileSystem.walk_normalize`), and a name joined to a directory leads to what has
that name in the directory (`FileSystem.walk_join`).
-/
namespace Interchange

/-- What is left to walk to a place: up to the level above the start, then down its names. -/
def Location.route (place : Location) : List (List Char) :=
  List.replicate place.climbs ['.', '.'] ++ place.descent.reverse

namespace FileSystem

open Outcome

variable {start trail after : Trail} {piece : List Char}

/-- A piece that means nothing leads nowhere else. -/
theorem eq_of_step_idle (idle : piece = [] ∨ piece = ['.'])
    (stepped : step trail piece = .ok after) : after = trail := by
  unfold step at stepped
  split at stepped
  · cases stepped
  · rw [if_pos idle] at stepped
    exact (Except.ok.inj stepped).symm

/-- One level up the directory is left. -/
theorem eq_of_step_up (stepped : step trail ['.', '.'] = .ok after) : after = trail.up := by
  unfold step at stepped
  split at stepped
  · cases stepped
  · exact (Except.ok.inj stepped).symm

/-- A name leads down to something in the directory, and one level up is the directory again. -/
theorem up_of_step_down (name : ¬ (piece = [] ∨ piece = ['.'])) (down : piece ≠ ['.', '.'])
    (stepped : step trail piece = .ok after) : after.up = trail := by
  unfold step at stepped
  split at stepped
  · cases stepped
  · rw [if_neg name, if_neg down] at stepped
    obtain ⟨found, -, same⟩ := bind_ok_iff.1 stepped
    obtain rfl := Except.ok.inj same
    rfl

/-- A walk of one piece more. -/
theorem foldlM_step_concat {pieces : List (List Char)} :
    (pieces ++ [piece]).foldlM step start = .ok after ↔
      ∃ trail, pieces.foldlM step start = .ok trail ∧ step trail piece = .ok after := by
  rw [List.foldlM_append, bind_ok_iff]
  simp only [List.foldlM_cons, List.foldlM_nil, bind_pure]

/-- The trail is that of the root of a system: a directory with nothing above it. -/
structure Trail.IsRoot (trail : Trail) : Prop where
  /-- It is a directory. -/
  directory : ∃ entries, trail.here = .directory entries
  /-- Nothing is above it. -/
  highest : trail.above = []

/-- One level up from the root is the root. -/
theorem Trail.IsRoot.up_eq (root : trail.IsRoot) : trail.up = trail := by
  obtain ⟨here, above⟩ := trail
  obtain rfl : above = [] := root.highest
  rfl

/-- A walk that has come to a trail stands at a place: the route of the place leads there. -/
structure Leads (start : Trail) (place : Location) (trail : Trail) : Prop where
  /-- The route comes to the trail. -/
  route : place.route.foldlM step start = .ok trail
  /-- Names lead down. -/
  named : ∀ name ∈ place.descent, ¬ (name = [] ∨ name = ['.']) ∧ name ≠ ['.', '.']
  /-- An absolute path starts at the root, and nothing is above it. -/
  root : place.absolute = true → start.IsRoot ∧ place.climbs = 0

/-- Going up leads to the place one level up. -/
theorem Leads.up {place : Location} (leads : Leads start place trail)
    (stepped : step trail ['.', '.'] = .ok after) : Leads start place.up after := by
  have route := leads.route
  obtain rfl := eq_of_step_up stepped
  cases descent : place.descent with
  | cons last above =>
    have up_eq : place.up = { place with descent := above } := by rw [Location.up, descent]
    have named := leads.named
    rw [descent, List.forall_mem_cons] at named
    have longer : place.route = { place with descent := above }.route ++ [last] := by
      rw [Location.route, Location.route, descent, List.reverse_cons, List.append_assoc]
    rw [longer] at route
    obtain ⟨before, walked, down⟩ := foldlM_step_concat.1 route
    rw [up_eq, up_of_step_down named.1.1 named.1.2 down]
    exact ⟨walked, named.2, leads.root⟩
  | nil =>
    have flat : place.route = List.replicate place.climbs ['.', '.'] := by
      rw [Location.route, descent]
      exact List.append_nil _
    rw [flat] at route
    cases rooted : place.absolute with
    | true =>
      have up_eq : place.up = place := by rw [Location.up, descent]; exact if_pos rooted
      obtain ⟨root, none⟩ := leads.root rooted
      rw [none] at route
      obtain rfl := Except.ok.inj route
      rw [up_eq, root.up_eq]
      exact leads
    | false =>
      have up_eq : place.up = { place with climbs := place.climbs + 1 } := by
        rw [Location.up, descent]
        exact if_neg (ne_true_of_eq_false rooted)
      have longer : { place with climbs := place.climbs + 1 }.route =
          List.replicate place.climbs ['.', '.'] ++ [['.', '.']] := by
        rw [Location.route, descent, List.replicate_succ']
        exact List.append_nil _
      have relative : place.absolute = true → start.IsRoot ∧ place.climbs + 1 = 0 := by
        rw [rooted]
        exact fun different => absurd different Bool.false_ne_true
      rw [up_eq]
      refine ⟨?_, leads.named, relative⟩
      rw [longer]
      exact foldlM_step_concat.2 ⟨trail, route, stepped⟩

/-- One more piece leads to the place that it means. -/
theorem Leads.go {place : Location} (leads : Leads start place trail)
    (stepped : step trail piece = .ok after) : Leads start (place.go piece) after := by
  by_cases idle : piece = [] ∨ piece = ['.']
  · rw [Location.go, if_pos idle, eq_of_step_idle idle stepped]
    exact leads
  by_cases upward : piece = ['.', '.']
  · subst upward
    rw [Location.go, if_neg idle, if_pos rfl]
    exact leads.up stepped
  · have longer : { place with descent := piece :: place.descent }.route =
        place.route ++ [piece] := by
      rw [Location.route, Location.route, List.reverse_cons, List.append_assoc]
    rw [Location.go, if_neg idle, if_neg upward]
    refine ⟨?_, List.forall_mem_cons.2 ⟨⟨idle, upward⟩, leads.named⟩, leads.root⟩
    rw [longer]
    exact foldlM_step_concat.2 ⟨trail, leads.route, stepped⟩

/-- A walk leads to the place that its pieces mean. -/
theorem Leads.foldl {place : Location} {pieces : List (List Char)} (leads : Leads start place trail)
    (walked : pieces.foldlM step trail = .ok after) :
    Leads start (pieces.foldl Location.go place) after := by
  induction pieces generalizing place trail with
  | nil =>
    obtain rfl := Except.ok.inj walked
    exact leads
  | cons piece rest ih =>
    obtain ⟨next, stepped, further⟩ := bind_ok_iff.1 walked
    exact ih (leads.go stepped) further

/-- A path can be walked if it has no null character, is not empty and not too long. -/
theorem checkPath_ok_iff (path : String) :
    checkPath path = .ok () ↔
      '\x00' ∉ path.toList ∧ path ≠ "" ∧ path.utf8ByteSize < pathLimit := by
  have empty : path.isEmpty = true ↔ path = "" := String.isEmpty_iff
  unfold checkPath
  simp only [List.contains_iff_mem]
  split
  · rename_i null
    simp [null]
  · split
    · rename_i none
      simp [empty.1 none]
    · split
      · rename_i long
        simp only [reduceCtorEq, false_iff, not_and]
        omega
      · rename_i null some short
        rw [empty] at some
        simp only [true_iff]
        exact ⟨null, some, Nat.lt_of_not_le short⟩

variable {system : FileSystem} {path : String}

/-- A path is walked piece by piece from its start, if it can be walked at all. -/
theorem walk_ok_iff :
    system.walk path = .ok trail ↔ checkPath path = .ok () ∧
      ∃ start, system.start path = .ok start ∧
        (SourcePath.pieces path).foldlM step start = .ok trail := by
  rw [walk, bind_ok_iff]
  constructor
  · rintro ⟨_, checked, walked⟩
    exact ⟨checked, bind_ok_iff.1 walked⟩
  · rintro ⟨checked, walked⟩
    exact ⟨(), checked, bind_ok_iff.2 walked⟩

/-- A path that can be walked is not empty. -/
theorem ne_empty_of_walk (walked : system.walk path = .ok trail) : path ≠ "" :=
  ((checkPath_ok_iff path).1 (walk_ok_iff.1 walked).1).2.1

/-- The walk of an absolute path starts at the root. -/
theorem isRoot_of_start (begins : system.start path = .ok start)
    (absolute : SourcePath.isAbsolute path = true) : start.IsRoot := by
  rw [FileSystem.start, if_pos absolute] at begins
  obtain rfl := Except.ok.inj begins
  exact ⟨⟨_, rfl⟩, rfl⟩

/-- A walk leads to the place that its path means. -/
theorem leads_of_foldlM (begins : system.start path = .ok start)
    (walked : (SourcePath.pieces path).foldlM step start = .ok trail) :
    Leads start (SourcePath.locate path) trail := by
  have begun : Leads start (Location.start (SourcePath.isAbsolute path)) start :=
    ⟨rfl, by simp [Location.start], fun absolute => ⟨isRoot_of_start begins absolute, rfl⟩⟩
  exact begun.foldl walked

/-- From the root no step up leads anywhere. -/
theorem Trail.IsRoot.foldlM_up (root : start.IsRoot) (levels : Nat) :
    (List.replicate levels ['.', '.']).foldlM step start = .ok start := by
  obtain ⟨entries, directory⟩ := root.directory
  have stays : step start ['.', '.'] = .ok start := by
    rw [step, directory]
    exact congrArg Except.ok root.up_eq
  induction levels with
  | zero => rfl
  | succ levels ih => rwa [List.replicate_succ, List.foldlM_cons, stays]

/-- The names on a plain path lead where the path leads, if it goes up less than two levels. -/
theorem Leads.foldlM_reduce (leads : Leads start (SourcePath.locate path) trail)
    (few : (SourcePath.locate path).climbs < 2) :
    (SourcePath.reduce (SourcePath.names path)).foldlM step start = .ok trail := by
  have each : ∀ name ∈ SourcePath.names path, SourcePath.IsName name :=
    fun _ mem => SourcePath.isName_of_mem_names mem
  obtain ⟨kept, follows⟩ :=
    (SourcePath.follows_start (SourcePath.isAbsolute path)).foldl each
  rw [← Location.along_eq, ← SourcePath.locate] at follows
  have reduced : SourcePath.reduce (SourcePath.names path) =
      List.replicate kept ['.', '.'] ++ (SourcePath.locate path).descent.reverse := by
    rw [SourcePath.reduce, follows.stack_eq, List.reverse_append, List.reverse_replicate]
  rw [reduced]
  have route := leads.route
  rw [Location.route] at route
  cases absolute : (SourcePath.locate path).absolute with
  | true =>
    obtain ⟨root, none⟩ := leads.root absolute
    rw [none] at route
    rw [List.foldlM_append, root.foldlM_up]
    exact route
  | false =>
    have same : kept = (SourcePath.locate path).climbs := by
      rw [follows.kept_eq absolute, Nat.mod_eq_of_lt few]
    rw [same]
    exact route

/-- The pieces of a plain path are its names, behind an empty one if it is absolute. -/
theorem foldlM_pieces_normalize (some : SourcePath.reduce (SourcePath.names path) ≠ [])
    (begins : system.start path = .ok start) :
    (SourcePath.pieces (SourcePath.normalize path)).foldlM step start =
      (SourcePath.reduce (SourcePath.names path)).foldlM step start := by
  have apart : ∀ name ∈ SourcePath.reduce (SourcePath.names path), '/' ∉ name := fun name mem =>
    (SourcePath.isName_of_mem_names (SourcePath.mem_of_mem_reduce mem)).whole
  rw [SourcePath.pieces, SourcePath.normalize, SourcePath.ofNames, String.toList_ofList]
  cases absolute : SourcePath.isAbsolute path with
  | false =>
    rw [if_neg Bool.false_ne_true, List.nil_append, Text.splitAll_intercalate some apart]
  | true =>
    obtain ⟨entries, directory⟩ := (isRoot_of_start begins absolute).directory
    have idle : step start [] = .ok start := by
      rw [step, directory]
      exact if_pos (.inl rfl)
    rw [if_pos rfl, List.singleton_append, Text.splitAll, if_pos rfl,
      Text.splitAll_intercalate some apart, List.foldlM_cons, idle]
    rfl

/-- A plain path starts where the path starts. -/
theorem start_normalize (system : FileSystem) (path : String) :
    system.start (SourcePath.normalize path) = system.start path := by
  rw [start, SourcePath.isAbsolute_normalize, ← start]

/-- A plain path that is not empty can be walked if the path can. -/
theorem checkPath_normalize (checked : checkPath path = .ok ())
    (some : SourcePath.normalize path ≠ "") : checkPath (SourcePath.normalize path) = .ok () := by
  obtain ⟨clean, _, short⟩ := (checkPath_ok_iff path).1 checked
  have shorter := SourcePath.utf8ByteSize_normalize_le path
  refine (checkPath_ok_iff _).2 ⟨fun null => ?_, some, by omega⟩
  rcases SourcePath.mem_normalize null with slash | held
  · cases slash
  · exact clean held

/-- A plain path leads where the path leads, if that goes up less than two levels and the plain path
is not empty. -/
theorem walk_normalize (walked : system.walk path = .ok trail)
    (few : (SourcePath.locate path).climbs < 2)
    (some : SourcePath.reduce (SourcePath.names path) ≠ []) :
    system.walk (SourcePath.normalize path) = .ok trail := by
  have written : SourcePath.normalize path ≠ "" := by
    intro empty
    have named := SourcePath.names_normalize path
    rw [empty] at named
    exact some named.symm
  obtain ⟨checked, start, begins, followed⟩ := walk_ok_iff.1 walked
  refine walk_ok_iff.2 ⟨checkPath_normalize checked written, start, ?_, ?_⟩
  · rw [start_normalize]
    exact begins
  · rw [foldlM_pieces_normalize some begins]
    exact (leads_of_foldlM begins followed).foldlM_reduce few

/-- A path joined to that of a directory leads to where it leads from the directory. -/
theorem walk_join {directory path : String} (walked : system.walk directory = .ok trail)
    (clean : '\x00' ∉ path.toList)
    (short : (SourcePath.join directory path).utf8ByteSize < pathLimit) :
    system.walk (SourcePath.join directory path) =
      (SourcePath.pieces path).foldlM step trail := by
  obtain ⟨checked, start, begins, followed⟩ := walk_ok_iff.1 walked
  obtain ⟨unbroken, some, _⟩ := (checkPath_ok_iff directory).1 checked
  have begun : system.start (SourcePath.join directory path) = .ok start := by
    rw [FileSystem.start, SourcePath.isAbsolute_join some, ← FileSystem.start, begins]
  have checkedJoin : checkPath (SourcePath.join directory path) = .ok () := by
    obtain ⟨between, slash, joined⟩ := SourcePath.toList_join directory path
    refine (checkPath_ok_iff _).2 ⟨?_, fun empty => ?_, short⟩
    · rw [joined, List.mem_append, List.mem_append]
      rintro (held | held | held)
      · exact unbroken held
      · rcases slash with rfl | rfl <;> simp at held
      · exact clean held
    · rw [empty] at joined
      exact some (String.toList_eq_nil_iff.1 (List.append_eq_nil_iff.1 joined.symm).1)
  have along : (SourcePath.pieces (SourcePath.join directory path)).foldlM step start =
      (SourcePath.pieces path).foldlM step trail := by
    rcases SourcePath.pieces_join some path with ⟨front, cut, joined⟩ | joined
    · rw [cut] at followed
      obtain ⟨before, led, idle⟩ := foldlM_step_concat.1 followed
      obtain rfl := eq_of_step_idle (.inl rfl) idle
      rw [joined, List.foldlM_append, led]
      rfl
    · rw [joined, List.foldlM_append, followed]
      rfl
  rw [walk, checkedJoin, begun]
  exact along

/-- A root below which a path leads to the same place as without one: there is none, the path is
absolute, or the root leads to the working directory. -/
def Keeps (system : FileSystem) (root path : String) : Prop :=
  root = "" ∨ SourcePath.isAbsolute path ∨
    system.walk root = system.home ∧ (SourcePath.join root path).utf8ByteSize < pathLimit

/-- The same file is read below a root that keeps its path. -/
theorem Keeps.read_join {root text : String} (keeps : system.Keeps root path)
    (relative : ¬ SourcePath.isAbsolute path) (held : system.read path = .ok text) :
    system.read (SourcePath.join root path) = .ok text := by
  rcases keeps with rfl | absolute | ⟨here, short⟩
  · rw [SourcePath.join, if_pos (.inl rfl), String.empty_append]
    exact held
  · exact absurd absolute relative
  · obtain ⟨trail, walked, ends⟩ := bind_ok_iff.1 held
    obtain ⟨checked, home, begins, followed⟩ := walk_ok_iff.1 walked
    rw [start, if_neg relative, ← here] at begins
    rw [← walk_join begins ((checkPath_ok_iff path).1 checked).1 short] at followed
    exact bind_ok_iff.2 ⟨trail, followed, ends⟩

/-- A name that a file can have. -/
structure IsFileName (name : String) : Prop where
  /-- It is one piece of a path that means something. -/
  proper : SourcePath.IsName name.toList
  /-- It leads down. -/
  down : name.toList ≠ ['.', '.']
  /-- It has no null character. -/
  clean : '\x00' ∉ name.toList
  /-- It is not too long. -/
  short : name.utf8ByteSize ≤ 255

/-- The entries of a directory on a disk. -/
structure IsTidy (entries : List (String × FileTree)) : Prop where
  /-- Each name is there once. -/
  distinct : (Fields.names entries).Nodup
  /-- All names can be names of files. -/
  named : ∀ name ∈ Fields.names entries, IsFileName name

/-- A directory is listed by the names of its entries in order. -/
theorem list_of_walk {directory : String} {entries : List (String × FileTree)}
    {above : List FileTree} (walked : system.walk directory = .ok ⟨.directory entries, above⟩) :
    system.list directory = .ok (Fields.names (Fields.sorted entries)) := by
  rw [list, walked]
  rfl

section Entries

variable {directory name : String} {entries : List (String × FileTree)} {above : List FileTree}
  {tree : FileTree} (walked : system.walk directory = .ok ⟨.directory entries, above⟩)
  (tidy : IsTidy entries) (mem : (name, tree) ∈ entries)
include walked tidy mem

/-- Whoever walks to an entry finds it, unless the path is too long. -/
theorem walk_entry (short : (SourcePath.join directory name).utf8ByteSize < pathLimit) :
    system.walk (SourcePath.join directory name) =
      .ok ⟨tree, .directory entries :: above⟩ := by
  have named := tidy.named name (List.mem_map.2 ⟨_, mem, rfl⟩)
  have one : (SourcePath.pieces name).foldlM step ⟨.directory entries, above⟩ =
      step ⟨.directory entries, above⟩ name.toList := by
    rw [SourcePath.pieces, Text.splitAll_of_not_mem named.proper.whole]
    exact bind_pure (step _ name.toList)
  have found : (FileTree.directory entries).entry name = .ok tree := by
    rw [FileTree.entry, if_neg (Nat.not_lt.2 named.short), Fields.find?_of_mem tidy.distinct mem]
  rw [walk_join walked named.clean short, one, step]
  dsimp only
  rw [if_neg named.proper.meaningful, if_neg named.down, String.ofList_toList, Trail.down, found]
  rfl

/-- An entry is a file for whoever walks to it if it is one and the path is not too long. -/
theorem isFile_entry_iff :
    system.isFile (SourcePath.join directory name) = true ↔
      (∃ content, tree = .file content) ∧
        (SourcePath.join directory name).utf8ByteSize < pathLimit := by
  by_cases short : (SourcePath.join directory name).utf8ByteSize < pathLimit
  · rw [isFile, walk_entry walked tidy mem short]
    cases tree <;> simp [short]
  · have refused : ∀ trail, system.walk (SourcePath.join directory name) ≠ .ok trail :=
      fun _ found => short ((checkPath_ok_iff _).1 (walk_ok_iff.1 found).1).2.2
    simp only [short, and_false, iff_false]
    intro file
    unfold isFile at file
    split at file
    · rename_i found
      exact refused _ found
    · cases file

end Entries

end FileSystem

end Interchange
