import Interchange.Loader
import Interchange.Proofs.Fields
import Interchange.Proofs.SourcePath.Names

/-!
# The place that a path means

A path means a place: so many levels above where it starts, and from there down along names.
`SourcePath.locate` finds it by going along the pieces of the path, with nothing kept on a stack
that is not part of the place. The stack of `SourcePath.follow` has the same names at every step
(`Follows.follow`), but of the levels above the start it keeps one `..` for an odd number of them
and none for an even number. So a plain path means the same place as the path as long as the path
goes up at most one level, and past that two levels up are taken for none
(`locate_normalize`, `locate_resolve`).
-/
namespace Interchange

/-- A place relative to where paths start. -/
structure Location where
  /-- Whether paths start at the root; nothing is above it. -/
  absolute : Bool
  /-- The levels above the start. -/
  climbs : Nat
  /-- The names down from there, the last one first. -/
  descent : List (List Char)
deriving DecidableEq, Repr

namespace Location

/-- Where a path starts. -/
def start (absolute : Bool) : Location := { absolute, climbs := 0, descent := [] }

/-- One level up: the last name is undone. Without one, a relative path goes one level further
up and an absolute path stays at the root. -/
def up (place : Location) : Location :=
  match place.descent with
  | _ :: above => { place with descent := above }
  | [] => if place.absolute then place else { place with climbs := place.climbs + 1 }

/-- Go along one piece of a path. -/
def go (place : Location) (piece : List Char) : Location :=
  if piece = [] ∨ piece = ['.'] then place
  else if piece = ['.', '.'] then place.up
  else { place with descent := piece :: place.descent }

/-- Go along a path. -/
def along (place : Location) (path : String) : Location :=
  (SourcePath.pieces path).foldl go place

/-- The place with each two levels above the start taken for none. -/
def folded (place : Location) : Location := { place with climbs := place.climbs % 2 }

/-- A place is taken for another one exactly if it is more than one level above the start. -/
theorem folded_eq_iff (place : Location) : place.folded = place ↔ place.climbs < 2 := by
  constructor
  · intro same
    have climbs : place.climbs % 2 = place.climbs := congrArg Location.climbs same
    exact climbs ▸ Nat.mod_lt _ Nat.two_pos
  · intro few
    rw [folded, Nat.mod_eq_of_lt few]

/-- Going up stays on the same kind of path. -/
@[simp] theorem up_absolute (place : Location) : place.up.absolute = place.absolute := by
  unfold up
  split
  · rfl
  · split <;> rfl

/-- Going along a piece stays on the same kind of path. -/
@[simp] theorem go_absolute (place : Location) (piece : List Char) :
    (place.go piece).absolute = place.absolute := by
  unfold go
  split
  · rfl
  · split
    · exact place.up_absolute
    · rfl

/-- Going along pieces stays on the same kind of path. -/
theorem foldl_go_absolute (pieces : List (List Char)) (place : Location) :
    (pieces.foldl go place).absolute = place.absolute := by
  induction pieces generalizing place with
  | nil => rfl
  | cons piece rest ih => rw [List.foldl_cons, ih, go_absolute]

/-- Only the names on a path lead anywhere. -/
theorem along_eq (place : Location) (path : String) :
    place.along path = (SourcePath.names path).foldl go place := by
  rw [along, SourcePath.names, List.foldl_filter]
  congr 1
  funext place piece
  by_cases idle : piece = [] ∨ piece = ['.']
  · have skipped : ¬ (piece ≠ [] && piece ≠ ['.']) = true := by
      rcases idle with rfl | rfl <;> decide
    rw [if_neg skipped, go, if_pos idle]
  · have kept : (piece ≠ [] && piece ≠ ['.']) = true := by
      rw [not_or] at idle
      simp [idle.1, idle.2]
    rw [if_pos kept]

end Location

namespace SourcePath

open Location

/-- The place that a path means. -/
def locate (path : String) : Location := (start (isAbsolute path)).along path

/-- The place of the directory of a source; a source path without a name in it has none. -/
def directory? (source : String) : Option Location :=
  if names source = [] then none
  else some ((names source).dropLast.foldl go (start (isAbsolute source)))

/-- The place that a path written in a source means: that of the path gone along from the
directory of the source. -/
def meant (including : Option String) (path : String) : Location :=
  if isAbsolute path then locate path
  else match including.bind directory? with
    | some directory => directory.along path
    | none => locate path

/-- What the stack of names that are followed says of the place they lead to, `kept` being the
`..` at its bottom. -/
structure Follows (place : Location) (kept : Nat) (stack : List (List Char)) : Prop where
  /-- Above the kept `..` are the names that lead down. -/
  stack_eq : stack = place.descent ++ List.replicate kept ['.', '.']
  /-- None of these is `..`. -/
  down : ['.', '.'] ∉ place.descent
  /-- A second `..` takes back the first. -/
  kept_lt : kept < 2
  /-- On a relative path, what is kept says whether the number of levels up is odd. -/
  kept_eq : place.absolute = false → kept = place.climbs % 2
  /-- An absolute path never goes above the root. -/
  root : place.absolute = true → place.climbs = 0

/-- Where a path starts, nothing was followed. -/
theorem follows_start (absolute : Bool) : Follows (start absolute) 0 [] where
  stack_eq := rfl
  down := List.not_mem_nil
  kept_lt := Nat.two_pos
  kept_eq _ := rfl
  root _ := rfl

/-- A `..` that is kept or taken back stands for one more level up. -/
theorem Follows.turn {place : Location} {kept : Nat} {stack : List (List Char)}
    (follows : Follows place kept stack) (bottom : place.descent = []) :
    Follows place.up (1 - kept) (SourcePath.follow stack ['.', '.']) := by
  have stack_eq := follows.stack_eq
  rw [bottom, List.nil_append] at stack_eq
  have turned : SourcePath.follow stack ['.', '.'] = List.replicate (1 - kept) ['.', '.'] := by
    have two : kept = 0 ∨ kept = 1 := by have := follows.kept_lt; omega
    rcases two with rfl | rfl <;> rw [stack_eq] <;> rfl
  have fewer : 1 - kept < 2 := by omega
  have stays : SourcePath.follow stack ['.', '.'] =
      place.descent ++ List.replicate (1 - kept) ['.', '.'] := by
    rw [bottom, List.nil_append, turned]
  cases rooted : place.absolute with
  | true =>
    have up_eq : place.up = place := by rw [Location.up, bottom]; exact if_pos rooted
    rw [up_eq]
    have relative : place.absolute = false → 1 - kept = place.climbs % 2 := by
      rw [rooted]
      exact fun different => absurd different.symm Bool.false_ne_true
    exact ⟨stays, follows.down, fewer, relative, follows.root⟩
  | false =>
    have up_eq : place.up = { place with climbs := place.climbs + 1 } := by
      rw [Location.up, bottom]
      exact if_neg (ne_true_of_eq_false rooted)
    rw [up_eq]
    have parity := follows.kept_eq rooted
    have turns : 1 - kept = (place.climbs + 1) % 2 := by omega
    have relative : place.absolute = true → place.climbs + 1 = 0 := by
      rw [rooted]
      exact fun different => absurd different Bool.false_ne_true
    exact ⟨stays, follows.down, fewer, fun _ => turns, relative⟩

/-- Following a name and going along it keep to each other. -/
theorem Follows.follow {place : Location} {kept : Nat} {stack : List (List Char)}
    (follows : Follows place kept stack) {name : List Char} (proper : IsName name) :
    ∃ kept, Follows (place.go name) kept (SourcePath.follow stack name) := by
  have moves := proper.meaningful
  by_cases upward : name = ['.', '.']
  · subst upward
    rw [go, if_neg moves, if_pos rfl]
    cases descent : place.descent with
    | nil => exact ⟨1 - kept, follows.turn descent⟩
    | cons last above =>
      have back : place.up = { place with descent := above } := by rw [Location.up, descent]
      have popped : SourcePath.follow stack ['.', '.'] =
          above ++ List.replicate kept ['.', '.'] := by
        rw [follows.stack_eq, descent]
        rfl
      have down := follows.down
      rw [descent, List.mem_cons, not_or] at down
      rw [back]
      exact ⟨kept, popped, down.2, follows.kept_lt, follows.kept_eq, follows.root⟩
  · rw [go, if_neg moves, if_neg upward]
    have pushed : SourcePath.follow stack name =
        name :: place.descent ++ List.replicate kept ['.', '.'] := by
      rw [follows.stack_eq]
      exact if_neg upward
    have down : ['.', '.'] ∉ name :: place.descent :=
      List.not_mem_cons_of_ne_of_not_mem (Ne.symm upward) follows.down
    exact ⟨kept, pushed, down, follows.kept_lt, follows.kept_eq, follows.root⟩

/-- Following names and going along them keep to each other. -/
theorem Follows.foldl {place : Location} {kept : Nat} {stack : List (List Char)}
    (follows : Follows place kept stack) {names : List (List Char)}
    (each : ∀ name ∈ names, IsName name) :
    ∃ kept, Follows (names.foldl go place) kept (names.foldl SourcePath.follow stack) := by
  induction names generalizing place kept stack with
  | nil => exact ⟨kept, follows⟩
  | cons name rest ih =>
    obtain ⟨_, next⟩ := follows.follow (each name List.mem_cons_self)
    exact ih next fun other mem => each other (List.mem_cons_of_mem _ mem)

/-- Names that lead down are added below a place. -/
theorem foldl_go_down {names : List (List Char)} (each : ∀ name ∈ names, IsName name)
    (down : ['.', '.'] ∉ names) (place : Location) :
    names.foldl go place = { place with descent := names.reverse ++ place.descent } := by
  induction names generalizing place with
  | nil => rfl
  | cons name rest ih =>
    rw [List.mem_cons, not_or] at down
    have proper := each name List.mem_cons_self
    have step : place.go name = { place with descent := name :: place.descent } := by
      rw [go, if_neg proper.meaningful, if_neg (Ne.symm down.1)]
    rw [List.foldl_cons, step, ih (fun other mem => each other (List.mem_cons_of_mem _ mem)) down.2,
      List.reverse_cons, List.append_assoc, List.singleton_append]

/-- At most one `..` leads as many levels above the start, if anything is above it. -/
theorem foldl_go_kept (absolute : Bool) {kept : Nat} (few : kept < 2) :
    (List.replicate kept ['.', '.']).foldl go (start absolute) =
      { start absolute with climbs := if absolute then 0 else kept } := by
  have two : kept = 0 ∨ kept = 1 := by omega
  rcases two with rfl | rfl <;> cases absolute <;> rfl

/-- Names that are reduced lead to the same place, but for each two levels above the start. -/
theorem foldl_go_reduce (absolute : Bool) {names : List (List Char)}
    (each : ∀ name ∈ names, IsName name) :
    (reduce names).foldl go (start absolute) = (names.foldl go (start absolute)).folded := by
  obtain ⟨kept, follows⟩ := (follows_start absolute).foldl each
  have same : (names.foldl go (start absolute)).absolute = absolute :=
    foldl_go_absolute names (start absolute)
  generalize names.foldl go (start absolute) = place at follows same
  subst same
  have reduced : reduce names = List.replicate kept ['.', '.'] ++ place.descent.reverse := by
    rw [reduce, follows.stack_eq, List.reverse_append, List.reverse_replicate]
  have proper : ∀ name ∈ place.descent.reverse, IsName name := fun name mem =>
    isName_of_mem_reduce each name (reduced ▸ List.mem_append_right _ mem)
  have down : ['.', '.'] ∉ place.descent.reverse := mt List.mem_reverse.1 follows.down
  have climbs : (if place.absolute then 0 else kept) = place.climbs % 2 := by
    cases absolute : place.absolute with
    | true => rw [if_pos rfl, follows.root absolute]
    | false => rw [if_neg Bool.false_ne_true, follows.kept_eq absolute]
  rw [reduced, List.foldl_append, foldl_go_kept _ follows.kept_lt, foldl_go_down proper down,
    climbs, List.reverse_reverse]
  show _ = place.folded
  rw [folded, start, List.append_nil]

/-- The place that names mean which are written after they were reduced. -/
theorem locate_ofNames_reduce (absolute : Bool) {names : List (List Char)}
    (each : ∀ name ∈ names, IsName name) :
    locate (ofNames absolute (reduce names)) = (names.foldl go (start absolute)).folded := by
  have reduced := isName_of_mem_reduce each
  rw [locate, along_eq, isAbsolute_ofNames absolute reduced, names_ofNames absolute reduced,
    foldl_go_reduce absolute each]

/-- A plain path means the place of the path, but for each two levels above the start. -/
theorem locate_normalize (path : String) : locate (normalize path) = (locate path).folded := by
  have each : ∀ name ∈ names path, IsName name := fun _ mem => isName_of_mem_names mem
  rw [normalize, locate_ofNames_reduce _ each, locate, along_eq]

/-- A path written in a source is resolved to the place that it means there, but for each two
levels above the start. -/
theorem locate_resolve (including : Option String) (path : String) :
    locate (resolve including path) = (meant including path).folded := by
  cases including with
  | none =>
    have plain : meant none path = locate path := by
      rw [meant, Option.bind_none, ite_self]
    rw [resolve, plain, locate_normalize]
  | some source =>
    rw [meant, Option.bind_some, directory?, resolve]
    by_cases absolute : isAbsolute path = true
    · rw [if_pos (.inl absolute), if_pos absolute, locate_normalize]
    · by_cases none : names source = []
      · rw [if_pos (.inr none), if_neg absolute, if_pos none, locate_normalize]
      · rw [if_neg (not_or.2 ⟨absolute, none⟩), if_neg absolute, if_neg none]
        have each : ∀ name ∈ (names source).dropLast ++ names path, IsName name := by
          intro name mem
          rcases List.mem_append.1 mem with above | written
          · exact isName_of_mem_names (List.dropLast_subset _ above)
          · exact isName_of_mem_names written
        rw [within, locate_ofNames_reduce _ each, List.foldl_append, ← along_eq]

/-- Two paths have one plain path only if they mean one place, but for each two levels above the
start. -/
theorem folded_locate_eq {path other : String} (same : normalize path = normalize other) :
    (locate path).folded = (locate other).folded := by
  rw [← locate_normalize, ← locate_normalize, same]

end SourcePath

namespace Loader

/-- A text that is added is found by the paths with the same plain path, and what is found by other
paths stays. -/
theorem load_insert_memory (texts : Fields String) (path other text : String) :
    ((memory texts).insert path text).load other =
      if SourcePath.normalize other = SourcePath.normalize path then .ok text
      else (memory texts).load other := by
  simp only [insert, load, fullPath, Fields.find?_insert]
  split <;> rfl

/-- Two paths reach the same file of a loader: whatever text is added at the one is found at the
other. -/
def SameFile (loader : Loader) (path other : String) : Prop :=
  ∀ text, (loader.insert path text).load other = .ok text

/-- In memory, two paths reach the same file exactly if they have one plain path. -/
theorem sameFile_memory_iff {texts : Fields String} {path other : String} :
    (memory texts).SameFile path other ↔
      SourcePath.normalize other = SourcePath.normalize path := by
  constructor
  · intro sameFile
    refine Decidable.byContradiction fun different => ?_
    have kept : ∀ text, (memory texts).load other = .ok text := by
      intro text
      have found := sameFile text
      rwa [load_insert_memory, if_neg different] at found
    have one : "here" = "there" := Except.ok.inj ((kept "here").symm.trans (kept "there"))
    exact absurd one (by decide)
  · intro same text
    rw [load_insert_memory, if_pos same]

end Loader

namespace SourcePath

/-- Plain paths mean the place of the path exactly if the path goes up less than two levels from
where it starts. That is so for a path on its own and for a path written in a source, gone along
from the directory of the source. Two paths that reach one file of a loader in memory mean one
place, but for each two levels above the start; so they do mean one place if both go up less than
two levels. -/
theorem plain_path_keeps_place (texts : Fields String) (including : Option String)
    (path other : String) :
    (locate (normalize path) = locate path ↔ (locate path).climbs < 2) ∧
    (locate (resolve including path) = meant including path ↔
      (meant including path).climbs < 2) ∧
    ((Loader.memory texts).SameFile path other →
      (locate other).folded = (locate path).folded ∧
        ((locate path).climbs < 2 → (locate other).climbs < 2 → locate other = locate path)) := by
  refine ⟨?_, ?_, fun sameFile => ?_⟩
  · rw [locate_normalize, Location.folded_eq_iff]
  · rw [locate_resolve, Location.folded_eq_iff]
  · have folded := folded_locate_eq (Loader.sameFile_memory_iff.1 sameFile)
    refine ⟨folded, fun few less => ?_⟩
    rwa [(Location.folded_eq_iff _).2 few, (Location.folded_eq_iff _).2 less] at folded

/-- Two paths of the same place reach one file. -/
theorem plain_path_keeps_place_of_up_down :
    locate (normalize "../a/b/../c") = locate "../a/b/../c" ∧
    (Loader.memory []).SameFile "../a/b/../c" "./../a//c" ∧
    locate "./../a//c" = locate "../a/b/../c" := by
  have sameFile : (Loader.memory []).SameFile "../a/b/../c" "./../a//c" :=
    Loader.sameFile_memory_iff.2 (by decide +kernel)
  obtain ⟨alone, _, together⟩ := plain_path_keeps_place [] none "../a/b/../c" "./../a//c"
  exact ⟨alone.2 (by decide +kernel), sameFile,
    (together sameFile).2 (by decide +kernel) (by decide +kernel)⟩

/-- A text added two levels up is found at the start, which is another place. -/
theorem plain_path_loses_two_levels :
    locate (normalize "../../lib.lisp") ≠ locate "../../lib.lisp" ∧
    locate (resolve none "../../lib.lisp") ≠ meant none "../../lib.lisp" ∧
    ((Loader.memory []).insert "../../lib.lisp" "text").contains "lib.lisp" = true ∧
    locate "lib.lisp" ≠ locate "../../lib.lisp" := by
  decide +kernel

end SourcePath

end Interchange
