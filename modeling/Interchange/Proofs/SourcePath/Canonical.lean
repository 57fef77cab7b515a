import Interchange.Proofs.Engine.Faults
import Interchange.Proofs.SourcePath.Joining

/-!
# Plain paths are canonical

Of the names that are left when names are reduced, only the first can be `..`, and such names are
left as they are (`SourcePath.reduce_of_isPlain`). So a path can be put into its plainest form once
more, or before another one is joined to it, and nothing else comes of it
(`SourcePath.normalize_join_normalize`). Relative paths that are written in a unit start from its
directory (`SourcePath.base`), and a unit that is reached by a path has the directory to which the
path leads from there (`SourcePath.base_resolve`). Hence a source is found in the same way from unit
to unit and by one path that is joined from the directories on the way (`SourcePath.resolve_reach`).
-/
namespace Interchange

namespace SourcePath

/-- Names of which none but the first is `..`. -/
def IsPlain (names : List (List Char)) : Prop := ['.', '.'] ∉ names.tail

/-- The first name that is followed is kept, whatever it is. -/
theorem follow_start (name : List Char) : follow [] name = [name] := by
  unfold follow
  split <;> rfl

/-- Names that lead down are added to a place. -/
theorem foldl_follow_down {names : List (List Char)} (down : ['.', '.'] ∉ names)
    (place : List (List Char)) : names.foldl follow place = names.reverse ++ place := by
  induction names generalizing place with
  | nil => rfl
  | cons name rest ih =>
    rw [List.mem_cons, not_or] at down
    have step : follow place name = name :: place := if_neg (Ne.symm down.1)
    rw [List.foldl_cons, step, ih down.2, List.reverse_cons, List.append_assoc,
      List.singleton_append]

/-- Names of which none but the first is `..` are left as they are. -/
theorem reduce_of_isPlain {names : List (List Char)} (plain : IsPlain names) :
    reduce names = names := by
  cases names with
  | nil => rfl
  | cons name rest =>
    have down : ['.', '.'] ∉ rest := plain
    rw [reduce, List.foldl_cons, follow_start, foldl_follow_down down, List.reverse_append,
      List.reverse_reverse]
    rfl

/-- Below the last name of a place, following names keeps no `..` but the first. -/
theorem not_mem_dropLast_foldl_follow {place : List (List Char)} (names : List (List Char))
    (plain : ['.', '.'] ∉ place.dropLast) : ['.', '.'] ∉ (names.foldl follow place).dropLast := by
  -- A place has its last name first, so a `..` is put in front of a `..` or at the very end.
  induction names generalizing place with
  | nil => exact plain
  | cons name rest ih =>
    refine ih ?_
    cases place with
    | nil =>
      rw [follow_start]
      exact List.not_mem_nil
    | cons last above =>
      unfold follow
      split
      · cases above with
        | nil => exact List.not_mem_nil
        | cons next others => exact mt (List.mem_cons_of_mem last) plain
      · rename_i down
        exact List.not_mem_cons_of_ne_of_not_mem (Ne.symm down) plain

/-- Of the names that are left none but the first is `..`. -/
theorem isPlain_reduce (names : List (List Char)) : IsPlain (reduce names) := by
  have kept : ['.', '.'] ∉ (names.foldl follow []).dropLast :=
    not_mem_dropLast_foldl_follow names List.not_mem_nil
  rwa [IsPlain, reduce, List.tail_reverse, List.mem_reverse]

/-- A `..` that is left has nothing but `..` before it. -/
theorem IsPlain.before_up {names before after : List (List Char)} (plain : IsPlain names)
    (split : names = before ++ ['.', '.'] :: after) : ∀ name ∈ before, name = ['.', '.'] := by
  cases before with
  | nil => exact fun _ mem => absurd mem List.not_mem_nil
  | cons first others =>
    rw [split] at plain
    exact absurd (List.mem_append_right others List.mem_cons_self) plain

/-- Names that are left lead on like the names of which they are left. -/
theorem foldl_follow_reduce (names : List (List Char)) :
    (reduce names).foldl follow [] = names.foldl follow [] := by
  have twice := reduce_of_isPlain (isPlain_reduce names)
  rwa [reduce, reduce, List.reverse_inj, ← reduce] at twice

/-- Names can be reduced once more before others are joined to them. -/
theorem reduce_reduce_append (front rest : List (List Char)) :
    reduce (reduce front ++ rest) = reduce (front ++ rest) := by
  rw [reduce, List.foldl_append, foldl_follow_reduce, ← List.foldl_append, ← reduce]

/-- The pieces of a path that is written from names are these names, or empty. -/
theorem mem_pieces_ofNames {absolute : Bool} {names : List (List Char)}
    (each : ∀ name ∈ names, IsName name) {piece : List Char}
    (mem : piece ∈ pieces (ofNames absolute names)) : piece = [] ∨ piece ∈ names := by
  have apart : ∀ name ∈ names, '/' ∉ name := fun name there => (each name there).whole
  have relative : ∀ piece ∈ Text.splitAll '/' (List.intercalate ['/'] names),
      piece = [] ∨ piece ∈ names := by
    intro piece mem
    by_cases none : names = []
    · rw [none] at mem
      exact .inl (List.mem_singleton.1 mem)
    · rw [Text.splitAll_intercalate none apart] at mem
      exact .inr mem
  rw [pieces, ofNames, String.toList_ofList] at mem
  cases absolute with
  | false => exact relative piece mem
  | true =>
    rw [if_pos rfl, List.singleton_append, Text.splitAll, if_pos rfl] at mem
    exact (List.mem_cons.1 mem).elim .inl (relative piece)

/-- A path that is joined to an empty one is left alone. -/
theorem empty_join (path : String) : join "" path = path := by
  rw [join, if_pos (.inl rfl), String.empty_append]

/-- The names on joined paths are those on the one and then those on the other, also if the one is
empty. -/
theorem names_join_any (directory path : String) :
    names (join directory path) = names directory ++ names path := by
  by_cases empty : directory = ""
  · rw [empty, empty_join]
    rfl
  · exact names_join empty path

/-- Where a joined path starts is decided by the first of the two, if the other is relative. -/
theorem isAbsolute_join_of_relative (directory : String) {path : String}
    (relative : isAbsolute path = false) :
    isAbsolute (join directory path) = isAbsolute directory := by
  by_cases empty : directory = ""
  · rw [empty, empty_join, relative]
    rfl
  · exact isAbsolute_join empty path

/-- The plainest form of a path is left as it is. -/
theorem normalize_normalize (path : String) : normalize (normalize path) = normalize path := by
  rw [normalize, names_normalize, isAbsolute_normalize, reduce_of_isPlain (isPlain_reduce _),
    ← normalize]

/-- The plainest form of a joined path. -/
theorem normalize_join (directory : String) {path : String} (relative : isAbsolute path = false) :
    normalize (join directory path) =
      ofNames (isAbsolute directory) (reduce (names directory ++ names path)) := by
  rw [normalize, isAbsolute_join_of_relative directory relative, names_join_any]

/-- It does not matter whether the path is plain to which another one is joined. -/
theorem normalize_join_normalize (directory : String) {path : String}
    (relative : isAbsolute path = false) :
    normalize (join (normalize directory) path) = normalize (join directory path) := by
  rw [normalize_join _ relative, normalize_join _ relative, isAbsolute_normalize, names_normalize,
    reduce_reduce_append]

/-- Where relative paths that are written in a unit start: whether at the root, and the names down
from there. A unit without a directory leaves them where they are. -/
def base : Option String → Bool × List (List Char)
  | none => (false, [])
  | some unit => if names unit = [] then (false, []) else (isAbsolute unit, (names unit).dropLast)

/-- A relative path that is written in a unit means a path from where these start. -/
theorem resolve_eq_within {path : String} (relative : isAbsolute path = false)
    (unit : Option String) :
    resolve unit path = within (base unit).1 (base unit).2 path := by
  have alone : normalize path = within false [] path := by
    rw [normalize, relative]
    rfl
  cases unit with
  | none => exact alone
  | some unit =>
    rw [resolve, base]
    by_cases none : names unit = []
    · rw [if_pos (.inr none), if_pos none]
      exact alone
    · rw [if_neg (not_or.2 ⟨ne_true_of_eq_false relative, none⟩), if_neg none]

/-- Where paths start in a unit are names that can be read. -/
theorem isName_of_mem_base {unit : Option String} {name : List Char}
    (mem : name ∈ (base unit).2) : IsName name := by
  cases unit with
  | none => cases mem
  | some unit =>
    rw [base] at mem
    split at mem
    · cases mem
    · exact isName_of_mem_names (List.dropLast_subset _ mem)

/-- A path to a file below a directory or beside it: it is relative and ends in the name of a
file. -/
structure LeadsToFile (path : String) : Prop where
  /-- It is relative. -/
  relative : isAbsolute path = false
  /-- It ends in the name of a file. -/
  named : (fileName? path).isSome

/-- The path to the directory of a file. -/
def parent (path : String) : String := ofNames (isAbsolute path) (names path).dropLast

/-- The names on the path to the directory. -/
theorem names_parent (path : String) : names (parent path) = (names path).dropLast :=
  names_ofNames _ fun _ mem => isName_of_mem_names (List.dropLast_subset _ mem)

/-- The path to the directory starts where the path does. -/
theorem isAbsolute_parent (path : String) : isAbsolute (parent path) = isAbsolute path :=
  isAbsolute_ofNames _ fun _ mem => isName_of_mem_names (List.dropLast_subset _ mem)

/-- The last name on a path to a file leads down. -/
theorem LeadsToFile.names_eq {path : String} (leads : LeadsToFile path) :
    ∃ name, names path = (names path).dropLast ++ [name] ∧ name ≠ ['.', '.'] := by
  have named := leads.named
  rw [fileName?] at named
  split at named
  · rename_i name last
    obtain ⟨front, whole⟩ := List.getLast?_eq_some_iff.1 last
    refine ⟨name, by rw [whole, List.dropLast_concat], fun up => ?_⟩
    rw [if_pos up] at named
    cases named
  · cases named

/-- In a unit that is reached by a path, paths start in the directory to which that leads. -/
theorem base_resolve {path : String} (leads : LeadsToFile path) (unit : Option String) :
    base (some (resolve unit path)) =
      ((base unit).1, reduce ((base unit).2 ++ (names path).dropLast)) := by
  obtain ⟨name, whole, down⟩ := leads.names_eq
  have each : ∀ name ∈ (base unit).2 ++ names path, IsName name := by
    intro name mem
    exact (List.mem_append.1 mem).elim isName_of_mem_base isName_of_mem_names
  have reduced : reduce ((base unit).2 ++ names path) =
      reduce ((base unit).2 ++ (names path).dropLast) ++ [name] := by
    rw [← reduce_concat _ down, List.append_assoc, ← whole]
  have left := isName_of_mem_reduce each
  rw [resolve_eq_within leads.relative, within, base, names_ofNames _ left,
    isAbsolute_ofNames _ left, reduced, if_neg (List.concat_ne_nil _ _), List.dropLast_concat]

/-- A path that is written in a unit that was reached by another path means what the two mean
together, joined at the directory of the first. -/
theorem resolve_resolve {path next : String} (leads : LeadsToFile path)
    (relative : isAbsolute next = false) (unit : Option String) :
    resolve (some (resolve unit path)) next = resolve unit (join (parent path) next) := by
  have joined : isAbsolute (join (parent path) next) = false := by
    rw [isAbsolute_join_of_relative _ relative, isAbsolute_parent, leads.relative]
  rw [resolve_eq_within relative, resolve_eq_within joined, base_resolve leads, within, within,
    reduce_reduce_append, names_join_any, names_parent, List.append_assoc]

/-- The unit that is reached from a unit by one path after the other, each written in the unit that
the one before has led to. -/
def reach (unit : Option String) (paths : List String) : Option String :=
  paths.foldl (fun unit path => some (resolve unit path)) unit

/-- The directories of paths joined one after the other, and a last path. -/
def route (paths : List String) (path : String) : String :=
  paths.foldr (fun above rest => join (parent above) rest) path

/-- A route along relative paths is relative. -/
theorem isAbsolute_route {paths : List String} (each : ∀ path ∈ paths, LeadsToFile path)
    {path : String} (relative : isAbsolute path = false) :
    isAbsolute (route paths path) = false := by
  induction paths with
  | nil => exact relative
  | cons first rest ih =>
    obtain ⟨leads, others⟩ := List.forall_mem_cons.1 each
    rw [route, List.foldr_cons, ← route, isAbsolute_join_of_relative _ (ih others),
      isAbsolute_parent, leads.relative]

/-- However long the way is by which a unit is reached, a path that is written in it means the route
from the first unit. -/
theorem resolve_reach {paths : List String} (each : ∀ path ∈ paths, LeadsToFile path)
    {path : String} (relative : isAbsolute path = false) (unit : Option String) :
    resolve (reach unit paths) path = resolve unit (route paths path) := by
  induction paths generalizing unit with
  | nil => rfl
  | cons first rest ih =>
    obtain ⟨leads, others⟩ := List.forall_mem_cons.1 each
    have further := isAbsolute_route others relative
    calc resolve (reach unit (first :: rest)) path
        = resolve (reach (some (resolve unit first)) rest) path := rfl
      _ = resolve (some (resolve unit first)) (route rest path) := ih others _
      _ = resolve unit (route (first :: rest) path) := resolve_resolve leads further unit

end SourcePath

namespace Loader

/-- A loader in memory tells paths apart by their plainest forms. -/
theorem load_normalize (texts : Fields String) (path : String) :
    (memory texts).load (SourcePath.normalize path) = (memory texts).load path := by
  simp only [load, fullPath, SourcePath.normalize_normalize]

/-- So it has a source at a path if it has one at the plainest form of it. -/
theorem contains_normalize (texts : Fields String) (path : String) :
    (memory texts).contains (SourcePath.normalize path) = (memory texts).contains path := by
  simp only [contains, fullPath, SourcePath.normalize_normalize]

/-- Add texts one after the other, each at a path. -/
def insertAll (loader : Loader) (texts : List (String × String)) : Loader :=
  texts.foldl (fun loader (path, text) => loader.insert path text) loader

/-- Texts that are added in memory are in memory. -/
theorem exists_insertAll_memory (known : Fields String) (texts : List (String × String)) :
    ∃ after, (memory known).insertAll texts = memory after := by
  induction texts generalizing known with
  | nil => exact ⟨known, rfl⟩
  | cons entry rest ih => exact ih (Fields.insert (SourcePath.normalize entry.1) entry.2 known)

end Loader

/-- The unit that is evaluated for a context goes by the path that was asked for, as resolved in the
unit of that context. -/
theorem Engine.sourceOf_of_respondEval {caller child : ContextId} {language path : String}
    {line : Option Nat} {world opened : World} {β : Type} {program : Program β}
    {pending : Pending β (Except Fault ContextId)}
    (started : respondEval caller language path line world = .after child program opened pending) :
    opened.engine.contexts.sourceOf child =
      some (SourcePath.resolve (world.engine.contexts.sourceOf caller) path) := by
  cases known : world.engine.languages.get language with
  | error fault =>
    simp only [respondEval, known] at started
    cases started
  | ok found =>
    cases loaded : world.engine.loader.load
        (SourcePath.resolve (world.engine.contexts.sourceOf caller) path) with
    | error fault =>
      simp only [respondEval, known, loaded] at started
      cases started
    | ok text =>
      simp only [respondEval, known, loaded] at started
      rcases respondBelow_cases caller
          ⟨language, SourcePath.resolve (world.engine.contexts.sourceOf caller) path, text⟩
          world with
        ⟨fault, _, refused⟩ | ⟨found, depth, _, _, deep | begun⟩
      · rw [refused] at started
        cases started
      · rw [deep] at started
        cases started
      · rw [begun] at started
        cases started
        have added := world.engine.contexts.contexts_add_self
          (.running ⟨world.engine.contexts.count⟩ caller language
          (SourcePath.resolve (world.engine.contexts.sourceOf caller) path) depth)
        exact congrArg (Option.bind · fun context => context.source) added

namespace SourcePath

/-- The plainest form of a path is one: it has no piece that is `.`, no `..` behind another name,
starts where the path starts, and is its own plainest form. It can stand for the path: a relative
path is joined to either with the same outcome, and a loader in memory answers both alike, whatever
texts were added to it. And paths compose: whatever unit the way begins in and however many units
there are on it, each found by a relative path to a file that is written in the one before, a
relative path that is written in the last unit means the same as the directories on the way, joined
with that path and written in the first unit. Units are found in this way when a source is asked
for: the unit that is evaluated then goes by the path as resolved in the unit of the context that
asks. -/
theorem plain_paths_are_canonical (path : String) {relative : String}
    (stays : isAbsolute relative = false) :
    normalize (normalize path) = normalize path ∧
    ['.'] ∉ pieces (normalize path) ∧
    (∀ before after, names (normalize path) = before ++ ['.', '.'] :: after →
      ∀ name ∈ before, name = ['.', '.']) ∧
    isAbsolute (normalize path) = isAbsolute path ∧
    normalize (join path relative) = normalize (join (normalize path) relative) ∧
    (∀ known texts,
      ((Loader.memory known).insertAll texts).load (normalize path) =
        ((Loader.memory known).insertAll texts).load path ∧
      ((Loader.memory known).insertAll texts).contains (normalize path) =
        ((Loader.memory known).insertAll texts).contains path) ∧
    (∀ unit paths, (∀ step ∈ paths, LeadsToFile step) →
      resolve (reach unit paths) relative = resolve unit (route paths relative)) ∧
    ∀ caller child language line world opened β (program : Program β) pending,
      Engine.respondEval caller language path line world = .after child program opened pending →
      opened.engine.contexts.sourceOf child =
        some (resolve (world.engine.contexts.sourceOf caller) path) := by
  have each : ∀ name ∈ reduce (names path), IsName name :=
    isName_of_mem_reduce fun _ => isName_of_mem_names
  refine ⟨normalize_normalize path, fun dot => ?_, fun before after split => ?_,
    isAbsolute_normalize path, (normalize_join_normalize path stays).symm, fun known texts => ?_,
    fun unit paths leads => resolve_reach leads stays unit,
    fun _ _ _ _ _ _ _ _ _ started => Engine.sourceOf_of_respondEval started⟩
  · rcases mem_pieces_ofNames each dot with empty | named
    · cases empty
    · exact (each _ named).other rfl
  · rw [names_normalize] at split
    exact (isPlain_reduce _).before_up split
  · obtain ⟨after, same⟩ := Loader.exists_insertAll_memory known texts
    rw [same]
    exact ⟨Loader.load_normalize after path, Loader.contains_normalize after path⟩

/-- From a host script by way of two units a source beside them is found, as it is along the joined
path. -/
theorem source_beside_units_found :
    LeadsToFile "parts/./first.lisp" ∧ LeadsToFile "../more//second.jss" ∧
    resolve (reach (some "demo/host.lisp") ["parts/./first.lisp", "../more//second.jss"])
        "../third.jss" = "demo/third.jss" ∧
    resolve (some "demo/host.lisp")
        (route ["parts/./first.lisp", "../more//second.jss"] "../third.jss") =
      "demo/third.jss" := by
  have first : LeadsToFile "parts/./first.lisp" := ⟨by decide, by decide +kernel⟩
  have second : LeadsToFile "../more//second.jss" := ⟨by decide, by decide +kernel⟩
  have stays : isAbsolute "../third.jss" = false := by decide
  obtain ⟨_, _, _, _, _, _, composes, _⟩ := plain_paths_are_canonical "parts/./first.lisp" stays
  have composed := composes (some "demo/host.lisp") _
    (List.forall_mem_cons.2 ⟨first, List.forall_mem_singleton.2 second⟩)
  have found : resolve (some "demo/host.lisp")
      (route ["parts/./first.lisp", "../more//second.jss"] "../third.jss") = "demo/third.jss" := by
    decide +kernel
  exact ⟨first, second, composed.trans found, found⟩

end SourcePath

end Interchange
