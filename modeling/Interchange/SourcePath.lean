import Interchange.Text.Split

/-!
# Paths of sources

Paths are texts with slashes between names. They are read lexically: repeated slashes and the
name `.` mean nothing, and `..` takes back the name before it. Where there is no name to take
back, `..` is kept; a kept `..` is itself a name that a further `..` takes back.
-/
namespace Interchange.SourcePath

/-- The pieces of a path between its slashes. -/
def pieces (path : String) : List (List Char) := Text.splitAll '/' path.toList

/-- Whether a path starts at the root. -/
def isAbsolute (path : String) : Bool := path.toList.head? == some '/'

/-- The names on a path, without the pieces that mean nothing. -/
def names (path : String) : List (List Char) :=
  (pieces path).filter fun piece => piece ≠ [] && piece ≠ ['.']

/-- The path with the given names. -/
def ofNames (absolute : Bool) (names : List (List Char)) : String :=
  String.ofList ((if absolute then ['/'] else []) ++ List.intercalate ['/'] names)

/-- Follow one more name from a place given by its names in reverse. -/
def follow (place : List (List Char)) (name : List Char) : List (List Char) :=
  if name = ['.', '.'] then
    match place with
    | [] => [name]
    | _ :: above => above
  else name :: place

/-- The names that are left when every `..` that can has taken back the name before it. -/
def reduce (names : List (List Char)) : List (List Char) := (names.foldl follow []).reverse

/-- The same path in its plainest form. -/
def normalize (path : String) : String := ofNames (isAbsolute path) (reduce (names path))

/-- A path inside the directory given by names, as a plain path. -/
def within (absolute : Bool) (directory : List (List Char)) (path : String) : String :=
  ofNames absolute (reduce (directory ++ names path))

/-- The path that a text written in a source means: relative to the directory of that source if
there is one. A source path without a name in it has no directory. -/
def resolve (including : Option String) (path : String) : String :=
  match including with
  | none => normalize path
  | some source =>
    if isAbsolute path ∨ names source = [] then normalize path
    else within (isAbsolute source) (names source).dropLast path

/-- A path inside a root directory, joined as texts. -/
def join (root path : String) : String :=
  if root.isEmpty ∨ root.toList.getLast? = some '/' then root ++ path else root ++ "/" ++ path

/-- The name of the file at the end of a path, unless the path ends in `..`. -/
def fileName? (path : String) : Option (List Char) :=
  match (names path).getLast? with
  | some name => if name = ['.', '.'] then none else some name
  | none => none

/-- A file name cut at its last dot: what stands before it and after it. A dot in front does not
count. -/
def cutName (name : List Char) : List Char × Option (List Char) :=
  let after := (name.reverse.takeWhile (· ≠ '.')).reverse
  let before := name.take (name.length - after.length - 1)
  if after.length = name.length ∨ before = [] then (name, none) else (before, some after)

/-- What follows the last dot of the file name; the empty text if there is none. -/
def fileExtension (path : String) : String :=
  match (fileName? path).bind fun name => (cutName name).2 with
  | some found => String.ofList found
  | none => ""

/-- Whether a path names a host script: the file name without its extension ends in `host`. -/
def isHost (path : String) : Bool :=
  match fileName? path with
  | some name => ['h', 'o', 's', 't'].isSuffixOf (cutName name).1
  | none => false

end Interchange.SourcePath
