import Interchange.FileTree
import Interchange.SourcePath

/-!
# The file system around a working directory

Everything below the root, and the names that lead from the root to the working directory. Reading
a path walks it name by name, an absolute one from the root and any other one from the working
directory, so every directory on the way has to be there, and a slash after a file is a fault.
Above the root there is only the root. There are no links, so a place is known by the names that
lead to it from the root (`FileSystem.place`).
-/
namespace Interchange

/-- What a loader of files needs to know of the file system. -/
structure Disk where
  /-- The text of the file at a path. -/
  read : String → Except IoFault String
  /-- Whether there is a file at a path. -/
  isFile : String → Bool

/-- A file system as it is seen from a working directory. Where nothing else is said, that lies far
enough below the root for paths that lead upwards, and nothing is in it. -/
structure FileSystem where
  /-- The names that lead from the root to the working directory. -/
  working : List String := List.replicate 8 "work"
  /-- What is in the root. -/
  entries : List (String × FileTree) := (FileTree.empty.insert working .empty).entries

namespace FileSystem

/-- A place on a walk. -/
structure Trail where
  /-- What is there. -/
  here : FileTree
  /-- The directories it lies in, the innermost first. The root lies in none. -/
  above : List FileTree

/-- One level up; from the root that is the root. -/
def Trail.up : Trail → Trail
  | ⟨here, []⟩ => ⟨here, []⟩
  | ⟨_, parent :: above⟩ => ⟨parent, above⟩

/-- Down to what has a name in the directory. -/
def Trail.down (trail : Trail) (name : String) : Except IoFault Trail := do
  let found ← trail.here.entry name
  return ⟨found, trail.here :: trail.above⟩

/-- Follow one piece of a path. -/
def step (trail : Trail) (piece : List Char) : Except IoFault Trail :=
  match trail.here with
  | .file _ => .error .notDirectory
  | .directory _ =>
    if piece = [] ∨ piece = ['.'] then .ok trail
    else if piece = ['.', '.'] then .ok trail.up
    else trail.down (String.ofList piece)

/-- How many bytes a path must not reach. -/
def pathLimit : Nat := 4096

/-- Refuse a path that is too long, empty or broken by a null character. -/
def checkPath (path : String) : Except IoFault Unit :=
  if path.toList.contains '\x00' then .error .nullInPath
  else if path.isEmpty then .error .notFound
  else if pathLimit ≤ path.utf8ByteSize then .error .nameTooLong
  else .ok ()

/-- The root. -/
def origin (system : FileSystem) : Trail := ⟨.directory system.entries, []⟩

/-- The working directory, if it is there. -/
def home (system : FileSystem) : Except IoFault Trail :=
  (system.working.map String.toList).foldlM step system.origin

/-- Where the walk of a path starts: at the root or in the working directory. -/
def start (system : FileSystem) (path : String) : Except IoFault Trail :=
  if SourcePath.isAbsolute path then .ok system.origin else system.home

/-- Walk a path. -/
def walk (system : FileSystem) (path : String) : Except IoFault Trail := do
  checkPath path
  (SourcePath.pieces path).foldlM step (← system.start path)

/-- The text of the file at a path. -/
def read (system : FileSystem) (path : String) : Except IoFault String := do
  match ← system.walk path with
  | ⟨.file (some text), _⟩ => .ok text
  | ⟨.file none, _⟩ => .error .invalidText
  | ⟨.directory _, _⟩ => .error .isDirectory

/-- Whether there is a file at a path. -/
def isFile (system : FileSystem) (path : String) : Bool :=
  match system.walk path with
  | .ok ⟨.file _, _⟩ => true
  | _ => false

/-- The file system as a loader of files sees it. -/
def disk (system : FileSystem) : Disk := ⟨system.read, system.isFile⟩

/-- The names of the entries of the directory at a path, sorted. -/
def list (system : FileSystem) (path : String) : Except IoFault (List String) := do
  match ← system.walk path with
  | ⟨.directory entries, _⟩ => .ok (Fields.names (Fields.sorted entries))
  | ⟨.file _, _⟩ => .error .notDirectory

/-- Follow one more piece from a place, which is known by the names that lead to it from the root,
the last one first. -/
def follow (names : List String) (piece : List Char) : List String :=
  if piece = [] ∨ piece = ['.'] then names
  else if piece = ['.', '.'] then names.tail
  else String.ofList piece :: names

/-- The names that lead from the root to the place that a path means. -/
def place (system : FileSystem) (path : String) : List String :=
  let start := if SourcePath.isAbsolute path then [] else system.working.reverse
  ((SourcePath.pieces path).foldl follow start).reverse

/-- Put a file or directory at a path, making the directories on the way. Nothing takes the place of
the root. -/
def add (content : FileTree) (path : String) (system : FileSystem) : FileSystem :=
  match system.place path with
  | [] => system
  | names =>
    { system with entries := (content.insert names (.directory system.entries)).entries }

/-- Make the directory at a path, if nothing is there. -/
def makeDirectory (path : String) (system : FileSystem) : FileSystem :=
  match system.walk path with
  | .ok _ => system
  | .error _ => system.add .empty path

/-- Open the file at a path for appending, making it if its directory is there. A path that ends
in a slash or in a dot never names a file, which shows as soon as the directory is found. -/
def openForAppending (system : FileSystem) (path : String) : Except IoFault FileSystem := do
  checkPath path
  let reversed := (SourcePath.pieces path).reverse
  match reversed.dropWhile (· = []) with
  | [] => .error .isDirectory
  | name :: above =>
    let trail ← above.reverse.foldlM step (← system.start path)
    match trail.here with
    | .file _ => .error .notDirectory
    | .directory _ =>
      if reversed.head? = some [] ∨ name = ['.'] ∨ name = ['.', '.'] then .error .isDirectory
      else match step trail name with
        | .ok ⟨.file _, _⟩ => .ok system
        | .ok ⟨.directory _, _⟩ => .error .isDirectory
        | .error .notFound => .ok (system.add (.file (some "")) path)
        | .error fault => .error fault

/-- Put a text behind what the file at a path holds. Bytes that are no text do not become one. -/
def append (path text : String) (system : FileSystem) : FileSystem :=
  match system.walk path with
  | .ok ⟨.file content, _⟩ => system.add (.file (content.map (· ++ text))) path
  | _ => system

end FileSystem

end Interchange
