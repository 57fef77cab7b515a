import Interchange.FileSystem

/-!
# Loaders of sources

Where an engine gets source texts from: a table of texts in memory, in which a path and its
plainest form are the same, or the files below a root directory. A host could bring a loader of its
own, which is any code at all; such a loader has no place here, so sources are refused in no other
way than these two refuse them.
-/
namespace Interchange

/-- Where sources come from. -/
inductive Loader where
  /-- Texts by path, the paths in their plainest form. -/
  | memory (texts : Fields String)
  /-- Files; relative paths start from the root if there is one. -/
  | files (disk : Disk) (root : Option String)

namespace Loader

/-- The loader of texts given with their paths. -/
def ofTexts (texts : List (String × String)) : Loader :=
  memory (texts.foldl (fun known (path, text) =>
    Fields.insert (SourcePath.normalize path) text known) [])

/-- Add a text; a loader of files has no place for it. -/
def insert (path text : String) : Loader → Loader
  | memory texts => memory (Fields.insert (SourcePath.normalize path) text texts)
  | other => other

/-- The path that a loader looks a source up by. -/
def fullPath (path : String) : Loader → String
  | memory _ => SourcePath.normalize path
  | files _ none => path
  | files _ (some root) => if SourcePath.isAbsolute path then path else SourcePath.join root path

/-- The text of a source. -/
def load (loader : Loader) (path : String) : Except Fault String :=
  match loader with
  | memory texts =>
    Fault.orElse (.sourceNotFound (loader.fullPath path) none)
      (Fields.find? (loader.fullPath path) texts)
  | files disk _ =>
    (disk.read (loader.fullPath path)).mapError fun cause =>
      .sourceNotFound (loader.fullPath path) (some cause)

/-- Whether there is a source at a path. -/
def contains (loader : Loader) (path : String) : Bool :=
  match loader with
  | memory texts => (Fields.find? (loader.fullPath path) texts).isSome
  | files disk _ => disk.isFile (loader.fullPath path)

end Loader

end Interchange
