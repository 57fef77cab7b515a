import Interchange.Fault
import Interchange.Fields

/-!
# Files and directories

A directory with everything in it as a tree. Trees are read by `FileTree.entry` and changed by
`FileTree.insert`, which makes the directories on the way.
-/
namespace Interchange

/-- A file or a directory. -/
inductive FileTree where
  /-- A file; bytes that are no text count as no content. -/
  | file (content : Option String)
  /-- A directory with its entries by name. -/
  | directory (entries : List (String × FileTree))
  deriving Inhabited

namespace FileTree

/-- The empty directory. -/
def empty : FileTree := directory []

/-- What is in a directory; in a file there is nothing. -/
def entries : FileTree → List (String × FileTree)
  | file _ => []
  | directory entries => entries

/-- What has a name in a directory, and why nothing has. -/
def entry : FileTree → String → Except IoFault FileTree
  | file _, _ => .error .notDirectory
  | directory entries, name =>
    if 255 < name.utf8ByteSize then .error .nameTooLong
    else match Fields.find? name entries with
      | some found => .ok found
      | none => .error .notFound

/-- Put a tree at the place that names lead to, making the directories on the way. -/
def insert (content : FileTree) : List String → FileTree → FileTree
  | [], _ => content
  | name :: rest, directory entries =>
    directory (Fields.insert name
      (insert content rest ((Fields.find? name entries).getD empty)) entries)
  | name :: rest, file _ => directory [(name, insert content rest empty)]

end FileTree

end Interchange
