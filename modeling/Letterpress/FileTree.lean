/-! File trees: directories of named entries, files of bytes. What stands in a tree stands at a place, which
    is given by the names that lead to it. -/

namespace Letterpress

/-- A file or a directory. -/
inductive FileTree where
  | file (content : ByteArray)
  | directory (entries : List (String × FileTree))

namespace FileTree

/-- The tree with nothing in it. -/
def empty : FileTree :=
  directory []

/-- What stands at a place. -/
def at? : FileTree → List String → Option FileTree
  | tree, [] => some tree
  | file _, _ :: _ => none
  | directory entries, name :: names =>
    match entries.lookup name with
    | some inner => inner.at? names
    | none => none

/-- Puts an entry into a directory, in the place of the one with its name or at the end. -/
def putEntry (name : String) (tree : FileTree) : List (String × FileTree) → List (String × FileTree)
  | [] => [(name, tree)]
  | other :: entries =>
    if other.1 = name then (name, tree) :: entries else other :: putEntry name tree entries

/-- Makes the directories of these names, one inside the other, where they are missing. -/
def makeDirectories : List String → FileTree → Option FileTree
  | [], directory entries => some (directory entries)
  | name :: names, directory entries =>
    ((entries.lookup name).getD empty |> makeDirectories names).map
      fun inner => directory (putEntry name inner entries)
  | _, file _ => none

/-- Puts a file under these names, whose directories have to be there. -/
def putFile (content : ByteArray) : List String → FileTree → Option FileTree
  | [name], directory entries =>
    match entries.lookup name with
    | some (directory _) => none
    | _ => some (directory (putEntry name (file content) entries))
  | name :: names, directory entries => do
    let inner ← entries.lookup name
    let inner ← putFile content names inner
    some (directory (putEntry name inner entries))
  | _, _ => none

/-- Takes away what stands under these names. -/
def removeAt : List String → FileTree → Option FileTree
  | [name], directory entries =>
    if (entries.lookup name).isSome then some (directory (entries.filter (·.1 ≠ name))) else none
  | name :: names, directory entries => do
    let inner ← entries.lookup name
    let inner ← removeAt names inner
    some (directory (putEntry name inner entries))
  | _, _ => none

mutual

/-- The files of a tree under their paths, behind the path of the tree itself. -/
def filesUnder (path : List String) : FileTree → List (List String × ByteArray)
  | file content => [(path, content)]
  | directory entries => filesOf path entries

/-- The files of the entries of a directory under their paths. -/
def filesOf (path : List String) : List (String × FileTree) → List (List String × ByteArray)
  | [] => []
  | (name, tree) :: entries => filesUnder (path ++ [name]) tree ++ filesOf path entries

end

/-- The files of a tree under their paths. -/
def files (tree : FileTree) : List (List String × ByteArray) :=
  filesUnder [] tree

end FileTree
end Letterpress
