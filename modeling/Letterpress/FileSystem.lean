import Letterpress.FileTree
import Letterpress.Path

/-! File systems: a tree of files and a working directory in it. A path is followed part by part, from the
    root of the tree if it is absolute and from the working directory if it is not. There are no links, so a
    place says how it has been reached. -/

namespace Letterpress

/-- A tree of files, and the place of the working directory in it. -/
structure FileSystem where
  root : FileTree
  here : List String

/-- What can be asked of a file system: whether a file or a directory stands under a path. -/
structure Probe where
  isFile : String → Bool
  isDirectory : String → Bool

namespace FileSystem

/-! ### Finding -/

/-- Where a part of a path leads to, if it leads anywhere. Above the root is the root. -/
def advance (place : List String) (part : String) : List String :=
  if Path.isIdle part then place
  else if part = ".." then place.dropLast
  else place ++ [part]

/-- Goes on from a place by one part of a path: from a directory, and to something that is there. -/
def step? (root : FileTree) (place : List String) (part : String) : Option (List String) :=
  match root.at? place with
  | some (.directory _) => if (root.at? (advance place part)).isSome then some (advance place part) else none
  | _ => none

/-- Where a path starts from. -/
def start (fs : FileSystem) (path : String) : List String :=
  if Path.isAbsolute path then [] else fs.here

/-- The place that a path leads to. -/
def place? (fs : FileSystem) (path : String) : Option (List String) :=
  if path.isEmpty then none else (Path.parts path).foldlM (step? fs.root) (fs.start path)

/-- What a path leads to. -/
def find? (fs : FileSystem) (path : String) : Option FileTree :=
  (fs.place? path).bind fs.root.at?

/-- A file stands under the path. -/
def isFile (fs : FileSystem) (path : String) : Bool :=
  match fs.find? path with
  | some (.file _) => true
  | _ => false

/-- A directory stands under the path. -/
def isDirectory (fs : FileSystem) (path : String) : Bool :=
  match fs.find? path with
  | some (.directory _) => true
  | _ => false

/-- The bytes of the file under the path. -/
def read? (fs : FileSystem) (path : String) : Option ByteArray :=
  match fs.find? path with
  | some (.file content) => some content
  | _ => none

/-- The answers of a file system. -/
def probe (fs : FileSystem) : Probe :=
  ⟨fs.isFile, fs.isDirectory⟩

/-! ### Writing -/

/-- Goes the steps of a path from a place and makes the directories that are missing. A file in the way ends
    it; the directories made before it stay. -/
def makeWay (root : FileTree) (place : List String) : List Path.Component → FileTree × Option (List String)
  | [] => (root, some place)
  | .root :: steps => makeWay root [] steps
  | .here :: steps => makeWay root place steps
  | .parent :: steps => makeWay root place.dropLast steps
  | .name text :: steps =>
    match root.makeDirectories (place ++ [text]) with
    | some grown => makeWay grown (place ++ [text]) steps
    | none => (root, none)

/-- Makes the directories of a path that are missing, and gives the place that it leads to then. -/
def makeDirectory (fs : FileSystem) (path : String) : FileSystem × Option (List String) :=
  let (root, place) := makeWay fs.root fs.here (Path.components path)
  ({ fs with root }, place)

/-- Puts a file at a place; there is none if a directory stands there. -/
def putFile? (fs : FileSystem) (place : List String) (content : ByteArray) : Option FileSystem :=
  (fs.root.putFile content place).map fun root => { fs with root }

end FileSystem
end Letterpress
