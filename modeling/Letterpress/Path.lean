import Letterpress.Text.Blank

/-! Paths as text, their parts separated by slashes. Empty parts and single dots say nothing, except that
    a relative path may start with a dot; two dots lead to the parent directory. -/

namespace Letterpress
namespace Path

/-- A step that a path takes. -/
inductive Component where
  | root
  | here
  | parent
  | name (text : String)
  deriving Repr, DecidableEq

/-- The parts of a path between its slashes. -/
def parts (path : String) : List String :=
  Text.split (· == '/') path

/-- The step that a part behind the first one takes, if it takes one. -/
def Component.ofPart? : String → Option Component
  | "" => none
  | "." => none
  | ".." => some parent
  | text => some (name text)

/-- The steps of a path. -/
def components (path : String) : List Component :=
  match parts path with
  | [] => []
  | [""] => []
  | "" :: rest => .root :: rest.filterMap Component.ofPart?
  | "." :: rest => .here :: rest.filterMap Component.ofPart?
  | first :: rest => (first :: rest).filterMap Component.ofPart?

/-- The path begins at the root of the file system. -/
def isAbsolute (path : String) : Bool :=
  path.toList.head? == some '/'

/-- The second path seen from the first one; an absolute path stays as it is. -/
def join (base path : String) : String :=
  if isAbsolute path || base.isEmpty then path
  else if base.toList.getLast? = some '/' then base ++ path
  else base ++ "/" ++ path

/-- The path without the slashes at its start. -/
def relative (path : String) : String :=
  String.ofList (path.toList.dropWhile (· == '/'))

/-- The path seen from a root directory, whatever slashes it starts with. A path that would go to the
    parent of any directory on its way is refused, so the result never leaves the root. -/
def joinUnder (root path : String) : Option String :=
  if (components (relative path)).all fun
    | .name _ | .here => true
    | .root | .parent => false
  then some (join root (relative path)) else none

/-- The part says nothing behind another one. -/
def isIdle (part : String) : Bool :=
  part == "" || part == "."

/-- The parts put together again. -/
def ofParts (ps : List String) : String :=
  String.intercalate "/" ps

/-- The parts without the idle ones at their end; the first part stays. -/
def trimParts : List String → List String
  | [] => []
  | first :: rest => first :: (rest.reverse.dropWhile isIdle).reverse

/-- The parts behind the first `count` steps, without idle ones before them. -/
def dropSteps : Nat → List String → List String
  | _, [] => []
  | 0, part :: ps => if isIdle part then dropSteps 0 ps else part :: ps
  | count + 1, part :: ps => dropSteps (if isIdle part then count + 1 else count) ps

/-- The path as it is seen from the base, if the steps of the base come first in it. -/
def stripBase? (base path : String) : Option String :=
  let steps := components base
  if steps.isPrefixOf (components path) then
    match parts path with
    | [] => some ""
    | first :: rest =>
      if steps.isEmpty then some (ofParts (trimParts (first :: rest)))
      else
        -- the first part takes a step even if it is idle behind another one
        some (ofParts (trimParts (dropSteps (steps.length - 1) rest)))
  else none

/-- The name at the end of a path; there is none if the last step is no name. -/
def fileName? (path : String) : Option String :=
  match (components path).getLast? with
  | some (.name text) => some text
  | _ => none

/-- The directory that the last step of a path starts from. -/
def directory (path : String) : String :=
  match parts path with
  | [] => ""
  | first :: rest =>
    match (rest.reverse.dropWhile isIdle) with
    | [] => ""
    | _ :: before =>
      let kept := first :: (before.dropWhile isIdle).reverse
      -- Put together, the part before the first slash alone would be the empty path.
      if kept = [""] then "/" else ofParts kept

/-- The path with the name at its end replaced. -/
def withFileName (path name : String) : String :=
  match fileName? path with
  | some _ => join (directory path) name
  | none => join path name

end Path
end Letterpress
