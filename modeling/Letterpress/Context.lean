import Letterpress.FileSystem

/-! What templates can see of the site around them: its two root directories, which of their files exist,
    and how deep instances and loops may nest. -/

namespace Letterpress

/-- The surroundings of an expansion. -/
structure Context where
  sourceRoot : String := "src"
  fileRoot : String := "www"
  maxDepth : Nat := 64
  loopLimit : Nat := 1000
  probe : Probe

namespace Context

/-- A file stands under the path seen from the file root. -/
def hasFile (ctx : Context) (path : String) : Bool :=
  (Path.joinUnder ctx.fileRoot path).any ctx.probe.isFile

/-- A file stands under the path seen from the source root. -/
def hasSourceFile (ctx : Context) (path : String) : Bool :=
  (Path.joinUnder ctx.sourceRoot path).any ctx.probe.isFile

/-- A directory stands under the path seen from the source root. -/
def hasSourceDirectory (ctx : Context) (path : String) : Bool :=
  (Path.joinUnder ctx.sourceRoot path).any ctx.probe.isDirectory

end Context
end Letterpress
