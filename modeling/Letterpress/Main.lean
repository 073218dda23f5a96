import Letterpress.CommandLine

/-! The program: it reads the files under the working directory, runs on them with the arguments it is
    given, and writes the files that have changed. -/

namespace Letterpress
namespace Main

/-- Reads the files under a directory. -/
partial def readTree (entries : Array IO.FS.DirEntry) : IO FileTree := do
  let mut found : List (String × FileTree) := []
  for entry in entries do
    if ← entry.path.isDir then
      found := (entry.fileName, ← readTree (← entry.path.readDir)) :: found
    else
      found := (entry.fileName, .file (← IO.FS.readBinFile entry.path)) :: found
  return .directory found

/-- The working directory with its files. What else there is on the machine is not seen. -/
def currentFiles : IO FileSystem := do
  let here ← IO.currentDir
  let names := (Path.parts here.toString).filter (!Path.isIdle ·)
  let tree ← readTree (← here.readDir)
  return ⟨names.foldr (fun name tree => .directory [(name, tree)]) tree, names⟩

/-- Writes the files that have changed. -/
def writeChanges (before after : FileSystem) : IO Unit := do
  let old := before.root.files
  for (names, content) in after.root.files do
    unless (old.lookup names).any (· == content) do
      let pathOf (names : List String) := "/" ++ Path.ofParts names
      IO.FS.createDirAll (pathOf names.dropLast)
      IO.FS.writeBinFile (pathOf names) content

/-- The line that says how much a notice matters. -/
def levelName : Site.Level → String
  | .info => "INFO"
  | .warning => "WARN"
  | .error => "ERROR"

/-- A notice on one line. -/
def line (n : Site.Notice) : String :=
  String.intercalate " "
    (levelName n.level :: n.message :: n.fields.map fun (name, value) => s!"{name}={value}")

/-- Prints what a run came to. -/
def print : CommandLine.Outcome → IO Unit
  | .misused fault => IO.eprintln s!"error: {fault.message}"
  | .helped => IO.print CommandLine.usage
  | .failed fault => IO.println s!"ERROR {fault.message}"
  | .built result => result.notices.forM fun n => IO.println (line n)

end Main
end Letterpress

/-- Runs the program. -/
def main (arguments : List String) : IO UInt32 := do
  let before ← Letterpress.Main.currentFiles
  let outcome := Letterpress.CommandLine.run arguments before
  Letterpress.Main.print outcome
  Letterpress.Main.writeChanges before (outcome.files before)
  return outcome.exitCode.toUInt32
