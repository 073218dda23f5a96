import Letterpress.Config
import Letterpress.Page

/-! Building a site. All templates under the source directory are loaded, then every page there is
    generated and written to its place under the output directory. A file that fails is reported, and the
    others go on. -/

namespace Letterpress
namespace Site

/-! ### Finding files -/

/-- The name ends with the suffix and is longer than it. -/
def hasSuffix (suffix name : String) : Bool :=
  suffix.toList.length < name.toList.length && suffix.toList.isSuffixOf name.toList

/-- What was found in the entries of a directory, in the order of their names. -/
def inNameOrder (found : List (String × List String)) : List String :=
  (found.mergeSort fun a b => !decide (b.1 < a.1)).flatMap (·.2)

mutual

/-- The paths of the files with the suffix in a tree of this path and name. -/
def filesBelow (suffix path name : String) : FileTree → List String
  | .file _ => if hasSuffix suffix name then [path] else []
  | .directory entries => inNameOrder (filesOfEntries suffix path entries)

/-- For each entry of the directory of this path the paths of the files with the suffix in it. -/
def filesOfEntries (suffix path : String) : List (String × FileTree) → List (String × List String)
  | [] => []
  | (name, tree) :: entries =>
    (name, filesBelow suffix (Path.join path name) name tree) :: filesOfEntries suffix path entries

end

/-- The paths of the files under a directory whose names have the suffix. Each directory is walked in the
    order of its names. -/
def findFiles (files : FileSystem) (root suffix : String) : List String :=
  match files.find? root with
  | some (.directory entries) => inNameOrder (filesOfEntries suffix root entries)
  | _ => []

/-! ### Output paths -/

/-- Why a page has no output path. -/
inductive PathFault where
  | notUnderSource (page source : String)
  | noFileName (page : String)
  | noSuffix (page suffix : String)
  deriving Repr, DecidableEq

/-- The fault in words. -/
def PathFault.message : PathFault → String
  | notUnderSource page source => s!"{page} is not under the source directory {source}"
  | noFileName page => s!"invalid page file name {page}"
  | noSuffix page suffix => s!"{page} does not end with {suffix}"

/-- The name without the suffix at its end. -/
def stem? (suffix name : String) : Option String :=
  if suffix.toList.isSuffixOf name.toList then
    some (String.ofList (name.toList.take (name.toList.length - suffix.toList.length)))
  else none

/-- Where a page is written: in the place under the output directory that the page has under the source
    directory, with another suffix. -/
def outputPath (config : Config) (page : String) : Except PathFault String :=
  match Path.stripBase? config.source page with
  | none => .error (.notUnderSource page config.source)
  | some relative =>
    match Path.fileName? relative with
    | none => .error (.noFileName page)
    | some name =>
      match stem? config.pageSuffix name with
      | none => .error (.noSuffix page config.pageSuffix)
      | some stem => .ok (Path.withFileName (Path.join config.output relative) (stem ++ ".html"))

/-! ### Reports -/

/-- Why a file fails. -/
inductive Failure where
  | notText (path : String)
  | template (path : String) (error : Error)
  | page (path : String) (error : Error)
  | output (fault : PathFault)
  | directory (path : String)
  | write (path : String)
  deriving Repr, DecidableEq

/-- The failure in words. -/
def Failure.message : Failure → String
  | notText path =>
    s!"{path}: stream did not contain valid UTF-8: stream did not contain valid UTF-8"
  | template path error => s!"failed to load {path}: {error.message}"
  | page path error => s!"failed to generate {path}: {error.message}"
  | output fault => fault.message
  | directory path => s!"failed to create {path}: Not a directory (os error 20)"
  | write path => s!"failed to write {path}: Is a directory (os error 21)"

/-- What a build reports on its way. -/
inductive Notice where
  | reading (file : String)
  | registered (template : String)
  | noTemplates (source : String)
  | unresolved (template marker : String)
  | wrote (page output : String)
  | failed (file : String) (failure : Failure)
  | finished (templates pages failures : Nat)
  deriving Repr, DecidableEq

/-- How much a notice matters. -/
inductive Level where
  | info
  | warning
  | error
  deriving Repr, DecidableEq

namespace Notice

/-- How much the notice matters. -/
def level : Notice → Level
  | noTemplates .. | unresolved .. => .warning
  | failed .. => .error
  | _ => .info

/-- The notice in words. -/
def message : Notice → String
  | reading _ => "reading templates"
  | registered _ => "registered template"
  | noTemplates _ => "no templates were loaded"
  | unresolved .. => "placeholder left unresolved"
  | wrote .. => "wrote page"
  | failed _ failure => failure.message
  | finished .. => "build finished"

/-- What the notice is about, by name. -/
def fields : Notice → List (String × String)
  | reading file => [("file", file)]
  | registered template => [("template", template)]
  | noTemplates source => [("source", source)]
  | unresolved template marker => [("template", template), ("placeholder", marker)]
  | wrote page output => [("page", page), ("output", output)]
  | failed file _ => [("file", file)]
  | finished templates pages failures =>
    [("templates", toString templates), ("pages", toString pages), ("failures", toString failures)]

end Notice

/-- The counts of a finished build. -/
structure Report where
  templates : Nat
  pages : Nat
  failures : Nat
  deriving Repr, DecidableEq

/-! ### Building -/

/-- A build on its way: the files as they are now, the templates loaded, what has been reported, and how
    many pages were written and files failed. -/
structure Progress where
  files : FileSystem
  registry : Registry := {}
  notices : List Notice := []
  pages : Nat := 0
  failures : Nat := 0

namespace Progress

/-- Reports something. -/
def report (p : Progress) (notices : List Notice) : Progress :=
  { p with notices := p.notices ++ notices }

/-- Reports that a file failed. -/
def fail (p : Progress) (file : String) (failure : Failure) : Progress :=
  { p.report [.failed file failure] with failures := p.failures + 1 }

end Progress

/-- The text of a file. -/
def readText (files : FileSystem) (path : String) : Except Failure String :=
  match (files.read? path).bind String.fromUTF8? with
  | some text => .ok text
  | none => .error (.notText path)

/-- Loads the templates of a file. -/
def loadTemplates (p : Progress) (path : String) : Progress :=
  let p := p.report [.reading path]
  match readText p.files path with
  | .error failure => p.fail path failure
  | .ok text =>
    let (registry, result) := p.registry.loadFile path text
    -- If a name is taken, the templates before it have been added all the same.
    let added := registry.templates.drop p.registry.templates.length
    let p := { p.report (added.map fun t => .registered t.name) with registry }
    match result with
    | .ok _ => p
    | .error e => p.fail path (.template path e)

/-- How the pages of the site are laid out. -/
def layout (config : Config) : Markup.Layout :=
  if config.indent then .indented else .compact

/-- Generates a page from its file: what is reported on the way, and its text. -/
def generate (config : Config) (registry : Registry) (files : FileSystem) (path : String) :
    List Notice × Except Failure String :=
  match readText files path with
  | .error failure => ([], .error failure)
  | .ok text =>
    let rendered := Page.render registry (config.context files.probe) (layout config) text
    (rendered.warnings.map fun w => .unresolved w.template w.marker, rendered.result.mapError (.page path))

/-- Writes a file, in directories that are made if they are missing. -/
def write (files : FileSystem) (path content : String) : FileSystem × Except Failure Unit :=
  -- The directories stay, whatever comes of the file.
  match files.makeDirectory (Path.directory path) with
  | (files, none) => (files, .error (.directory (Path.directory path)))
  | (files, some place) =>
    match (Path.fileName? path).bind fun name => files.putFile? (place ++ [name]) content.toUTF8 with
    | none => (files, .error (.write path))
    | some files => (files, .ok ())

/-- Generates a page and writes it. -/
def buildPage (config : Config) (p : Progress) (path : String) : Progress :=
  let (notices, result) := generate config p.registry p.files path
  let p := p.report notices
  match result with
  | .error failure => p.fail path failure
  | .ok html =>
    match outputPath config path with
    | .error fault => p.fail path (.output fault)
    | .ok output =>
      match write p.files output html with
      | (files, .error failure) => { p with files }.fail path failure
      | (files, .ok ()) => { p.report [.wrote path output] with files, pages := p.pages + 1 }

/-- Loads all templates of a site with these files. -/
def loadAll (config : Config) (files : FileSystem) : Progress :=
  let p := (findFiles files config.source config.templateSuffix).foldl loadTemplates { files }
  if p.registry.size = 0 then p.report [.noTemplates config.source] else p

/-- Loads all templates and builds all pages of a site with these files. -/
def buildAll (config : Config) (files : FileSystem) : Progress :=
  let p := loadAll config files
  (findFiles p.files config.source config.pageSuffix).foldl (buildPage config) p

/-- The counts of a build. -/
def Progress.counts (p : Progress) : Report :=
  ⟨p.registry.size, p.pages, p.failures⟩

/-- What a build leaves behind: its counts, what it reported, and the files. -/
structure Built where
  report : Report
  notices : List Notice
  files : FileSystem

/-- Builds a site with these files. Without a source directory there is nothing to build, and the path of
    that directory is the error. -/
def build (config : Config) (files : FileSystem) : Except String Built :=
  if files.isDirectory config.source then
    let p := buildAll config files
    let report := p.counts
    .ok ⟨report, p.notices ++ [.finished report.templates report.pages report.failures], p.files⟩
  else .error config.source

/-- That there is no source directory, in words. -/
def noSourceMessage (source : String) : String :=
  s!"source directory {source} does not exist"

end Site
end Letterpress
