import Letterpress.Context
import Letterpress.Yaml.Document

/-! The configuration of a site: where its sources are and its pages go, the names that tell templates and
    pages from other files, and how pages are written. It is read from a YAML text with one mapping, whose
    keys are settings; what it does not set has a default. -/

namespace Letterpress

/-- A configuration. Files that pages refer to are looked for in a root of their own or else among the
    pages written. How deep loops may nest is no setting of a file. -/
structure Config where
  source : String := "src"
  output : String := "www"
  files : Option String := none
  templateSuffix : String := ".template.xml"
  pageSuffix : String := ".page.xml"
  maxDepth : Nat := 64
  loopLimit : Nat := 1000
  indent : Bool := true
  deriving Repr, DecidableEq

namespace Config

/-- The directory in which files that pages refer to are looked for. -/
def fileRoot (c : Config) : String :=
  c.files.getD c.output

/-- What templates see of a site with these files. -/
def context (c : Config) (probe : Probe) : Context :=
  { sourceRoot := c.source, fileRoot := c.fileRoot, maxDepth := c.maxDepth, loopLimit := c.loopLimit, probe }

/-! ### Reading -/

/-- Why a configuration is refused. -/
inductive Fault where
  | notYaml
  | severalDocuments
  | notAMapping
  | keyNotText
  | unknownKey (key : String)
  | notText (key : String)
  | notInteger (key : String)
  | negative (key : String)
  | notBoolean (key : String)
  deriving Repr, DecidableEq

/-- The fault in words. -/
def Fault.message : Fault → String
  | notYaml => "not a YAML text"
  | severalDocuments => "config yaml must only have a single document"
  | notAMapping => "config yaml must be a map"
  | keyNotText => "config keys must be strings"
  | unknownKey key => s!"unknown config key '{key}'"
  | notText key => s!"'{key}' must be a string"
  | notInteger key => s!"'{key}' must be an integer"
  | negative key => s!"'{key}' must not be negative: number too small to fit in target type"
  | notBoolean key => s!"'{key}' must be true or false"

/-- The text that a setting has to be. -/
def text (key : String) : Yaml → Except Fault String
  | .text content => .ok content
  | _ => .error (.notText key)

/-- The natural number that a setting has to be. -/
def natural (key : String) : Yaml → Except Fault Nat
  | .integer n => if n < 0 then .error (.negative key) else .ok n.toNat
  | _ => .error (.notInteger key)

/-- The truth value that a setting has to be. -/
def boolean (key : String) : Yaml → Except Fault Bool
  | .boolean b => .ok b
  | _ => .error (.notBoolean key)

/-- The configuration with one setting changed. -/
def set (c : Config) (key : String) (value : Yaml) : Except Fault Config :=
  match key with
  | "source" => (text key value).map fun source => { c with source }
  | "output" => (text key value).map fun output => { c with output }
  | "files" => (text key value).map fun files => { c with files := some files }
  | "template-suffix" => (text key value).map fun templateSuffix => { c with templateSuffix }
  | "page-suffix" => (text key value).map fun pageSuffix => { c with pageSuffix }
  | "max-depth" => (natural key value).map fun maxDepth => { c with maxDepth }
  | "indent" => (boolean key value).map fun indent => { c with indent }
  | key => .error (.unknownKey key)

/-- The configuration with the settings of these entries, which come in order. -/
def setAll (c : Config) : List (Yaml × Yaml) → Except Fault Config
  | [] => .ok c
  | (.text key, value) :: entries => do (← c.set key value).setAll entries
  | _ :: _ => .error .keyNotText

/-- The configuration that the documents of a text describe. -/
def ofDocuments : List Yaml → Except Fault Config
  | [] => .ok {}
  | [.mapping entries] => setAll {} entries
  | [_] => .error .notAMapping
  | _ => .error .severalDocuments

/-- The configuration that a YAML text describes. -/
def read (yaml : String) : Except Fault Config :=
  match Yaml.documents? yaml with
  | none => .error .notYaml
  | some documents => ofDocuments documents

end Config
end Letterpress
