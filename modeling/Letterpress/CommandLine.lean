import Letterpress.Site

/-! The command line: options that choose a configuration file and override what it says, and what the
    program does with them. An option takes its value from the next argument or behind an equals sign, and
    may be given once. -/

namespace Letterpress
namespace CommandLine

/-- What the arguments ask for. -/
structure Options where
  config : Option String := none
  source : Option String := none
  output : Option String := none
  files : Option String := none
  maxDepth : Option Nat := none
  compact : Bool := false
  verbose : Bool := false
  deriving Repr, DecidableEq

/-- Why arguments are refused. -/
inductive UsageFault where
  | unknown (argument : String)
  | repeated (option : String)
  | noValue (option : String)
  | notANumber (value : String)
  deriving Repr, DecidableEq

/-- The fault in words. -/
def UsageFault.message : UsageFault → String
  | unknown argument => s!"unexpected argument '{argument}'"
  | repeated option => s!"the option '{option}' was given more than once"
  | noValue option => s!"the option '{option}' needs a value"
  | notANumber value => s!"'{value}' is not a natural number of 64 bits"

/-- A request: to explain the options, or to build a site with them. -/
inductive Request where
  | help
  | build (options : Options)
  deriving Repr, DecidableEq

/-- The texts that explain the options. -/
def usage : String :=
  "Builds static HTML pages from XML page and template files

Options:
      --config <FILE>    YAML site configuration
      --source <DIR>     Directory holding template and page files [default: src]
      --output <DIR>     Directory the HTML pages are written to [default: www]
      --files <DIR>      Root that file params are checked against [default: the output directory]
      --max-depth <N>    Maximum nesting of template expansions
      --compact          Write pages without indentation
  -v, --verbose          Report more
  -h, --help             Print help
"

/-! ### Reading arguments -/

/-- Sets what may be set once. -/
def once {α : Type} (option : String) (old : Option α) (new : α) : Except UsageFault (Option α) :=
  match old with
  | some _ => .error (.repeated option)
  | none => .ok (some new)

/-- Raises a flag that may be raised once. -/
def raise (option : String) (old : Bool) : Except UsageFault Bool :=
  if old then .error (.repeated option) else .ok true

/-- The path that a value is. -/
def path (option value : String) : Except UsageFault String :=
  if value = "" then .error (.noValue option) else .ok value

/-- The natural number of 64 bits that a value writes: digits, behind a plus sign or nothing. -/
def number (value : String) : Except UsageFault Nat :=
  let digits := match value.toList with
    | '+' :: cs => cs
    | cs => cs
  if Decimal.areDigits digits ∧ Decimal.ofDigits digits ≤ 0xFFFFFFFFFFFFFFFF then
    .ok (Decimal.ofDigits digits)
  else .error (.notANumber value)

namespace Options

/-- The options that take a value. -/
def valued : List String :=
  ["--config", "--source", "--output", "--files", "--max-depth"]

/-- The options with the value of one of them. -/
def withValue (o : Options) (option value : String) : Except UsageFault Options := do
  match option with
  | "--config" => return { o with config := ← once option o.config (← path option value) }
  | "--source" => return { o with source := ← once option o.source (← path option value) }
  | "--output" => return { o with output := ← once option o.output (← path option value) }
  | "--files" => return { o with files := ← once option o.files (← path option value) }
  | "--max-depth" => return { o with maxDepth := ← once option o.maxDepth (← number value) }
  | _ => throw (.unknown option)

/-- The options with a flag raised. -/
def withFlag (o : Options) (option : String) : Except UsageFault Options := do
  match option with
  | "--compact" => return { o with compact := ← raise option o.compact }
  | "--verbose" => return { o with verbose := ← raise option o.verbose }
  | _ => throw (.unknown option)

end Options

/-- The name of an option and the value behind its equals sign, if it has one. -/
def splitValue (argument : String) : String × Option String :=
  match argument.toList.span (· ≠ '=') with
  | (name, _ :: value) => (String.ofList name, some (String.ofList value))
  | (_, []) => (argument, none)

/-- The argument cannot be the value of the option before it. -/
def isOption (argument : String) : Bool :=
  match argument.toList with
  | '-' :: _ :: _ => true
  | _ => false

/-- Reads letters that stand for flags. -/
def readLetters (argument : String) : List Char → Options → Except UsageFault Request
  | [], o => .ok (.build o)
  | 'h' :: _, _ => .ok .help
  | 'v' :: cs, o => do readLetters argument cs (← o.withFlag "--verbose")
  | _ :: _, _ => .error (.unknown argument)

/-- Reads the arguments behind those that gave the options so far. A request for help ends them. -/
def readFrom (o : Options) : List String → Except UsageFault Request
  | [] => .ok (.build o)
  | ["--"] => .ok (.build o)
  | "--" :: argument :: _ => .error (.unknown argument)
  | "--help" :: _ => .ok .help
  | argument :: rest =>
    match argument.toList with
    | '-' :: '-' :: _ =>
      let (name, value) := splitValue argument
      if Options.valued.contains name then
        -- A value behind an equals sign may look like an option.
        match value, rest with
        | some value, rest => do readFrom (← o.withValue name value) rest
        | none, [] => .error (.noValue name)
        | none, value :: rest =>
          if isOption value then .error (.noValue name)
          else do readFrom (← o.withValue name value) rest
      else if value.isSome then .error (.unknown argument)
      else do readFrom (← o.withFlag name) rest
    | '-' :: letter :: letters => do
      match ← readLetters argument (letter :: letters) o with
      | .help => return .help
      | .build o => readFrom o rest
    | _ => .error (.unknown argument)

/-- What the arguments ask for. -/
def read (arguments : List String) : Except UsageFault Request :=
  readFrom {} arguments

/-! ### Running -/

/-- Why nothing is built. -/
inductive Fault where
  | unreadable (path : String)
  | config (path : String) (fault : Config.Fault)
  | noSource (path : String)
  deriving Repr, DecidableEq

/-- The fault in words. -/
def Fault.message : Fault → String
  | unreadable path => s!"failed to read {path}"
  | config path fault => s!"invalid config {path}: {fault.message}"
  | noSource path => Site.noSourceMessage path

/-- The configuration in a file, or the default one if there is no path. -/
def baseConfig (files : FileSystem) : Option String → Except Fault Config
  | none => .ok {}
  | some path =>
    match (files.read? path).bind String.fromUTF8? with
    | none => .error (.unreadable path)
    | some text => (Config.read text).mapError (.config path)

/-- The configuration as the options override it. -/
def Options.override (o : Options) (c : Config) : Config :=
  { c with
    source := o.source.getD c.source
    output := o.output.getD c.output
    files := o.files <|> c.files
    maxDepth := o.maxDepth.getD c.maxDepth
    indent := c.indent && !o.compact }

/-- Builds the site that the options describe. -/
def build (o : Options) (files : FileSystem) : Except Fault Site.Built := do
  let config ← baseConfig files o.config
  (Site.build (o.override config) files).mapError .noSource

/-- What a run of the program comes to. -/
inductive Outcome where
  | misused (fault : UsageFault)
  | helped
  | failed (fault : Fault)
  | built (result : Site.Built)

/-- Runs the program with these arguments on these files. -/
def run (arguments : List String) (files : FileSystem) : Outcome :=
  match read arguments with
  | .error fault => .misused fault
  | .ok .help => .helped
  | .ok (.build o) =>
    match build o files with
    | .error fault => .failed fault
    | .ok result => .built result

namespace Outcome

/-- The exit code: two for arguments that are refused, one for a site that is not built in full. -/
def exitCode : Outcome → Nat
  | misused _ => 2
  | helped => 0
  | failed _ => 1
  | built result => if result.report.failures = 0 then 0 else 1

/-- The files after the run. -/
def files (before : FileSystem) : Outcome → FileSystem
  | built result => result.files
  | _ => before

end Outcome
end CommandLine
end Letterpress
