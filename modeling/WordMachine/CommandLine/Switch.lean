set_option autoImplicit false

/-! # Switches

The options that the command line knows, each with the names it is called by. -/

namespace WordMachine.CommandLine

/-- An option of the command line. -/
inductive Switch where
  | help
  | set
  | dump
  | maxSteps
  | memorySize
  | breakAt
  | trace
  | json
  | verbose
  | quiet
  | version
  deriving DecidableEq, Repr

namespace Switch

/-- The options, in the order in which they are listed. -/
def all : List Switch :=
  [.help, .set, .dump, .maxSteps, .memorySize, .breakAt, .trace, .json, .verbose, .quiet, .version]

/-- The names of an option. -/
def names : Switch → List String
  | help => ["-h", "--help"]
  | set => ["--set"]
  | dump => ["--dump"]
  | maxSteps => ["--max-steps"]
  | memorySize => ["--memory-size"]
  | breakAt => ["--break"]
  | trace => ["--trace"]
  | json => ["--json"]
  | verbose => ["--verbose", "-v"]
  | quiet => ["--quiet", "-q"]
  | version => ["--version"]

/-- Whether the option needs a value. -/
def takesValue : Switch → Bool
  | set | dump | maxSteps | memorySize | breakAt => true
  | _ => false

/-- The option as messages call it. -/
def label (s : Switch) : String := "/".intercalate s.names

/-- Every name with the option it belongs to. -/
def spellings : List (String × Switch) := all.flatMap fun s => s.names.map (·, s)

/-- The option with this name. -/
def named? (name : String) : Option Switch := spellings.lookup name

end Switch

end WordMachine.CommandLine
