import WordMachine.CommandLine.Argument
import WordMachine.CommandLine.Switch

set_option autoImplicit false

/-! # Usage

The texts that explain the command line, and the errors in its use. -/

namespace WordMachine.CommandLine

/-- The name of the program. -/
def programName : String := "mixvm"

/-- The version of the program. -/
def version : String := "0.1.0"

/-- The budget of instructions if none is given. -/
def defaultMaxSteps : Nat := 1000000

/-- The summary of the command line. -/
def usageText : String :=
  "usage: mixvm [-h] [--set ADDR=VALUE] [--dump START:END]\n" ++
  "             [--max-steps MAX_STEPS] [--memory-size MEMORY_SIZE]\n" ++
  "             [--break ADDR] [--trace] [--json] [--verbose] [--quiet]\n" ++
  "             [--version]\n" ++
  "             program\n"

/-- The summary of the command line, and what each part of it is for. -/
def helpText : String :=
  usageText ++
  "\n" ++
  "Run a MIX word program to HALT\n" ++
  "\n" ++
  "positional arguments:\n" ++
  "  program               Program word file\n" ++
  "\n" ++
  "options:\n" ++
  "  -h, --help            show this help message and exit\n" ++
  "  --set ADDR=VALUE      Poke a memory cell after loading (repeatable)\n" ++
  "  --dump START:END      Dump memory cells START..END after the run\n" ++
  "  --max-steps MAX_STEPS\n" ++
  "                        Step budget, 0 for unlimited (default: 1000000)\n" ++
  "  --memory-size MEMORY_SIZE\n" ++
  "                        Memory size in words (default: 4000)\n" ++
  "  --break ADDR          Stop before executing at ADDR (repeatable)\n" ++
  "  --trace               Print the instruction trace after the run\n" ++
  "  --json                Print final state as JSON\n" ++
  "  --verbose, -v         Log every executed instruction\n" ++
  "  --quiet, -q           Only log errors\n" ++
  "  --version             show program's version number and exit\n"

/-- Why the arguments are not accepted. -/
inductive UsageError where
  /-- The beginning of an option's name begins several. -/
  | ambiguous (argument : String) (candidates : List String)
  /-- The option needs a value and has none. -/
  | missingValue (option : Switch)
  /-- The option takes no value and has one. -/
  | ignoredValue (option : Switch) (value : String)
  /-- The value of the option is not accepted. -/
  | badValue (option : Switch) (error : ArgumentError)
  | missingProgram
  /-- Arguments that are neither the program nor an option. -/
  | unrecognized (arguments : List String)
  /-- No memory can have the size. -/
  | memorySize
  /-- The dump goes beyond a memory of this size. -/
  | dumpRange (size : Nat)
  deriving DecidableEq, Repr

namespace UsageError

/-- The wording of the error. -/
def message : UsageError → String
  | ambiguous argument candidates =>
    s!"ambiguous option: {argument} could match " ++ ", ".intercalate candidates
  | missingValue s => s!"argument {s.label}: expected one argument"
  | ignoredValue s value =>
    s!"argument {s.label}: ignored explicit argument {Text.quote value}"
  | badValue s e => s!"argument {s.label}: {e.message}"
  | missingProgram => "the following arguments are required: program"
  | unrecognized arguments => "unrecognized arguments: " ++ " ".intercalate arguments
  | memorySize => "--memory-size must be positive"
  | dumpRange size => s!"--dump range outside 0..{Decimal.text ((size : Int) - 1)}"

/-- The report of the error, after the summary of the command line. -/
def report (e : UsageError) : String :=
  usageText ++ s!"{programName}: error: {e.message}\n"

end UsageError

end WordMachine.CommandLine
