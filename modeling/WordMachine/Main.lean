import WordMachine.CommandLine.Run

set_option autoImplicit false

/-! # The program

Reads the file that the arguments name and prints what the command leaves behind. -/

namespace WordMachine.CommandLine

/-- The error that the file system's refusal to read a path stands for. -/
def fileError (path : String) : IO.Error → FileError
  | .inappropriateType _ code _ => if code = 21 then .isADirectory path else .notADirectory path
  | .invalidArgument .. => .nameTooLong path
  | _ => .notFound path

/-- Reads a file of the file system. -/
def readFile (path : String) : IO (Except FileError ByteArray) := do
  if '\x00' ∈ path.toList then return .error .nullCharacter
  try
    return .ok (← IO.FS.readBinFile path)
  catch e =>
    return .error (fileError path e)

/-- Prints what a command leaves behind and gives its exit status. -/
def Outcome.print (o : Outcome) : IO UInt32 := do
  IO.print o.stdout
  IO.eprint o.stderr
  return o.exit.toUInt32

end WordMachine.CommandLine

open WordMachine WordMachine.CommandLine in
/-- Runs the command that the arguments give. -/
def main (arguments : List String) : IO UInt32 := do
  match Options.parse arguments with
  | .error refusal => refusal.outcome.print
  | .ok options =>
    let path := (Path.ofString options.program).text
    match options.execute (.file path (← readFile path)) with
    | some outcome => outcome.print
    | none => return 2
