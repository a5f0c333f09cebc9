import WordMachine.Fault
import WordMachine.Numeral
import WordMachine.Text.Utf8

set_option autoImplicit false

/-! # Errors

Everything that an operation of the library can be refused for, by its cause: the machine's own
faults, program text and files that cannot be read, and arguments outside an operation's domain.
`Error.message` words them all. -/

namespace WordMachine

/-- Why the contents of a program file are no word file. -/
inductive FormatError where
  /-- A token of this line is not a word. -/
  | notAWord (line : Nat) (token : List Char)
  /-- The bytes of the file are not text. -/
  | notText (path : String) (malformed : Text.Utf8.Malformed)
  deriving DecidableEq, Repr

namespace FormatError

/-- The number of the line at fault, counted from one; zero if the file is not text at all. -/
def line : FormatError → Nat
  | notAWord n _ => n
  | notText .. => 0

/-- The token at fault, if there is one. -/
def token : FormatError → String
  | notAWord _ t => String.ofList t
  | notText .. => ""

/-- The wording of the error. -/
def message : FormatError → String
  | notAWord n t => s!"Line {Decimal.text n}: Not a word: {String.ofList (Text.quoted t)}"
  | notText path m =>
    s!"{path}: not a text word file ({m.flaw.text} at byte {Decimal.text m.offset})"

end FormatError

/-- Why a file cannot be read. -/
inductive FileError where
  /-- There is nothing by this path. -/
  | notFound (path : String)
  /-- The path goes through something that is no directory. -/
  | notADirectory (path : String)
  /-- The path leads to a directory. -/
  | isADirectory (path : String)
  /-- A name in the path is longer than a file name may be. -/
  | nameTooLong (path : String)
  /-- The path has a null character, which no path may have. -/
  | nullCharacter
  deriving DecidableEq, Repr

/-- The wording of the error. -/
def FileError.message : FileError → String
  | notFound path => s!"[Errno 2] No such file or directory: {Text.quote path}"
  | notADirectory path => s!"[Errno 20] Not a directory: {Text.quote path}"
  | isADirectory path => s!"[Errno 21] Is a directory: {Text.quote path}"
  | nameTooLong path => s!"[Errno 36] File name too long: {Text.quote path}"
  | nullCharacter => "embedded null byte"

/-- Why an operation was refused. -/
inductive Error where
  | fault (fault : Fault)
  | format (error : FormatError)
  | file (error : FileError)
  | numeral (error : NumeralError)
  /-- An assignment to memory has neither address nor value. -/
  | emptyAssignment
  /-- The divisor of a division of integers is zero. -/
  | zeroDivisor
  /-- No instruction has this number. -/
  | noSuchOpcode (number : Int)
  /-- No register has this name. -/
  | noSuchRegister (name : String)
  /-- A memory cannot have this many cells. -/
  | memorySize (size : Int)
  /-- The last address of a snapshot comes before the first. -/
  | snapshotReversed (first last : Int)
  /-- A dump cannot have this length. -/
  | dumpLength (length : Int)
  /-- No emulator has this number. -/
  | noSuchEmulator (number : Nat)
  deriving DecidableEq, Repr

namespace Error

/-- The wording of the error. -/
def message : Error → String
  | fault f => f.message
  | format e => e.message
  | file e => e.message
  | numeral e => e.message
  | emptyAssignment => "not enough values to unpack (expected 2, got 0)"
  | zeroDivisor => "integer division or modulo by zero"
  | noSuchOpcode n => s!"{Decimal.text n} is not a valid Opcode"
  | noSuchRegister name => s!"Unknown register: {Text.quote name}"
  | memorySize n => s!"Memory size must be positive, got {Decimal.text n}"
  | snapshotReversed first last =>
    s!"Snapshot end {Decimal.text last} before start {Decimal.text first}"
  | dumpLength n => s!"Dump length must not be negative, got {Decimal.text n}"
  | noSuchEmulator n => s!"There is no emulator {Decimal.text n}"

/-- The error that a fault is reported as: the fault itself, unless its wording would hold a
    number that is too long to be written. -/
def ofFault (f : Fault) : Error :=
  if f.isWritable then .fault f else .numeral .unwritable

end Error

end WordMachine
