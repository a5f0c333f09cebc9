import WordMachine.Decimal

set_option autoImplicit false

/-! # Faults

A fault is what the machine itself refuses to do. Every fault is found before anything is
changed. It is known by its cause and the numbers involved; kind, wording and the numbers it
carries are read off the cause. -/

namespace WordMachine

/-- The kinds of fault that callers tell apart. -/
inductive FaultKind where
  | outOfRange
  | indexOutOfRange
  | divideByZero
  | programTooLarge
  | unknownOpcode
  deriving DecidableEq, Repr

/-- The kinds of fault, in the order in which they are listed. -/
def FaultKind.all : List FaultKind :=
  [.outOfRange, .indexOutOfRange, .divideByZero, .programTooLarge, .unknownOpcode]

/-- The name of a kind of fault. -/
def FaultKind.name : FaultKind → String
  | .outOfRange => "OutOfRange"
  | .indexOutOfRange => "IndexOutOfRange"
  | .divideByZero => "DivideByZero"
  | .programTooLarge => "ProgramTooLarge"
  | .unknownOpcode => "UnknownOpcode"

/-- The number of index registers. -/
def indexCount : Nat := 6

/-- A refusal of the machine, by its cause. -/
inductive Fault where
  /-- The address is no cell of a memory of this size. -/
  | badAddress (address : Int) (size : Nat)
  /-- The program counter cannot be set to this address in a memory of this size. -/
  | badCounter (address : Int) (size : Nat)
  /-- No index register has this selector. -/
  | badSelector (selector : Int)
  /-- The cell that holds the divisor is zero. -/
  | divideByZero (address : Int)
  /-- The program has more words than the memory has cells. -/
  | programTooLarge (length size : Nat)
  /-- The word fetched from this address names no instruction. -/
  | unknownOpcode (word address : Int)
  deriving DecidableEq, Repr

namespace Fault

/-- The kind of the fault. -/
def kind : Fault → FaultKind
  | badAddress .. | badCounter .. => .outOfRange
  | badSelector .. => .indexOutOfRange
  | divideByZero .. => .divideByZero
  | programTooLarge .. => .programTooLarge
  | unknownOpcode .. => .unknownOpcode

/-- The address (or selector) at fault. -/
def address? : Fault → Option Int
  | badAddress a _ | badCounter a _ | badSelector a | divideByZero a | unknownOpcode _ a => some a
  | programTooLarge .. => none

/-- The word that names no instruction. -/
def opcode? : Fault → Option Int
  | unknownOpcode w _ => some w
  | _ => none

/-- The length of a program that does not fit. -/
def length? : Fault → Option Int
  | programTooLarge n _ => some n
  | _ => none

/-- The range of the addresses of a memory of this size. -/
def addressRange (size : Nat) : String := s!"0..{Decimal.text ((size : Int) - 1)}"

/-- The wording of the fault. -/
def message : Fault → String
  | badAddress a size => s!"Memory address {Decimal.text a} outside {addressRange size}"
  | badCounter a size => s!"Program counter {Decimal.text a} outside {addressRange size}"
  | badSelector i => s!"Index register selector {Decimal.text i} outside {addressRange indexCount}"
  | divideByZero a => s!"Division by zero (cell {Decimal.padded 4 a} holds 0)"
  | programTooLarge n size =>
    s!"Program of {Decimal.text n} words does not fit in {Decimal.text size}-word memory"
  | unknownOpcode w a => s!"Unknown opcode {Decimal.text w} at {Decimal.padded 4 a}"

/-- Whether the numbers in the fault's wording are short enough to be written in decimal. -/
def isWritable (f : Fault) : Bool :=
  f.address?.all Decimal.isWritable && f.opcode?.all Decimal.isWritable

end Fault

end WordMachine
