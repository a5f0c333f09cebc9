import WordMachine.Memory
import WordMachine.Registers.Name

set_option autoImplicit false

/-! # Machines

A machine is its registers and its memory. Values from outside are wrapped to words as they are
written; the location counter can be set to the address of a cell only. -/

namespace WordMachine

/-- A machine: registers and memory. -/
structure Machine where
  registers : Registers := {}
  memory : Memory
  deriving DecidableEq, Repr

namespace Machine

/-- A machine with a memory of this size and everything zero. -/
def ofSize (size : Int) : Except Error Machine :=
  (Memory.ofSize size).map fun memory => { memory }

/-- Writes a value, wrapped, into the cell at an address. -/
def write (m : Machine) (address value : Int) : Except Fault Machine :=
  (m.memory.write address (Word.wrap value)).map fun memory => { m with memory }

/-- Writes values into cells one after the other, up to the first that cannot be written. What was
    written before that stays. -/
def writeAll (m : Machine) : List (Int × Int) → Except Fault Unit × Machine
  | [] => (.ok (), m)
  | (address, value) :: rest =>
    match m.write address value with
    | .ok m => m.writeAll rest
    | .error f => (.error f, m)

/-- Loads a program from address zero on. -/
def load (m : Machine) (words : List Int) : Except Fault Machine :=
  (m.memory.load words).map fun memory => { m with memory }

/-- The address of a cell to which the location counter may be set. -/
def checkCounter (m : Machine) (address : Int) : Except Fault Nat :=
  if 0 ≤ address ∧ address < m.memory.size then .ok address.toNat
  else .error (.badCounter address m.memory.size)

/-- The machine with its location counter at a cell. -/
def moveTo (m : Machine) (location : Nat) : Machine :=
  { m with registers := { m.registers with location } }

/-- Sets the location counter. -/
def setLocation (m : Machine) (address : Int) : Except Fault Machine :=
  (m.checkCounter address).map m.moveTo

/-- Sets the comparison flag to a value, wrapped. -/
def setComparison (m : Machine) (value : Int) : Machine :=
  { m with registers := { m.registers with comparison := Word.wrap value } }

/-- Reads the register by this name. -/
def readRegister (m : Machine) (name : String) : Except Error Word :=
  match RegisterName.parse name with
  | .ok register => (m.registers.readNamed register).mapError Error.ofFault
  | .error e => .error e

/-- Writes a value, wrapped, into the register by this name. -/
def writeRegister (m : Machine) (name : String) (value : Int) : Except Error Machine :=
  match RegisterName.parse name with
  | .ok register =>
    ((m.registers.writeNamed register (Word.wrap value)).map fun registers =>
      { m with registers }).mapError Error.ofFault
  | .error e => .error e

/-- Writes a value, wrapped, into the index register with this selector. -/
def writeIndex (m : Machine) (selector value : Int) : Except Fault Machine :=
  (m.registers.writeIndex selector (Word.wrap value)).map fun registers => { m with registers }

/-- The machine with all registers zero. -/
def clearRegisters (m : Machine) : Machine := { m with registers := {} }

/-- The machine with all cells zero. -/
def clearMemory (m : Machine) : Machine := { m with memory := m.memory.clear }

/-- The machine with all registers and all cells zero. -/
def reset (m : Machine) : Machine := m.clearRegisters.clearMemory

end Machine

end WordMachine
