import WordMachine.Emulator.Run
import WordMachine.Memory.Dump

set_option autoImplicit false

/-! # Operations

Everything that can be asked of an emulator, as data: an operation is performed on an emulator
and gives an answer, or an error, and the emulator afterwards. -/

namespace WordMachine

/-- A request to an emulator. -/
inductive Operation where
  | write (address value : Int)
  | read (address : Int)
  | writeRegister (name : String) (value : Int)
  | readRegister (name : String)
  | writeIndex (selector value : Int)
  | readIndex (selector : Int)
  | setLocation (address : Int)
  | setComparison (value : Int)
  | load (program : Program)
  | step
  | run (budget : Option Int)
  /-- Executes one opcode without fetching it. -/
  | execute (opcode address : Int)
  | addBreakpoint (address : Int)
  | removeBreakpoint (address : Int)
  | clearBreakpoints
  | setTracing (on : Bool)
  | showTrace
  | clearTrace
  | reset
  | resetMachine
  | clearRegisters
  | clearMemory
  | snapshot (first : Int) (last : Option Int)
  | dump (start : Int) (length : Option Int)
  | display
  | summary
  | inspect

/-- What an operation answers when it succeeds. -/
inductive Answer where
  /-- It is done. -/
  | done
  | integer (value : Int)
  | integers (values : List Int)
  | text (text : String)
  | stopped (reason : StopReason)
  /-- Whether the location counter was set. -/
  | redirected (yes : Bool)
  | inspection (readings : Readings) (memorySize : Nat)
  deriving DecidableEq, Repr

/-- An answer or an error, and the emulator afterwards; nothing if the operation never ends. -/
abbrev Performance := Option (Except Error Answer × Emulator)

namespace Operation

/-- An answer that leaves the emulator as it was. -/
def observe (e : Emulator) (answer : Except Error Answer) : Performance := some (answer, e)

/-- A change of the machine, or the error that prevents it. -/
def change (e : Emulator) : Except Error Machine → Performance
  | .ok machine => some (.ok .done, { e with machine })
  | .error error => some (.error error, e)

/-- A change of what the emulator keeps beside its machine. -/
def adjust (e : Emulator) (control : Control) : Performance :=
  some (.ok .done, { e with control })

/-- Reports faults as errors. -/
def reported {α : Type} : Except Fault α → Except Error α := Except.mapError Error.ofFault

/-- Performs the operation on an emulator. -/
def perform (e : Emulator) : Operation → Performance
  | write address value => change e (reported (e.machine.write address value))
  | read address => observe e (reported ((e.machine.memory.read address).map (.integer ·.toInt)))
  | writeRegister name value => change e (e.machine.writeRegister name value)
  | readRegister name => observe e ((e.machine.readRegister name).map (.integer ·.toInt))
  | writeIndex selector value => change e (reported (e.machine.writeIndex selector value))
  | readIndex selector =>
    observe e (reported ((e.machine.registers.readIndex selector).map (.integer ·.toInt)))
  | setLocation address => change e (reported (e.machine.setLocation address))
  | setComparison value => change e (.ok (e.machine.setComparison value))
  | load program =>
    match e.load program with
    | .ok e => some (.ok .done, e)
    | .error error => some (.error error, e)
  | step =>
    match e.step with
    | (.ok .halted, e) => some (.ok (.stopped .halt), e)
    | (.ok .ran, e) => some (.ok .done, e)
    | (.error f, e) => some (.error (.ofFault f), e)
  | run budget => (e.run budget).map fun (outcome, e) => (reported (outcome.map .stopped), e)
  | execute opcode address =>
    match Opcode.ofNumber opcode with
    | .error error => some (.error error, e)
    | .ok opcode =>
      match e.machine.execute opcode address with
      | .ok (redirected, machine) => some (.ok (.redirected redirected), { e with machine })
      | .error f => some (.error (.ofFault f), e)
  | addBreakpoint address => adjust e (e.control.addBreakpoint address)
  | removeBreakpoint address => adjust e (e.control.removeBreakpoint address)
  | clearBreakpoints => adjust e e.control.clearBreakpoints
  | setTracing on => adjust e (e.control.setTracing on)
  | showTrace => observe e (.ok (.text (traceText e.control.trace)))
  | clearTrace => adjust e e.control.clearTrace
  | reset => some (.ok .done, e.reset)
  | resetMachine => change e (.ok e.machine.reset)
  | clearRegisters => change e (.ok e.machine.clearRegisters)
  | clearMemory => change e (.ok e.machine.clearMemory)
  | snapshot first last =>
    observe e ((e.machine.memory.snapshot first last).map fun words =>
      .integers (words.map Int32.toInt))
  | dump start length => observe e ((e.machine.memory.dump start length).map .text)
  | display => observe e (.ok (.text e.machine.registers.readings.display))
  | summary => observe e (.ok (.text e.machine.registers.readings.summary))
  | inspect => observe e (.ok (.inspection e.machine.registers.readings e.machine.memory.size))

end Operation

end WordMachine
