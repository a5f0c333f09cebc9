import WordMachine.Instruction
import WordMachine.Machine

set_option autoImplicit false

/-! # Execution

An instruction is executed in two phases. `effectOf` reads and checks everything the instruction
needs and says what it will change; `apply` then makes that change and cannot fail. A fault
therefore leaves the machine as it was. -/

namespace WordMachine

/-- What an instruction changes, apart from moving the location counter past itself. -/
inductive Effect where
  /-- Nothing: `HLT`, or a jump that is not taken. -/
  | none
  /-- The accumulator is set. -/
  | accumulate (word : Word)
  /-- The word is stored in a cell. -/
  | store (cell : Nat) (word : Word)
  /-- The comparison flag is set. -/
  | compare (word : Word)
  /-- The location counter is set to a cell. -/
  | jump (cell : Nat)
  deriving DecidableEq, Repr

/-- Whether the effect sets the location counter. -/
def Effect.redirects : Effect → Bool
  | .jump _ => true
  | _ => false

namespace Machine

/-- The effect of a jump to an address, which is looked at only if the jump is taken. -/
def jumpEffect (m : Machine) (taken : Bool) (address : Int) : Except Fault Effect :=
  if taken then (m.checkCounter address).map .jump else .ok .none

/-- The effect of an opcode with the given operand address. -/
def effectOf (m : Machine) (opcode : Opcode) (address : Int) : Except Fault Effect :=
  let a := m.registers.accumulator
  match opcode with
  | .hlt => .ok .none
  | .lda => (m.memory.read address).map .accumulate
  | .sta => (m.memory.checkAddress address).map (.store · a)
  | .add => (m.memory.read address).map fun w => .accumulate (a + w)
  | .sub => (m.memory.read address).map fun w => .accumulate (a - w)
  | .div =>
    match m.memory.read address with
    | .ok w => if w = 0 then .error (.divideByZero address) else .ok (.accumulate (a / w))
    | .error f => .error f
  | .jmp => m.jumpEffect true address
  | .jz => m.jumpEffect (a = 0) address
  | .jl => m.jumpEffect (a < 0) address
  | .cmp => (m.memory.read address).map fun w => .compare (a - w)

/-- Makes the change that an effect describes. -/
def apply (m : Machine) : Effect → Machine
  | .none => m
  | .accumulate word => { m with registers := { m.registers with accumulator := word } }
  | .store cell word => { m with memory := m.memory.put cell word }
  | .compare word => { m with registers := { m.registers with comparison := word } }
  | .jump cell => m.moveTo cell

/-- Executes one opcode on an operand address, without fetching and without moving the location
    counter past it. Answers whether the location counter was set. -/
def execute (m : Machine) (opcode : Opcode) (address : Int) : Except Fault (Bool × Machine) :=
  (m.effectOf opcode address).map fun effect => (effect.redirects, m.apply effect)

/-! ## The instruction at the location counter -/

/-- Fetches the instruction at the location counter. -/
def fetch (m : Machine) : Except Fault Instruction :=
  let location : Int := m.registers.location
  match m.memory.read location with
  | .error f => .error f
  | .ok word =>
    match Opcode.decode word.toInt location with
    | .error f => .error f
    | .ok opcode =>
      if opcode.hasOperand then
        (m.memory.read (location + 1)).map fun operand => ⟨opcode, some operand.toInt⟩
      else .ok ⟨opcode, none⟩

/-- Fetches the instruction at the location counter and finds its effect. -/
def plan (m : Machine) : Except Fault (Instruction × Effect) :=
  match m.fetch with
  | .error f => .error f
  | .ok ⟨opcode, none⟩ => .ok (⟨opcode, none⟩, .none)
  | .ok ⟨opcode, some address⟩ =>
    (m.effectOf opcode address).map (⟨opcode, some address⟩, ·)

/-- Makes the change of a planned instruction and, unless it set the location counter, moves that
    past the instruction. -/
def complete (m : Machine) (instruction : Instruction) (effect : Effect) : Machine :=
  let next := m.registers.location + instruction.length
  let m := m.apply effect
  if effect.redirects then m else m.moveTo next

end Machine

end WordMachine
