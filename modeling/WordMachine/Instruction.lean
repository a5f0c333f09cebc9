import WordMachine.Error
import WordMachine.Text.Padding
import WordMachine.Word

set_option autoImplicit false

/-! # Instructions

The instruction set is closed: ten opcodes, numbered from zero. An instruction occupies one word
for its opcode and, except for `HLT`, a second word with the address of its operand. -/

namespace WordMachine

/-- The operations of the machine. `A` is the accumulator and `M` the operand's cell. -/
inductive Opcode where
  /-- Halt. -/
  | hlt
  /-- `A` becomes `M`. -/
  | lda
  /-- `M` becomes `A`. -/
  | sta
  /-- `A` becomes `A + M`. -/
  | add
  /-- `A` becomes `A - M`. -/
  | sub
  /-- `A` becomes `A / M`, rounded toward zero. -/
  | div
  /-- Jump. -/
  | jmp
  /-- Jump if `A` is zero. -/
  | jz
  /-- Jump if `A` is negative. -/
  | jl
  /-- The comparison flag becomes `A - M`. -/
  | cmp
  deriving DecidableEq, Repr

namespace Opcode

/-- The opcodes in the order of their numbers. -/
def all : List Opcode := [.hlt, .lda, .sta, .add, .sub, .div, .jmp, .jz, .jl, .cmp]

/-- The number that encodes the opcode. -/
def number : Opcode → Nat
  | hlt => 0
  | lda => 1
  | sta => 2
  | add => 3
  | sub => 4
  | div => 5
  | jmp => 6
  | jz => 7
  | jl => 8
  | cmp => 9

/-- The opcode's mnemonic. -/
def name : Opcode → String
  | hlt => "HLT"
  | lda => "LDA"
  | sta => "STA"
  | add => "ADD"
  | sub => "SUB"
  | div => "DIV"
  | jmp => "JMP"
  | jz => "JZ"
  | jl => "JL"
  | cmp => "CMP"

/-- Whether an operand word follows the opcode. -/
def hasOperand : Opcode → Bool
  | hlt => false
  | _ => true

/-- The opcode with this number. -/
def ofNumber? : Int → Option Opcode
  | 0 => some hlt
  | 1 => some lda
  | 2 => some sta
  | 3 => some add
  | 4 => some sub
  | 5 => some div
  | 6 => some jmp
  | 7 => some jz
  | 8 => some jl
  | 9 => some cmp
  | _ => none

/-- The opcode with this number, or the error that there is none. -/
def ofNumber (n : Int) : Except Error Opcode :=
  match ofNumber? n with
  | some op => .ok op
  | none => .error (.noSuchOpcode n)

/-- The opcode that a word fetched from `address` encodes. -/
def decode (word address : Int) : Except Fault Opcode :=
  match ofNumber? word with
  | some op => .ok op
  | none => .error (.unknownOpcode word address)

@[simp] theorem ofNumber?_number (op : Opcode) : ofNumber? op.number = some op := by
  cases op <;> rfl

theorem ofNumber?_eq_some_iff {n : Int} {op : Opcode} : ofNumber? n = some op ↔ n = op.number := by
  constructor
  · intro h
    unfold ofNumber? at h
    split at h <;> simp_all [number] <;> subst op <;> rfl
  · rintro rfl
    simp

end Opcode

/-- An opcode with the address of its operand, where it has one. -/
structure Instruction where
  opcode : Opcode
  address : Option Int := none
  deriving DecidableEq, Repr

/-- The number of words that the instruction occupies. -/
def Instruction.length (i : Instruction) : Nat := if i.address.isSome then 2 else 1

/-- The mnemonic, followed by the address of the operand if there is one. -/
def Instruction.text (i : Instruction) : String :=
  match i.address with
  | none => i.opcode.name
  | some a => s!"{Text.padRight 4 i.opcode.name} {Decimal.padded 4 a}"

end WordMachine
