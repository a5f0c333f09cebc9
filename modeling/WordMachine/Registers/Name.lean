import WordMachine.Error
import WordMachine.Registers

set_option autoImplicit false

/-! # Register names

A register is named by `A`, `X` or `I` with a number, in either case and with blanks around it.
The number is written in decimal digits of any script, so a name may denote an index register
that does not exist. The dotless `ı` counts as a small `I`, since `I` is its upper case. -/

namespace WordMachine

/-- What a register name denotes. -/
inductive RegisterName where
  | accumulator
  | extension
  /-- The index register with this selector, counted from zero. -/
  | index (selector : Int)
  deriving DecidableEq, Repr

namespace RegisterName

/-- Whether the character is the letter `I` in either case. -/
def isIndexLetter (c : Char) : Bool := c = 'I' || c = 'i' || c = 'ı'

/-- What the name denotes. -/
def parse (name : String) : Except Error RegisterName :=
  match Text.trim name.toList with
  | [] => .error (.noSuchRegister name)
  | c :: rest =>
    if rest = [] ∧ (c = 'A' ∨ c = 'a') then .ok .accumulator
    else if rest = [] ∧ (c = 'X' ∨ c = 'x') then .ok .extension
    else if isIndexLetter c ∧ rest ≠ [] ∧ rest.all Text.isDigit then
      match Numeral.read .ten rest with
      | .ok n => .ok (.index (n - 1))
      | .error e => .error (.numeral e)
    else .error (.noSuchRegister name)

end RegisterName

namespace Registers

/-- Reads the named register. -/
def readNamed (r : Registers) : RegisterName → Except Fault Word
  | .accumulator => .ok r.accumulator
  | .extension => .ok r.extension
  | .index selector => r.readIndex selector

/-- Writes the named register. -/
def writeNamed (r : Registers) (name : RegisterName) (word : Word) : Except Fault Registers :=
  match name with
  | .accumulator => .ok { r with accumulator := word }
  | .extension => .ok { r with extension := word }
  | .index selector => r.writeIndex selector word

end Registers

end WordMachine
