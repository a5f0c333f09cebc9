import WordMachine.Fault
import WordMachine.Word

set_option autoImplicit false

/-! # Registers

The registers hold words, apart from the location counter, which holds the address of the next
word to fetch. What is shown of the registers is a `Readings`: their contents as integers. -/

namespace WordMachine

/-- The contents of the registers as integers. -/
structure Readings where
  accumulator : Int := 0
  extension : Int := 0
  index : Vector Int indexCount := Vector.replicate indexCount 0
  comparison : Int := 0
  location : Int := 0
  deriving DecidableEq, Repr

namespace Readings

/-- Whether the accumulator is zero. -/
def zero (r : Readings) : Bool := r.accumulator = 0

/-- Whether the accumulator is negative. -/
def negative (r : Readings) : Bool := r.accumulator < 0

/-- The lines of `display`, one for the heading and one for each register. -/
def displayLines (r : Readings) : List String :=
  ["Registers:",
    s!"A: {Decimal.padded 5 r.accumulator}",
    s!"X: {Decimal.padded 5 r.extension}",
    s!"Comparison: {Decimal.text r.comparison}",
    s!"Location: {Decimal.text r.location}"] ++
  r.index.toList.mapIdx fun i v => s!"I{Decimal.text (i + 1)}: {Decimal.padded 5 v}"

/-- All registers, one on a line. -/
def display (r : Readings) : String := "\n".intercalate r.displayLines

/-- The registers that instructions use, on one line. -/
def summary (r : Readings) : String :=
  s!"A={Decimal.text r.accumulator} X={Decimal.text r.extension} " ++
    s!"CMP={Decimal.text r.comparison} LOC={Decimal.padded 4 r.location}"

end Readings

/-- The registers of a machine. -/
structure Registers where
  accumulator : Word := 0
  extension : Word := 0
  index : Vector Word indexCount := Vector.replicate indexCount 0
  comparison : Word := 0
  location : Nat := 0
  deriving DecidableEq, Repr

namespace Registers

/-- The contents of the registers as integers. -/
def readings (r : Registers) : Readings where
  accumulator := r.accumulator.toInt
  extension := r.extension.toInt
  index := r.index.map Int32.toInt
  comparison := r.comparison.toInt
  location := r.location

/-- The index register with this selector, counted from zero. -/
def checkSelector (selector : Int) : Except Fault (Fin indexCount) :=
  if h : 0 ≤ selector ∧ selector < indexCount then
    .ok ⟨selector.toNat, by omega⟩
  else .error (.badSelector selector)

/-- Reads the index register with this selector. -/
def readIndex (r : Registers) (selector : Int) : Except Fault Word :=
  (checkSelector selector).map fun i => r.index[i]

/-- Writes the index register with this selector. -/
def writeIndex (r : Registers) (selector : Int) (word : Word) : Except Fault Registers :=
  (checkSelector selector).map fun i => { r with index := r.index.set i.val word i.isLt }

end Registers

end WordMachine
