import WordMachine.Numeral

set_option autoImplicit false

/-! # Values on the command line

Integers are given in decimal, or in hexadecimal after `0x` or `$`. An assignment is two integers
around `=`, a range two integers around `:` or a single one. -/

namespace WordMachine.CommandLine

/-- Why a value is not accepted. -/
inductive ArgumentError where
  /-- A count that is not a decimal integer. -/
  | notAnInteger (text : String)
  | negativeCount (count : Int)
  /-- An assignment without `=`. -/
  | noAssignment (text : String)
  /-- An assignment with a side that is no integer. -/
  | badNumber (text : String)
  /-- A range with an end that is no integer. -/
  | badRange (text : String)
  /-- A range that ends before it starts. -/
  | reversedRange (text : String)
  /-- A value that is not of the named type. -/
  | invalid (type text : String)
  deriving DecidableEq, Repr

/-- The wording of the error. -/
def ArgumentError.message : ArgumentError → String
  | notAnInteger text => s!"not an integer: {Text.quote text}"
  | negativeCount n => s!"must not be negative, got {Decimal.text n}"
  | noAssignment text => s!"expected ADDR=VALUE, got {Text.quote text}"
  | badNumber text => s!"bad number in {Text.quote text}"
  | badRange text => s!"bad range {Text.quote text}"
  | reversedRange text => s!"range end before start: {Text.quote text}"
  | invalid type text => s!"invalid {type} value: {Text.quote text}"

/-- Splits a text at the first separator: what comes before it, and what comes after it if it is
    there. -/
def splitAtFirst (separator : Char) : List Char → List Char × Option (List Char)
  | [] => ([], none)
  | c :: cs =>
    if c = separator then ([], some cs)
    else ((c :: (splitAtFirst separator cs).1), (splitAtFirst separator cs).2)

/-- The integer that a text with a leading `0x`, a leading `$` or neither stands for. -/
def readInteger (text : List Char) : Except NumeralError Int :=
  match Text.trim text with
  | '$' :: numeral => Numeral.read .sixteen numeral
  | numeral => Numeral.read (if Numeral.isMarked numeral then .sixteen else .ten) numeral

/-- The count that a text stands for. -/
def readCount (text : String) : Except ArgumentError Nat :=
  match Numeral.read .ten text.toList with
  | .error _ => .error (.notAnInteger text)
  | .ok n => if n < 0 then .error (.negativeCount n) else .ok n.toNat

/-- The address and the value that a text assigns. -/
def readAssignment (text : String) : Except ArgumentError (Int × Int) :=
  match splitAtFirst '=' text.toList with
  | (_, none) => .error (.noAssignment text)
  | (address, some value) =>
    match readInteger address, readInteger value with
    | .ok a, .ok v => .ok (a, v)
    | _, _ => .error (.badNumber text)

/-- The first and the last address of a range. -/
def readRange (text : String) : Except ArgumentError (Int × Int) :=
  let (first, last) := splitAtFirst ':' text.toList
  match readInteger first, readInteger (last.getD first) with
  | .ok a, .ok b => if b < a then .error (.reversedRange text) else .ok (a, b)
  | _, _ => .error (.badRange text)

end WordMachine.CommandLine
