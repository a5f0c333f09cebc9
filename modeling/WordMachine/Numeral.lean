import WordMachine.Decimal
import WordMachine.Text.Blank
import WordMachine.Text.Digit
import WordMachine.Text.Quoted

set_option autoImplicit false

/-! # Numerals

A numeral is the written form of an integer: padding, an optional sign, in base sixteen an
optional `0x`, digits, and padding again. A single underscore may stand between two digits, and
one after `0x`. Decimal digits of every script are read by their value. A decimal numeral may
have at most `Decimal.digitLimit` digits, leading zeros included; base sixteen has no limit. -/

namespace WordMachine

/-- The base a numeral is written in. -/
inductive Base where
  | ten
  | sixteen
  deriving DecidableEq, Repr

/-- How many digits a base has. -/
def Base.radix : Base → Nat
  | .ten => 10
  | .sixteen => 16

/-- Why a number could not be read or written. -/
inductive NumeralError where
  /-- The text is no numeral of the base. -/
  | malformed (base : Base) (text : List Char)
  /-- The decimal numeral has too many digits to be read. -/
  | tooLong (digits : Nat)
  /-- The number has too many decimal digits to be written. -/
  | unwritable
  deriving DecidableEq, Repr

/-- The most characters of a malformed numeral's quoted form that a message shows. -/
def NumeralError.shownLimit : Nat := 200

/-- The wording of the error. -/
def NumeralError.message : NumeralError → String
  | .malformed base text =>
    s!"invalid literal for int() with base {Decimal.text base.radix}: " ++
      String.ofList ((Text.quoted text).take shownLimit)
  | .tooLong digits =>
    s!"Exceeds the limit ({Decimal.text Decimal.digitLimit} digits) for integer string conversion: " ++
      s!"value has {Decimal.text digits} digits; use sys.set_int_max_str_digits() to increase the limit"
  | .unwritable =>
    s!"Exceeds the limit ({Decimal.text Decimal.digitLimit} digits) for integer string conversion; " ++
      "use sys.set_int_max_str_digits() to increase the limit"

namespace Numeral

/-! ## Digits and their value -/

/-- The value of a digit of the base. -/
def digit? (base : Base) (c : Char) : Option Nat :=
  match base with
  | .ten => Text.decimalDigit? c
  | .sixteen => Text.decimalDigit? c <|> Text.hexLetter? c

/-- The number that digit values stand for, most significant first. -/
def ofDigits (base : Base) (digits : List Nat) : Nat :=
  digits.foldl (fun n d => n * base.radix + d) 0

/-- Whether a run of digits and underscores has its underscores only between digits, one at a
    time. -/
def isGrouped : List Char → Bool
  | [] => true
  | '_' :: _ => false
  | _ :: '_' :: '_' :: _ => false
  | _ :: '_' :: cs => cs ≠ [] && isGrouped cs
  | _ :: cs => isGrouped cs

/-! ## Reading -/

/-- Whether the character may surround a numeral: a blank other than an information separator. -/
def isPadding (c : Char) : Bool :=
  Text.isBlank c && !(0x1C ≤ c.toNat && c.toNat ≤ 0x1F)

/-- Whether the text begins with `0x`, in either case. -/
def isMarked : List Char → Bool
  | '0' :: c :: _ => c = 'x' || c = 'X'
  | _ => false

/-- Splits a sign off: whether the number is negative, and the rest. -/
def splitSign : List Char → Bool × List Char
  | '-' :: cs => (true, cs)
  | '+' :: cs => (false, cs)
  | cs => (false, cs)

/-- Drops the mark of base sixteen: a zero, the letter `x`, and one underscore after it. -/
def dropMark (base : Base) (cs : List Char) : List Char :=
  match base, cs with
  | .sixteen, z :: x :: rest =>
    if Text.decimalDigit? z = some 0 ∧ (x = 'x' ∨ x = 'X') then
      match rest with
      | '_' :: digits => digits
      | digits => digits
    else cs
  | _, _ => cs

/-- Reads digits and the padding after them; `text` is the whole numeral, which an error shows.
    The number of digits is judged before what follows them. -/
def readDigits (base : Base) (text cs : List Char) : Except NumeralError Nat :=
  let inRun := fun c => c = '_' || (digit? base c).isSome
  let run := cs.takeWhile inRun
  let digits := run.filterMap (digit? base)
  if !isGrouped run then .error (.malformed base text)
  else if base = .ten ∧ Decimal.digitLimit < digits.length then .error (.tooLong digits.length)
  else if digits = [] ∨ !(cs.dropWhile inRun).all isPadding then .error (.malformed base text)
  else .ok (ofDigits base digits)

/-- Reads a numeral of the base. -/
def read (base : Base) (text : List Char) : Except NumeralError Int :=
  let (negative, unsigned) := splitSign (text.dropWhile isPadding)
  (readDigits base text (dropMark base unsigned)).map fun n => if negative then -n else n

end Numeral

end WordMachine
