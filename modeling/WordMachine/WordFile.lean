import WordMachine.Error
import WordMachine.Text.Line

set_option autoImplicit false

/-! # Word files

A word file lists the words of a program. Words are separated by blanks, commas and line breaks,
and a `#` opens a comment that lasts to the end of its line. A word is a decimal number in the
digits of any script, or a hexadecimal one in ASCII digits after `0x`, either with an optional
sign. `parse` reads the words in order and stops at the first token that is no word, or that is
too long to be read. -/

namespace WordMachine.WordFile

/-- Whether the character separates tokens within a line. -/
def separates (c : Char) : Bool := c = ',' || Text.isBlank c

/-- The tokens of a line, up to its comment. -/
def tokens (line : List Char) : List (List Char) :=
  Text.fields separates (line.takeWhile (· ≠ '#'))

/-- The value of an ASCII hexadecimal digit. -/
def hexDigit? (c : Char) : Option Nat :=
  if '0' ≤ c ∧ c ≤ '9' then some (c.toNat - '0'.toNat) else Text.hexLetter? c

/-- The digits of an unsigned word and the base they are in; nothing if the text is no such
    word. -/
def digits? (text : List Char) : Option (Base × List Nat) :=
  let (base, digits) :=
    if Numeral.isMarked text then (Base.sixteen, (text.drop 2).mapM hexDigit?)
    else (Base.ten, text.mapM Text.decimalDigit?)
  match digits with
  | none | some [] => none
  | some digits => some (base, digits)

/-- The value of a token that stands in the given line. -/
def readToken (line : Nat) (token : List Char) : Except Error Int :=
  let (negative, unsigned) := Numeral.splitSign token
  match digits? unsigned with
  | none => .error (.format (.notAWord line token))
  | some (base, digits) =>
    if base = .ten ∧ Decimal.digitLimit < digits.length then
      .error (.numeral (.tooLong digits.length))
    else
      let n : Int := Numeral.ofDigits base digits
      .ok (if negative then -n else n)

/-- The values of some tokens of a line. -/
def readTokens (line : Nat) : List (List Char) → Except Error (List Int)
  | [] => .ok []
  | token :: rest =>
    match readToken line token with
    | .error e => .error e
    | .ok value => (readTokens line rest).map (value :: ·)

/-- The words of some lines, the first of which has the given number. -/
def parseLines (line : Nat) : List (List Char) → Except Error (List Int)
  | [] => .ok []
  | text :: rest =>
    match readTokens line (tokens text) with
    | .error e => .error e
    | .ok words => (parseLines (line + 1) rest).map (words ++ ·)

/-- The words of a word file. Lines are counted from one. -/
def parse (text : List Char) : Except Error (List Int) := parseLines 1 (Text.lines text)

end WordMachine.WordFile
