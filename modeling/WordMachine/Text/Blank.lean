import WordMachine.Text.Ranges

set_option autoImplicit false

/-! # Blanks

Blanks separate the fields of a line and may surround a value. They are the Unicode white space
characters together with the four information separators U+001C to U+001F. -/

namespace WordMachine.Text

/-- The code points of the blanks. -/
def blanks : Ranges :=
  [(0x9, 0xD), (0x1C, 0x20), (0x85, 0x85), (0xA0, 0xA0), (0x1680, 0x1680), (0x2000, 0x200A),
    (0x2028, 0x2029), (0x202F, 0x202F), (0x205F, 0x205F), (0x3000, 0x3000)]

/-- Whether the character is a blank. -/
def isBlank (c : Char) : Bool := blanks.contains c

/-- The text without the blanks at its two ends. -/
def trim (cs : List Char) : List Char :=
  ((cs.dropWhile isBlank).reverse.dropWhile isBlank).reverse

/-- Puts a character in front of the first of some pieces, which it begins if there is none. -/
def consFirst (c : Char) : List (List Char) → List (List Char)
  | [] => [[c]]
  | piece :: rest => (c :: piece) :: rest

/-- The fields of a text: its longest runs of characters that do not separate. -/
def fields (separates : Char → Bool) : List Char → List (List Char)
  | [] => []
  | [c] => if separates c then [] else [[c]]
  | c :: d :: cs =>
    if separates c then fields separates (d :: cs)
    else if separates d then [c] :: fields separates (d :: cs)
    else consFirst c (fields separates (d :: cs))

end WordMachine.Text
