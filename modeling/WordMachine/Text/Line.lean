import WordMachine.Text.Blank

set_option autoImplicit false

/-! # Lines

A line ends at a line break: a line feed, a carriage return, the pair of both (one break, not
two), a vertical tab, a form feed, one of the information separators U+001C to U+001E, the next
line character U+0085 or one of the Unicode separators U+2028 and U+2029. The last line needs no
break, and a text that ends with a break has no further line after it. -/

namespace WordMachine.Text

/-- The code points that end a line. -/
def lineBreaks : Ranges :=
  [(0xA, 0xD), (0x1C, 0x1E), (0x85, 0x85), (0x2028, 0x2029)]

/-- Whether the character ends a line. -/
def isLineBreak (c : Char) : Bool := lineBreaks.contains c

/-- The lines of a text, without their breaks. -/
def lines : List Char → List (List Char)
  | [] => []
  | '\r' :: '\n' :: cs => [] :: lines cs
  | c :: cs => if isLineBreak c then [] :: lines cs else consFirst c (lines cs)

/-- The text with every carriage return, alone or before a line feed, turned into one line
    feed. -/
def unifyNewlines : List Char → List Char
  | [] => []
  | '\r' :: '\n' :: cs => '\n' :: unifyNewlines cs
  | c :: cs => (if c = '\r' then '\n' else c) :: unifyNewlines cs

end WordMachine.Text
