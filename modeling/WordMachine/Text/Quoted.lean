import WordMachine.Text.Printable

set_option autoImplicit false

/-! # Quoted text

Text is quoted in messages so that its ends and its unprintable characters can be seen. The quote
is an apostrophe, or a double quote where the text has an apostrophe and no double quote. The
quote in use and the backslash are escaped, tab, line feed and carriage return have letters of
their own, and any other unprintable character is shown as its code in hexadecimal with two, four
or eight digits. -/

namespace WordMachine.Text

/-- The quote that surrounds the text. -/
def quoteFor (cs : List Char) : Char :=
  if '\'' ∈ cs ∧ '"' ∉ cs then '"' else '\''

/-- The lower-case hexadecimal digits of `n`, with leading zeros up to `width` digits. -/
def hexDigits (width n : Nat) : List Char :=
  let shown := Nat.toDigits 16 n
  List.replicate (width - shown.length) '0' ++ shown

/-- The escape of a character by its code. -/
def codeEscape (c : Char) : List Char :=
  if c.toNat < 0x100 then '\\' :: 'x' :: hexDigits 2 c.toNat
  else if c.toNat < 0x10000 then '\\' :: 'u' :: hexDigits 4 c.toNat
  else '\\' :: 'U' :: hexDigits 8 c.toNat

/-- A character as it stands between two quotes. -/
def quotedChar (quote c : Char) : List Char :=
  if c = quote ∨ c = '\\' then ['\\', c]
  else if c = '\t' then ['\\', 't']
  else if c = '\n' then ['\\', 'n']
  else if c = '\r' then ['\\', 'r']
  else if isPrintable c then [c]
  else codeEscape c

/-- The text between quotes. -/
def quoted (cs : List Char) : List Char :=
  let quote := quoteFor cs
  quote :: cs.flatMap (quotedChar quote) ++ [quote]

/-- The quoted form of a string. -/
def quote (s : String) : String := String.ofList (quoted s.toList)

end WordMachine.Text
