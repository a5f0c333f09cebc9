import WordMachine.Decimal
import WordMachine.Text.Quoted

set_option autoImplicit false

/-! # JSON

JSON values of integers, texts, lists and objects, written with every item and every field on a
line of its own and two more spaces for every level. -/

namespace WordMachine

/-- A JSON value. The fields of an object keep their order. -/
inductive Json where
  | integer (value : Int)
  | text (text : String)
  | list (items : List Json)
  | object (fields : List (String × Json))

namespace Json

/-- The number of spaces a level is set in. -/
def indentWidth : Nat := 2

/-- A character as it stands in a JSON text. -/
def escaped (c : Char) : List Char :=
  if c = '"' ∨ c = '\\' then ['\\', c]
  else if c.toNat < 0x20 then '\\' :: 'u' :: Text.hexDigits 4 c.toNat
  else [c]

/-- A JSON text. -/
def writeText (s : String) : String :=
  "\"" ++ String.ofList (s.toList.flatMap escaped) ++ "\""

/-- A new line at a level. -/
def newLine (level : Nat) : String :=
  "\n" ++ String.ofList (List.replicate (level * indentWidth) ' ')

/-- Items between brackets, each on a line of its own; brackets at the given level. -/
def bracketed (opening closing : String) (level : Nat) (items : List String) : String :=
  if items = [] then opening ++ closing
  else
    opening ++ newLine (level + 1) ++ ("," ++ newLine (level + 1)).intercalate items ++
      newLine level ++ closing

mutual

/-- Writes a value at a level. -/
def write (level : Nat) : Json → String
  | integer value => Decimal.text value
  | text s => writeText s
  | list items => bracketed "[" "]" level (writeItems (level + 1) items)
  | object fields => bracketed "\x7b" "\x7d" level (writeFields (level + 1) fields)

/-- Writes the items of a list. -/
def writeItems (level : Nat) : List Json → List String
  | [] => []
  | item :: items => write level item :: writeItems level items

/-- Writes the fields of an object. -/
def writeFields (level : Nat) : List (String × Json) → List String
  | [] => []
  | (key, value) :: fields =>
    (writeText key ++ ": " ++ write level value) :: writeFields level fields

end

end Json

end WordMachine
