set_option autoImplicit false

/-! # UTF-8

Bytes are read as UTF-8 strictly: over-long forms, surrogates, values beyond U+10FFFF and
truncated sequences are refused. `decode` reads characters for as long as the bytes allow. If
bytes are left over, the error says where the first sequence that is no character begins and what
is wrong with it. -/

namespace WordMachine.Text.Utf8

/-- What is wrong with a byte sequence that encodes no character. -/
inductive Flaw where
  /-- No character begins with this byte. -/
  | startByte
  /-- A later byte cannot follow those before it. -/
  | continuationByte
  /-- The bytes end within a character. -/
  | truncated
  deriving DecidableEq, Repr

/-- The wording of a flaw. -/
def Flaw.text : Flaw → String
  | .startByte => "invalid start byte"
  | .continuationByte => "invalid continuation byte"
  | .truncated => "unexpected end of data"

/-- A byte sequence that encodes no character, and the offset of its first byte. -/
structure Malformed where
  flaw : Flaw
  offset : Nat
  deriving DecidableEq, Repr

/-- How many bytes follow the first byte of a character, if a character can begin with it. -/
def following? (first : UInt8) : Option Nat :=
  if first < 0x80 then some 0
  else if first < 0xC2 then none
  else if first < 0xE0 then some 1
  else if first < 0xF0 then some 2
  else if first < 0xF5 then some 3
  else none

/-- Whether `second` may follow `first`. The narrower ranges shut out over-long forms, surrogates
    and values beyond U+10FFFF. -/
def mayFollow (first second : UInt8) : Bool :=
  if first = 0xE0 then 0xA0 ≤ second && second < 0xC0
  else if first = 0xED then 0x80 ≤ second && second < 0xA0
  else if first = 0xF0 then 0x90 ≤ second && second < 0xC0
  else if first = 0xF4 then 0x80 ≤ second && second < 0x90
  else 0x80 ≤ second && second < 0xC0

/-- What is wrong with bytes whose beginning encodes no character. -/
def flaw : List UInt8 → Flaw
  | [] => .truncated
  | first :: rest =>
    match following? first with
    | none => .startByte
    | some count =>
      match rest.take count with
      | [] => .truncated
      | second :: others =>
        if mayFollow first second && others.all fun b => 0x80 ≤ b && b < 0xC0 then .truncated
        else .continuationByte

/-- Reads characters from an offset on for as long as there are any. Returns those read before
    followed by them, and the offset at which they end. -/
def readFrom (bytes : ByteArray) (offset : Nat) (before : Array Char) : Array Char × Nat :=
  match _h : bytes.utf8DecodeChar? offset with
  | none => (before, offset)
  | some c => readFrom bytes (offset + c.utf8Size) (before.push c)
termination_by bytes.size - offset
decreasing_by
  have := ByteArray.lt_size_of_isSome_utf8DecodeChar? (Option.isSome_of_eq_some _h)
  have := c.utf8Size_pos
  omega

/-- The text that the bytes encode. -/
def decode (bytes : ByteArray) : Except Malformed (List Char) :=
  let (chars, stop) := readFrom bytes 0 #[]
  if stop = bytes.size then .ok chars.toList
  else .error ⟨flaw (bytes.toList.drop stop), stop⟩

end WordMachine.Text.Utf8
