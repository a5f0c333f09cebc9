set_option autoImplicit false

/-! # Decimal text

Integers are shown in decimal, either plain or padded with zeros to a least width. The width
counts the minus sign, which stays in front of the zeros; a longer number is never cut. -/

namespace WordMachine.Decimal

/-- The most decimal digits that a number read or written in decimal may have. -/
def digitLimit : Nat := 4300

/-- The decimal digits of a number, most significant first. -/
def digits (n : Nat) : List Char := Nat.toDigits 10 n

/-- The sign that is written in front of a number. -/
def sign (v : Int) : List Char := if v < 0 then ['-'] else []

/-- The characters of `v`, with zeros between sign and digits up to the width. -/
def paddedChars (width : Nat) (v : Int) : List Char :=
  let shown := digits v.natAbs
  sign v ++ List.replicate (width - (sign v).length - shown.length) '0' ++ shown

/-- The decimal text of `v`, padded with zeros to at least `width` characters. -/
def padded (width : Nat) (v : Int) : String := String.ofList (paddedChars width v)

/-- The plain decimal text of `v`. -/
def text (v : Int) : String := padded 0 v

/-- Whether `v` has few enough digits to be written in decimal. -/
def isWritable (v : Int) : Bool := (digits v.natAbs).length ≤ digitLimit

theorem paddedChars_zero (v : Int) : paddedChars 0 v = sign v ++ digits v.natAbs := by
  simp [paddedChars]

end WordMachine.Decimal
