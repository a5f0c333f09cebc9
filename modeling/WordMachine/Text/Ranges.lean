set_option autoImplicit false

/-! # Character ranges

A class of characters is given by the ranges of code points it covers. -/

namespace WordMachine.Text

/-- A class of characters, as ranges of code points with both ends included. -/
abbrev Ranges := List (Nat × Nat)

/-- Whether one of the ranges covers the character. -/
def Ranges.contains (ranges : Ranges) (c : Char) : Bool :=
  ranges.any fun (first, last) => first ≤ c.toNat && c.toNat ≤ last

end WordMachine.Text
