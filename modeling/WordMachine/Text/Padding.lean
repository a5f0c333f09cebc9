set_option autoImplicit false

/-! # Padding

Columns of a table are lined up by spaces after their texts. -/

namespace WordMachine.Text

/-- The text, followed by spaces up to a width. A longer text is not cut. -/
def padRight (width : Nat) (s : String) : String :=
  s ++ String.ofList (List.replicate (width - s.length) ' ')

end WordMachine.Text
