import WordMachine.Error
import WordMachine.Word

set_option autoImplicit false

/-! # Division

Division of integers of any size, with the quotient rounded toward zero and then wrapped. For two
words this is the division of words, in which the least word divided by minus one wraps back to
itself. -/

namespace WordMachine.Word

/-- The wrapped quotient of two integers, rounded toward zero. -/
def quotient (a b : Int) : Except Error Word :=
  if b = 0 then .error .zeroDivisor else .ok (wrap (a.tdiv b))

theorem toInt_ne_zero {w : Word} (h : w ≠ 0) : w.toInt ≠ 0 :=
  fun h0 => h (Int32.toInt_inj.1 (by simpa using h0))

theorem quotient_toInt (a b : Word) (h : b ≠ 0) : quotient a.toInt b.toInt = .ok (a / b) := by
  rw [quotient, if_neg (toInt_ne_zero h), Except.ok.injEq, ← Int32.toInt_inj, toInt_wrap,
    Int32.toInt_div, Int32.size]

end WordMachine.Word
