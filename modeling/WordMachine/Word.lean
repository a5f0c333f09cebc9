set_option autoImplicit false

/-! # Words

A word is a signed 32-bit integer in two's complement, so the arithmetic of words wraps around.
Operations that accept any integer (a literal in a program, a value poked into memory) go through
`Word.wrap`, the one place where an integer becomes a word: `wrap v` is the only word congruent
to `v` modulo `2 ^ 32`. -/

namespace WordMachine

/-- A machine word: a signed 32-bit integer with wrapping arithmetic. -/
abbrev Word := Int32

namespace Word

/-- The number of bits in a word. -/
def bits : Nat := 32

/-- The least word, as an integer. -/
def least : Int := -2147483648

/-- The greatest word, as an integer. -/
def greatest : Int := 2147483647

/-- The word congruent to `value` modulo `2 ^ bits`. -/
def wrap (value : Int) : Word := Int32.ofInt value

/-! ## Arithmetic on integers of any size

The operands are taken as they are and only the result is wrapped. -/

/-- The wrapped sum of two integers. -/
def sum (a b : Int) : Word := wrap (a + b)

/-- The wrapped difference of two integers. -/
def difference (a b : Int) : Word := wrap (a - b)

/-! ## Wrapping and the arithmetic of words -/

@[simp] theorem wrap_toInt (w : Word) : wrap w.toInt = w := Int32.ofInt_toInt w

theorem toInt_wrap (v : Int) : (wrap v).toInt = v.bmod Int32.size := Int32.toInt_ofInt

theorem wrap_add (a b : Int) : wrap (a + b) = wrap a + wrap b := Int32.ofInt_add a b

theorem wrap_sub (a b : Int) : wrap (a - b) = wrap a - wrap b := Int32.ofInt_sub a b

@[simp] theorem sum_toInt (a b : Word) : sum a.toInt b.toInt = a + b := by
  simp [sum, wrap_add]

@[simp] theorem difference_toInt (a b : Word) : difference a.toInt b.toInt = a - b := by
  simp [difference, wrap_sub]

end Word

end WordMachine
