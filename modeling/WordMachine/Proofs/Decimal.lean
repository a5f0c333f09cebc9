import WordMachine.Decimal

set_option autoImplicit false

/-! # Decimal text can be read back

A padded number is a sign, zeros and digits, and its digits alone have no zero in front
(`eq_zero_of_head_digits`). `read?` reads it back, whatever width it is padded to
(`read?_paddedChars`), so no two numbers look the same (`paddedChars_injective`). -/

namespace WordMachine.Decimal

/-- The number that digits stand for. -/
def readDigits? (cs : List Char) : Option Nat :=
  if cs = [] ∨ cs.all Char.isDigit = false then none else some (Nat.ofDigitChars 10 cs 0)

/-- The integer that digits stand for, with a minus sign in front of them or without. -/
def read? (cs : List Char) : Option Int :=
  if cs.head? = some '-' then (readDigits? cs.tail).map fun n : Nat => (-n : Int)
  else (readDigits? cs).map fun n : Nat => (n : Int)

variable {width : Nat} {v : Int} {c : Char}

@[simp] theorem toList_padded (width : Nat) (v : Int) :
    (padded width v).toList = paddedChars width v :=
  String.toList_ofList

@[simp] theorem toList_text (v : Int) : (text v).toList = paddedChars 0 v := toList_padded 0 v

theorem isDigit_of_mem_digits {n : Nat} (h : c ∈ digits n) : c.isDigit = true :=
  Nat.isDigit_of_mem_toDigits (by decide) (by decide) h

theorem isDigit_of_mem_zeros_digits {n zeros : Nat} (h : c ∈ List.replicate zeros '0' ++ digits n) :
    c.isDigit = true := by
  rcases List.mem_append.1 h with hzero | hdigit
  · rw [List.eq_of_mem_replicate hzero]
    decide
  · exact isDigit_of_mem_digits hdigit

theorem paddedChars_ne_nil : paddedChars width v ≠ [] := by
  simp [paddedChars, digits, Nat.toDigits_ne_nil]

theorem eq_minus_or_isDigit_of_mem (h : c ∈ paddedChars width v) : c = '-' ∨ c.isDigit = true := by
  rw [paddedChars, List.append_assoc] at h
  rcases List.mem_append.1 h with hsign | hrest
  · rw [sign] at hsign
    split at hsign
    · exact Or.inl (List.mem_singleton.1 hsign)
    · cases hsign
  · exact Or.inr (isDigit_of_mem_zeros_digits hrest)

theorem not_mem_paddedChars (hminus : c ≠ '-') (hdigit : c.isDigit = false) :
    c ∉ paddedChars width v := by
  intro hmem
  rcases eq_minus_or_isDigit_of_mem hmem with h | h
  · exact hminus h
  · rw [hdigit] at h
    cases h

/-- No needless zero is in front of the digits. -/
theorem eq_zero_of_head_digits {n : Nat} (h : (digits n).head? = some '0') : n = 0 := by
  induction n using Nat.strongRecOn with
  | ind n ih =>
    rw [digits, Nat.toDigits_eq_if (by decide)] at h
    split at h
    · next hlt =>
      have hall : ∀ m < 10, [Nat.digitChar m].head? = some '0' → m = 0 := by decide
      exact hall n hlt h
    · have hne : (digits (n / 10)).head? ≠ none := by simp [digits, Nat.toDigits_ne_nil]
      obtain ⟨c, hc⟩ := Option.ne_none_iff_exists'.1 hne
      rw [List.head?_append, ← digits, hc, Option.some_or] at h
      have hzero := ih (n / 10) (by omega) (hc.trans h)
      omega

theorem ofDigitChars_zeros_digits (zeros n : Nat) :
    Nat.ofDigitChars 10 (List.replicate zeros '0' ++ digits n) 0 = n := by
  rw [Nat.ofDigitChars_append, Nat.ofDigitChars_replicate_zero, Nat.mul_zero]
  exact Nat.ofDigitChars_ten_toDigits

/-! ## Reading -/

theorem readDigits?_zeros_digits (zeros n : Nat) :
    readDigits? (List.replicate zeros '0' ++ digits n) = some n := by
  have hall : (List.replicate zeros '0' ++ digits n).all Char.isDigit = true :=
    List.all_eq_true.2 fun c hc => isDigit_of_mem_zeros_digits hc
  have hne : List.replicate zeros '0' ++ digits n ≠ [] := by simp [digits, Nat.toDigits_ne_nil]
  rw [readDigits?, if_neg (by simp [hne, hall]), ofDigitChars_zeros_digits]

/-- A number that is shown can be read back, whatever width it is padded to. -/
theorem read?_paddedChars (width : Nat) (v : Int) : read? (paddedChars width v) = some v := by
  rw [paddedChars, List.append_assoc, sign, read?]
  split
  · rw [List.singleton_append, List.head?_cons, if_pos rfl, List.tail_cons,
      readDigits?_zeros_digits, Option.map_some]
    congr 1
    omega
  · rw [List.nil_append, if_neg, readDigits?_zeros_digits, Option.map_some]
    · congr 1
      omega
    · intro hminus
      cases isDigit_of_mem_zeros_digits (List.mem_of_head? hminus)

theorem paddedChars_injective {v w : Int} (h : paddedChars width v = paddedChars width w) :
    v = w := by
  have hread : some v = some w := by rw [← read?_paddedChars width v, h, read?_paddedChars]
  exact Option.some.inj hread

end WordMachine.Decimal
