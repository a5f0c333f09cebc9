import WordMachine.Text.Blank
import WordMachine.Text.Digit

set_option autoImplicit false

/-! # Digits among the characters

The digits of all kinds are a class of ranges like the blanks. Two classes have no character in
common if no range of the one meets a range of the other, and that is read off the ranges. -/

namespace WordMachine.Text

namespace Ranges

variable {r s : Ranges} {n : Nat} {c : Char}

/-- Whether one of the ranges covers the code point. -/
def Covers (r : Ranges) (n : Nat) : Prop := ∃ x ∈ r, x.1 ≤ n ∧ n ≤ x.2

instance : Decidable (r.Covers n) :=
  inferInstanceAs (Decidable (∃ x ∈ r, x.1 ≤ n ∧ n ≤ x.2))

/-- Whether no range of the one class meets a range of the other. -/
def apart (r s : Ranges) : Bool :=
  r.all fun x => s.all fun y => Nat.blt x.2 y.1 || Nat.blt y.2 x.1

theorem contains_iff : r.contains c = true ↔ r.Covers c.toNat := by
  simp only [contains, Covers, List.any_eq_true, Bool.and_eq_true, decide_eq_true_eq]

theorem covers_append_iff : Covers (r ++ s) n ↔ r.Covers n ∨ s.Covers n := by
  simp only [Covers, List.mem_append, or_and_right, exists_or]

theorem not_covers_of_apart (h : r.apart s = true) (hr : r.Covers n) : ¬s.Covers n := by
  rintro ⟨y, hy, hlow, hhigh⟩
  obtain ⟨x, hx, hlow', hhigh'⟩ := hr
  have hxy := List.all_eq_true.1 (List.all_eq_true.1 h x hx) y hy
  simp only [Bool.or_eq_true, Nat.blt_eq] at hxy
  omega

end Ranges

/-- The digits of all kinds. -/
def digitRanges : Ranges := decimalZeros.map (fun first => (first, first + 9)) ++ otherDigits

theorem isDigit_iff {c : Char} : isDigit c = true ↔ digitRanges.Covers c.toNat := by
  have hdecimal : (decimalDigit? c).isSome = true ↔
      Ranges.Covers (decimalZeros.map fun first => (first, first + 9)) c.toNat := by
    simp only [decimalDigit?, Option.isSome_map, List.find?_isSome, Bool.and_eq_true,
      decide_eq_true_eq, Ranges.Covers, List.mem_map]
    constructor
    · rintro ⟨first, hfirst, hlow, hhigh⟩
      exact ⟨_, ⟨first, hfirst, rfl⟩, hlow, Nat.le_of_lt_succ hhigh⟩
    · rintro ⟨_, ⟨first, hfirst, rfl⟩, hlow, hhigh⟩
      exact ⟨first, hfirst, hlow, Nat.lt_succ_of_le hhigh⟩
  rw [isDigit, Bool.or_eq_true, hdecimal, Ranges.contains_iff, digitRanges,
    Ranges.covers_append_iff]

theorem digits_apart_blanks : digitRanges.apart blanks = true := by decide +kernel

/-- No digit is a blank. -/
theorem not_isBlank_of_isDigit {c : Char} (h : isDigit c = true) : isBlank c = false := by
  rw [← Bool.not_eq_true, isBlank, Ranges.contains_iff]
  exact Ranges.not_covers_of_apart digits_apart_blanks (isDigit_iff.1 h)

/-- The letters that serve as hexadecimal digits. -/
def hexLetters : Ranges := [(0x41, 0x46), (0x61, 0x66)]

theorem hexLetters_apart_blanks : hexLetters.apart blanks = true := by decide +kernel

theorem covers_of_hexLetter? {c : Char} {d : Nat} (h : hexLetter? c = some d) :
    hexLetters.Covers c.toNat := by
  unfold hexLetter? at h
  split at h
  · next hc => exact ⟨(0x61, 0x66), by decide, hc⟩
  · split at h
    · next hc => exact ⟨(0x41, 0x46), by decide, hc⟩
    · cases h

theorem not_isBlank_of_hexLetter? {c : Char} {d : Nat} (h : hexLetter? c = some d) :
    isBlank c = false := by
  rw [← Bool.not_eq_true, isBlank, Ranges.contains_iff]
  exact Ranges.not_covers_of_apart hexLetters_apart_blanks (covers_of_hexLetter? h)

end WordMachine.Text
