import Mathlib.Data.Nat.Digits.Defs
import WordMachine.Numeral
import WordMachine.Proofs.Outcome
import WordMachine.Word

set_option autoImplicit false

/-! # Numbers of few digits

The limit of decimal digits is the same for reading and for writing. So a number that was read from
a decimal numeral can be written in decimal (`Numeral.isWritable_of_read`), and so can any word and
any number that is no larger than a writable one. -/

namespace WordMachine

/-! ## Writable numbers -/

namespace Decimal

theorem isWritable_iff {v : Int} : isWritable v = true ↔ v.natAbs < 10 ^ digitLimit := by
  rw [isWritable, decide_eq_true_iff, digits]
  exact Nat.length_toDigits_le_iff (by decide) (by decide)

theorem isWritable_of_natAbs_le {v w : Int} (hv : isWritable v = true)
    (h : w.natAbs ≤ v.natAbs) : isWritable w = true :=
  isWritable_iff.2 (Nat.lt_of_le_of_lt h (isWritable_iff.1 hv))

theorem isWritable_of_natAbs_lt {v : Int} {k : Nat} (hk : k ≤ digitLimit)
    (h : v.natAbs < 10 ^ k) : isWritable v = true :=
  isWritable_iff.2 (Nat.lt_of_lt_of_le h (Nat.pow_le_pow_right (by decide) hk))

/-- Every word can be written in decimal: it has at most ten digits. -/
theorem isWritable_toInt (word : Word) : isWritable word.toInt = true := by
  have hlow : -2147483648 ≤ word.toInt := Int32.le_toInt word
  have hhigh : word.toInt < 2147483648 := Int32.toInt_lt word
  exact isWritable_of_natAbs_lt (k := 10) (by decide) (by omega)

end Decimal

/-! ## Numbers that were read -/

namespace Numeral

variable {base : Base} {digits : List Nat} {text : List Char}

theorem ofDigits_eq (base : Base) (digits : List Nat) :
    ofDigits base digits = Nat.ofDigits base.radix digits.reverse := by
  rw [ofDigits, Nat.ofDigits_eq_foldr, List.foldr_reverse]
  congr 1
  funext n d
  simp [Nat.mul_comm, Nat.add_comm]

theorem ofDigits_lt (h : ∀ d ∈ digits, d < base.radix) :
    ofDigits base digits < base.radix ^ digits.length := by
  have hradix : 1 < base.radix := by cases base <;> decide
  rw [ofDigits_eq, ← List.length_reverse]
  exact Nat.ofDigits_lt_base_pow_length hradix fun d hd => h d (List.mem_reverse.1 hd)

theorem digit?_ten_lt {c : Char} {d : Nat} (h : digit? .ten c = some d) : d < 10 :=
  Text.decimalDigit?_lt h

theorem readDigits_ten_lt {cs : List Char} {n : Nat} (h : readDigits .ten text cs = .ok n) :
    n < 10 ^ Decimal.digitLimit := by
  simp only [readDigits] at h
  split at h
  · cases h
  split at h
  · cases h
  next hshort =>
  split at h
  · cases h
  cases h
  have hall : ∀ d ∈ (cs.takeWhile fun c => c = '_' || (digit? .ten c).isSome).filterMap
      (digit? .ten), d < 10 := by
    intro d hd
    obtain ⟨c, -, hc⟩ := List.mem_filterMap.1 hd
    exact digit?_ten_lt hc
  have hlength := Nat.not_lt.1 fun hlong => hshort ⟨trivial, hlong⟩
  have hlimit : 10 ^ _ ≤ 10 ^ Decimal.digitLimit := Nat.pow_le_pow_right (by decide) hlength
  exact Nat.lt_of_lt_of_le (ofDigits_lt hall) hlimit

theorem exists_readDigits_of_read {v : Int} (h : read base text = .ok v) :
    ∃ cs n, readDigits base text cs = .ok n ∧ v.natAbs = n := by
  simp only [read] at h
  cases hn : readDigits base text
      (dropMark base (splitSign (text.dropWhile isPadding)).2) with
  | error e => rw [hn] at h; cases h
  | ok n =>
    rw [hn] at h
    refine ⟨_, n, hn, ?_⟩
    cases h
    cases (splitSign (text.dropWhile isPadding)).1 <;> simp

/-- A number that is read in decimal can be written in decimal. -/
theorem isWritable_of_read {v : Int} (h : read .ten text = .ok v) :
    Decimal.isWritable v = true := by
  obtain ⟨cs, n, hn, habs⟩ := exists_readDigits_of_read h
  exact Decimal.isWritable_iff.2 (habs ▸ readDigits_ten_lt hn)

end Numeral

end WordMachine
