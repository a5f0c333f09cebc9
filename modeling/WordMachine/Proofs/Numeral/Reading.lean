import Mathlib.Data.List.TakeWhile
import WordMachine.Proofs.Text.Digits
import WordMachine.Proofs.WordFile.Spelling

set_option autoImplicit false

/-! # Numerals of digits alone

A text of digits alone has no padding, no sign and no underscore, so it is read as it stands. It is
a number if the digits are decimal ones, of any script, at least one and no more than the limit. -/

namespace WordMachine.Numeral

variable {cs text : List Char} {values : List Nat}

theorem forall₂_filterMap (h : ∀ c ∈ cs, (Text.decimalDigit? c).isSome = true) :
    List.Forall₂ WordFile.IsDecimalDigit cs (cs.filterMap Text.decimalDigit?) := by
  induction cs with
  | nil => exact .nil
  | cons c cs ih =>
    obtain ⟨hc, hcs⟩ := List.forall_mem_cons.1 h
    obtain ⟨d, hd⟩ := Option.isSome_iff_exists.1 hc
    rw [List.filterMap_cons_some hd]
    exact .cons hd (ih hcs)

theorem filterMap_of_forall₂ (h : List.Forall₂ WordFile.IsDecimalDigit cs values) :
    cs.filterMap Text.decimalDigit? = values := by
  induction h with
  | nil => rfl
  | cons hd _ ih => rw [List.filterMap_cons_some hd, ih]

theorem isSome_of_forall₂ (h : List.Forall₂ WordFile.IsDecimalDigit cs values) :
    ∀ c ∈ cs, (Text.decimalDigit? c).isSome = true := by
  induction h with
  | nil => simp
  | cons hd _ ih => exact List.forall_mem_cons.2 ⟨by rw [hd]; rfl, ih⟩

theorem isDigit_of_forall₂ (h : List.Forall₂ WordFile.IsDecimalDigit cs values) :
    ∀ c ∈ cs, Text.isDigit c = true := fun c hc =>
  Bool.or_eq_true_iff.2 (Or.inl (isSome_of_forall₂ h c hc))

theorem isGrouped_of_not_mem (h : '_' ∉ cs) : isGrouped cs = true := by
  fun_induction isGrouped cs <;> simp_all

/-- Whether the character belongs to the run of digits and underscores that is read. -/
def inRun (base : Base) (c : Char) : Bool := c = '_' || (digit? base c).isSome

/-- Digits are read if their underscores stand between digits, if there are some and not too many of
    them, and if nothing but padding follows. -/
theorem readDigits_eq_ok_iff {base : Base} {n : Nat} :
    readDigits base text cs = .ok n ↔
      isGrouped (cs.takeWhile (inRun base)) = true ∧
        (base = .ten →
          ((cs.takeWhile (inRun base)).filterMap (digit? base)).length ≤ Decimal.digitLimit) ∧
        (cs.takeWhile (inRun base)).filterMap (digit? base) ≠ [] ∧
        (∀ c ∈ cs.dropWhile (inRun base), isPadding c = true) ∧
        n = ofDigits base ((cs.takeWhile (inRun base)).filterMap (digit? base)) := by
  -- Where the run ends plays no part in how it is judged.
  have hjudged : ∀ (run rest : List Char) (digits : List Nat),
      ((if !isGrouped run then .error (.malformed base text)
        else if base = .ten ∧ Decimal.digitLimit < digits.length then
          .error (.tooLong digits.length)
        else if digits = [] ∨ !rest.all isPadding then .error (.malformed base text)
        else .ok (ofDigits base digits)) : Except NumeralError Nat) = .ok n ↔
      isGrouped run = true ∧ (base = .ten → digits.length ≤ Decimal.digitLimit) ∧ digits ≠ [] ∧
        (∀ c ∈ rest, isPadding c = true) ∧ n = ofDigits base digits := by
    intro run rest digits
    rw [← List.all_eq_true]
    grind
  exact hjudged ..

/-! ## Digits alone -/

theorem not_mem_of_not_isDigit (h : ∀ c ∈ cs, Text.isDigit c = true) {c : Char}
    (hc : Text.isDigit c = false) : c ∉ cs := by
  intro hmem
  rw [h c hmem] at hc
  cases hc

/-- A numeral of digits alone is read as it stands. -/
theorem read_ten_of_digits (h : ∀ c ∈ cs, Text.isDigit c = true) :
    read .ten cs = (readDigits .ten cs cs).map fun n : Nat => (n : Int) := by
  have hpadding : cs.dropWhile isPadding = cs := by
    cases cs with
    | nil => rfl
    | cons c rest =>
      rw [List.dropWhile_cons_of_neg]
      simp [isPadding, Text.not_isBlank_of_isDigit (h c List.mem_cons_self)]
  have hsign : splitSign cs = (false, cs) := by
    unfold splitSign
    split
    · exact absurd List.mem_cons_self (not_mem_of_not_isDigit h (by decide +kernel))
    · exact absurd List.mem_cons_self (not_mem_of_not_isDigit h (by decide +kernel))
    · rfl
  rw [read, hpadding, hsign]
  show Except.map _ (readDigits .ten cs cs >>= _) = _
  cases readDigits .ten cs cs <;> rfl

/-- Decimal digits alone are read by their values. -/
theorem read_ten_of_forall₂ (h : List.Forall₂ WordFile.IsDecimalDigit cs values) (hne : values ≠ [])
    (hshort : values.length ≤ Decimal.digitLimit) :
    read .ten cs = .ok (Nat.ofDigits 10 values.reverse : Nat) := by
  have hrun : ∀ c ∈ cs, inRun .ten c = true :=
    fun c hc => Bool.or_eq_true_iff.2 (Or.inr (isSome_of_forall₂ h c hc))
  have hmap : cs.filterMap (digit? .ten) = values := filterMap_of_forall₂ h
  have hunderscore := not_mem_of_not_isDigit (isDigit_of_forall₂ h) (c := '_') (by decide +kernel)
  rw [read_ten_of_digits (isDigit_of_forall₂ h), map_eq_ok_iff]
  refine ⟨_, readDigits_eq_ok_iff.2 ?_, rfl⟩
  rw [List.takeWhile_eq_self_iff.2 hrun, List.dropWhile_eq_nil_iff.2 hrun, hmap, ofDigits_eq]
  exact ⟨isGrouped_of_not_mem hunderscore, fun _ => hshort, hne, by simp, rfl⟩

/-- Digits alone are a numeral if they are decimal digits, some and not too many of them. -/
theorem read_ten_eq_ok_iff (h : ∀ c ∈ cs, Text.isDigit c = true) {v : Int} :
    read .ten cs = .ok v ↔
      ∃ values, List.Forall₂ WordFile.IsDecimalDigit cs values ∧ values ≠ [] ∧
        values.length ≤ Decimal.digitLimit ∧ v = (Nat.ofDigits 10 values.reverse : Nat) := by
  constructor
  · intro hread
    rw [read_ten_of_digits h, map_eq_ok_iff] at hread
    obtain ⟨n, hn, rfl⟩ := hread
    obtain ⟨-, hshort, hne, hrest, rfl⟩ := readDigits_eq_ok_iff.1 hn
    -- What follows the run would be padding, and there is none among digits.
    have hnone : cs.dropWhile (inRun .ten) = [] := by
      refine List.eq_nil_iff_forall_not_mem.2 fun c hc => ?_
      have hdigit := h c ((List.dropWhile_sublist _).mem hc)
      have hpadding := hrest c hc
      rw [isPadding, Text.not_isBlank_of_isDigit hdigit] at hpadding
      cases hpadding
    have hrun := List.dropWhile_eq_nil_iff.1 hnone
    have hdecimal : ∀ c ∈ cs, (Text.decimalDigit? c).isSome = true := by
      intro c hc
      refine (Bool.or_eq_true_iff.1 (hrun c hc)).resolve_left fun heq => ?_
      rw [of_decide_eq_true heq] at hc
      exact not_mem_of_not_isDigit h (by decide +kernel) hc
    rw [List.takeWhile_eq_self_iff.2 hrun] at hshort hne ⊢
    refine ⟨_, forall₂_filterMap hdecimal, hne, hshort rfl, ?_⟩
    rw [ofDigits_eq]
    rfl
  · rintro ⟨values, hvalues, hne, hshort, rfl⟩
    exact read_ten_of_forall₂ hvalues hne hshort

end WordMachine.Numeral
