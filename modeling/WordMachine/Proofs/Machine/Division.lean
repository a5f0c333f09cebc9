import Mathlib.Data.Rat.Floor
import WordMachine.Proofs.Machine.Wrapping
import WordMachine.Word.Division

set_option autoImplicit false

/-! # Division rounds toward zero

The quotient of two integers is rounded toward zero (`towardZero`), which is what comes of dividing
the absolute values and negating the result if the signs differ (`tdiv_eq_signed`). For words it is
the quotient with a remainder that is smaller than the divisor and takes its sign from the dividend
(`Word.isQuotient_div_iff`). Only one pair of words has a quotient that is no word. `DIV` leaves the
quotient in the accumulator (`Machine.div_rounds_toward_zero`). -/

namespace WordMachine

/-- A rational number rounded toward zero: up if it is negative, else down. -/
def towardZero (x : ℚ) : Int := if x < 0 then ⌈x⌉ else ⌊x⌋

/-- Whether `a` divided by `b` is `q` with a remainder that is smaller than the divisor and that is
    zero or has the sign of the dividend. -/
def IsQuotient (a b q : Int) : Prop :=
  ∃ r, a = q * b + r ∧ |r| < |b| ∧ (r = 0 ∨ r.sign = a.sign)

/-! ## Quotients of integers -/

/-- What changes its sign with each of two integers is known from their absolute values. -/
theorem eq_signed_of_odd {α : Type} [InvolutiveNeg α] {f : Int → Int → α}
    (hleft : ∀ a b, f (-a) b = -f a b) (hright : ∀ a b, f a (-b) = -f a b) (a b : Int) :
    f a b = if a < 0 ↔ b < 0 then f |a| |b| else -f |a| |b| := by
  rcases lt_or_ge a 0 with ha | ha
  · rcases lt_or_ge b 0 with hb | hb
    · rw [if_pos (by omega), abs_of_neg ha, abs_of_neg hb, hleft, hright, neg_neg]
    · rw [if_neg (by omega), abs_of_neg ha, abs_of_nonneg hb, hleft, neg_neg]
  · rcases lt_or_ge b 0 with hb | hb
    · rw [if_neg (by omega), abs_of_nonneg ha, abs_of_neg hb, hright, neg_neg]
    · rw [if_pos (by omega), abs_of_nonneg ha, abs_of_nonneg hb]

/-- The quotient by absolute values: they are divided and rounded down, and the result is negated
    if the signs differ. -/
theorem tdiv_eq_signed (a b : Int) :
    a.tdiv b = if a < 0 ↔ b < 0 then |a| / |b| else -(|a| / |b|) := by
  rw [eq_signed_of_odd Int.neg_tdiv Int.tdiv_neg a b, Int.tdiv_eq_ediv_of_nonneg (abs_nonneg a)]

theorem towardZero_of_nonneg {x : ℚ} (h : 0 ≤ x) : towardZero x = ⌊x⌋ := if_neg (not_lt.2 h)

theorem towardZero_neg (x : ℚ) : towardZero (-x) = -towardZero x := by
  unfold towardZero
  rcases lt_trichotomy x 0 with h | rfl | h
  · rw [if_neg (by linarith), if_pos h, Int.floor_neg]
  · simp
  · rw [if_pos (by linarith), if_neg (by linarith), Int.ceil_neg]

theorem towardZero_div (a b : Int) : towardZero (a / b) = a.tdiv b := by
  rw [tdiv_eq_signed, eq_signed_of_odd (f := fun a b => towardZero ((a : ℚ) / b))
    (fun a b => by rw [Int.cast_neg, neg_div, towardZero_neg])
    (fun a b => by rw [Int.cast_neg, div_neg, towardZero_neg]) a b]
  have hfloor : towardZero ((|a| : Int) / (|b| : Int)) = |a| / |b| := by
    rw [towardZero_of_nonneg (by positivity), Int.abs_eq_natAbs b, Int.cast_natCast]
    exact Rat.floor_intCast_div_natCast |a| b.natAbs
  rw [hfloor]

/-- Rounding toward zero leaves a remainder with the sign of the dividend. -/
theorem isQuotient_tdiv (a : Int) {b : Int} (hb : b ≠ 0) : IsQuotient a b (a.tdiv b) := by
  refine ⟨a.tmod b, (Int.tdiv_mul_add_tmod a b).symm, ?_, ?_⟩
  · rw [Int.abs_eq_natAbs, Int.abs_eq_natAbs, Int.natAbs_tmod]
    exact Int.ofNat_lt.2 (Nat.mod_lt _ (Int.natAbs_pos.2 hb))
  · by_cases hdvd : b ∣ a
    · exact Or.inl (Int.tmod_eq_zero_of_dvd hdvd)
    · exact Or.inr (by rw [Int.sign_tmod, if_neg hdvd])

/-! ## Quotients of words -/

namespace Word

theorem quotient_eq (a : Int) {b : Int} (hb : b ≠ 0) :
    quotient a b = .ok (wrap (towardZero (a / b))) := by
  rw [quotient, if_neg hb, towardZero_div]

/-- The least word divided by minus one is too great for a word, and wraps back. -/
theorem div_of_least {a b : Word} (ha : a.toInt = -2 ^ 31) (hb : b.toInt = -1) :
    (a / b).toInt = -2 ^ 31 := by
  obtain rfl : a = -2147483648 := Int32.toInt_inj.1 ha
  obtain rfl : b = -1 := Int32.toInt_inj.1 hb
  decide

theorem isQuotient_div_iff (a : Word) {b : Word} (hb : b ≠ 0) :
    IsQuotient a.toInt b.toInt (a / b).toInt ↔ ¬(a.toInt = -2 ^ 31 ∧ b.toInt = -1) := by
  constructor
  · rintro ⟨r, heq, hlt, -⟩ ⟨ha, hb⟩
    rw [div_of_least ha hb, ha, hb] at heq
    rw [hb, abs_neg, abs_one, Int.abs_lt_one_iff] at hlt
    omega
  · intro h
    have hexact : (a / b).toInt = a.toInt.tdiv b.toInt := by
      rcases not_and_or.1 h with ha | hb
      · exact Int32.toInt_div_of_ne_left a b fun heq => ha (by rw [heq]; rfl)
      · exact Int32.toInt_div_of_ne_right a b fun heq => hb (by rw [heq]; rfl)
    rw [hexact]
    exact isQuotient_tdiv _ (toInt_ne_zero hb)

end Word

/-! ## The instruction -/

namespace Machine

variable {m : Machine} {address : Int}

theorem execute_div_of_no_cell (h : m.memory.cell? address = none) :
    m.execute .div address = .error (.badAddress address m.memory.size) := by
  simp only [execute, effectOf, Memory.read_of_no_cell h, Except.map]

theorem execute_div_of_zero (h : m.memory.cell? address = some 0) :
    m.execute .div address = .error (.divideByZero address) := by
  simp only [execute, effectOf, Memory.read_of_cell? h, if_true, Except.map]

theorem execute_div_of_quotient {b q : Word} (h : m.memory.cell? address = some b)
    (hq : Word.quotient m.registers.accumulator.toInt b.toInt = .ok q) :
    m.execute .div address =
      .ok (false, { m with registers := { m.registers with accumulator := q } }) := by
  have hb : b ≠ 0 := by
    rintro rfl
    cases hq
  rw [Word.quotient_toInt _ _ hb] at hq
  cases hq
  have heffect : m.effectOf .div address = .ok (.accumulate (m.registers.accumulator / b)) := by
    simp only [effectOf, Memory.read_of_cell? h, if_neg hb]
  exact execute_of_effect heffect

/-- Of any two integers the quotient is rounded toward zero and wrapped. Of two words it leaves a
    remainder that is smaller than the divisor and is zero or has the sign of the dividend, with the
    one exception of the least word divided by minus one, which gives the least word. `DIV` stores
    this quotient in the accumulator and changes nothing else; it is refused just where there is no
    cell or the cell is zero. -/
theorem div_rounds_toward_zero :
    (∀ a b : Int, b ≠ 0 → Word.quotient a b = .ok (Word.wrap (towardZero (a / b)))) ∧
      (∀ a b : Word, b ≠ 0 → ∃ q : Word, Word.quotient a.toInt b.toInt = .ok q ∧
        (IsQuotient a.toInt b.toInt q.toInt ↔ ¬(a.toInt = -2 ^ 31 ∧ b.toInt = -1)) ∧
        (a.toInt = -2 ^ 31 → b.toInt = -1 → q.toInt = -2 ^ 31)) ∧
      ∀ (m : Machine) (address : Int),
        ((∃ f, m.execute .div address = .error f) ↔
          ¬(0 ≤ address ∧ address < m.memory.size) ∨ m.memory.cell? address = some 0) ∧
        ∀ b q : Word, m.memory.cell? address = some b →
          Word.quotient m.registers.accumulator.toInt b.toInt = .ok q →
          m.execute .div address =
            .ok (false, { m with registers := { m.registers with accumulator := q } }) := by
  refine ⟨fun a b => Word.quotient_eq a, fun a b hb => ?_, fun m address => ⟨?_, ?_⟩⟩
  · exact ⟨a / b, Word.quotient_toInt a b hb, Word.isQuotient_div_iff a hb, Word.div_of_least⟩
  · rw [← Memory.cell?_eq_none_iff]
    constructor
    · rintro ⟨f, hf⟩
      cases hcell : m.memory.cell? address with
      | none => exact Or.inl rfl
      | some b =>
        by_cases hb : b = 0
        · exact Or.inr (by rw [hb])
        · rw [execute_div_of_quotient hcell (Word.quotient_toInt _ _ hb)] at hf
          cases hf
    · rintro (h | h)
      · exact ⟨_, execute_div_of_no_cell h⟩
      · exact ⟨_, execute_div_of_zero h⟩
  · exact fun b q => execute_div_of_quotient

/-- Minus seven divided by two, and the least word by minus one: the first leaves minus one, the
    second is the exception. -/
theorem div_rounds_toward_zero_below_zero :
    let m : Machine := { registers := { accumulator := -7 }, memory := ⟨#[2, 0]⟩ }
    m.execute .div 0 = .ok (false, { m with registers := { accumulator := -3 } }) ∧
      IsQuotient (-7) 2 (-3) ∧ (∃ f, m.execute .div 1 = .error f) ∧
      Word.quotient (2 ^ 40) (-3) = .ok (Word.wrap (towardZero ((2 ^ 40 : Int) / (-3 : Int)))) ∧
      ∃ q : Word, Word.quotient (-2 ^ 31) (-1) = .ok q ∧ q.toInt = -2 ^ 31 := by
  intro m
  obtain ⟨hinteger, hword, hexecute⟩ := div_rounds_toward_zero
  obtain ⟨q, hq, hquotient, -⟩ := hword (-7) 2 (by decide)
  obtain rfl : q = -3 := (Except.ok.inj hq).symm.trans (by decide)
  obtain ⟨least, hleast, -, hexception⟩ := hword (-2147483648) (-1) (by decide)
  refine ⟨(hexecute m 0).2 2 (-3) (by decide) hq, hquotient.2 (by decide), ?_, ?_, ?_⟩
  · exact (hexecute m 1).1.2 (Or.inr (by decide))
  · exact hinteger _ _ (by decide)
  · exact ⟨least, hleast, hexception (by decide) (by decide)⟩

end Machine

end WordMachine
