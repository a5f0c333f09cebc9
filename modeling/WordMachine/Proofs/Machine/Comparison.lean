import WordMachine.Proofs.Machine.Wrapping

set_option autoImplicit false

/-! # What the comparison flag says about order

`CMP` keeps the wrapped difference of the accumulator and a cell. Its sign is that of the order of
the two, unless their exact difference is too far from zero for a word: then, and only then, the
sign is the other one (`Word.toInt_sub_neg_iff`). `SUB` leaves the same difference in the
accumulator, so the jumps that look at the accumulator after it go by what the flag would say
(`Machine.execute_cmp_orders`). -/

namespace WordMachine

/-! ## The sign of a difference -/

namespace Word

theorem sub_eq_zero_iff {a b : Word} : a - b = 0 ↔ a = b := by
  constructor
  · intro h
    rw [← Int32.sub_add_cancel a b, h, Int32.zero_add]
  · rintro rfl
    exact Int32.sub_self a

theorem toInt_sub_eq_iff {a b : Word} {v : Int} :
    (a - b).toInt = v ↔
      -2 ^ 31 ≤ v ∧ v ≤ 2 ^ 31 - 1 ∧ v ≡ a.toInt - b.toInt [ZMOD 2 ^ 32] := by
  rw [← toInt_wrap_eq_iff, wrap_sub, wrap_toInt, wrap_toInt]

theorem toInt_sub_add_modEq (a b : Word) : (a - b).toInt + b.toInt ≡ a.toInt [ZMOD 2 ^ 32] := by
  have h := (toInt_sub_eq_iff.1 (Eq.refl (a - b).toInt)).2.2.add_right b.toInt
  rwa [sub_add_cancel] at h

/-- The difference is negative if the first word is less, and the other way round if the exact
    difference is no word. -/
theorem toInt_sub_neg_iff (a b : Word) :
    (a - b).toInt < 0 ↔
      ¬(a.toInt < b.toInt ↔
        ¬(-2 ^ 31 ≤ a.toInt - b.toInt ∧ a.toInt - b.toInt ≤ 2 ^ 31 - 1)) := by
  obtain ⟨hlow, hhigh, hcongr⟩ := toInt_sub_eq_iff.1 (Eq.refl (a - b).toInt)
  -- The wrapped difference is the exact one, or one turn above or below it.
  obtain ⟨turns, hturns⟩ := hcongr.dvd
  have ha := Int32.le_toInt a
  have hb := Int32.le_toInt b
  have ha' := Int32.toInt_lt a
  have hb' := Int32.toInt_lt b
  omega

end Word

/-! ## The instructions -/

namespace Machine

variable {m : Machine} {address : Int} {word : Word}

theorem execute_cmp_of_cell? (h : m.memory.cell? address = some word) :
    m.execute .cmp address =
      .ok (false, { m with registers :=
        { m.registers with comparison := m.registers.accumulator - word } }) := by
  have heffect : m.effectOf .cmp address = .ok (.compare (m.registers.accumulator - word)) := by
    simp only [effectOf, Memory.read_of_cell? h, Except.map]
  exact execute_of_effect heffect

theorem execute_sub_of_cell? (h : m.memory.cell? address = some word) :
    m.execute .sub address =
      .ok (false, { m with registers :=
        { m.registers with accumulator := m.registers.accumulator - word } }) := by
  have heffect : m.effectOf .sub address = .ok (.accumulate (m.registers.accumulator - word)) := by
    simp only [effectOf, Memory.read_of_cell? h, Except.map]
  exact execute_of_effect heffect

/-- A jump sets the location counter if it is taken, and else does nothing. -/
theorem map_jumpEffect (m : Machine) (taken : Bool) (target : Int) :
    ((m.jumpEffect taken target).map fun effect => (effect.redirects, m.apply effect)) =
      if taken then (m.setLocation target).map (true, ·) else .ok (false, m) := by
  cases taken with
  | false => rfl
  | true =>
    simp only [jumpEffect, setLocation, if_true]
    cases m.checkCounter target with
    | error f => rfl
    | ok cell => rfl

theorem execute_jz (m : Machine) (target : Int) :
    m.execute .jz target =
      if m.registers.accumulator = 0 then (m.setLocation target).map (true, ·)
      else .ok (false, m) := by
  rw [execute, effectOf, map_jumpEffect]
  simp only [decide_eq_true_eq]

theorem execute_jl (m : Machine) (target : Int) :
    m.execute .jl target =
      if m.registers.accumulator < 0 then (m.setLocation target).map (true, ·)
      else .ok (false, m) := by
  rw [execute, effectOf, map_jumpEffect]
  simp only [decide_eq_true_eq]

/-- `CMP` sets the flag, and nothing else, to zero if the accumulator `A` is equal to the cell, and
    to less than zero if either `A` is less than the cell or their exact difference is no word, but
    not both. The flag is always congruent to the difference. `SUB` would have left it in the
    accumulator, so that the jumps which follow it are taken as the flag says. -/
theorem execute_cmp_orders (m : Machine) (address : Int) (word : Word)
    (h : m.memory.cell? address = some word) :
    let A := m.registers.accumulator
    ∃ flag : Word,
      m.execute .cmp address =
        .ok (false, { m with registers := { m.registers with comparison := flag } }) ∧
      (flag = 0 ↔ A = word) ∧
      (flag.toInt < 0 ↔
        ¬(A.toInt < word.toInt ↔
          ¬(-2 ^ 31 ≤ A.toInt - word.toInt ∧ A.toInt - word.toInt ≤ 2 ^ 31 - 1))) ∧
      flag.toInt + word.toInt ≡ A.toInt [ZMOD 2 ^ 32] ∧
      ∃ after : Machine, m.execute .sub address = .ok (false, after) ∧
        after = { m with registers := { m.registers with accumulator := flag } } ∧
        ∀ target : Int,
          after.execute .jz target =
            (if flag = 0 then (after.setLocation target).map (true, ·) else .ok (false, after)) ∧
          after.execute .jl target =
            (if flag.toInt < 0 then (after.setLocation target).map (true, ·)
            else .ok (false, after)) := by
  intro A
  refine ⟨A - word, execute_cmp_of_cell? h, Word.sub_eq_zero_iff, Word.toInt_sub_neg_iff A word,
    Word.toInt_sub_add_modEq A word, _, execute_sub_of_cell? h, rfl, fun target => ⟨?_, ?_⟩⟩
  · exact execute_jz _ target
  · simp only [Word.toInt_neg_iff]
    exact execute_jl _ target

/-- The greatest word is compared with minus one: it is not less, but the exact difference is one
    more than the greatest word, and the flag is negative. So the `JL` that follows the `SUB` is
    taken. -/
theorem execute_cmp_orders_of_the_greatest :
    let m : Machine := { registers := { accumulator := 2147483647 }, memory := ⟨#[-1]⟩ }
    m.memory.cell? 0 = some (-1) ∧
      ∃ flag : Word, flag.toInt < 0 ∧
        m.execute .cmp 0 =
          .ok (false, { m with registers := { m.registers with comparison := flag } }) ∧
        ∃ after, m.execute .sub 0 = .ok (false, after) ∧
          after.execute .jl 0 = .ok (true, after) := by
  intro m
  have hcell : m.memory.cell? 0 = some (-1) := by decide
  obtain ⟨flag, hcmp, -, hneg, -, after, hsub, hafter, hjumps⟩ := execute_cmp_orders m 0 (-1) hcell
  have hflag : flag.toInt < 0 := hneg.2 (by decide)
  refine ⟨hcell, flag, hflag, hcmp, after, hsub, ?_⟩
  rw [(hjumps 0).2, if_pos hflag, hafter]
  rfl

end Machine

end WordMachine
