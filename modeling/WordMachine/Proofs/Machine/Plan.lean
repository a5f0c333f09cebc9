import WordMachine.Machine.Execution
import WordMachine.Proofs.Memory.Cells

set_option autoImplicit false

/-! # The cases of a plan

What `Machine.plan` gives is decided by two cells: the one at the location counter and, for every
opcode but `HLT`, the one after it. There is one lemma for each case, and `plan_cases` says that a
plan that succeeds is of one of two shapes, each with the cells that it needs. -/

namespace WordMachine

/-! ## Opcodes -/

namespace Opcode

theorem ofNumber?_eq_none_iff {n : Int} : ofNumber? n = none ↔ n < 0 ∨ 9 < n := by
  constructor
  · intro h
    by_cases hrange : n < 0 ∨ 9 < n
    · exact hrange
    · have hdigit : n = 0 ∨ n = 1 ∨ n = 2 ∨ n = 3 ∨ n = 4 ∨ n = 5 ∨ n = 6 ∨ n = 7 ∨ n = 8 ∨
          n = 9 := by omega
      rcases hdigit with rfl | rfl | rfl | rfl | rfl | rfl | rfl | rfl | rfl | rfl <;> cases h
  · intro h
    unfold ofNumber?
    split <;> first | rfl | omega

theorem number_of_decode {word address : Int} {op : Opcode}
    (h : decode word address = .ok op) : (op.number : Int) = word := by
  unfold decode at h
  split at h
  · next hnumber =>
    cases h
    exact (ofNumber?_eq_some_iff.1 hnumber).symm
  · cases h

theorem hasOperand_iff {op : Opcode} : op.hasOperand = true ↔ op ≠ .hlt := by
  cases op <;> simp [hasOperand]

theorem number_eq_zero_iff {op : Opcode} : op.number = 0 ↔ op = .hlt := by
  cases op <;> simp [number]

end Opcode

@[simp] theorem Instruction.length_none (op : Opcode) : Instruction.length ⟨op, none⟩ = 1 := rfl

@[simp] theorem Instruction.length_some (op : Opcode) (operand : Int) :
    Instruction.length ⟨op, some operand⟩ = 2 := rfl

/-! ## Plans -/

namespace Machine

variable {m : Machine}

theorem plan_of_no_cell (h : m.memory.cell? m.registers.location = none) :
    m.plan = .error (.badAddress m.registers.location m.memory.size) := by
  simp only [plan, fetch, Memory.read_of_no_cell h]

theorem plan_of_unknown {word : Word} (h : m.memory.cell? m.registers.location = some word)
    (hword : Opcode.ofNumber? word.toInt = none) :
    m.plan = .error (.unknownOpcode word.toInt m.registers.location) := by
  simp only [plan, fetch, Memory.read_of_cell? h, Opcode.decode, hword]

theorem plan_of_hlt {word : Word} (h : m.memory.cell? m.registers.location = some word)
    (hword : Opcode.ofNumber? word.toInt = some .hlt) :
    m.plan = .ok (⟨.hlt, none⟩, .none) := by
  simp only [plan, fetch, Memory.read_of_cell? h, Opcode.decode, hword, Opcode.hasOperand,
    Bool.false_eq_true, if_false]

theorem plan_of_no_operand {word : Word} {op : Opcode}
    (h : m.memory.cell? m.registers.location = some word)
    (hword : Opcode.ofNumber? word.toInt = some op) (hop : op ≠ .hlt)
    (hnext : m.memory.cell? (m.registers.location + 1) = none) :
    m.plan = .error (.badAddress (m.registers.location + 1) m.memory.size) := by
  simp only [plan, fetch, Memory.read_of_cell? h, Opcode.decode, hword,
    Opcode.hasOperand_iff.2 hop, if_true, Memory.read_of_no_cell hnext, Except.map]

theorem plan_of_operand {word operand : Word} {op : Opcode}
    (h : m.memory.cell? m.registers.location = some word)
    (hword : Opcode.ofNumber? word.toInt = some op) (hop : op ≠ .hlt)
    (hnext : m.memory.cell? (m.registers.location + 1) = some operand) :
    m.plan = (m.effectOf op operand.toInt).map (⟨op, some operand.toInt⟩, ·) := by
  simp only [plan, fetch, Memory.read_of_cell? h, Opcode.decode, hword,
    Opcode.hasOperand_iff.2 hop, if_true, Memory.read_of_cell? hnext, Except.map]

/-- The instruction of a plan is the one that was fetched. -/
theorem fetch_of_plan {i : Instruction} {effect : Effect} (h : m.plan = .ok (i, effect)) :
    m.fetch = .ok i := by
  unfold plan at h
  split at h
  · cases h
  · next op hfetch =>
    cases h
    exact hfetch
  · next op address hfetch =>
    obtain ⟨found, -, hfound⟩ := map_eq_ok_iff.1 h
    cases hfound
    exact hfetch

/-- A plan that succeeds is a halt at a cell, or an opcode and its operand in two cells, the
    effect of which was found. -/
theorem plan_cases {i : Instruction} {effect : Effect} (h : m.plan = .ok (i, effect)) :
    (i = ⟨.hlt, none⟩ ∧ effect = .none ∧ m.registers.location < m.memory.size) ∨
      ∃ op operand, op ≠ .hlt ∧ i = ⟨op, some operand⟩ ∧ m.effectOf op operand = .ok effect ∧
        m.registers.location + 1 < m.memory.size := by
  cases hfetch : m.memory.cell? m.registers.location with
  | none => rw [plan_of_no_cell hfetch] at h; cases h
  | some word =>
    cases hword : Opcode.ofNumber? word.toInt with
    | none => rw [plan_of_unknown hfetch hword] at h; cases h
    | some op =>
      by_cases hop : op = .hlt
      · subst hop
        rw [plan_of_hlt hfetch hword] at h
        cases h
        have hlt := (Memory.lt_size_of_cell? hfetch).2
        exact Or.inl ⟨rfl, rfl, by omega⟩
      · cases hnext : m.memory.cell? (m.registers.location + 1) with
        | none => rw [plan_of_no_operand hfetch hword hop hnext] at h; cases h
        | some operand =>
          rw [plan_of_operand hfetch hword hop hnext] at h
          obtain ⟨found, heffect, hfound⟩ := map_eq_ok_iff.1 h
          cases hfound
          have hlt := (Memory.lt_size_of_cell? hnext).2
          exact Or.inr ⟨op, operand.toInt, hop, rfl, heffect, by omega⟩

end Machine

end WordMachine
