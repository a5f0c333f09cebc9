import WordMachine.Proofs.Emulator.Step

set_option autoImplicit false

/-! # The instruction set

The instruction set, written down once more on plain integers: `IntegerMachine.step` tries one
case after the other in the order in which a step can be refused, and wraps what it computes.
Nothing of the machine's own execution is used for it.

A step of an emulator that has not halted is exactly this step, in what it answers or is refused
for and in every register and cell it leaves behind. That is assembled from one lemma on the
operands (`integers_operate`, a case for each opcode) and one on the fetch (`integers_step`). -/

namespace WordMachine

/-- A machine on plain integers: the contents of its registers, and its cells by address. -/
structure IntegerMachine where
  registers : Readings
  size : Nat
  /-- The integer in the cell at an address, and zero where there is no cell. -/
  cell : Int → Int

namespace IntegerMachine

/-- Whether there is a cell at the address. -/
def HasCell (m : IntegerMachine) (address : Int) : Prop := 0 ≤ address ∧ address < m.size

instance (m : IntegerMachine) (address : Int) : Decidable (m.HasCell address) :=
  inferInstanceAs (Decidable (0 ≤ address ∧ address < m.size))

/-- The integer in 32 bits of two's complement: the one of its class modulo `2 ^ 32` that lies
    from `-2 ^ 31` to `2 ^ 31 - 1`. -/
def wrapped (value : Int) : Int := (value + 2147483648) % 4294967296 - 2147483648

/-- The machine with its location counter at an address. -/
def moveTo (m : IntegerMachine) (address : Int) : IntegerMachine :=
  { m with registers := { m.registers with location := address } }

/-- The machine with this accumulator. -/
def accumulate (m : IntegerMachine) (value : Int) : IntegerMachine :=
  { m with registers := { m.registers with accumulator := value } }

/-- The machine with this comparison flag. -/
def compare (m : IntegerMachine) (value : Int) : IntegerMachine :=
  { m with registers := { m.registers with comparison := value } }

/-- The machine with this value in one cell. -/
def store (m : IntegerMachine) (address value : Int) : IntegerMachine :=
  { m with cell := fun a => if a = address then value else m.cell a }

/-- What the instruction with an opcode from one to nine and the operand `a` does. -/
def operate (m : IntegerMachine) (opcode a : Int) : Except Fault IntegerMachine :=
  let A := m.registers.accumulator
  let next := m.moveTo (m.registers.location + 2)
  if opcode = 6 ∨ (opcode = 7 ∧ A = 0) ∨ (opcode = 8 ∧ A < 0) then
    if m.HasCell a then .ok (m.moveTo a) else .error (.badCounter a m.size)
  else if opcode = 7 ∨ opcode = 8 then .ok next
  else if ¬ m.HasCell a then .error (.badAddress a m.size)
  else if opcode = 1 then .ok (next.accumulate (m.cell a))
  else if opcode = 2 then .ok (next.store a A)
  else if opcode = 3 then .ok (next.accumulate (wrapped (A + m.cell a)))
  else if opcode = 4 then .ok (next.accumulate (wrapped (A - m.cell a)))
  else if opcode = 5 then
    if m.cell a = 0 then .error (.divideByZero a)
    else .ok (next.accumulate (wrapped (A.tdiv (m.cell a))))
  else .ok (next.compare (wrapped (A - m.cell a)))

/-- The step of a machine whose emulator has not halted: the answer and the machine after it. -/
def step (m : IntegerMachine) : Except Fault (StepOutcome × IntegerMachine) :=
  let pc := m.registers.location
  let w := m.cell pc
  if ¬ m.HasCell pc then .error (.badAddress pc m.size)
  else if w < 0 ∨ 9 < w then .error (.unknownOpcode w pc)
  else if w = 0 then .ok (.halted, m.moveTo (pc + 1))
  else if ¬ m.HasCell (pc + 1) then .error (.badAddress (pc + 1) m.size)
  else (m.operate w (m.cell (pc + 1))).map (.ran, ·)

end IntegerMachine

/-! ## Words as integers -/

theorem IntegerMachine.wrapped_eq_bmod (v : Int) : wrapped v = v.bmod 4294967296 := by
  rw [Int.bmod_def]
  unfold wrapped
  split <;> omega

namespace Word

@[simp] theorem toInt_eq_zero_iff (w : Word) : w.toInt = 0 ↔ w = 0 := by
  rw [← Int32.toInt_inj, Int32.toInt_zero]

@[simp] theorem toInt_neg_iff (w : Word) : w.toInt < 0 ↔ w < 0 := by
  rw [Int32.lt_iff_toInt_lt, Int32.toInt_zero]

end Word

namespace Machine

/-- The machine as integers. -/
def integers (m : Machine) : IntegerMachine where
  registers := m.registers.readings
  size := m.memory.size
  cell address := (m.memory.cell? address).elim 0 Int32.toInt

variable {m : Machine}

@[simp] theorem size_integers : m.integers.size = m.memory.size := rfl

@[simp] theorem accumulator_integers :
    m.integers.registers.accumulator = m.registers.accumulator.toInt := rfl

@[simp] theorem location_integers : m.integers.registers.location = m.registers.location := rfl

theorem hasCell_integers {address : Int} {word : Word} (h : m.memory.cell? address = some word) :
    m.integers.HasCell address :=
  Memory.lt_size_of_cell? h

theorem not_hasCell_integers {address : Int} (h : m.memory.cell? address = none) :
    ¬ m.integers.HasCell address :=
  Memory.cell?_eq_none_iff.1 h

theorem cell_integers {address : Int} {word : Word} (h : m.memory.cell? address = some word) :
    m.integers.cell address = word.toInt := by
  simp only [integers, h, Option.elim_some]

/-! ## Effects as integers -/

theorem integers_complete_accumulate (i : Instruction) (word : Word) :
    (m.complete i (.accumulate word)).integers =
      (m.integers.moveTo (m.registers.location + i.length)).accumulate word.toInt := rfl

theorem integers_complete_compare (i : Instruction) (word : Word) :
    (m.complete i (.compare word)).integers =
      (m.integers.moveTo (m.registers.location + i.length)).compare word.toInt := rfl

theorem integers_complete_jump (i : Instruction) (cell : Nat) :
    (m.complete i (.jump cell)).integers = m.integers.moveTo cell := rfl

theorem integers_put {cell : Nat} (word : Word) (h : cell < m.memory.size) :
    ({ m with memory := m.memory.put cell word } : Machine).integers =
      m.integers.store cell word.toInt := by
  have hcell : ∀ a : Int, ((m.memory.put cell word).cell? a).elim 0 Int32.toInt =
      if a = cell then word.toInt else (m.memory.cell? a).elim 0 Int32.toInt := by
    intro a
    rw [Memory.cell?_put]
    by_cases ha : a = cell
    · rw [if_pos ⟨ha, h⟩, if_pos ha, Option.elim_some]
    · rw [if_neg (fun hc => ha hc.1), if_neg ha]
  simp only [integers, IntegerMachine.store, hcell, Memory.size_put]

theorem integers_complete_store (i : Instruction) {cell : Nat} (word : Word)
    (h : cell < m.memory.size) :
    (m.complete i (.store cell word)).integers =
      (m.integers.moveTo (m.registers.location + i.length)).store cell word.toInt := by
  have hput : (m.complete i (.store cell word)).integers =
      ({ m with memory := m.memory.put cell word } : Machine).integers.moveTo
        (m.registers.location + i.length) := rfl
  -- What is left is that a store and a move do not get in each other's way.
  rw [hput, integers_put word h]
  rfl

theorem integers_jumpEffect (op : Opcode) (taken : Bool) (a : Int) :
    ((m.jumpEffect taken a).map fun effect => (m.complete ⟨op, some a⟩ effect).integers) =
      if taken then
        if m.integers.HasCell a then .ok (m.integers.moveTo a)
        else .error (.badCounter a m.memory.size)
      else .ok (m.integers.moveTo (m.registers.location + 2)) := by
  unfold jumpEffect
  cases taken with
  | false => rfl
  | true =>
    by_cases h : m.integers.HasCell a
    · have hcounter : m.checkCounter a = .ok a.toNat := if_pos h
      have hmove : ((a.toNat : Nat) : Int) = a := Int.toNat_of_nonneg h.1
      simp only [hcounter, if_pos h, if_true, Except.map, integers_complete_jump, hmove]
    · have hcounter : m.checkCounter a = .error (.badCounter a m.memory.size) :=
        if_neg h
      simp only [hcounter, if_neg h, if_true, Except.map]

/-- The integer machine treats an opcode with an operand as the machine does. -/
theorem integers_operate (op : Opcode) (hop : op ≠ .hlt) (a : Int) :
    m.integers.operate op.number a =
      (m.effectOf op a).map fun effect => (m.complete ⟨op, some a⟩ effect).integers := by
  -- Whether the operand names a cell comes first: where it does not, only a jump that is not
  -- taken goes through.
  cases hcell : m.memory.cell? a with
  | none =>
    have hread := Memory.read_of_no_cell hcell
    have hcheck := Memory.checkAddress_of_no_cell hcell
    have hno := not_hasCell_integers hcell
    cases op with
    | hlt => exact absurd rfl hop
    | jmp | jz | jl =>
      simp [effectOf, integers_jumpEffect, IntegerMachine.operate, Opcode.number, hno]
    | sta => simp [effectOf, hcheck, IntegerMachine.operate, Opcode.number, hno, Except.map]
    | lda | add | sub | div | cmp =>
      simp [effectOf, hread, IntegerMachine.operate, Opcode.number, hno, Except.map]
  | some w =>
    have hread := Memory.read_of_cell? hcell
    have hcheck := Memory.checkAddress_of_cell? hcell
    have hhas := hasCell_integers hcell
    have hvalue := cell_integers hcell
    cases op with
    | hlt => exact absurd rfl hop
    | jmp | jz | jl =>
      simp [effectOf, integers_jumpEffect, IntegerMachine.operate, Opcode.number, hhas]
    | sta =>
      have hmove : ((a.toNat : Nat) : Int) = a := Int.toNat_of_nonneg hhas.1
      have hlt : a.toNat < m.memory.size := (Memory.checkAddress_eq_ok_iff.1 hcheck).2
      simp [effectOf, hcheck, IntegerMachine.operate, Opcode.number, hhas, Except.map,
        integers_complete_store _ _ hlt, hmove, Instruction.length]
    | lda =>
      simp [effectOf, hread, IntegerMachine.operate, Opcode.number, hhas, hvalue, Except.map,
        integers_complete_accumulate, Instruction.length]
    | add | sub =>
      simp [effectOf, hread, IntegerMachine.operate, Opcode.number, hhas, hvalue, Except.map,
        integers_complete_accumulate, Instruction.length, IntegerMachine.wrapped_eq_bmod]
    | cmp =>
      simp [effectOf, hread, IntegerMachine.operate, Opcode.number, hhas, hvalue, Except.map,
        integers_complete_compare, Instruction.length, IntegerMachine.wrapped_eq_bmod]
    | div =>
      by_cases hw : w = 0
      · simp [effectOf, hread, IntegerMachine.operate, Opcode.number, hhas, hvalue, Except.map, hw]
      · simp [effectOf, hread, IntegerMachine.operate, Opcode.number, hhas, hvalue, Except.map, hw,
          integers_complete_accumulate, Instruction.length, IntegerMachine.wrapped_eq_bmod]

/-! ## The step -/

/-- The integer machine takes the step that the machine plans. -/
theorem integers_step :
    m.integers.step = m.plan.map fun (i, effect) =>
      (if i.opcode = .hlt then .halted else .ran, (m.complete i effect).integers) := by
  unfold IntegerMachine.step
  cases hfetch : m.memory.cell? m.registers.location with
  | none =>
    rw [plan_of_no_cell hfetch]
    simp [not_hasCell_integers hfetch, Except.map]
  | some word =>
    simp only [location_integers, hasCell_integers hfetch, cell_integers hfetch, not_true,
      if_false]
    cases hword : Opcode.ofNumber? word.toInt with
    | none =>
      rw [plan_of_unknown hfetch hword, if_pos (Opcode.ofNumber?_eq_none_iff.1 hword)]
      rfl
    | some op =>
      have hknown : ¬ (word.toInt < 0 ∨ 9 < word.toInt) := by
        rw [← Opcode.ofNumber?_eq_none_iff, hword]
        exact Option.some_ne_none op
      have hnumber : word.toInt = op.number := Opcode.ofNumber?_eq_some_iff.1 hword
      rw [if_neg hknown, hnumber]
      by_cases hop : op = .hlt
      · subst hop
        rw [plan_of_hlt hfetch hword]
        rfl
      · have hnonzero : ((op.number : Nat) : Int) ≠ 0 := fun h =>
          hop (Opcode.number_eq_zero_iff.1 (Int.ofNat.inj h))
        rw [if_neg hnonzero]
        cases hnext : m.memory.cell? (m.registers.location + 1) with
        | none =>
          rw [plan_of_no_operand hfetch hword hop hnext, if_pos (not_hasCell_integers hnext)]
          rfl
        | some operand =>
          rw [plan_of_operand hfetch hword hop hnext,
            if_neg (not_not_intro (hasCell_integers hnext)), cell_integers hnext,
            integers_operate op hop]
          cases m.effectOf op operand.toInt with
          | error f => rfl
          | ok effect => simp only [Except.map, hop, if_false]

end Machine

namespace Emulator

/-- A step of an emulator that has not halted is the step of the integer machine. A refused step
    changes no more than the place to go on from; any other one counts, and halts the emulator if
    it says so. -/
theorem step_integers (e : Emulator) (h : e.control.halted = false) :
    match e.machine.integers.step with
    | .error f =>
      e.step = (.error f, { e with control := { e.control with resumeFrom := none } })
    | .ok (outcome, after) =>
      e.step.1 = .ok outcome ∧ e.step.2.machine.integers = after ∧
        (e.step.2.control.halted = true ↔ outcome = .halted) ∧
        e.step.2.control.steps = e.control.steps + 1 := by
  rw [Machine.integers_step]
  cases hplan : e.machine.plan with
  | error f => exact step_of_fault h hplan
  | ok planned =>
    obtain ⟨i, effect⟩ := planned
    by_cases hop : i.opcode = .hlt
    · rw [step_of_hlt h hplan hop]
      simp [Except.map, hop]
    · rw [step_of_ran h hplan hop]
      simp [Except.map, hop, h]

/-- An `STA` may store over its own opcode and still goes on behind its operand. -/
theorem step_integers_overwriting :
    let e : Emulator := { machine := { registers := { accumulator := 7 }, memory := ⟨#[2, 0]⟩ } }
    e.control.halted = false ∧ e.step.1 = .ok .ran ∧
      e.step.2.machine.integers = (e.machine.integers.moveTo 2).store 0 7 := by
  intro e
  have h := step_integers e rfl
  exact ⟨rfl, h.1, h.2.1⟩

end Emulator

end WordMachine
