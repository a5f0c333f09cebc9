import WordMachine.Emulator
import WordMachine.Proofs.Machine.Bounds

set_option autoImplicit false

/-! # What a step does

A step of an emulator that has not halted leaves it in one of three ways: `attempted`, if the
instruction was refused, `executed`, if it ran, or `executed` and then `halt`, if it was `HLT`.
`step_cases` says when each of them is the case; later proofs take a step apart with it and do not
open its definition. What the three ways keep of one emulator is kept by a step (`step_induction`),
and so is what they keep between two emulators that plan the same (`step_related`). -/

namespace WordMachine.Emulator

/-- The emulator after an instruction that was refused. -/
def attempted (e : Emulator) : Emulator :=
  { e with control := { e.control with resumeFrom := none } }

/-- The emulator after a planned instruction. -/
def executed (e : Emulator) (i : Instruction) (effect : Effect) : Emulator :=
  let machine := e.machine.complete i effect
  ⟨{ e.control with resumeFrom := none }.record ⟨e.location, i, machine.registers.readings⟩,
    machine⟩

/-- The emulator, halted. -/
def halt (e : Emulator) : Emulator := { e with control := { e.control with halted := true } }

variable {e s : Emulator} {i : Instruction} {effect : Effect}

@[simp] theorem executed_machine :
    (e.executed i effect).machine = e.machine.complete i effect := rfl

@[simp] theorem executed_halted :
    (e.executed i effect).control.halted = e.control.halted := rfl

@[simp] theorem executed_steps :
    (e.executed i effect).control.steps = e.control.steps + 1 := rfl

@[simp] theorem executed_breakpoints :
    (e.executed i effect).control.breakpoints = e.control.breakpoints := rfl

@[simp] theorem executed_resumeFrom : (e.executed i effect).control.resumeFrom = none := rfl

theorem attempted_of_unmarked (h : e.control.resumeFrom = none) : e.attempted = e := by
  obtain ⟨⟨halted, steps, breakpoints, resumeFrom, tracing, trace⟩, machine⟩ := e
  obtain rfl : resumeFrom = none := h
  rfl

@[simp] theorem halt_machine : e.halt.machine = e.machine := rfl

@[simp] theorem halt_halted : e.halt.control.halted = true := rfl

@[simp] theorem halt_steps : e.halt.control.steps = e.control.steps := rfl

/-! ## The ways in which a step goes -/

theorem step_of_ran (h : e.control.halted = false) (hplan : e.machine.plan = .ok (i, effect))
    (hop : i.opcode ≠ .hlt) : e.step = (.ok .ran, e.executed i effect) := by
  rw [step_of_plan h hplan]
  exact if_neg hop

theorem step_of_hlt (h : e.control.halted = false) (hplan : e.machine.plan = .ok (i, effect))
    (hop : i.opcode = .hlt) : e.step = (.ok .halted, (e.executed i effect).halt) := by
  rw [step_of_plan h hplan]
  exact if_pos hop

/-- A step is of one of four kinds. -/
theorem step_cases (e : Emulator) :
    (e.control.halted = true ∧ e.step = (.ok .halted, e)) ∨
      e.control.halted = false ∧
        ((∃ f, e.machine.plan = .error f ∧ e.step = (.error f, e.attempted)) ∨
          ∃ i effect, e.machine.plan = .ok (i, effect) ∧
            ((i.opcode ≠ .hlt ∧ e.step = (.ok .ran, e.executed i effect)) ∨
              i.opcode = .hlt ∧ e.step = (.ok .halted, (e.executed i effect).halt))) := by
  cases h : e.control.halted with
  | true => exact Or.inl ⟨rfl, step_of_halted h⟩
  | false =>
    refine Or.inr ⟨rfl, ?_⟩
    cases hplan : e.machine.plan with
    | error f => exact Or.inl ⟨f, rfl, step_of_fault h hplan⟩
    | ok planned =>
      obtain ⟨i, effect⟩ := planned
      refine Or.inr ⟨i, effect, rfl, ?_⟩
      by_cases hop : i.opcode = .hlt
      · exact Or.inr ⟨hop, step_of_hlt h hplan hop⟩
      · exact Or.inl ⟨hop, step_of_ran h hplan hop⟩

/-! ## What a step keeps -/

theorem step_induction {P : Emulator → Prop} (he : P e) (hattempted : P e.attempted)
    (hexecuted : ∀ i effect, e.machine.plan = .ok (i, effect) →
      P (e.executed i effect) ∧ P (e.executed i effect).halt) : P e.step.2 := by
  rcases step_cases e with ⟨-, hs⟩ | ⟨-, ⟨f, -, hs⟩ | ⟨i, effect, hplan, ⟨-, hs⟩ | ⟨-, hs⟩⟩⟩
  · rw [hs]; exact he
  · rw [hs]; exact hattempted
  · rw [hs]; exact (hexecuted i effect hplan).1
  · rw [hs]; exact (hexecuted i effect hplan).2

theorem step_related {R : Emulator → Emulator → Prop} (hplans : e.machine.plan = s.machine.plan)
    (hhalted : e.control.halted = s.control.halted) (h : R e s)
    (hattempted : R e.attempted s.attempted)
    (hexecuted : ∀ i effect, e.machine.plan = .ok (i, effect) →
      R (e.executed i effect) (s.executed i effect) ∧
        R (e.executed i effect).halt (s.executed i effect).halt) :
    e.step.1 = s.step.1 ∧ R e.step.2 s.step.2 := by
  rcases step_cases e with ⟨hstopped, he⟩ | ⟨hrun, ⟨f, hplan, he⟩ | ⟨i, effect, hplan, he⟩⟩
  · rw [he, step_of_halted (hhalted ▸ hstopped)]
    exact ⟨rfl, h⟩
  · rw [he, step_of_fault (hhalted ▸ hrun) (hplans ▸ hplan)]
    exact ⟨rfl, hattempted⟩
  · rcases he with ⟨hop, he⟩ | ⟨hop, he⟩
    · rw [he, step_of_ran (hhalted ▸ hrun) (hplans ▸ hplan) hop]
      exact ⟨rfl, (hexecuted i effect hplan).1⟩
    · rw [he, step_of_hlt (hhalted ▸ hrun) (hplans ▸ hplan) hop]
      exact ⟨rfl, (hexecuted i effect hplan).2⟩

/-- A step never takes back an instruction that was counted. -/
theorem steps_le_step (e : Emulator) : e.control.steps ≤ e.step.2.control.steps :=
  step_induction (P := fun s => e.control.steps ≤ s.control.steps) (Nat.le_refl _)
    (Nat.le_refl _) fun _ _ _ => ⟨Nat.le_succ _, Nat.le_succ _⟩

/-! ## What an outcome says of the step -/

theorem exists_of_ran (h : e.step = (.ok .ran, s)) :
    e.control.halted = false ∧ ∃ i effect, e.machine.plan = .ok (i, effect) ∧ i.opcode ≠ .hlt ∧
      s = e.executed i effect := by
  rcases step_cases e with ⟨-, hs⟩ | ⟨hrun, ⟨f, -, hs⟩ | ⟨i, effect, hplan, ⟨hop, hs⟩ | ⟨-, hs⟩⟩⟩
  · rw [hs] at h; cases h
  · rw [hs] at h; cases h
  · rw [hs] at h; cases h; exact ⟨hrun, i, effect, hplan, hop, rfl⟩
  · rw [hs] at h; cases h

theorem exists_of_fault {f : Fault} (h : e.step = (.error f, s)) :
    e.control.halted = false ∧ e.machine.plan = .error f ∧ s = e.attempted := by
  rcases step_cases e with ⟨-, hs⟩ | ⟨hrun, ⟨g, hplan, hs⟩ | ⟨i, effect, -, ⟨-, hs⟩ | ⟨-, hs⟩⟩⟩
  · rw [hs] at h; cases h
  · rw [hs] at h; cases h; exact ⟨hrun, hplan, rfl⟩
  · rw [hs] at h; cases h
  · rw [hs] at h; cases h

/-- A step that halts the emulator leaves no marker, unless it had halted before. -/
theorem eq_or_resumeFrom_of_halted (h : e.step = (.ok .halted, s)) :
    (e.control.halted = true ∧ s = e) ∨ e.control.halted = false ∧ s.control.resumeFrom = none := by
  rcases step_cases e with ⟨hstopped, hs⟩ | ⟨hrun, ⟨f, -, hs⟩ | ⟨i, effect, -, ⟨-, hs⟩ | ⟨-, hs⟩⟩⟩
  · rw [hs] at h; cases h; exact Or.inl ⟨hstopped, rfl⟩
  · rw [hs] at h; cases h
  · rw [hs] at h; cases h
  · rw [hs] at h; cases h; exact Or.inr ⟨hrun, rfl⟩

/-- An instruction that ran was found at a cell. -/
theorem location_lt_of_ran (h : e.step = (.ok .ran, s)) : e.location < e.machine.memory.size := by
  obtain ⟨-, i, effect, hplan, hop, -⟩ := exists_of_ran h
  rcases Machine.plan_cases hplan with ⟨rfl, -, -⟩ | ⟨op, operand, -, rfl, -, hlt⟩
  · exact absurd rfl hop
  · exact Nat.lt_of_succ_lt hlt

end WordMachine.Emulator
