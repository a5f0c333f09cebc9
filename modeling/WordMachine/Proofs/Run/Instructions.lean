import WordMachine.Proofs.Run.Attempts

set_option autoImplicit false

/-! # The instructions that a run executes

A step executes the instruction at the location counter, unless it is refused or the emulator has
halted (`Emulator.instructions`). A run executes those of its attempts, one after the other. -/

namespace WordMachine.Emulator

/-- The instruction that a step executes, if it executes one. -/
def instructions (e : Emulator) : List Instruction :=
  match e.control.halted, e.step.1, e.machine.fetch with
  | false, .ok _, .ok i => [i]
  | _, _, _ => []

/-- The instructions that a run with this budget executes, in order. -/
def runInstructions (e : Emulator) (budget : Option Int) : List Instruction :=
  (e.attemptsOf budget).flatMap instructions

variable {e s : Emulator}

theorem instructions_of_halted (h : e.control.halted = true) : e.instructions = [] := by
  simp [instructions, h]

theorem instructions_of_fault {f : Fault} (h : e.control.halted = false)
    (hplan : e.machine.plan = .error f) : e.instructions = [] := by
  simp [instructions, h, step_of_fault h hplan]

theorem instructions_of_plan {i : Instruction} {effect : Effect} (h : e.control.halted = false)
    (hplan : e.machine.plan = .ok (i, effect)) : e.instructions = [i] := by
  have hfetch := Machine.fetch_of_plan hplan
  by_cases hop : i.opcode = .hlt
  · simp [instructions, h, hfetch, step_of_hlt h hplan hop]
  · simp [instructions, h, hfetch, step_of_ran h hplan hop]

/-- What a step executes is decided by the plan. -/
theorem instructions_congr (hhalted : e.control.halted = s.control.halted)
    (hplans : e.machine.plan = s.machine.plan) : e.instructions = s.instructions := by
  cases h : e.control.halted with
  | true => rw [instructions_of_halted h, instructions_of_halted (hhalted ▸ h)]
  | false =>
    cases hplan : e.machine.plan with
    | error f =>
      rw [instructions_of_fault h hplan, instructions_of_fault (hhalted ▸ h) (hplans ▸ hplan)]
    | ok planned =>
      rw [instructions_of_plan h hplan, instructions_of_plan (hhalted ▸ h) (hplans ▸ hplan)]

end WordMachine.Emulator
