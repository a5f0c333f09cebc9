import WordMachine.Proofs.Memory.LastWrite
import WordMachine.Proofs.Run.Attempts

set_option autoImplicit false

/-! # What instructions store

Of all instructions only `STA` changes the memory: it stores the accumulator at its operand
(`Machine.stores`). What a step stores is that of the instruction at the location counter, if the
step executes it (`Emulator.stores`), and what a run stores is what its attempts store, one after
the other. That a program may rewrite itself makes no difference: each attempt is judged in the
emulator in which it is made. A memory that is recorded stays so, with these events at the end:
`Machine.recorded_apply` says it of one instruction, `recorded_step` of a step, and `recorded_run`
of a run. -/

namespace WordMachine

open Memory (Event)

/-! ## Instructions -/

namespace Machine

/-- What an opcode stores that is executed on an operand address. -/
def stores (m : Machine) (op : Opcode) (address : Int) : List Event :=
  if op = .sta then [.stored address m.registers.accumulator.toInt] else []

variable {m : Machine} {i : Instruction} {effect : Effect} {events : List Event} {op : Opcode}
  {address : Int}

theorem memory_of_jumpEffect {taken : Bool} (h : m.jumpEffect taken address = .ok effect) :
    (m.apply effect).memory = m.memory := by
  cases taken with
  | false => cases h; rfl
  | true =>
    obtain ⟨cell, -, rfl⟩ := map_eq_ok_iff.1 h
    rfl

theorem memory_of_effectOf (h : m.effectOf op address = .ok effect) (hop : op ≠ .sta) :
    (m.apply effect).memory = m.memory := by
  cases op with
  | sta => exact absurd rfl hop
  | hlt => cases h; rfl
  | jmp | jz | jl => exact memory_of_jumpEffect h
  | lda | add | sub | cmp =>
    obtain ⟨word, -, rfl⟩ := map_eq_ok_iff.1 h
    rfl
  | div =>
    simp only [effectOf] at h
    split at h
    · split at h <;> cases h
      rfl
    · cases h

/-- An instruction that is not refused stores what its opcode stores. -/
theorem recorded_apply (hm : m.memory.Recorded events) (h : m.effectOf op address = .ok effect) :
    (m.apply effect).memory.Recorded (events ++ m.stores op address) := by
  by_cases hop : op = .sta
  · subst hop
    obtain ⟨cell, hcheck, rfl⟩ := map_eq_ok_iff.1 h
    obtain ⟨rfl, hlt⟩ := Memory.checkAddress_eq_ok_iff.1 hcheck
    have hput := hm.put hlt m.registers.accumulator.toInt
    rw [Word.wrap_toInt] at hput
    exact hput
  · rw [memory_of_effectOf h hop, stores, if_neg hop, List.append_nil]
    exact hm

theorem memory_complete : (m.complete i effect).memory = (m.apply effect).memory := by
  unfold complete
  split <;> rfl

end Machine

namespace Emulator

/-- What a step stores: nothing, unless it executes an instruction with an operand. -/
def stores (e : Emulator) : List Event :=
  match e.step.1, e.machine.fetch with
  | .ok .ran, .ok ⟨op, some address⟩ => e.machine.stores op address
  | _, _ => []

/-- What a run with this budget stores. -/
def runStores (e : Emulator) (budget : Option Int) : List Event :=
  (e.attemptsOf budget).flatMap stores

variable {e s : Emulator} {events : List Event}

/-! ## Steps -/

theorem stores_of_not_ran (h : e.step.1 ≠ .ok .ran) : e.stores = [] := by
  unfold stores
  split
  · next hran _ => exact absurd hran h
  · rfl

theorem recorded_of_ran (he : e.machine.memory.Recorded events) (h : e.step = (.ok .ran, s)) :
    s.machine.memory.Recorded (events ++ e.stores) := by
  obtain ⟨-, i, effect, hplan, hop, rfl⟩ := exists_of_ran h
  have hfetch := Machine.fetch_of_plan hplan
  rcases Machine.plan_cases hplan with ⟨rfl, -, -⟩ | ⟨op, address, -, rfl, heffect, -⟩
  · exact absurd rfl hop
  · have hstores : e.stores = e.machine.stores op address := by
      simp only [stores, h, hfetch]
    rw [hstores, executed_machine, Machine.memory_complete]
    exact Machine.recorded_apply he heffect

/-- A step that executes no instruction, or `HLT`, leaves the memory as it is. -/
theorem memory_step_of_not_ran (h : e.step.1 ≠ .ok .ran) :
    e.step.2.machine.memory = e.machine.memory := by
  rcases step_cases e with ⟨-, hs⟩ | ⟨-, ⟨f, -, hs⟩ | ⟨i, effect, hplan, ⟨-, hs⟩ | ⟨hop, hs⟩⟩⟩
  · rw [hs]
  · rw [hs]
    rfl
  · rw [hs] at h
    exact absurd rfl h
  · rw [hs, halt_machine, executed_machine, Machine.memory_complete]
    rcases Machine.plan_cases hplan with ⟨-, rfl, -⟩ | ⟨op, address, hne, rfl, -⟩
    · rfl
    · exact absurd hop hne

theorem recorded_step (he : e.machine.memory.Recorded events) :
    e.step.2.machine.memory.Recorded (events ++ e.stores) := by
  by_cases hran : e.step.1 = .ok .ran
  · exact recorded_of_ran he (Prod.ext hran rfl)
  · rw [memory_step_of_not_ran hran, stores_of_not_ran hran, List.append_nil]
    exact he

/-! ## Runs -/

/-- A run that ends stores what its attempts store. -/
theorem recorded_run {budget : Option Int} {outcome : RunOutcome}
    (he : e.machine.memory.Recorded events) (h : e.run budget = some (outcome, s)) :
    s.machine.memory.Recorded (events ++ e.runStores budget) :=
  history_run (P := fun events s => s.machine.memory.Recorded events)
    (fun _ _ _ => recorded_step) (fun _ _ => id) he h

end Emulator

end WordMachine
