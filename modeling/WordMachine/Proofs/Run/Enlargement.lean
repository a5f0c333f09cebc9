import WordMachine.Proofs.Machine.Enlargement
import WordMachine.Proofs.Run.Lockstep

set_option autoImplicit false

/-! # Runs with more memory

A run that stays inside the memory goes the same way if there is more of it. The emulator of the
larger machine is that of the smaller one with further cells (`Enlarged`), and stays so in every
round until an instruction of the smaller machine is out of range (`lockstep_enlarged`). That the
further cells are untouched is part of the relation: it names them. -/

namespace WordMachine.Emulator

/-- The second emulator is the first, the machine of which has so many cells, with further cells
    behind them. -/
structure Enlarged (size : Nat) (further : Array Word) (e s : Emulator) : Prop where
  machine : s.machine = e.machine.enlarge further
  size_eq : e.machine.memory.size = size
  control : e.control.InStep s.control
  tracing : e.control.tracing = s.control.tracing
  trace : e.control.trace = s.control.trace

variable {size : Nat} {further : Array Word} {e s : Emulator}

theorem Enlarged.location (h : Enlarged size further e s) : e.location = s.location := by
  rw [Emulator.location, Emulator.location, h.machine]
  rfl

/-- What is recorded of an instruction is read off the registers, and these are the same. -/
theorem Enlarged.executed (h : Enlarged size further e s) {i : Instruction} {effect : Effect}
    (hplan : e.machine.plan = .ok (i, effect)) :
    Enlarged size further (e.executed i effect) (s.executed i effect) := by
  have hmachine : s.machine.complete i effect = (e.machine.complete i effect).enlarge further := by
    rw [h.machine, Machine.complete_enlarge (Machine.fits_of_plan hplan)]
  refine ⟨hmachine, (Machine.size_complete ..).trans h.size_eq,
    (h.control.resumeFrom_eq rfl).record _ _, h.tracing, ?_⟩
  simp only [Emulator.executed, Control.record, hmachine, h.location, h.tracing, h.trace]
  rfl

theorem lockstep_enlarged (size : Nat) (further : Array Word) :
    Lockstep (·.kind = .outOfRange) (Enlarged size further) where
  location h := h.location
  control h := h.control
  plan h := by
    rw [h.machine]
    exact Machine.sameInside_plan _ further
  markBreakpoint h :=
    ⟨h.machine, h.size_eq, h.control.resumeFrom_eq (congrArg some h.location), h.tracing, h.trace⟩
  attempted h := ⟨h.machine, h.size_eq, h.control.resumeFrom_eq rfl, h.tracing, h.trace⟩
  executed h hplan := h.executed hplan
  halt h := ⟨h.machine, h.size_eq, h.control.halt, h.tracing, h.trace⟩

/-- More memory does not change a run that stays inside. Let the machines of two emulators have the
    same registers and the same cells, as far as the smaller memory goes, and let the controls be
    the same to a run and have recorded the same, where both record or neither does. However the run
    with the smaller memory ends, unless it is out of range, the run with the larger one ends in the
    same way, with the same registers, the same count of instructions and the same trace; the cells
    that both have are the same again, and the others are as they were. -/
theorem run_of_larger_memory (small large : Emulator) (budget : Option Int) (outcome : RunOutcome)
    (s : Emulator) (hsize : small.machine.memory.size ≤ large.machine.memory.size)
    (hcells : ∀ address : Int, address < small.machine.memory.size →
      small.machine.memory.cell? address = large.machine.memory.cell? address)
    (hregisters : small.machine.registers = large.machine.registers)
    (hcontrol : small.control.InStep large.control)
    (htracing : small.control.tracing = large.control.tracing)
    (htrace : small.control.trace = large.control.trace)
    (hrun : small.run budget = some (outcome, s))
    (hinside : ∀ f, outcome = .error f → f.kind ≠ .outOfRange) :
    ∃ t, large.run budget = some (outcome, t) ∧ s.machine.registers = t.machine.registers ∧
      s.control.InStep t.control ∧ s.control.trace = t.control.trace ∧
      t.machine.memory.size = large.machine.memory.size ∧
      (∀ address : Int, address < small.machine.memory.size →
        s.machine.memory.cell? address = t.machine.memory.cell? address) ∧
      ∀ address : Int, small.machine.memory.size ≤ address →
        t.machine.memory.cell? address = large.machine.memory.cell? address := by
  obtain ⟨further, hfurther⟩ := Memory.exists_enlarge hsize hcells
  have hmachine : large.machine = small.machine.enlarge further := by
    rw [Machine.enlarge, ← hfurther, hregisters]
  have hstart : Enlarged small.machine.memory.size further small large :=
    ⟨hmachine, rfl, hcontrol, htracing, htrace⟩
  obtain ⟨t, ht, hend⟩ := (lockstep_enlarged _ further).run hstart hrun hinside
  have hmemory : t.machine.memory = s.machine.memory.enlarge further := by
    rw [hend.machine]
    rfl
  refine ⟨t, ht, ?_, hend.control, hend.trace, ?_, fun address hin => ?_, fun address hout => ?_⟩
  · rw [hend.machine]
    rfl
  · rw [hmemory, hfurther, Memory.size_enlarge, Memory.size_enlarge, hend.size_eq]
  · rw [hmemory, Memory.cell?_enlarge (hend.size_eq ▸ hin)]
  · rw [hmemory, hfurther]
    exact Memory.cell?_enlarge_of_le hend.size_eq (hend.size_eq ▸ hout)

/-- `LDA 2` and `HLT` in three cells, at the end of which the counter is just past the last of them,
    and in five. The breakpoints were added in another order. -/
theorem run_of_larger_memory_up_to_the_end :
    let small : Emulator :=
      { machine := { memory := ⟨#[1, 2, 0]⟩ },
        control := { breakpoints := [0, 3], resumeFrom := some 0 } }
    let large : Emulator :=
      { machine := { memory := ⟨#[1, 2, 0, 7, -1]⟩ },
        control := { breakpoints := [3, 0], resumeFrom := some 0 } }
    ∃ s t, small.run none = some (.ok .halt, s) ∧ large.run none = some (.ok .halt, t) ∧
      s.location = 3 ∧ s.machine.registers = t.machine.registers ∧
      t.machine.memory.cell? 3 = some 7 ∧ t.machine.memory.cell? 4 = some (-1) := by
  intro small large
  have hcontrol : small.control.InStep large.control :=
    ⟨rfl, rfl, rfl, fun address => by simp [small, large, or_comm]⟩
  have hrun : small.run none = some (.ok .halt, small.step.2.step.2) :=
    run_none_eq_some_iff.2 ⟨2, by decide⟩
  have hcells : ∀ address : Int, address < 3 →
      small.machine.memory.cell? address = large.machine.memory.cell? address := by
    intro address hlt
    by_cases hneg : address < 0
    · simp [Memory.cell?, hneg]
    · obtain rfl | rfl | rfl : address = 0 ∨ address = 1 ∨ address = 2 := by omega
      all_goals decide
  obtain ⟨t, ht, hregisters, -, -, -, -, hfurther⟩ :=
    run_of_larger_memory small large none (.ok .halt) _ (by decide) hcells rfl hcontrol rfl rfl hrun
      (fun _ h => by cases h)
  refine ⟨_, t, hrun, ht, by decide, hregisters, ?_, ?_⟩
  · rw [hfurther 3 (by decide)]
    decide
  · rw [hfurther 4 (by decide)]
    decide

end WordMachine.Emulator
