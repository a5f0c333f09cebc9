import WordMachine.Proofs.Run.Instructions
import WordMachine.Proofs.Run.Lockstep

set_option autoImplicit false

/-! # What a run does not depend on

No instruction looks at the extension register, at the index registers or at the comparison flag.
Machines that differ in these alone (`Machine.Alike`) go through the same run, and each of them
keeps its own, but for the flag, which is set by `CMP`. What the last comparison gave is read off
the instructions that were executed (`comparison_run`), and these are the same for both. -/

namespace WordMachine

/-! ## Instructions -/

namespace Machine

variable {m n : Machine} {i : Instruction} {effect : Effect} {op : Opcode} {address : Int}

theorem Alike.symm (h : m.Alike n) : n.Alike m :=
  ⟨h.location.symm, h.accumulator.symm, h.memory.symm⟩

/-- The registers that no instruction uses. -/
def unused (m : Machine) : Word × Vector Word indexCount :=
  (m.registers.extension, m.registers.index)

theorem unused_complete : (m.complete i effect).unused = m.unused := by
  cases effect <;> rfl

theorem not_compare_of_jumpEffect {taken : Bool} {word : Word} :
    m.jumpEffect taken address ≠ .ok (.compare word) := by
  intro h
  cases taken with
  | false => cases h
  | true =>
    obtain ⟨cell, -, hcell⟩ := map_eq_ok_iff.1 h
    cases hcell

/-- `CMP` compares, and nothing else does. -/
theorem compares_of_effectOf (h : m.effectOf op address = .ok effect) :
    op = .cmp ↔ ∃ word, effect = .compare word := by
  cases op with
  | cmp =>
    obtain ⟨word, -, rfl⟩ := map_eq_ok_iff.1 h
    simp
  | hlt => cases h; simp
  | lda | add | sub =>
    obtain ⟨word, -, rfl⟩ := map_eq_ok_iff.1 h
    simp
  | sta =>
    obtain ⟨cell, -, rfl⟩ := map_eq_ok_iff.1 h
    simp
  | jmp | jz | jl =>
    simp only [reduceCtorEq, false_iff]
    rintro ⟨word, rfl⟩
    exact not_compare_of_jumpEffect h
  | div =>
    simp only [effectOf] at h
    split at h
    · split at h <;> cases h
      simp
    · cases h

theorem compares_of_plan (h : m.plan = .ok (i, effect)) :
    i.opcode = .cmp ↔ ∃ word, effect = .compare word := by
  rcases plan_cases h with ⟨rfl, rfl, -⟩ | ⟨op, operand, -, rfl, heffect, -⟩
  · simp
  · exact compares_of_effectOf heffect

end Machine

namespace Emulator

/-! ## Comparisons -/

/-- The word that a step sets the comparison flag to, if it does. -/
def compared (e : Emulator) : List Word :=
  match e.machine.plan with
  | .ok (_, .compare word) => [word]
  | _ => []

variable {e s : Emulator} {budget : Option Int} {outcome : RunOutcome}

theorem comparison_executed {i : Instruction} {effect : Effect} {words : List Word} {start : Word}
    (hplan : e.machine.plan = .ok (i, effect))
    (h : e.machine.registers.comparison = words.getLast?.getD start) :
    (e.executed i effect).machine.registers.comparison =
      (words ++ e.compared).getLast?.getD start := by
  cases effect with
  | compare word =>
    have hcompared : e.compared = [word] := by simp only [compared, hplan]
    rw [hcompared, List.getLast?_concat]
    rfl
  | none | accumulate word | store cell word | jump cell =>
    have hcompared : e.compared = [] := by simp only [compared, hplan]
    rw [hcompared, List.append_nil]
    exact h

theorem comparison_step {words : List Word} {start : Word} (hrunning : e.control.halted = false)
    (h : e.machine.registers.comparison = words.getLast?.getD start) :
    e.step.2.machine.registers.comparison = (words ++ e.compared).getLast?.getD start := by
  rcases step_cases e with ⟨hhalted, -⟩ | ⟨-, ⟨f, hplan, hs⟩ | ⟨i, effect, hplan, hs⟩⟩
  · rw [hrunning] at hhalted
    cases hhalted
  · have hcompared : e.compared = [] := by simp only [compared, hplan]
    rw [hs, hcompared, List.append_nil]
    exact h
  · have hexecuted := comparison_executed hplan h
    rcases hs with ⟨-, hs⟩ | ⟨-, hs⟩
    · rw [hs]
      exact hexecuted
    · rw [hs]
      exact hexecuted

/-- The comparison flag after a run is that of the last comparison, if there was one. -/
theorem comparison_run (h : e.run budget = some (outcome, s)) :
    s.machine.registers.comparison =
      ((e.attemptsOf budget).flatMap compared).getLast?.getD e.machine.registers.comparison := by
  have hstart : e.machine.registers.comparison =
      ([] : List Word).getLast?.getD e.machine.registers.comparison := rfl
  exact history_run (P := fun words s => s.machine.registers.comparison =
    words.getLast?.getD e.machine.registers.comparison) (fun _ _ => comparison_step)
    (fun _ _ => id) hstart h

/-- An attempt compares if it executes a `CMP`. -/
theorem compared_ne_nil_iff (h : e.control.halted = false) :
    e.compared ≠ [] ↔ ∃ i ∈ e.instructions, i.opcode = .cmp := by
  cases hplan : e.machine.plan with
  | error f => simp [compared, hplan, instructions_of_fault h hplan]
  | ok planned =>
    obtain ⟨i, effect⟩ := planned
    have hcompares := Machine.compares_of_plan hplan
    simp only [instructions_of_plan h hplan, List.mem_singleton, exists_eq_left, hcompares]
    cases effect <;> simp [compared, hplan]

theorem halted_of_mem_attemptsOf (h : s ∈ e.attemptsOf budget) : s.control.halted = false := by
  have hrounds : ∃ rounds, s ∈ e.attemptsFor rounds := by
    cases budget with
    | none => exact ⟨_, h⟩
    | some n => exact ⟨_, h⟩
  obtain ⟨rounds, hmem⟩ := hrounds
  obtain ⟨k, hk⟩ := List.getElem?_of_mem hmem
  exact (getElem?_attemptsFor.1 hk).2.2.2

/-- A run compares if it executes a `CMP`. -/
theorem comparisons_eq_nil_iff :
    (e.attemptsOf budget).flatMap compared = [] ↔
      ¬∃ i ∈ e.runInstructions budget, i.opcode = .cmp := by
  simp only [runInstructions, List.flatMap_eq_nil_iff, List.mem_flatMap, not_exists, not_and,
    forall_exists_index, and_imp]
  constructor
  · intro hnone i t ht hi hop
    exact (compared_ne_nil_iff (halted_of_mem_attemptsOf ht)).2 ⟨i, hi, hop⟩ (hnone t ht)
  · intro hnone t ht
    by_contra hsome
    obtain ⟨i, hi, hop⟩ := (compared_ne_nil_iff (halted_of_mem_attemptsOf ht)).1 hsome
    exact hnone i t ht hi hop

theorem unused_step (e : Emulator) : e.step.2.machine.unused = e.machine.unused :=
  step_induction (P := fun s => s.machine.unused = e.machine.unused) rfl rfl fun _ _ _ =>
    ⟨Machine.unused_complete, Machine.unused_complete⟩

theorem unused_run (h : e.run budget = some (outcome, s)) :
    s.machine.unused = e.machine.unused :=
  run_induction (P := fun s => s.machine.unused = e.machine.unused)
    (fun t ht => t.unused_step.trans ht) (fun _ _ => id) rfl h

/-! ## Two runs -/

theorem lockstep_alike : Lockstep (fun _ => False) (Beside Machine.Alike) :=
  lockstep_beside (fun h => h.location) (fun h => Or.inr h.plan_eq) fun h _ => h.complete _ _

theorem Beside.symm_alike (h : Beside Machine.Alike e s) : Beside Machine.Alike s e :=
  ⟨h.machine.symm, h.control.symm⟩

theorem Beside.compared_eq (h : Beside Machine.Alike e s) : e.compared = s.compared := by
  rw [compared, compared, h.machine.plan_eq]

theorem Beside.instructions_eq (h : Beside Machine.Alike e s) : e.instructions = s.instructions :=
  instructions_congr h.control.halted h.machine.plan_eq

/-- Machines of one size are given up after the same number of rounds, so this holds of runs that
    never stop as well. -/
theorem Beside.flatMap_attemptsOf {α : Type} {f : Emulator → List α}
    (hf : ∀ {e s : Emulator}, Beside Machine.Alike e s → f e = f s) (budget : Option Int)
    (h : Beside Machine.Alike e s) :
    (e.attemptsOf budget).flatMap f = (s.attemptsOf budget).flatMap f := by
  cases budget with
  | some n => exact lockstep_alike.flatMap_attemptsFor hf n.toNat h
  | none =>
    have hlimit : e.roundLimit = s.roundLimit := by
      rw [roundLimit, roundLimit, roundsToRepeat, roundsToRepeat, h.machine.memory]
    rw [attemptsOf, attemptsOf, hlimit]
    exact lockstep_alike.flatMap_attemptsFor hf _ h

theorem Beside.run_eq_none_of (h : Beside Machine.Alike e s) (hrun : s.run budget = none) :
    e.run budget = none := by
  rw [Option.eq_none_iff_forall_ne_some]
  intro ⟨outcome, t⟩ he
  obtain ⟨u, hu, -⟩ := lockstep_alike.run h he fun _ _ => id
  rw [hrun] at hu
  cases hu

/-- The comparison flags are the same after a run that executed a `CMP`, and as they were after any
    other. -/
theorem Beside.comparisons (h : Beside Machine.Alike e s) {t u : Emulator}
    (ht : e.run budget = some (outcome, t)) (hu : s.run budget = some (outcome, u)) :
    ((∃ i ∈ e.runInstructions budget, i.opcode = .cmp) →
        t.machine.registers.comparison = u.machine.registers.comparison) ∧
      (¬(∃ i ∈ e.runInstructions budget, i.opcode = .cmp) →
        t.machine.registers.comparison = e.machine.registers.comparison ∧
          u.machine.registers.comparison = s.machine.registers.comparison) := by
  have hsame := h.flatMap_attemptsOf Beside.compared_eq budget
  rw [comparison_run ht, comparison_run hu, ← hsame]
  constructor
  · intro hcmp
    have hsome : (e.attemptsOf budget).flatMap compared ≠ [] :=
      fun hnil => comparisons_eq_nil_iff.1 hnil hcmp
    rw [List.getLast?_eq_some_getLast hsome]
    rfl
  · intro hnone
    rw [comparisons_eq_nil_iff.2 hnone]
    exact ⟨rfl, rfl⟩

/-- A run does not depend on the extension register, the index registers and the comparison flag.
    Let two machines agree in everything else, and let their emulators have controls that are the
    same to a run. Then the runs of both never stop, or both end in the same way, with machines that
    agree again and the same count of instructions. Each machine keeps its own extension and index
    registers. The comparison flags are the same if the run executed a `CMP`, and otherwise each
    machine keeps its own. -/
theorem run_independent (e s : Emulator) (budget : Option Int)
    (hmachine : e.machine.Alike s.machine) (hcontrol : e.control.InStep s.control) :
    (e.run budget = none ↔ s.run budget = none) ∧
      e.runInstructions budget = s.runInstructions budget ∧
      ∀ outcome t, e.run budget = some (outcome, t) →
        ∃ u, s.run budget = some (outcome, u) ∧
          t.machine.Alike u.machine ∧ t.control.InStep u.control ∧
          t.machine.registers.extension = e.machine.registers.extension ∧
          t.machine.registers.index = e.machine.registers.index ∧
          u.machine.registers.extension = s.machine.registers.extension ∧
          u.machine.registers.index = s.machine.registers.index ∧
          ((∃ i ∈ e.runInstructions budget, i.opcode = .cmp) →
            t.machine.registers.comparison = u.machine.registers.comparison) ∧
          (¬(∃ i ∈ e.runInstructions budget, i.opcode = .cmp) →
            t.machine.registers.comparison = e.machine.registers.comparison ∧
              u.machine.registers.comparison = s.machine.registers.comparison) := by
  have h : Beside Machine.Alike e s := ⟨hmachine, hcontrol⟩
  have hinstructions : e.runInstructions budget = s.runInstructions budget :=
    h.flatMap_attemptsOf Beside.instructions_eq budget
  refine ⟨⟨h.symm_alike.run_eq_none_of, h.run_eq_none_of⟩, hinstructions, fun outcome t ht => ?_⟩
  obtain ⟨u, hu, hend⟩ := lockstep_alike.run h ht fun _ _ => id
  have hfirst := Prod.ext_iff.1 (unused_run ht)
  have hsecond := Prod.ext_iff.1 (unused_run hu)
  exact ⟨u, hu, hend.machine, hend.control, hfirst.1, hfirst.2, hsecond.1, hsecond.2,
    h.comparisons ht hu⟩

/-- `LDA 8`, `CMP 9`, `JZ 7` and `HLT`. The comparison sets both flags to zero, but the accumulator
    is not zero, and the jump is not taken. -/
theorem run_independent_of_the_flag :
    let memory : Memory := ⟨#[1, 8, 9, 9, 7, 7, 0, 0, 5, 5]⟩
    let e : Emulator := { machine := { memory } }
    let s : Emulator :=
      { machine := { registers := { extension := 3, comparison := -7 }, memory } }
    ∃ t u, e.run (some 9) = some (.ok .halt, t) ∧ s.run (some 9) = some (.ok .halt, u) ∧
      t.location = 7 ∧ u.location = 7 ∧ u.machine.registers.extension = 3 ∧
      t.machine.registers.comparison = u.machine.registers.comparison := by
  intro memory e s
  have hrun : e.run (some 9) = some (.ok .halt, e.step.2.step.2.step.2.step.2) := by decide
  obtain ⟨-, -, hruns⟩ := run_independent e s (some 9) ⟨rfl, rfl, rfl⟩ (.refl _)
  obtain ⟨u, hu, halike, -, -, -, hextension, -, hcmp, -⟩ := hruns _ _ hrun
  have hlocation : e.step.2.step.2.step.2.step.2.location = 7 := by decide
  exact ⟨_, u, hrun, hu, hlocation, halike.location.symm.trans hlocation, hextension,
    hcmp (by decide)⟩

end Emulator

end WordMachine
