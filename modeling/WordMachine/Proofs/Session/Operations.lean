import WordMachine.Operation
import WordMachine.Proofs.Emulator.Step

set_option autoImplicit false

/-! # What operations leave of an emulator

Of all operations only a step, a run and a reset touch the halted flag, the count of instructions
or the marker of a breakpoint, and only a step or a run can fail after it has changed anything.
`Operation.control_perform` says of all the others at once what they make of the control,
`Operation.perform_plain` what they leave alone, and `Operation.perform_cases` tells the four kinds
apart. Loading, the one of them with several ways to fail, has its own equations. -/

namespace WordMachine

/-! ## New emulators and loading -/

namespace Emulator

variable {e s : Emulator} {program : Program} {words : List Int} {error : Error}

theorem ofSize_of_pos {size : Nat} (h : 0 < size) :
    ofSize size = .ok { machine := { memory := Memory.zeros size } } := by
  have hmachine : Machine.ofSize size = .ok { memory := Memory.zeros size } :=
    Machine.ofSize_eq_ok_iff.2 ⟨Int.natCast_pos.2 h, rfl⟩
  rw [ofSize, hmachine]
  rfl

theorem ofSize_eq_ok_iff {size : Int} :
    ofSize size = .ok e ↔
      0 < size ∧ e = { machine := { memory := Memory.zeros size.toNat } } := by
  rw [ofSize, map_eq_ok_iff]
  constructor
  · rintro ⟨machine, hmachine, rfl⟩
    obtain ⟨hpos, rfl⟩ := Machine.ofSize_eq_ok_iff.1 hmachine
    exact ⟨hpos, rfl⟩
  · rintro ⟨hpos, rfl⟩
    exact ⟨_, Machine.ofSize_eq_ok_iff.2 ⟨hpos, rfl⟩, rfl⟩

theorem load_of_unread (h : program.read = .error error) : e.load program = .error error := by
  rw [load, h]

theorem load_of_read (h : program.read = .ok words) :
    e.load program =
      if e.machine.memory.size < words.length then
        .error (.fault (.programTooLarge words.length e.machine.memory.size))
      else
        .ok { e with machine := { e.machine with
          memory := e.machine.memory.putAll 0 (words.map Word.wrap) } } := by
  by_cases hlong : e.machine.memory.size < words.length
  · simp only [load, h, Machine.load, Memory.load, if_pos hlong, Except.map]
    rfl
  · simp only [load, h, Machine.load, Memory.load, if_neg hlong, Except.map]

theorem control_of_load (h : e.load program = .ok s) : s.control = e.control := by
  cases hread : program.read with
  | error error => rw [load_of_unread hread] at h; cases h
  | ok words =>
    rw [load_of_read hread] at h
    split at h
    · cases h
    · cases h; rfl

end Emulator

/-! ## Operations -/

namespace Operation

/-- What a step answers when it is not refused. -/
def stepAnswer : StepOutcome → Answer
  | .ran => .done
  | .halted => .stopped .halt

/-- Whether the operation is none of those that execute instructions of the emulator or make it
    new. -/
def IsPlain : Operation → Prop
  | .step | .run _ | .reset => False
  | _ => True

variable {e s : Emulator} {answer : Except Error Answer} {operation : Operation}

theorem perform_step (e : Emulator) :
    perform e .step = some (reported (e.step.1.map stepAnswer), e.step.2) := by
  rcases hstep : e.step with ⟨result, after⟩
  simp only [perform, hstep]
  cases result with
  | error f => rfl
  | ok outcome => cases outcome <;> rfl

/-- A step that answers an error was refused. -/
theorem eq_attempted_of_refused {error : Error}
    (h : .error error = reported (e.step.1.map stepAnswer)) : e.step.2 = e.attempted := by
  rcases hstep : e.step with ⟨_ | outcome, after⟩
  · exact (Emulator.exists_of_fault hstep).2.2
  · rw [hstep] at h
    cases h

/-- A change of the machine leaves the control alone, and one that fails leaves everything. -/
theorem change_cases {result : Except Error Machine} (h : change e result = some (answer, s)) :
    s.control = e.control ∧ ∀ error, answer = .error error → s = e := by
  cases result with
  | ok machine => cases h; exact ⟨rfl, fun _ herror => nomatch herror⟩
  | error error => cases h; exact ⟨rfl, fun _ _ => rfl⟩

/-- The operation with this answer has left alone what a plain operation does not touch, and all of
    the emulator if it failed. -/
structure Spares (e s : Emulator) (answer : Except Error Answer) : Prop where
  halted : s.control.halted = e.control.halted
  steps : s.control.steps = e.control.steps
  resumeFrom : s.control.resumeFrom = e.control.resumeFrom
  refused : ∀ error, answer = .error error → s = e

/-- What a plain operation makes of the control. Only those on breakpoints and on the trace change
    it. -/
def adjusted (c : Control) : Operation → Control
  | .addBreakpoint address => c.addBreakpoint address
  | .removeBreakpoint address => c.removeBreakpoint address
  | .clearBreakpoints => c.clearBreakpoints
  | .setTracing on => c.setTracing on
  | .clearTrace => c.clearTrace
  | _ => c

theorem control_perform (hplain : operation.IsPlain) (h : operation.perform e = some (answer, s)) :
    s.control = operation.adjusted e.control ∧ ∀ error, answer = .error error → s = e := by
  cases operation with
  | step | run budget | reset => exact hplain.elim
  | write address value | writeRegister name value | writeIndex selector value
    | setLocation address => exact change_cases h
  | load program =>
    simp only [perform] at h
    split at h
    · next loaded hload =>
      cases h
      exact ⟨Emulator.control_of_load hload, nofun⟩
    · cases h
      exact ⟨rfl, fun _ _ => rfl⟩
  | execute opcode address =>
    simp only [perform] at h
    split at h
    · cases h
      exact ⟨rfl, fun _ _ => rfl⟩
    · split at h
      · cases h
        exact ⟨rfl, nofun⟩
      · cases h
        exact ⟨rfl, fun _ _ => rfl⟩
  -- The operations below answer and cannot fail, and the last of them change nothing at all.
  | setComparison value | resetMachine | clearRegisters | clearMemory | addBreakpoint address
    | removeBreakpoint address | clearBreakpoints | setTracing on | clearTrace =>
    cases h
    exact ⟨rfl, nofun⟩
  | read address | readRegister name | readIndex selector | showTrace | snapshot first last
    | dump start length | display | summary | inspect =>
    cases h
    exact ⟨rfl, fun _ _ => rfl⟩

theorem perform_plain (hplain : operation.IsPlain) (h : operation.perform e = some (answer, s)) :
    Spares e s answer := by
  obtain ⟨hcontrol, hrefused⟩ := control_perform hplain h
  refine ⟨?_, ?_, ?_, hrefused⟩ <;> (rw [hcontrol]; cases operation <;> rfl)

/-- The ways in which an operation goes: it is plain and spares the emulator, or it is a step, a run
    or a reset. -/
theorem perform_cases (h : operation.perform e = some (answer, s)) :
    operation.IsPlain ∧ Spares e s answer ∨
      operation = .step ∧ answer = reported (e.step.1.map stepAnswer) ∧ s = e.step.2 ∨
      (∃ budget outcome, operation = .run budget ∧ answer = reported (outcome.map .stopped) ∧
        e.run budget = some (outcome, s)) ∨
      operation = .reset ∧ answer = .ok .done ∧ s = e.reset := by
  by_cases hplain : operation.IsPlain
  · exact Or.inl ⟨hplain, perform_plain hplain h⟩
  · cases operation with
    | step =>
      rw [perform_step] at h
      cases h
      exact Or.inr (Or.inl ⟨rfl, rfl, rfl⟩)
    | run budget =>
      obtain ⟨⟨outcome, after⟩, hrun, hafter⟩ := Option.map_eq_some_iff.1 h
      cases hafter
      exact Or.inr (Or.inr (Or.inl ⟨budget, outcome, rfl, rfl, hrun⟩))
    | reset =>
      cases h
      exact Or.inr (Or.inr (Or.inr ⟨rfl, rfl, rfl⟩))
    | _ => exact absurd trivial hplain

end Operation

end WordMachine
