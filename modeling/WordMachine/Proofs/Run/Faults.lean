import WordMachine.Proofs.Run.FirstStop

set_option autoImplicit false

/-! # Runs after a fault

A run that ends in a fault leaves the emulator at the refused instruction, where a further attempt
is refused for the same reason and changes nothing (`faulty_of_run`). So the next run ends in the
same fault with the same emulator, unless there is a breakpoint at that instruction: the refused
attempt has made the emulator forget that this breakpoint was reported, and the next run reports it
once more before the run after it ends in the fault again (`run_after_fault`). -/

namespace WordMachine.Emulator

/-- The emulator is at an instruction that is refused, and an attempt changes nothing. -/
structure Faulty (f : Fault) (s : Emulator) : Prop where
  running : s.control.halted = false
  unmarked : s.control.resumeFrom = none
  plan_eq : s.machine.plan = .error f

variable {e s : Emulator} {budget : Option Int} {f : Fault}

/-- A run that ends in a fault ends at the refused instruction. -/
theorem faulty_of_run (h : e.run budget = some (.error f, s)) : s.Faulty f := by
  rcases run_cases h with ⟨n, -, hout, -⟩ | ⟨k, t, -, -, hstop⟩
  · cases hout
  · rcases proceed_error_cases hstop with ⟨-, hout, -⟩ | ⟨hout, -⟩ | ⟨g, hout, hstep⟩
    · cases hout
    · cases hout
    · cases hout
      obtain ⟨hrunning, hplan, rfl⟩ := exists_of_fault hstep
      exact ⟨hrunning, rfl, hplan⟩

namespace Faulty

variable (hs : s.Faulty f)
include hs

theorem step_eq : s.step = (.error f, s) := by
  have hstep : s.step = (.error f, s.attempted) := step_of_fault hs.running hs.plan_eq
  rw [hstep, attempted_of_unmarked hs.unmarked]

/-- An attempt takes back the marker of a breakpoint. -/
theorem step_markBreakpoint : s.markBreakpoint.step = (.error f, s) := by
  have hstep : s.markBreakpoint.step = (.error f, s.attempted) :=
    step_of_fault hs.running hs.plan_eq
  rw [hstep, attempted_of_unmarked hs.unmarked]

theorem atBreakpoint_iff :
    s.atBreakpoint = true ↔ (s.location : Int) ∈ s.control.breakpoints := by
  simp [atBreakpoint, hs.running, hs.unmarked]

theorem run_of_no_breakpoint (hbudget : ∀ n, budget = some n → 1 ≤ n)
    (h : (s.location : Int) ∉ s.control.breakpoints) : s.run budget = some (.error f, s) := by
  have hfree : s.atBreakpoint = false := by
    rw [Bool.eq_false_iff]
    exact fun hb => h (hs.atBreakpoint_iff.1 hb)
  exact run_of_proceed hbudget (proceed_of_fault hfree hs.step_eq)

theorem run_of_breakpoint (hbudget : ∀ n, budget = some n → 1 ≤ n)
    (h : (s.location : Int) ∈ s.control.breakpoints) :
    s.run budget = some (.ok .breakpoint, s.markBreakpoint) :=
  run_of_proceed hbudget (proceed_of_atBreakpoint (hs.atBreakpoint_iff.2 h))

/-- Resumed at a breakpoint, the run ends in the fault again. -/
theorem run_markBreakpoint (hbudget : ∀ n, budget = some n → 1 ≤ n) :
    s.markBreakpoint.run budget = some (.error f, s) :=
  run_of_proceed hbudget
    (proceed_of_fault s.atBreakpoint_markBreakpoint hs.step_markBreakpoint)

end Faulty

/-- After a run that ended in a fault. With no breakpoint at the refused instruction every run that
    has a budget for it ends in the same fault and leaves the emulator as it is. With a breakpoint
    there such a run reports it and changes nothing but the marker, and the run after that ends in
    the same fault, with the emulator that the first one left. -/
theorem run_after_fault (e s : Emulator) (first second third : Option Int) (f : Fault)
    (h : e.run first = some (.error f, s)) (hsecond : ∀ n, second = some n → 1 ≤ n)
    (hthird : ∀ n, third = some n → 1 ≤ n) :
    ((s.location : Int) ∉ s.control.breakpoints → s.run second = some (.error f, s)) ∧
      ((s.location : Int) ∈ s.control.breakpoints →
        s.run second = some (.ok .breakpoint, s.markBreakpoint) ∧
          s.markBreakpoint.run third = some (.error f, s)) := by
  have hs : s.Faulty f := faulty_of_run h
  refine ⟨fun hnone => ?_, fun hmem => ⟨?_, ?_⟩⟩
  · exact hs.run_of_no_breakpoint hsecond hnone
  · exact hs.run_of_breakpoint hsecond hmem
  · exact hs.run_markBreakpoint hthird

/-- A `DIV` by zero at a breakpoint where the run is resumed: refused, reported, refused. -/
theorem run_after_fault_resumed :
    let e : Emulator :=
      { machine := { memory := ⟨#[5, 2, 0]⟩ },
        control := { breakpoints := [0], resumeFrom := some 0 } }
    ∃ s, e.run none = some (.error (.divideByZero 2), s) ∧
      s.run none = some (.ok .breakpoint, s.markBreakpoint) ∧
      s.markBreakpoint.run (some 1) = some (.error (.divideByZero 2), s) := by
  intro e
  have hfirst : e.run none = some (.error (.divideByZero 2), e.attempted) :=
    run_none_of_error (by decide)
  obtain ⟨-, hbreak⟩ :=
    run_after_fault e e.attempted none none (some 1) _ hfirst (by decide) (by decide)
  exact ⟨e.attempted, hfirst, hbreak (by decide)⟩

/-- So a run after a fault need not end in the same fault: not if the refused instruction is at a
    breakpoint. -/
theorem not_run_same_fault :
    ¬ ∀ (e s : Emulator) (first second : Option Int) (f : Fault),
      (∀ n, first = some n → 1 ≤ n) → (∀ n, second = some n → 1 ≤ n) →
        e.run first = some (.error f, s) →
          ∃ t, s.run second = some (.error f, t) ∧ t.machine = s.machine ∧
            t.control.steps = s.control.steps := by
  intro hclaim
  let e : Emulator :=
    { machine := { memory := ⟨#[5, 2, 0]⟩ },
      control := { breakpoints := [0], resumeFrom := some 0 } }
  obtain ⟨t, ht, -⟩ := hclaim e e.attempted (some 1) (some 1) (.divideByZero 2) (by decide)
    (by decide) (by decide)
  have hbreak : e.attempted.run (some 1) = some (.ok .breakpoint, e) := by decide
  rw [hbreak] at ht
  cases ht

end WordMachine.Emulator
