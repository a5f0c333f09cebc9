import WordMachine.Proofs.Run.Attempts

set_option autoImplicit false

/-! # Budgets compose

A budget only says how many rounds of a run are tried, and rounds add up. So a run that is cut
short by its budget and then goes on with another one ends as a single run with both budgets
would, wherever the cut falls: on a breakpoint, right behind one that was resumed, or on `HLT`.
What carries this over the cut is that rounds which go on leave no marker but the one with which
the run began (`proceedFor_add`). A run that is not cut short does not depend on its budget. -/

namespace WordMachine.Emulator

variable {e s : Emulator} {outcome : RunOutcome}

/-- A run that goes on after its budget was used up ends as one with both budgets does. -/
theorem run_add_of_timeout {m : Nat} (h : e.run (some m) = some (.ok .timeout, s)) (n : Nat) :
    s.run (some n) = e.run (some (m + n)) := by
  have hrounds : e.proceedFor m = .ok s := by simpa using run_some_timeout_iff.1 h
  have hsum : ((m : Int) + n).toNat = m + n := by omega
  rw [run, run, hsum, Int.toNat_natCast, runFor_eq, runFor_eq, proceedFor_add_of_ok hrounds]

/-- What a run does within its budget it does with any greater one, and without. -/
theorem run_of_run_of_ne_timeout {m : Nat} (h : e.run (some m) = some (outcome, s))
    (hne : outcome ≠ .ok .timeout) (n : Nat) :
    e.run (some (m + n)) = some (outcome, s) ∧ e.run none = some (outcome, s) := by
  have hrounds : e.proceedFor m = .error (outcome, s) := by simpa using (run_some_eq_iff hne).1 h
  have hmore : e.proceedFor ((m : Int) + n).toNat = .error (outcome, s) :=
    proceedFor_of_le hrounds (by omega)
  exact ⟨(run_some_eq_iff hne).2 hmore, run_none_eq_some_iff.2 ⟨m, hrounds⟩⟩

/-- A budget that was used up paid for as many instructions. -/
theorem executions_of_timeout {m : Nat} (h : e.run (some m) = some (.ok .timeout, s)) :
    e.executions m = m := by
  have hrounds : e.proceedFor m = .ok s := by simpa using run_some_timeout_iff.1 h
  have hsteps := steps_runFor m e
  rw [runFor_of_ok hrounds, steps_of_proceedFor hrounds] at hsteps
  omega

/-- Budgets compose. If a run uses up a budget of `m`, then going on with a budget of `n` ends in
    the same way and with the same emulator, its marker included, as a single run with `m + n`. If
    it stops in another way, then it does so with `m + n` and without a budget too. It executes at
    most `m` instructions, which its emulator counts, and exactly `m` if it uses up the budget. -/
theorem run_budget_add (e : Emulator) (m n : Nat) :
    (∀ s, e.run (some m) = some (.ok .timeout, s) → s.run (some n) = e.run (some (m + n))) ∧
      (∀ outcome s, e.run (some m) = some (outcome, s) → outcome ≠ .ok .timeout →
        e.run (some (m + n)) = some (outcome, s) ∧ e.run none = some (outcome, s)) ∧
      ∃ outcome s, e.run (some m) = some (outcome, s) ∧
        s.control.steps = e.control.steps + e.executions m ∧ e.executions m ≤ m ∧
        (outcome = .ok .timeout → e.executions m = m) := by
  refine ⟨fun s h => run_add_of_timeout h n, fun outcome s h hne => ?_, ?_⟩
  · exact run_of_run_of_ne_timeout h hne n
  · refine ⟨(e.runFor m).1, (e.runFor m).2, rfl, steps_runFor m e, executions_le m e, ?_⟩
    intro htimeout
    exact executions_of_timeout (s := (e.runFor m).2) (congrArg some (Prod.ext htimeout rfl))

/-- A cut that falls on a breakpoint: the run with the rest of the budget reports it, as the single
    run does, and the run without a budget stops there too. -/
theorem run_budget_add_on_breakpoint :
    let e : Emulator :=
      { machine := { memory := ⟨#[1, 4, 0, 0, 7]⟩ }, control := { breakpoints := [2] } }
    ∃ s, e.run (some 1) = some (.ok .timeout, s) ∧ e.executions 1 = 1 ∧
      s.run (some 1) = some (.ok .breakpoint, s.markBreakpoint) ∧
      e.run (some 2) = some (.ok .breakpoint, s.markBreakpoint) ∧
      e.run none = some (.ok .breakpoint, s.markBreakpoint) := by
  intro e
  have htimeout : e.run (some 1) = some (.ok .timeout, e.step.2) := by decide
  have hbreak : e.run (some 2) = some (.ok .breakpoint, e.step.2.markBreakpoint) := by decide
  obtain ⟨hcompose, -, outcome, s, hrun, -, -, hexact⟩ := run_budget_add e 1 1
  obtain ⟨-, hstops, -⟩ := run_budget_add e 2 0
  have hanswer : outcome = .ok .timeout := by
    cases htimeout.symm.trans hrun
    rfl
  exact ⟨e.step.2, htimeout, hexact hanswer, (hcompose e.step.2 htimeout).trans hbreak, hbreak,
    (hstops _ _ hbreak (by decide)).2⟩

end WordMachine.Emulator
