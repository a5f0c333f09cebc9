import WordMachine.Proofs.Run.FirstStop

set_option autoImplicit false

/-! # Runs that are resumed at breakpoints

A run that stops at a breakpoint can be resumed by another run, and that one by another
(`Emulator.resume`). This changes nothing: if the run without the breakpoints stops, then so do
the resumed runs, in the same way and with the same machine, and wherever they were held up the
run without breakpoints passed through (`follows_of_proceedFor`).

The two executions go step by step with emulators that agree (`Agree`) apart from the breakpoints
and the place to go on from. Every breakpoint on the way costs one call, and then at least one
instruction is executed or refused before the next one, because the marker lets the resumed run
past the breakpoint where it begins. -/

namespace WordMachine.Emulator

/-- Runs again and again as long as runs stop at breakpoints, for at most so many calls: the
    emulators at the breakpoints, and how the last run stopped. -/
def resume : Nat → Emulator → Option (List Emulator × RunOutcome × Emulator)
  | 0, _ => none
  | calls + 1, e =>
    match e.run none with
    | none => none
    | some (.ok .breakpoint, s) =>
      (resume calls s).map fun (stops, outcome, last) => (s :: stops, outcome, last)
    | some (outcome, s) => some ([], outcome, s)

/-- The emulator without its breakpoints. -/
def withoutBreakpoints (e : Emulator) : Emulator :=
  { e with control := e.control.clearBreakpoints }

/-- Emulators that agree apart from their breakpoints and the place to go on from. -/
structure Agree (e s : Emulator) : Prop where
  machine : e.machine = s.machine
  halted : e.control.halted = s.control.halted
  steps : e.control.steps = s.control.steps
  tracing : e.control.tracing = s.control.tracing
  trace : e.control.trace = s.control.trace

variable {e s t last : Emulator} {outcome : RunOutcome} {calls : Nat}

/-! ## Emulators that agree -/

theorem agree_withoutBreakpoints (e : Emulator) : e.Agree e.withoutBreakpoints :=
  ⟨rfl, rfl, rfl, rfl, rfl⟩

theorem Agree.markBreakpoint (h : e.Agree s) : e.markBreakpoint.Agree s :=
  ⟨h.machine, h.halted, h.steps, h.tracing, h.trace⟩

theorem Agree.attempted (h : e.Agree s) : e.attempted.Agree s.attempted :=
  ⟨h.machine, h.halted, h.steps, h.tracing, h.trace⟩

theorem Agree.halt (h : e.Agree s) : e.halt.Agree s.halt :=
  ⟨h.machine, rfl, h.steps, h.tracing, h.trace⟩

theorem Agree.executed (h : e.Agree s) (i : Instruction) (effect : Effect) :
    (e.executed i effect).Agree (s.executed i effect) := by
  obtain ⟨⟨_, _, _, _, _, _⟩, _⟩ := e
  obtain ⟨⟨_, _, _, _, _, _⟩, _⟩ := s
  obtain ⟨rfl, rfl, rfl, rfl, rfl⟩ := h
  exact ⟨rfl, rfl, rfl, rfl, rfl⟩

/-- A step goes the same way for both, and they agree again after it. -/
theorem Agree.step (h : e.Agree s) : e.step.1 = s.step.1 ∧ e.step.2.Agree s.step.2 := by
  have hplans : e.machine.plan = s.machine.plan := by rw [h.machine]
  refine step_related hplans h.halted h h.attempted fun i effect _ => ?_
  exact ⟨h.executed i effect, (h.executed i effect).halt⟩

theorem Agree.exists_step {outcome : Except Fault StepOutcome} (h : e.Agree s)
    (hs : s.step = (outcome, t)) : ∃ r, e.step = (outcome, r) ∧ r.Agree t := by
  obtain ⟨houtcome, hagree⟩ := h.step
  rw [hs] at houtcome hagree
  exact ⟨e.step.2, Prod.ext houtcome rfl, hagree⟩

/-! ## Resuming -/

theorem resume_of_breakpoint (h : e.run none = some (.ok .breakpoint, s)) :
    resume (calls + 1) e =
      (resume calls s).map fun (stops, outcome, last) => (s :: stops, outcome, last) := by
  rw [resume, h]

theorem resume_of_stop (h : e.run none = some (outcome, s)) (hne : outcome ≠ .ok .breakpoint) :
    resume (calls + 1) e = some ([], outcome, s) := by
  rw [resume, h]
  split
  · next heq => cases heq
  · next heq => cases heq; exact absurd rfl hne
  · next heq => cases heq; rfl

theorem resume_congr (h : e.run none = s.run none) : resume calls e = resume calls s := by
  cases calls with
  | zero => rfl
  | succ calls => rw [resume, resume, h]

/-- What is reached in some calls is reached if one more is allowed. -/
theorem resume_succ {result : List Emulator × RunOutcome × Emulator}
    (h : resume calls e = some result) : resume (calls + 1) e = some result := by
  induction calls generalizing e result with
  | zero => cases h
  | succ calls ih =>
    rw [resume] at h
    split at h
    · cases h
    · next s hs =>
      obtain ⟨rest, hrest, rfl⟩ := Option.map_eq_some_iff.1 h
      rw [resume_of_breakpoint hs, ih hrest]
      rfl
    · next outcome s hne hs =>
      rw [resume_of_stop hs hne, h]

/-- Resumed within so many calls the runs of `e` come to this end, and they are held up only where
    `s` passes through. -/
def Follows (calls : Nat) (e s : Emulator) (outcome : RunOutcome) (last : Emulator) : Prop :=
  ∃ stops r, resume calls e = some (stops, outcome, r) ∧ r.Agree last ∧
    ∀ b ∈ stops, ∃ k t, s.after k = some t ∧ b.Agree t

theorem Follows.succ (h : Follows calls e s outcome last) :
    Follows (calls + 1) e s outcome last := by
  obtain ⟨stops, r, hr, hrest⟩ := h
  exact ⟨stops, r, resume_succ hr, hrest⟩

/-- One call is spent on a breakpoint. -/
theorem Follows.of_atBreakpoint (hb : e.atBreakpoint = true) (hagree : e.Agree s)
    (h : Follows calls e.markBreakpoint s outcome last) :
    Follows (calls + 1) e s outcome last := by
  obtain ⟨stops, r, hr, hlast, hstops⟩ := h
  refine ⟨e.markBreakpoint :: stops, r, ?_, hlast, fun b hmem => ?_⟩
  · rw [resume_of_breakpoint (run_none_of_error (proceed_of_atBreakpoint hb)), hr]
    rfl
  · rcases List.mem_cons.1 hmem with rfl | hmem
    · exact ⟨0, s, rfl, hagree.markBreakpoint⟩
    · exact hstops b hmem

/-- No call is spent on a step that goes on. -/
theorem Follows.of_ran (he : e.proceed = .ok t) {u : Emulator} (hs : s.step = (.ok .ran, u))
    (h : Follows calls t u outcome last) : Follows calls e s outcome last := by
  obtain ⟨stops, r, hr, hlast, hstops⟩ := h
  refine ⟨stops, r, (resume_congr (run_none_of_ok he)).trans hr, hlast, fun b hmem => ?_⟩
  obtain ⟨k, v, hv, hagree⟩ := hstops b hmem
  exact ⟨k + 1, v, (after_succ_of_ran hs k).trans hv, hagree⟩

theorem Follows.of_stop (he : e.proceed = .error (outcome, t)) (hne : outcome ≠ .ok .breakpoint)
    (hagree : t.Agree last) : Follows (calls + 1) e s outcome last :=
  ⟨[], t, resume_of_stop (run_none_of_error he) hne, hagree, fun _ hmem => by cases hmem⟩

/-- Resumed runs follow a run without breakpoints. Where they are not held up at once they need a
    call less. -/
theorem follows_of_proceedFor {n m : Nat} (hagree : e.Agree s)
    (hfree : s.control.breakpoints = []) (h : s.proceedFor n = .error (outcome, last))
    (hm : last.control.steps = s.control.steps + m) : Follows (m + 2) e s outcome last := by
  induction n generalizing e s m with
  | zero => cases h
  | succ n ih =>
    -- First for emulators that are not held up here, which saves a call. One that is held up is
    -- not any more behind its breakpoint, and has that call to spend.
    have hunheld : ∀ r : Emulator, r.Agree s → r.atBreakpoint = false →
        Follows (m + 1) r s outcome last := by
      intro r hr hb
      have hsb := atBreakpoint_of_breakpoints_eq_nil hfree
      rcases proceed_cases s with ⟨hs, -⟩ | ⟨-, ⟨t, hs, hp⟩ | ⟨t, hs, hp⟩ | ⟨f, t, hs, hp⟩⟩
      · rw [hsb] at hs; cases hs
      · rw [proceedFor_succ_of_ok hp] at h
        obtain ⟨u, hu, hagree⟩ := hr.exists_step hs
        obtain ⟨-, i, effect, -, -, rfl⟩ := exists_of_ran hs
        obtain ⟨k, hk⟩ := Nat.exists_eq_add_of_le (steps_le_of_proceedFor h)
        obtain rfl : m = k + 1 := by
          rw [executed_steps] at hk
          omega
        exact .of_ran (proceed_of_ran hb hu) hs (ih hagree hfree h hk)
      · rw [proceedFor_succ_of_error hp] at h
        cases h
        obtain ⟨u, hu, hagree⟩ := hr.exists_step hs
        exact .of_stop (proceed_of_halted hb hu) (by decide) hagree
      · rw [proceedFor_succ_of_error hp] at h
        cases h
        obtain ⟨u, hu, hagree⟩ := hr.exists_step hs
        exact .of_stop (proceed_of_fault hb hu) (by simp) hagree
    cases hb : e.atBreakpoint with
    | false => exact (hunheld e hagree hb).succ
    | true =>
      exact .of_atBreakpoint hb hagree
        (hunheld _ hagree.markBreakpoint e.atBreakpoint_markBreakpoint)

/-- Breakpoints are transparent. If the run without them stops, having executed `n` instructions,
    then resuming the run at every breakpoint takes at most `n + 2` calls to stop in the same way,
    with the same machine, the same count of instructions and the same trace, and where it is held
    up the run without breakpoints passed through. -/
theorem resume_of_run_withoutBreakpoints (e : Emulator) (outcome : RunOutcome) (last : Emulator)
    (h : e.withoutBreakpoints.run none = some (outcome, last)) :
    ∃ n stops s, last.control.steps = e.control.steps + n ∧
      resume (n + 2) e = some (stops, outcome, s) ∧ s.Agree last ∧
      ∀ b ∈ stops, ∃ k t, e.withoutBreakpoints.after k = some t ∧ b.Agree t := by
  obtain ⟨rounds, hrounds⟩ := run_none_eq_some_iff.1 h
  obtain ⟨n, hn⟩ := Nat.exists_eq_add_of_le (steps_le_of_proceedFor hrounds)
  obtain ⟨stops, s, hfollows⟩ :=
    follows_of_proceedFor (agree_withoutBreakpoints e) rfl hrounds hn
  exact ⟨n, stops, s, hn, hfollows⟩

/-- A breakpoint where the run begins and one just past the last cell, where the next instruction
    is refused: one instruction and three calls. -/
theorem resume_of_run_withoutBreakpoints_past_the_end :
    let e : Emulator :=
      { machine := { memory := ⟨#[1, 0]⟩ }, control := { breakpoints := [0, 2] } }
    ∃ stops s, resume 3 e = some (stops, .error (.badAddress 2 2), s) ∧
      s.location = 2 ∧ s.control.steps = 1 := by
  intro e
  have hstop : e.withoutBreakpoints.run none =
      some (.error (.badAddress 2 2), e.withoutBreakpoints.step.2.step.2) :=
    run_none_eq_some_iff.2 ⟨2, by decide⟩
  obtain ⟨n, stops, s, hn, hresume, hagree, -⟩ := resume_of_run_withoutBreakpoints e _ _ hstop
  obtain rfl : n = 1 := Nat.add_left_cancel (hn.symm.trans (by decide))
  refine ⟨stops, s, hresume, ?_, hagree.steps.trans (by decide)⟩
  rw [location, hagree.machine]
  decide

end WordMachine.Emulator
