import WordMachine.Proofs.Run.Attempts

set_option autoImplicit false

/-! # Runs in lockstep

The machines of two emulators may differ in something that the instructions on the way do not heed.
Then one run is as good as the other: `Lockstep` lists what a relation between emulators has to
bring for that, one obligation for each thing that can happen in a round, and `Lockstep.run` follows
by induction over the rounds.

The first of the emulators may come to a fault that the other is spared. Such faults are excepted,
and nothing is said of a run that ends in one of them. -/

namespace WordMachine

/-- Controls that are the same to a run. The breakpoints may have been added in another order, and
    something else may have been recorded. -/
structure Control.InStep (c d : Control) : Prop where
  halted : c.halted = d.halted
  steps : c.steps = d.steps
  resumeFrom : c.resumeFrom = d.resumeFrom
  breakpoints : ∀ address, address ∈ c.breakpoints ↔ address ∈ d.breakpoints

namespace Control

variable {c d : Control}

theorem InStep.refl (c : Control) : c.InStep c := ⟨rfl, rfl, rfl, fun _ => Iff.rfl⟩

theorem InStep.symm (h : c.InStep d) : d.InStep c :=
  ⟨h.halted.symm, h.steps.symm, h.resumeFrom.symm, fun address => (h.breakpoints address).symm⟩

/-- The same place is left to go on from, if any. -/
theorem InStep.resumeFrom_eq (h : c.InStep d) {p q : Option Nat} (hplace : p = q) :
    { c with resumeFrom := p }.InStep { d with resumeFrom := q } :=
  ⟨h.halted, h.steps, hplace, h.breakpoints⟩

/-- What is recorded does not matter. -/
theorem InStep.record (h : c.InStep d) (first second : TraceEntry) :
    (c.record first).InStep (d.record second) :=
  ⟨h.halted, congrArg (· + 1) h.steps, h.resumeFrom, h.breakpoints⟩

theorem InStep.halt (h : c.InStep d) : { c with halted := true }.InStep { d with halted := true } :=
  ⟨rfl, h.steps, h.resumeFrom, h.breakpoints⟩

end Control

namespace Emulator

/-- What a relation between emulators has to bring for their runs to go in lockstep, up to a fault
    of the first of them that is excepted. -/
structure Lockstep (Excepted : Fault → Prop) (R : Emulator → Emulator → Prop) : Prop where
  location : ∀ {e s : Emulator}, R e s → e.location = s.location
  control : ∀ {e s : Emulator}, R e s → e.control.InStep s.control
  plan : ∀ {e s : Emulator}, R e s →
    (∃ f, e.machine.plan = .error f ∧ Excepted f) ∨ e.machine.plan = s.machine.plan
  markBreakpoint : ∀ {e s : Emulator}, R e s → R e.markBreakpoint s.markBreakpoint
  attempted : ∀ {e s : Emulator}, R e s → R e.attempted s.attempted
  executed : ∀ {e s : Emulator} {i : Instruction} {effect : Effect}, R e s →
    e.machine.plan = .ok (i, effect) → R (e.executed i effect) (s.executed i effect)
  halt : ∀ {e s : Emulator}, R e s → R e.halt s.halt

namespace Lockstep

variable {Excepted : Fault → Prop} {R : Emulator → Emulator → Prop} (hR : Lockstep Excepted R)
  {e s t : Emulator} {budget : Option Int} {outcome : RunOutcome}
include hR

theorem atBreakpoint (h : R e s) : e.atBreakpoint = s.atBreakpoint := by
  have hcontrol := hR.control h
  simp only [Emulator.atBreakpoint, hR.location h, hcontrol.breakpoints, hcontrol.halted,
    hcontrol.resumeFrom]

/-- A step goes the same way for both, unless the first comes to a fault that is excepted. -/
theorem step (h : R e s) :
    (∃ f, e.step.1 = .error f ∧ Excepted f) ∨ e.step.1 = s.step.1 ∧ R e.step.2 s.step.2 := by
  have hhalted := (hR.control h).halted
  cases hrun : e.control.halted with
  | true =>
    rw [step_of_halted hrun, step_of_halted (hhalted ▸ hrun)]
    exact Or.inr ⟨rfl, h⟩
  | false =>
    rcases hR.plan h with ⟨f, hplan, hf⟩ | hplans
    · rw [step_of_fault hrun hplan]
      exact Or.inl ⟨f, rfl, hf⟩
    · refine Or.inr (step_related hplans hhalted h (hR.attempted h) fun i effect hplan => ?_)
      exact ⟨hR.executed h hplan, hR.halt (hR.executed h hplan)⟩

theorem proceed (h : R e s) : Strays Excepted e.proceed ∨ Matched R e.proceed s.proceed := by
  have hbreak := hR.atBreakpoint h
  cases hb : e.atBreakpoint with
  | true =>
    rw [proceed_of_atBreakpoint hb, proceed_of_atBreakpoint (hbreak ▸ hb)]
    exact Or.inr (.stop _ (hR.markBreakpoint h))
  | false =>
    rcases hR.step h with ⟨f, hfault, hf⟩ | ⟨houtcome, hstep⟩
    · exact Or.inl ⟨f, e.step.2, proceed_of_fault hb (Prod.ext hfault rfl), hf⟩
    · exact Or.inr (.proceed hbreak (hR.markBreakpoint h) houtcome hstep)

theorem proceedFor (n : Nat) (h : R e s) :
    Strays Excepted (e.proceedFor n) ∨ Matched R (e.proceedFor n) (s.proceedFor n) :=
  strays_or_matched_proceedFor (fun _ _ => hR.proceed) n h

/-- The run of the second emulator ends as that of the first does, unless that is in a fault which
    is excepted. -/
theorem run (h : R e s) (hrun : e.run budget = some (outcome, t))
    (hkept : ∀ f, outcome = .error f → ¬Excepted f) :
    ∃ u, s.run budget = some (outcome, u) ∧ R t u := by
  rcases run_cases hrun with ⟨n, rfl, rfl, hrounds⟩ | ⟨k, last, hspent, hrounds, hstop⟩
  · have hmatched := hR.proceedFor n.toNat h
    rw [hrounds] at hmatched
    rcases hmatched with ⟨f, t', hstray, -⟩ | hmatched
    · cases hstray
    · obtain ⟨u, hu, hlast⟩ := hmatched.exists_of_ok
      exact ⟨u, run_some_timeout_iff.2 hu, hlast⟩
  · have hmatched := hR.proceedFor (k + 1) h
    rw [proceedFor_succ_of_proceedFor hrounds, hstop] at hmatched
    rcases hmatched with ⟨f, t', hstray, hf⟩ | hmatched
    · cases hstray
      exact absurd hf (hkept f rfl)
    · obtain ⟨u, hu, hlast⟩ := hmatched.exists_of_error
      exact ⟨u, run_of_proceedFor hspent hu, hlast⟩

end Lockstep

/-- If no fault is excepted, the same is seen at the attempts of both runs. -/
theorem Lockstep.flatMap_attemptsFor {R : Emulator → Emulator → Prop} {α : Type}
    (hR : Lockstep (fun _ => False) R) {f : Emulator → List α}
    (hf : ∀ {e s : Emulator}, R e s → f e = f s) (rounds : Nat) {e s : Emulator} (h : R e s) :
    (e.attemptsFor rounds).flatMap f = (s.attemptsFor rounds).flatMap f := by
  induction rounds generalizing e s with
  | zero => rfl
  | succ rounds ih =>
    have hbreak := hR.atBreakpoint h
    have hhalted := (hR.control h).halted
    rcases hR.step h with ⟨_, _, hno⟩ | ⟨houtcome, hstep⟩
    · exact hno.elim
    · rcases he : e.step with ⟨outcome, e'⟩
      rcases hs : s.step with ⟨outcome', s'⟩
      rw [he, hs] at houtcome hstep
      cases houtcome
      simp only [attemptsFor, hbreak, hhalted, he, hs]
      split
      · rfl
      · rw [List.flatMap_cons, List.flatMap_cons, hf h]
        rcases outcome with f | _ | _
        · rfl
        · exact congrArg (f s ++ ·) (ih hstep)
        · rfl

/-! ## Machines that need no trace to tell them apart -/

/-- Emulators whose machines are so related, with controls that are the same to a run. -/
structure Beside (M : Machine → Machine → Prop) (e s : Emulator) : Prop where
  machine : M e.machine s.machine
  control : e.control.InStep s.control

/-- A relation between machines that every instruction keeps makes for runs in lockstep. -/
theorem lockstep_beside {Excepted : Fault → Prop} {M : Machine → Machine → Prop}
    (hlocation : ∀ {m n : Machine}, M m n → m.registers.location = n.registers.location)
    (hplan : ∀ {m n : Machine}, M m n →
      (∃ f, m.plan = .error f ∧ Excepted f) ∨ m.plan = n.plan)
    (hcomplete : ∀ {m n : Machine} {i : Instruction} {effect : Effect}, M m n →
      m.plan = .ok (i, effect) → M (m.complete i effect) (n.complete i effect)) :
    Lockstep Excepted (Beside M) where
  location h := hlocation h.machine
  control h := h.control
  plan h := hplan h.machine
  markBreakpoint h := ⟨h.machine, h.control.resumeFrom_eq (congrArg some (hlocation h.machine))⟩
  attempted h := ⟨h.machine, h.control.resumeFrom_eq rfl⟩
  executed h hok := ⟨hcomplete h.machine hok, (h.control.resumeFrom_eq rfl).record _ _⟩
  halt h := ⟨h.machine, h.control.halt⟩

end Emulator

end WordMachine
