import WordMachine.Proofs.Run.Rounds

set_option autoImplicit false

/-! # Two runs side by side

If a relation between two emulators is kept by every round, in which both go on or both stop in
the same way, then it is kept by any number of rounds (`Matched.proceedFor`). The first of the two
may be allowed to come to certain faults by itself (`Strays`); then the relation is kept by all
rounds before such a fault (`strays_or_matched_proceedFor`). -/

namespace WordMachine.Emulator

/-- Both rounds go on, or both stop in the same way, with emulators that are related. -/
inductive Matched (R : Emulator → Emulator → Prop) :
    Except (RunOutcome × Emulator) Emulator → Except (RunOutcome × Emulator) Emulator → Prop where
  | goOn {e s : Emulator} (h : R e s) : Matched R (.ok e) (.ok s)
  | stop (outcome : RunOutcome) {e s : Emulator} (h : R e s) :
    Matched R (.error (outcome, e)) (.error (outcome, s))

/-- The round stops at a fault that is excepted. -/
def Strays (Excepted : Fault → Prop) (result : Except (RunOutcome × Emulator) Emulator) : Prop :=
  ∃ f e, result = .error (.error f, e) ∧ Excepted f

variable {R : Emulator → Emulator → Prop}

theorem Matched.exists_of_ok {e : Emulator} {result : Except (RunOutcome × Emulator) Emulator}
    (h : Matched R (.ok e) result) : ∃ s, result = .ok s ∧ R e s := by
  cases h with
  | goOn h => exact ⟨_, rfl, h⟩

theorem Matched.exists_of_error {outcome : RunOutcome} {e : Emulator}
    {result : Except (RunOutcome × Emulator) Emulator}
    (h : Matched R (.error (outcome, e)) result) :
    ∃ s, result = .error (outcome, s) ∧ R e s := by
  cases h with
  | stop outcome h => exact ⟨_, rfl, h⟩

theorem strays_or_matched_proceedFor {Excepted : Fault → Prop}
    (hR : ∀ e s : Emulator, R e s → Strays Excepted e.proceed ∨ Matched R e.proceed s.proceed)
    (n : Nat) {e s : Emulator} (h : R e s) :
    Strays Excepted (e.proceedFor n) ∨ Matched R (e.proceedFor n) (s.proceedFor n) := by
  induction n generalizing e s with
  | zero => exact Or.inr (.goOn h)
  | succ n ih =>
    rcases hR e s h with ⟨f, t, hfault, hf⟩ | hround
    · exact Or.inl ⟨f, t, proceedFor_succ_of_error hfault n, hf⟩
    · cases he : e.proceed with
      | ok e' =>
        rw [he] at hround
        obtain ⟨s', hs, hnext⟩ := hround.exists_of_ok
        rw [proceedFor_succ_of_ok he, proceedFor_succ_of_ok hs]
        exact ih hnext
      | error stop =>
        rw [he] at hround
        obtain ⟨s', hs, hlast⟩ := hround.exists_of_error
        rw [proceedFor_succ_of_error he, proceedFor_succ_of_error hs]
        exact Or.inr (.stop _ hlast)

theorem Matched.proceedFor (hR : ∀ e s : Emulator, R e s → Matched R e.proceed s.proceed) (n : Nat)
    {e s : Emulator} (h : R e s) : Matched R (e.proceedFor n) (s.proceedFor n) := by
  have hnone : ∀ e s : Emulator, R e s →
      Strays (fun _ => False) e.proceed ∨ Matched R e.proceed s.proceed :=
    fun e s h => Or.inr (hR e s h)
  rcases strays_or_matched_proceedFor hnone n h with ⟨f, t, -, hf⟩ | hmatched
  · exact hf.elim
  · exact hmatched

/-- A relation that both steps and both breakpoints keep is kept by a round. -/
theorem Matched.proceed {e s : Emulator} (hbreak : e.atBreakpoint = s.atBreakpoint)
    (hmark : R e.markBreakpoint s.markBreakpoint) (houtcome : e.step.1 = s.step.1)
    (hstep : R e.step.2 s.step.2) : Matched R e.proceed s.proceed := by
  cases hb : e.atBreakpoint with
  | true =>
    rw [proceed_of_atBreakpoint hb, proceed_of_atBreakpoint (hbreak ▸ hb)]
    exact .stop _ hmark
  | false =>
    have hb' : s.atBreakpoint = false := hbreak ▸ hb
    have hs : s.step = (e.step.1, s.step.2) := by rw [houtcome]
    rcases he : e.step with ⟨outcome, e'⟩
    rw [he] at hs hstep
    cases outcome with
    | error f => rw [proceed_of_fault hb he, proceed_of_fault hb' hs]; exact .stop _ hstep
    | ok outcome =>
      cases outcome with
      | ran => rw [proceed_of_ran hb he, proceed_of_ran hb' hs]; exact .goOn hstep
      | halted => rw [proceed_of_halted hb he, proceed_of_halted hb' hs]; exact .stop _ hstep

end WordMachine.Emulator
