import WordMachine.Emulator.Run
import WordMachine.Proofs.Emulator.Step

set_option autoImplicit false

/-! # The rounds of a run

A run is a loop. One round of it, without the look at the budget, is `Emulator.proceed`: it either
goes on with the emulator after an instruction or stops, and then says how and with which
emulator. `proceedFor` is a number of rounds after one another.

Runs with and without a budget are read off `proceedFor` (`runFor_eq`, `run_none_eq`), rounds add
up (`proceedFor_add`), and what every step and every stop at a breakpoint keeps is kept by every
run (`run_induction`). -/

namespace WordMachine.Emulator

/-- One round of a run: the emulator that the run goes on with or, as an error, how it stops. -/
def proceed (e : Emulator) : Except (RunOutcome × Emulator) Emulator :=
  if e.atBreakpoint then .error (.ok .breakpoint, e.markBreakpoint)
  else
    match e.step with
    | (.ok .ran, e) => .ok e
    | (.ok .halted, e) => .error (.ok .halt, e)
    | (.error f, e) => .error (.error f, e)

/-- So many rounds after one another, up to one that stops. -/
def proceedFor : Nat → Emulator → Except (RunOutcome × Emulator) Emulator
  | 0, e => .ok e
  | rounds + 1, e =>
    match e.proceed with
    | .ok e => proceedFor rounds e
    | .error stop => .error stop

/-! ## A round -/

theorem proceed_of_atBreakpoint {e : Emulator} (h : e.atBreakpoint = true) :
    e.proceed = .error (.ok .breakpoint, e.markBreakpoint) := by
  rw [proceed, if_pos h]

theorem proceed_of_ran {e s : Emulator} (h : e.atBreakpoint = false)
    (hstep : e.step = (.ok .ran, s)) : e.proceed = .ok s := by
  simp only [proceed, h, hstep, Bool.false_eq_true, if_false]

theorem proceed_of_halted {e s : Emulator} (h : e.atBreakpoint = false)
    (hstep : e.step = (.ok .halted, s)) : e.proceed = .error (.ok .halt, s) := by
  simp only [proceed, h, hstep, Bool.false_eq_true, if_false]

theorem proceed_of_fault {e s : Emulator} {f : Fault} (h : e.atBreakpoint = false)
    (hstep : e.step = (.error f, s)) : e.proceed = .error (.error f, s) := by
  simp only [proceed, h, hstep, Bool.false_eq_true, if_false]

/-- A round is of one of four kinds. -/
theorem proceed_cases (e : Emulator) :
    (e.atBreakpoint = true ∧ e.proceed = .error (.ok .breakpoint, e.markBreakpoint)) ∨
      e.atBreakpoint = false ∧
        ((∃ s, e.step = (.ok .ran, s) ∧ e.proceed = .ok s) ∨
          (∃ s, e.step = (.ok .halted, s) ∧ e.proceed = .error (.ok .halt, s)) ∨
          ∃ f s, e.step = (.error f, s) ∧ e.proceed = .error (.error f, s)) := by
  cases h : e.atBreakpoint with
  | true => exact Or.inl ⟨rfl, proceed_of_atBreakpoint h⟩
  | false =>
    refine Or.inr ⟨rfl, ?_⟩
    rcases hstep : e.step with ⟨outcome, s⟩
    cases outcome with
    | error f => exact Or.inr (Or.inr ⟨f, s, rfl, proceed_of_fault h hstep⟩)
    | ok outcome =>
      cases outcome with
      | ran => exact Or.inl ⟨s, rfl, proceed_of_ran h hstep⟩
      | halted => exact Or.inr (Or.inl ⟨s, rfl, proceed_of_halted h hstep⟩)

theorem step_of_proceed {e s : Emulator} (h : e.proceed = .ok s) :
    e.atBreakpoint = false ∧ e.step = (.ok .ran, s) := by
  rcases proceed_cases e with ⟨-, hp⟩ | ⟨hb, ⟨t, hstep, hp⟩ | ⟨t, -, hp⟩ | ⟨f, t, -, hp⟩⟩
  · rw [hp] at h; cases h
  · rw [hp] at h; cases h; exact ⟨hb, hstep⟩
  · rw [hp] at h; cases h
  · rw [hp] at h; cases h

/-- A round that stops does so at a breakpoint, as its step halts, or as it is refused. -/
theorem proceed_error_cases {e s : Emulator} {outcome : RunOutcome}
    (h : e.proceed = .error (outcome, s)) :
    (e.atBreakpoint = true ∧ outcome = .ok .breakpoint ∧ s = e.markBreakpoint) ∨
      (outcome = .ok .halt ∧ e.step = (.ok .halted, s)) ∨
      ∃ f, outcome = .error f ∧ e.step = (.error f, s) := by
  rcases proceed_cases e with ⟨hb, hp⟩ | ⟨-, ⟨t, -, hp⟩ | ⟨t, hs, hp⟩ | ⟨f, t, hs, hp⟩⟩
  · rw [hp] at h; cases h; exact Or.inl ⟨hb, rfl, rfl⟩
  · rw [hp] at h; cases h
  · rw [hp] at h; cases h; exact Or.inr (Or.inl ⟨rfl, hs⟩)
  · rw [hp] at h; cases h; exact Or.inr (Or.inr ⟨f, rfl, hs⟩)

theorem halted_of_atBreakpoint {e : Emulator} (h : e.atBreakpoint = true) :
    e.control.halted = false := by
  simp only [atBreakpoint, Bool.and_eq_true, Bool.not_eq_true'] at h
  exact h.1.2

/-- The marker lets a run past the breakpoint where it was left. -/
theorem atBreakpoint_markBreakpoint (e : Emulator) : e.markBreakpoint.atBreakpoint = false := by
  simp [atBreakpoint, markBreakpoint, location]

theorem atBreakpoint_of_breakpoints_eq_nil {e : Emulator} (h : e.control.breakpoints = []) :
    e.atBreakpoint = false := by
  simp [atBreakpoint, h]

/-- A round never stops for the budget. -/
theorem proceed_ne_timeout {e s : Emulator} : e.proceed ≠ .error (.ok .timeout, s) := by
  intro h
  rcases proceed_cases e with ⟨-, hp⟩ | ⟨-, ⟨_, -, hp⟩ | ⟨_, -, hp⟩ | ⟨_, _, -, hp⟩⟩ <;>
    (rw [hp] at h; cases h)

/-! ## Rounds after one another -/

theorem proceedFor_succ_of_ok {e s : Emulator} (h : e.proceed = .ok s) (rounds : Nat) :
    e.proceedFor (rounds + 1) = s.proceedFor rounds := by
  rw [proceedFor, h]

theorem proceedFor_succ_of_error {e : Emulator} {stop : RunOutcome × Emulator}
    (h : e.proceed = .error stop) (rounds : Nat) : e.proceedFor (rounds + 1) = .error stop := by
  rw [proceedFor, h]

theorem proceedFor_add (m n : Nat) (e : Emulator) :
    e.proceedFor (m + n) = (e.proceedFor m).bind (proceedFor n) := by
  induction m generalizing e with
  | zero => rw [Nat.zero_add]; rfl
  | succ m ih =>
    rw [Nat.succ_add]
    cases h : e.proceed with
    | ok s => rw [proceedFor_succ_of_ok h, proceedFor_succ_of_ok h, ih]
    | error stop => rw [proceedFor_succ_of_error h, proceedFor_succ_of_error h]; rfl

theorem proceedFor_add_of_ok {m : Nat} {e s : Emulator} (h : e.proceedFor m = .ok s) (n : Nat) :
    e.proceedFor (m + n) = s.proceedFor n := by
  rw [proceedFor_add, h]
  rfl

theorem proceedFor_of_le {m n : Nat} {e : Emulator} {stop : RunOutcome × Emulator}
    (h : e.proceedFor m = .error stop) (hle : m ≤ n) : e.proceedFor n = .error stop := by
  obtain ⟨k, rfl⟩ := Nat.exists_eq_add_of_le hle
  rw [proceedFor_add, h]
  rfl

/-- Rounds that go on went on all the time. -/
theorem exists_proceedFor_of_le {m n : Nat} {e s : Emulator} (h : e.proceedFor n = .ok s)
    (hle : m ≤ n) : ∃ t, e.proceedFor m = .ok t := by
  cases hm : e.proceedFor m with
  | ok t => exact ⟨t, rfl⟩
  | error stop => rw [proceedFor_of_le hm hle] at h; cases h

theorem proceedFor_succ (n : Nat) (e : Emulator) :
    e.proceedFor (n + 1) = (e.proceedFor n).bind proceed := by
  rw [proceedFor_add]
  cases e.proceedFor n with
  | error stop => rfl
  | ok s =>
    cases hs : s.proceed with
    | ok t => exact (proceedFor_succ_of_ok hs 0).trans hs.symm
    | error stop => exact (proceedFor_succ_of_error hs 0).trans hs.symm

theorem proceedFor_succ_of_proceedFor {n : Nat} {e s : Emulator} (h : e.proceedFor n = .ok s) :
    e.proceedFor (n + 1) = s.proceed := by
  rw [proceedFor_succ, h]
  rfl

/-- However many rounds are tried, a run that stops does so in one way. -/
theorem proceedFor_error_unique {m n : Nat} {e : Emulator} {stop other : RunOutcome × Emulator}
    (h : e.proceedFor m = .error stop) (h' : e.proceedFor n = .error other) : stop = other := by
  have hm := proceedFor_of_le h (Nat.le_max_left m n)
  rw [proceedFor_of_le h' (Nat.le_max_right m n)] at hm
  cases hm
  rfl

theorem proceedFor_ne_timeout {n : Nat} {e s : Emulator} :
    e.proceedFor n ≠ .error (.ok .timeout, s) := by
  induction n generalizing e with
  | zero => simp [proceedFor]
  | succ n ih =>
    intro h
    cases hp : e.proceed with
    | ok next => rw [proceedFor_succ_of_ok hp] at h; exact ih h
    | error stop =>
      rw [proceedFor_succ_of_error hp] at h
      cases h
      exact proceed_ne_timeout hp

/-! ## Runs -/

theorem runFor_eq (n : Nat) (e : Emulator) :
    e.runFor n =
      match e.proceedFor n with
      | .ok s => (.ok .timeout, s)
      | .error stop => stop := by
  induction n generalizing e with
  | zero => rfl
  | succ n ih =>
    rcases proceed_cases e with ⟨hb, hp⟩ | ⟨hb, ⟨s, hstep, hp⟩ | ⟨s, hstep, hp⟩ | ⟨f, s, hstep, hp⟩⟩
    · rw [proceedFor_succ_of_error hp, runFor, if_pos hb]
    · rw [proceedFor_succ_of_ok hp, ← ih]
      simp only [runFor, hb, hstep, Bool.false_eq_true, if_false]
    · rw [proceedFor_succ_of_error hp]
      simp only [runFor, hb, hstep, Bool.false_eq_true, if_false]
    · rw [proceedFor_succ_of_error hp]
      simp only [runFor, hb, hstep, Bool.false_eq_true, if_false]

theorem runFor_of_ok {n : Nat} {e s : Emulator} (h : e.proceedFor n = .ok s) :
    e.runFor n = (.ok .timeout, s) := by
  rw [runFor_eq, h]

theorem runFor_of_error {n : Nat} {e : Emulator} {stop : RunOutcome × Emulator}
    (h : e.proceedFor n = .error stop) : e.runFor n = stop := by
  rw [runFor_eq, h]

/-- A budget is used up if so many rounds all go on. -/
theorem run_some_timeout_iff {n : Int} {e s : Emulator} :
    e.run (some n) = some (.ok .timeout, s) ↔ e.proceedFor n.toNat = .ok s := by
  rw [run, Option.some.injEq, runFor_eq]
  cases h : e.proceedFor n.toNat with
  | ok t => simp
  | error stop =>
    simp only [reduceCtorEq, iff_false]
    rintro rfl
    exact proceedFor_ne_timeout h

/-- A run with a budget stops in another way if a round within the budget does. -/
theorem run_some_eq_iff {n : Int} {e s : Emulator} {outcome : RunOutcome}
    (hne : outcome ≠ .ok .timeout) :
    e.run (some n) = some (outcome, s) ↔ e.proceedFor n.toNat = .error (outcome, s) := by
  rw [run, Option.some.injEq, runFor_eq]
  cases h : e.proceedFor n.toNat with
  | ok t =>
    simp only [Prod.mk.injEq, reduceCtorEq, iff_false, not_and]
    exact fun hout => absurd hout.symm hne
  | error stop => simp

theorem runRounds_eq (rounds : Nat) (e : Emulator) :
    e.runRounds rounds =
      match e.proceedFor (rounds * roundLength) with
      | .ok _ => none
      | .error stop => some stop := by
  induction rounds generalizing e with
  | zero => rw [Nat.zero_mul]; rfl
  | succ rounds ih =>
    -- Not `Nat.succ_mul`: it would have the length of a round unfolded as a numeral.
    rw [Nat.add_mul, Nat.one_mul, Nat.add_comm (rounds * roundLength)]
    simp only [runRounds]
    cases h : e.proceedFor roundLength with
    | ok s =>
      rw [runFor_of_ok h, proceedFor_add_of_ok h]
      exact ih s
    | error stop =>
      rw [runFor_of_error h, proceedFor_of_le h (Nat.le_add_right ..)]
      -- `runRounds` goes on after a timeout alone, and rounds that stop never answer one.
      split
      · exact absurd h proceedFor_ne_timeout
      · rfl

/-- The number of rounds that a run without a budget tries. -/
def roundLimit (e : Emulator) : Nat := e.roundsToRepeat * roundLength

theorem run_none_eq (e : Emulator) :
    e.run none =
      match e.proceedFor e.roundLimit with
      | .ok _ => none
      | .error stop => some stop := by
  rw [run, runRounds_eq, roundLimit]

/-! ## What every run keeps -/

theorem proceedFor_induction {P : Emulator → Prop} (hstep : ∀ e : Emulator, P e → P e.step.2)
    (hmark : ∀ e : Emulator, e.atBreakpoint = true → P e → P e.markBreakpoint) (n : Nat)
    {e : Emulator} (he : P e) :
    match e.proceedFor n with
    | .ok s => P s
    | .error (_, s) => P s := by
  induction n generalizing e with
  | zero => exact he
  | succ n ih =>
    rcases proceed_cases e with ⟨hb, hp⟩ | ⟨-, ⟨s, hs, hp⟩ | ⟨s, hs, hp⟩ | ⟨f, s, hs, hp⟩⟩
    · rw [proceedFor_succ_of_error hp]
      exact hmark e hb he
    · rw [proceedFor_succ_of_ok hp]
      exact ih (by simpa only [hs] using hstep e he)
    · rw [proceedFor_succ_of_error hp]
      simpa only [hs] using hstep e he
    · rw [proceedFor_succ_of_error hp]
      simpa only [hs] using hstep e he

/-- Rounds never take back an instruction that was counted. -/
theorem steps_le_of_proceedFor {n : Nat} {e last : Emulator} {outcome : RunOutcome}
    (h : e.proceedFor n = .error (outcome, last)) : e.control.steps ≤ last.control.steps := by
  have hrounds := proceedFor_induction (P := fun s => e.control.steps ≤ s.control.steps)
    (fun s hs => Nat.le_trans hs s.steps_le_step) (fun _ _ hs => hs) n (Nat.le_refl _)
  rw [h] at hrounds
  exact hrounds

/-- What every step keeps and every stop at a breakpoint keeps is kept by every run. -/
theorem run_induction {P : Emulator → Prop} (hstep : ∀ e : Emulator, P e → P e.step.2)
    (hmark : ∀ e : Emulator, e.atBreakpoint = true → P e → P e.markBreakpoint)
    {e s : Emulator} {budget : Option Int} {outcome : RunOutcome} (he : P e)
    (h : e.run budget = some (outcome, s)) : P s := by
  cases budget with
  | some n =>
    have hrounds := proceedFor_induction hstep hmark n.toNat he
    have hrun : e.runFor n.toNat = (outcome, s) := Option.some.inj h
    rw [runFor_eq] at hrun
    split at hrun
    · next t ht => rw [ht] at hrounds; cases hrun; exact hrounds
    · next stop hs => rw [hs, hrun] at hrounds; exact hrounds
  | none =>
    have hrounds := proceedFor_induction hstep hmark e.roundLimit he
    rw [run_none_eq] at h
    split at h
    · cases h
    · next stop hs => rw [hs, Option.some.inj h] at hrounds; exact hrounds

end WordMachine.Emulator
