import WordMachine.Proofs.Run.FirstStop

set_option autoImplicit false

/-! # The instructions that a run attempts

`Emulator.attemptsFor` lists the emulators in which a run attempts an instruction, by the same
recursion as the run itself. An emulator stands in the list exactly if the run gets to it and is
then held up neither by a breakpoint nor by a halt (`attempts_iff_run`), and the count of
executed instructions rises by those attempts in the list that are not refused (`steps_runFor`).
What each attempt adds to a history the whole run adds to it, attempt after attempt (`history_run`).

Behind its first attempt a run carries no marker, so no attempt but the first can be at a
breakpoint (`marked_of_attempts_at_breakpoint`). -/

namespace WordMachine.Emulator

/-- The emulators in which a run attempts an instruction, in order, in so many rounds at most. -/
def attemptsFor : Nat → Emulator → List Emulator
  | 0, _ => []
  | rounds + 1, e =>
    if e.atBreakpoint || e.control.halted then []
    else
      e :: match e.step with
        | (.ok .ran, s) => attemptsFor rounds s
        | _ => []

/-- The emulators in which a run with this budget attempts an instruction, in order. -/
def attemptsOf (e : Emulator) : Option Int → List Emulator
  | some budget => e.attemptsFor budget.toNat
  | none => e.attemptsFor e.roundLimit

/-- The run from `e` with this budget attempts an instruction in `t`, having executed `k`. A run
    without a budget may attempt instructions forever. -/
def Attempts (e : Emulator) (budget : Option Int) (k : Nat) (t : Emulator) : Prop :=
  match budget with
  | some n => (e.attemptsFor n.toNat)[k]? = some t
  | none => ∃ rounds, (e.attemptsFor rounds)[k]? = some t

/-- Whether an attempt is not refused. -/
def executes (e : Emulator) : Bool := e.step.1.isOk

/-- The number of instructions that a run executes in so many rounds at most. -/
def executions (rounds : Nat) (e : Emulator) : Nat := (e.attemptsFor rounds).countP executes

variable {e s t : Emulator} {budget : Option Int} {outcome : RunOutcome}

/-! ## The list of attempts -/

theorem attemptsFor_of_atBreakpoint (h : e.atBreakpoint = true) (rounds : Nat) :
    e.attemptsFor rounds = [] := by
  cases rounds with
  | zero => rfl
  | succ rounds => rw [attemptsFor, if_pos (by rw [h, Bool.true_or])]

theorem attemptsFor_of_halted (h : e.control.halted = true) (rounds : Nat) :
    e.attemptsFor rounds = [] := by
  cases rounds with
  | zero => rfl
  | succ rounds => rw [attemptsFor, if_pos (by rw [h, Bool.or_true])]

theorem attemptsFor_succ_of_ran (hb : e.atBreakpoint = false) (h : e.step = (.ok .ran, s))
    (rounds : Nat) : e.attemptsFor (rounds + 1) = e :: s.attemptsFor rounds := by
  have hrunning := (exists_of_ran h).1
  simp only [attemptsFor, hb, hrunning, h, Bool.or_false, Bool.false_eq_true, if_false]

/-- An attempt after which the run does not go on is its last. -/
theorem attemptsFor_succ_of_stop (hb : e.atBreakpoint = false) (hrunning : e.control.halted = false)
    (h : e.step.1 ≠ .ok .ran) (rounds : Nat) : e.attemptsFor (rounds + 1) = [e] := by
  rcases hstep : e.step with ⟨result, s⟩
  rw [hstep] at h
  simp only [attemptsFor, hb, hrunning, hstep, Bool.or_false, Bool.false_eq_true, if_false]
  split
  · next heq => cases heq; exact absurd rfl h
  · rfl

/-- Where a run is not held up, it attempts its first instruction. -/
theorem getElem?_zero_attemptsFor {rounds : Nat} :
    (e.attemptsFor (rounds + 1))[0]? = some t ↔
      e = t ∧ e.atBreakpoint = false ∧ e.control.halted = false := by
  cases hb : e.atBreakpoint with
  | true => simp [attemptsFor_of_atBreakpoint hb]
  | false =>
    cases hhalted : e.control.halted with
    | true => simp [attemptsFor_of_halted hhalted]
    | false => simp [attemptsFor, hb, hhalted]

/-- The further attempts are those after the first round. -/
theorem getElem?_succ_attemptsFor {rounds k : Nat} :
    (e.attemptsFor (rounds + 1))[k + 1]? = some t ↔
      ∃ s, e.proceed = .ok s ∧ (s.attemptsFor rounds)[k]? = some t := by
  rcases proceed_cases e with ⟨hb, hp⟩ | ⟨hb, ⟨s, hs, hp⟩ | ⟨s, hs, hp⟩ | ⟨f, s, hs, hp⟩⟩
  · simp [attemptsFor_of_atBreakpoint hb, hp]
  · simp [attemptsFor_succ_of_ran hb hs, hp]
  all_goals
    cases hhalted : e.control.halted with
    | true => simp [attemptsFor_of_halted hhalted, hp]
    | false => simp [attemptsFor_succ_of_stop hb hhalted (by simp [hs]), hp]

/-- The attempts of a run are where it gets to and is not held up. -/
theorem getElem?_attemptsFor {rounds k : Nat} :
    (e.attemptsFor rounds)[k]? = some t ↔
      k < rounds ∧ e.proceedFor k = .ok t ∧ t.atBreakpoint = false ∧ t.control.halted = false := by
  induction rounds generalizing e k with
  | zero => simp [attemptsFor]
  | succ rounds ih =>
    cases k with
    | zero =>
      rw [getElem?_zero_attemptsFor]
      constructor
      · rintro ⟨rfl, hb, hrunning⟩
        exact ⟨Nat.succ_pos rounds, rfl, hb, hrunning⟩
      · rintro ⟨-, hstart, hb, hrunning⟩
        cases hstart
        exact ⟨rfl, hb, hrunning⟩
    | succ k =>
      rw [getElem?_succ_attemptsFor, Nat.add_lt_add_iff_right]
      constructor
      · rintro ⟨s, hp, hk⟩
        rw [proceedFor_succ_of_ok hp]
        exact ih.1 hk
      · rintro ⟨hk, hrounds, hfree⟩
        cases hp : e.proceed with
        | ok s =>
          rw [proceedFor_succ_of_ok hp] at hrounds
          exact ⟨s, rfl, ih.2 ⟨hk, hrounds, hfree⟩⟩
        | error stop =>
          rw [proceedFor_succ_of_error hp] at hrounds
          cases hrounds

theorem attempts_iff {k : Nat} :
    e.Attempts budget k t ↔
      spent budget k = false ∧ e.proceedFor k = .ok t ∧ t.atBreakpoint = false ∧
        t.control.halted = false := by
  cases budget with
  | none =>
    simp only [Attempts, getElem?_attemptsFor, spent, true_and]
    constructor
    · rintro ⟨_, _, h⟩
      exact h
    · intro h
      exact ⟨k + 1, Nat.lt_succ_self k, h⟩
  | some n =>
    simp only [Attempts, getElem?_attemptsFor, spent, decide_eq_false_iff_not, Int.not_le]
    exact and_congr_left fun _ => by omega

/-- What a run attempts is told by shorter runs: it attempts an instruction where a run that may
    execute `k` instructions runs out of its budget, unless that is held up there, or the budget of
    the run itself is spent. -/
theorem attempts_iff_run {k : Nat} :
    e.Attempts budget k t ↔
      spent budget k = false ∧ e.run (some k) = some (.ok .timeout, t) ∧ t.atBreakpoint = false ∧
        t.control.halted = false := by
  rw [attempts_iff, run_some_timeout_iff, Int.toNat_natCast]

/-- Where rounds go on, an instruction is attempted in each of them. -/
theorem attempts_of_proceedFor {k n : Nat} (h : e.proceedFor n = .ok t) (hlt : k < n)
    (hs : e.after k = some s) : e.Attempts none k s := by
  obtain ⟨u, hu⟩ := exists_proceedFor_of_le h (Nat.le_of_lt hlt)
  obtain ⟨v, hv⟩ := exists_proceedFor_of_le h (Nat.succ_le_of_lt hlt)
  rw [proceedFor_succ_of_proceedFor hu] at hv
  obtain ⟨hfree, hran⟩ := step_of_proceed hv
  have hsu : s = u := Option.some.inj (hs.symm.trans (proceedFor_eq_ok_iff.1 hu).1)
  subst hsu
  exact attempts_iff.2 ⟨rfl, hu, hfree, (exists_of_ran hran).1⟩

/-- The attempts after some rounds are further attempts of the whole run. -/
theorem Attempts.after_rounds {k n : Nat} (hs : e.proceedFor n = .ok s) (h : s.Attempts none k t) :
    e.Attempts none (n + k) t := by
  obtain ⟨-, hrounds, hheld⟩ := attempts_iff.1 h
  exact attempts_iff.2 ⟨rfl, (proceedFor_add_of_ok hs k).trans hrounds, hheld⟩

/-- No attempt but the first of a run is at a breakpoint, and that one only if the marker says that
    the breakpoint was reported. -/
theorem marked_of_attempts_at_breakpoint {k : Nat} (h : e.Attempts budget k t)
    (hmem : (t.location : Int) ∈ t.control.breakpoints) :
    k = 0 ∧ t = e ∧ e.control.resumeFrom = some e.location := by
  obtain ⟨-, hrounds, hfree, hrunning⟩ := attempts_iff.1 h
  have hmarked : t.control.resumeFrom = some t.location := by
    simpa [atBreakpoint, hmem, hrunning] using hfree
  cases k with
  | zero => cases hrounds; exact ⟨rfl, rfl, hmarked⟩
  | succ k => rw [(underway_of_proceedFor hrounds).resumeFrom] at hmarked; cases hmarked

/-! ## Counting -/

theorem length_attemptsFor_le (rounds : Nat) (e : Emulator) :
    (e.attemptsFor rounds).length ≤ rounds := by
  by_contra hlong
  have hlast := List.getElem?_eq_getElem (Nat.not_le.1 hlong)
  exact Nat.lt_irrefl rounds (getElem?_attemptsFor.1 hlast).1

theorem executions_le (rounds : Nat) (e : Emulator) : e.executions rounds ≤ rounds :=
  Nat.le_trans List.countP_le_length (length_attemptsFor_le rounds e)

/-- A step counts an instruction if it is not refused. -/
theorem steps_step (h : e.control.halted = false) :
    e.step.2.control.steps = e.control.steps + if e.executes then 1 else 0 := by
  rcases step_cases e with ⟨hhalted, -⟩ | ⟨-, ⟨f, -, hs⟩ | ⟨i, effect, -, ⟨-, hs⟩ | ⟨-, hs⟩⟩⟩
  · rw [h] at hhalted; cases hhalted
  · simp [executes, hs, attempted, Except.isOk, Except.toBool]
  · simp [executes, hs, Except.isOk, Except.toBool]
  · simp [executes, hs, Except.isOk, Except.toBool]

/-- The last attempt of a run that is not held up counts as its step does. -/
theorem steps_step_of_stop (hb : e.atBreakpoint = false) (h : e.step.1 ≠ .ok .ran) (rounds : Nat) :
    e.step.2.control.steps = e.control.steps + e.executions (rounds + 1) := by
  rw [executions]
  cases hhalted : e.control.halted with
  | true =>
    rw [attemptsFor_of_halted hhalted, step_of_halted hhalted]
    rfl
  | false =>
    rw [attemptsFor_succ_of_stop hb hhalted h, List.countP_cons, List.countP_nil, Nat.zero_add]
    exact steps_step hhalted

/-- The count of executed instructions rises by those that the run executes. -/
theorem steps_runFor (rounds : Nat) (e : Emulator) :
    (e.runFor rounds).2.control.steps = e.control.steps + e.executions rounds := by
  induction rounds generalizing e with
  | zero => rfl
  | succ rounds ih =>
    rcases proceed_cases e with ⟨hb, hp⟩ | ⟨hb, ⟨s, hs, hp⟩ | ⟨s, hs, hp⟩ | ⟨f, s, hs, hp⟩⟩
    · rw [runFor_of_error (proceedFor_succ_of_error hp _), executions,
        attemptsFor_of_atBreakpoint hb]
      rfl
    · have hrun : e.runFor (rounds + 1) = s.runFor rounds := by
        rw [runFor_eq, runFor_eq, proceedFor_succ_of_ok hp]
      have hstep := steps_step (exists_of_ran hs).1
      rw [hs] at hstep
      rw [hrun, ih, hstep, executions, executions, attemptsFor_succ_of_ran hb hs,
        List.countP_cons]
      omega
    · have hstep := steps_step_of_stop hb (by simp [hs]) rounds
      rw [hs] at hstep
      rw [runFor_of_error (proceedFor_succ_of_error hp rounds), hstep]
    · have hstep := steps_step_of_stop hb (by simp [hs]) rounds
      rw [hs] at hstep
      rw [runFor_of_error (proceedFor_succ_of_error hp rounds), hstep]

/-- Every round of a run that goes on executes an instruction. -/
theorem steps_of_proceedFor {rounds : Nat} (h : e.proceedFor rounds = .ok s) :
    s.control.steps = e.control.steps + rounds :=
  (control_of_after (proceedFor_eq_ok_iff.1 h).1).1

/-- A run that ends in a fault leaves the machine as the instructions before left it. -/
theorem exists_after_of_fault {f : Fault} (h : e.run budget = some (.error f, s)) :
    ∃ k t, e.after k = some t ∧ s.machine = t.machine ∧
      s.control.steps = e.control.steps + k := by
  rcases run_cases h with ⟨n, -, hout, -⟩ | ⟨k, t, -, hrounds, hstop⟩
  · cases hout
  · rcases proceed_error_cases hstop with ⟨-, hout, -⟩ | ⟨hout, -⟩ | ⟨g, -, hstep⟩
    · cases hout
    · cases hout
    · obtain ⟨-, -, rfl⟩ := exists_of_fault hstep
      have hsteps := steps_of_proceedFor hrounds
      exact ⟨k, t, (proceedFor_eq_ok_iff.1 hrounds).1, rfl, hsteps⟩

/-! ## Histories -/

section

variable {α : Type} {f : Emulator → List α} {P : List α → Emulator → Prop}
  (hstep : ∀ (history : List α) (e : Emulator), e.control.halted = false → P history e →
    P (history ++ f e) e.step.2)
  (hmark : ∀ (history : List α) (e : Emulator), P history e → P history e.markBreakpoint)
  {history : List α}
include hstep

/-- A round that does not go on adds what its only attempt adds, if it comes to one. -/
theorem history_of_stop (he : P history e) (hb : e.atBreakpoint = false)
    (h : e.step.1 ≠ .ok .ran) (rounds : Nat) :
    P (history ++ (e.attemptsFor (rounds + 1)).flatMap f) e.step.2 := by
  cases hhalted : e.control.halted with
  | true =>
    rw [attemptsFor_of_halted hhalted, step_of_halted hhalted, List.flatMap_nil, List.append_nil]
    exact he
  | false =>
    rw [attemptsFor_succ_of_stop hb hhalted h, List.flatMap_singleton]
    exact hstep history e hhalted he

include hmark

theorem history_rounds (rounds : Nat) (he : P history e) :
    match e.proceedFor rounds with
    | .ok s | .error (_, s) => P (history ++ (e.attemptsFor rounds).flatMap f) s := by
  induction rounds generalizing e history with
  | zero => simpa [attemptsFor, proceedFor] using he
  | succ rounds ih =>
    rcases proceed_cases e with ⟨hb, hp⟩ | ⟨hb, ⟨s, hs, hp⟩ | ⟨s, hs, hp⟩ | ⟨g, s, hs, hp⟩⟩
    · rw [proceedFor_succ_of_error hp, attemptsFor_of_atBreakpoint hb, List.flatMap_nil,
        List.append_nil]
      exact hmark history e he
    · rw [proceedFor_succ_of_ok hp, attemptsFor_succ_of_ran hb hs, List.flatMap_cons,
        ← List.append_assoc]
      have hnext := hstep history e (exists_of_ran hs).1 he
      rw [hs] at hnext
      exact ih hnext
    all_goals
      have hlast := history_of_stop hstep he hb (by simp [hs]) rounds
      rw [hs] at hlast
      rw [proceedFor_succ_of_error hp]
      exact hlast

/-- What each attempt adds to a history a run adds that ends. -/
theorem history_run (he : P history e) (h : e.run budget = some (outcome, s)) :
    P (history ++ (e.attemptsOf budget).flatMap f) s := by
  cases budget with
  | some n =>
    have hrounds := history_rounds hstep hmark n.toNat he
    rw [run, Option.some.injEq, runFor_eq] at h
    cases hfor : e.proceedFor n.toNat with
    | ok last =>
      rw [hfor] at h hrounds
      cases h
      exact hrounds
    | error stop =>
      rw [hfor] at h hrounds
      cases h
      exact hrounds
  | none =>
    have hrounds := history_rounds hstep hmark e.roundLimit he
    rw [run_none_eq] at h
    cases hfor : e.proceedFor e.roundLimit with
    | ok last =>
      rw [hfor] at h
      cases h
    | error stop =>
      rw [hfor] at h hrounds
      cases h
      exact hrounds

end

end WordMachine.Emulator
