import WordMachine.Proofs.Run.Repetition

set_option autoImplicit false

/-! # The first stopping point of a run

What a run should do is said without its loop. From the emulator `e` one gets to `e.after k` by
`k` steps that go on. `stopAt budget k` looks at the emulator found there and tells how a run with
this budget stops, if it stops there: the budget is looked at first, then the breakpoints, then
the instruction.

A run stops exactly at the least such `k` (`run_eq_some_iff`), and never if there is none
(`run_eq_none_iff`); the last section draws what follows where a budget ends. The marker that a
stop at a breakpoint leaves matters to the first round alone, because any further round comes
after a step and a step that goes on leaves no marker. -/

namespace WordMachine.Emulator

/-- The emulator after so many steps that go on, if there are that many. -/
def after : Nat → Emulator → Option Emulator
  | 0, e => some e
  | k + 1, e =>
    match e.step with
    | (.ok .ran, s) => after k s
    | _ => none

/-- Whether so many instructions use up the budget. Without a budget none do. -/
def spent : Option Int → Nat → Bool
  | none, _ => false
  | some n, k => n ≤ k

/-- Whether a run that has executed `k` instructions stops at a breakpoint: one at which the last
    run stopped holds it up no more, if it is there that this run begins. -/
def breaksAfter (k : Nat) (s : Emulator) : Prop :=
  s.control.halted = false ∧ (s.location : Int) ∈ s.control.breakpoints ∧
    ¬(k = 0 ∧ s.control.resumeFrom = some s.location)

instance (k : Nat) (s : Emulator) : Decidable (s.breaksAfter k) :=
  inferInstanceAs (Decidable (_ ∧ _ ∧ _))

/-- How a run stops in `s` after `k` instructions, if it does. -/
def stopAt (budget : Option Int) (k : Nat) (s : Emulator) : Option (RunOutcome × Emulator) :=
  if spent budget k then some (.ok .timeout, s)
  else if s.breaksAfter k then some (.ok .breakpoint, s.markBreakpoint)
  else
    match s.step with
    | (.ok .ran, _) => none
    | (.ok .halted, t) => some (.ok .halt, t)
    | (.error f, t) => some (.error f, t)

/-- The first stopping point of a run from `e` is after `k` instructions. -/
structure FirstStop (e : Emulator) (budget : Option Int) (k : Nat)
    (stop : RunOutcome × Emulator) : Prop where
  stops : ∃ t, e.after k = some t ∧ stopAt budget k t = some stop
  first : ∀ j < k, ∀ t, e.after j = some t → stopAt budget j t = none

variable {e s t : Emulator} {budget : Option Int} {stop : RunOutcome × Emulator}

/-! ## Steps that go on -/

theorem after_succ_of_ran (h : e.step = (.ok .ran, s)) (k : Nat) :
    e.after (k + 1) = s.after k := by
  rw [after, h]

theorem exists_ran_of_after {k : Nat} (h : e.after (k + 1) = some t) :
    ∃ s, e.step = (.ok .ran, s) ∧ s.after k = some t := by
  rw [after] at h
  split at h
  · next s hs => exact ⟨s, hs, h⟩
  · cases h

/-- The last of the steps taken apart. -/
theorem after_succ_iff {k : Nat} :
    e.after (k + 1) = some t ↔ ∃ s, e.after k = some s ∧ s.step = (.ok .ran, t) := by
  induction k generalizing e with
  | zero =>
    constructor
    · intro h
      obtain ⟨s, hs, hst⟩ := exists_ran_of_after h
      cases hst
      exact ⟨e, rfl, hs⟩
    · rintro ⟨s, hs, hst⟩
      cases hs
      rw [after_succ_of_ran hst]
      rfl
  | succ k ih =>
    constructor
    · intro h
      obtain ⟨u, hu, hut⟩ := exists_ran_of_after h
      obtain ⟨s, hs, hst⟩ := ih.1 hut
      exact ⟨s, (after_succ_of_ran hu k).trans hs, hst⟩
    · rintro ⟨s, hs, hst⟩
      obtain ⟨u, hu, hus⟩ := exists_ran_of_after hs
      rw [after_succ_of_ran hu]
      exact ih.2 ⟨s, hus, hst⟩

/-- Steps that go on went on all the time. -/
theorem exists_after_of_le {m n : Nat} (h : e.after n = some t) (hle : m ≤ n) :
    ∃ s, e.after m = some s := by
  induction n generalizing t with
  | zero => exact ⟨t, by rw [Nat.le_zero.1 hle, h]⟩
  | succ n ih =>
    rcases Nat.le_succ_iff.1 hle with hle | rfl
    · obtain ⟨s, hs, -⟩ := after_succ_iff.1 h
      exact ih hs hle
    · exact ⟨t, h⟩

theorem exists_ran_of_lt {m n : Nat} (h : e.after n = some t) (hlt : m < n)
    (hs : e.after m = some s) : ∃ u, s.step = (.ok .ran, u) := by
  obtain ⟨u, hu⟩ := exists_after_of_le h hlt
  obtain ⟨s', hs', hstep⟩ := after_succ_iff.1 hu
  rw [hs] at hs'
  cases hs'
  exact ⟨u, hstep⟩

/-- A step that goes on leaves no marker, so only the emulator at the beginning has one. -/
theorem resumeFrom_of_after {k : Nat} (h : e.after k = some s) :
    k = 0 ∨ s.control.resumeFrom = none := by
  cases k with
  | zero => exact Or.inl rfl
  | succ k =>
    obtain ⟨u, -, hus⟩ := after_succ_iff.1 h
    obtain ⟨-, i, effect, -, -, rfl⟩ := exists_of_ran hus
    exact Or.inr executed_resumeFrom

/-- Steps that go on count, and leave the breakpoints alone. -/
theorem control_of_after {k : Nat} (h : e.after k = some s) :
    s.control.steps = e.control.steps + k ∧ s.control.breakpoints = e.control.breakpoints := by
  induction k generalizing s with
  | zero => cases h; exact ⟨rfl, rfl⟩
  | succ k ih =>
    obtain ⟨u, hu, hus⟩ := after_succ_iff.1 h
    obtain ⟨-, i, effect, -, -, rfl⟩ := exists_of_ran hus
    obtain ⟨hsteps, hbreakpoints⟩ := ih hu
    rw [executed_steps, executed_breakpoints, hsteps]
    exact ⟨rfl, hbreakpoints⟩

/-- Without breakpoints nothing holds up a run. -/
theorem not_breaksAfter_of_after {k : Nat} (hnone : e.control.breakpoints = [])
    (h : e.after k = some s) (j : Nat) : ¬s.breaksAfter j := by
  rintro ⟨-, hmem, -⟩
  rw [(control_of_after h).2, hnone] at hmem
  cases hmem

/-! ## Stopping points and rounds -/

theorem stopAt_of_spent {k : Nat} (h : spent budget k = true) :
    stopAt budget k s = some (.ok .timeout, s) := by
  rw [stopAt, if_pos h]

/-- Until it is used up the budget does not matter. -/
theorem stopAt_of_not_spent {k : Nat} (h : spent budget k = false) :
    stopAt budget k s = stopAt none k s := by
  have hnone : spent none k = false := rfl
  simp only [stopAt, h, hnone]

theorem stopAt_of_breaksAfter {k : Nat} (h : spent budget k = false) (hbreak : s.breaksAfter k) :
    stopAt budget k s = some (.ok .breakpoint, s.markBreakpoint) := by
  rw [stopAt, h, if_neg Bool.false_ne_true, if_pos hbreak]

theorem stopAt_of_ran {k : Nat} (h : spent budget k = false) (hbreak : ¬s.breaksAfter k)
    (hstep : s.step = (.ok .ran, t)) : stopAt budget k s = none := by
  rw [stopAt, h, if_neg Bool.false_ne_true, if_neg hbreak, hstep]

theorem stopAt_of_halted {k : Nat} (h : spent budget k = false) (hbreak : ¬s.breaksAfter k)
    (hstep : s.step = (.ok .halted, t)) : stopAt budget k s = some (.ok .halt, t) := by
  rw [stopAt, h, if_neg Bool.false_ne_true, if_neg hbreak, hstep]

theorem breaksAfter_iff {k : Nat} (h : k = 0 ∨ s.control.resumeFrom = none) :
    s.breaksAfter k ↔ s.atBreakpoint = true := by
  have hmarker : ¬(k = 0 ∧ s.control.resumeFrom = some s.location) ↔
      s.control.resumeFrom ≠ some s.location := by
    rcases h with rfl | hnone
    · simp
    · simp [hnone]
  rw [breaksAfter, hmarker, atBreakpoint]
  simp only [Bool.and_eq_true, decide_eq_true_eq, Bool.not_eq_true']
  constructor
  · rintro ⟨hhalted, hmem, hne⟩
    exact ⟨⟨hmem, hhalted⟩, hne⟩
  · rintro ⟨⟨hmem, hhalted⟩, hne⟩
    exact ⟨hhalted, hmem, hne⟩

/-- Without a budget the stopping points are the rounds that stop. -/
theorem stopAt_none_eq {k : Nat} (h : k = 0 ∨ s.control.resumeFrom = none) :
    stopAt none k s =
      match s.proceed with
      | .ok _ => none
      | .error stop => some stop := by
  have hbreaks := breaksAfter_iff h
  simp only [stopAt, spent, Bool.false_eq_true, if_false]
  rcases proceed_cases s with ⟨hb, hp⟩ | ⟨hb, ⟨t, hs, hp⟩ | ⟨t, hs, hp⟩ | ⟨f, t, hs, hp⟩⟩
  · rw [if_pos (hbreaks.2 hb), hp]
  all_goals
    rw [if_neg (fun hbreak => by rw [hbreaks.1 hbreak] at hb; cases hb), hs, hp]

theorem stopAt_none_eq_none_iff {k : Nat} (h : e.after k = some s) :
    stopAt none k s = none ↔ ∃ t, s.proceed = .ok t := by
  rw [stopAt_none_eq (resumeFrom_of_after h)]
  cases s.proceed with
  | ok t => simp
  | error stop => simp

theorem stopAt_none_eq_some_iff {k : Nat} (h : e.after k = some s) :
    stopAt none k s = some stop ↔ s.proceed = .error stop := by
  rw [stopAt_none_eq (resumeFrom_of_after h)]
  cases s.proceed with
  | ok t => simp
  | error stop' => simp

/-- Rounds go on as long as steps do and nothing stops the run on the way. -/
theorem proceedFor_eq_ok_iff {k : Nat} :
    e.proceedFor k = .ok t ↔
      e.after k = some t ∧ ∀ j < k, ∀ u, e.after j = some u → stopAt none j u = none := by
  -- The last round is split off, not the first: stopping points are counted from the beginning.
  induction k generalizing t with
  | zero => simp [proceedFor, after]
  | succ k ih =>
    constructor
    · intro h
      obtain ⟨s, hs⟩ := exists_proceedFor_of_le h (Nat.le_succ k)
      obtain ⟨hafter, hnone⟩ := ih.1 hs
      rw [proceedFor_succ_of_proceedFor hs] at h
      refine ⟨after_succ_iff.2 ⟨s, hafter, (step_of_proceed h).2⟩, fun j hj u hu => ?_⟩
      rcases Nat.lt_succ_iff_lt_or_eq.1 hj with hlt | rfl
      · exact hnone j hlt u hu
      · rw [hafter] at hu
        cases hu
        exact (stopAt_none_eq_none_iff hafter).2 ⟨t, h⟩
    · rintro ⟨hafter, hnone⟩
      obtain ⟨s, hs, hst⟩ := after_succ_iff.1 hafter
      have hrounds := ih.2 ⟨hs, fun j hj => hnone j (Nat.lt_succ_of_lt hj)⟩
      obtain ⟨t', ht'⟩ := (stopAt_none_eq_none_iff hs).1 (hnone k (Nat.lt_succ_self k) s hs)
      have hran := (step_of_proceed ht').2
      rw [hst] at hran
      cases hran
      rw [proceedFor_succ_of_proceedFor hrounds, ht']

/-- If rounds stop, then a first of them does. -/
theorem exists_proceed_of_proceedFor {n : Nat} (h : e.proceedFor n = .error stop) :
    ∃ k < n, ∃ t, e.proceedFor k = .ok t ∧ t.proceed = .error stop := by
  induction n with
  | zero => cases h
  | succ n ih =>
    cases hn : e.proceedFor n with
    | ok t =>
      rw [proceedFor_succ_of_proceedFor hn] at h
      exact ⟨n, Nat.lt_succ_self n, t, hn, h⟩
    | error stop' =>
      rw [proceedFor_of_le hn (Nat.le_succ n)] at h
      cases h
      obtain ⟨k, hk, hstop⟩ := ih hn
      exact ⟨k, Nat.lt_succ_of_lt hk, hstop⟩

/-- A run uses up its budget in rounds that all go on, or stops in a round. -/
theorem run_cases {outcome : RunOutcome} (h : e.run budget = some (outcome, s)) :
    (∃ n, budget = some n ∧ outcome = .ok .timeout ∧ e.proceedFor n.toNat = .ok s) ∨
      ∃ k t, spent budget k = false ∧ e.proceedFor k = .ok t ∧
        t.proceed = .error (outcome, s) := by
  cases budget with
  | none =>
    obtain ⟨n, hn⟩ := run_none_eq_some_iff.1 h
    obtain ⟨k, -, t, ht, hstop⟩ := exists_proceed_of_proceedFor hn
    exact Or.inr ⟨k, t, rfl, ht, hstop⟩
  | some n =>
    by_cases hout : outcome = .ok .timeout
    · subst hout
      exact Or.inl ⟨n, rfl, rfl, run_some_timeout_iff.1 h⟩
    · obtain ⟨k, hk, t, ht, hstop⟩ := exists_proceed_of_proceedFor ((run_some_eq_iff hout).1 h)
      have hunspent : spent (some n) k = false := decide_eq_false (by omega)
      exact Or.inr ⟨k, t, hunspent, ht, hstop⟩

/-- Where rounds stop that the budget has room for, so does the run. -/
theorem run_of_proceedFor {k : Nat} (hspent : spent budget k = false)
    (h : e.proceedFor (k + 1) = .error stop) : e.run budget = some stop := by
  cases budget with
  | none => exact run_none_eq_some_iff.2 ⟨k + 1, h⟩
  | some n =>
    have hn : ¬n ≤ k := of_decide_eq_false hspent
    have hrounds := proceedFor_of_le h (by omega : k + 1 ≤ n.toNat)
    rw [run, runFor_of_error hrounds]

/-- Where the first round stops, every run does that has a budget for one. -/
theorem run_of_proceed (hbudget : ∀ n, budget = some n → 1 ≤ n) (h : e.proceed = .error stop) :
    e.run budget = some stop := by
  have hspent : spent budget 0 = false := by
    cases budget with
    | none => rfl
    | some n => exact decide_eq_false (Int.not_le.2 (hbudget n rfl))
  exact run_of_proceedFor hspent (proceedFor_succ_of_error h 0)

/-! ## First stopping points -/

/-- A run has one first stopping point at most. -/
theorem FirstStop.unique {j k : Nat} {other : RunOutcome × Emulator}
    (h : e.FirstStop budget k stop) (h' : e.FirstStop budget j other) : stop = other := by
  obtain ⟨t, ht, hstop⟩ := h.stops
  obtain ⟨u, hu, hother⟩ := h'.stops
  rcases Nat.lt_trichotomy j k with hlt | rfl | hgt
  · rw [h.first j hlt u hu] at hother
    cases hother
  · rw [ht] at hu
    cases hu
    rw [hstop] at hother
    exact Option.some.inj hother
  · rw [h'.first k hgt t ht] at hstop
    cases hstop

/-- Where there are stopping points, there is a first one. -/
theorem exists_firstStop {k : Nat} (hk : e.after k = some t) (hstop : stopAt budget k t ≠ none) :
    ∃ j stop, e.FirstStop budget j stop := by
  induction k using Nat.strong_induction_on generalizing t with
  | _ k ih =>
    -- Either nothing stops the run before, or something does and is itself no later than `k`.
    by_cases hfirst : ∀ j < k, ∀ u, e.after j = some u → stopAt budget j u = none
    · obtain ⟨stop, hsome⟩ := Option.ne_none_iff_exists'.1 hstop
      exact ⟨k, stop, ⟨t, hk, hsome⟩, hfirst⟩
    · push Not at hfirst
      obtain ⟨j, hj, u, hu, hsooner⟩ := hfirst
      exact ih j hj hu hsooner

/-- Without a budget a run has a first stopping point if some number of rounds stops. -/
theorem exists_firstStop_none_iff :
    (∃ k, e.FirstStop none k stop) ↔ ∃ n, e.proceedFor n = .error stop := by
  constructor
  · rintro ⟨k, ⟨t, ht, hstop⟩, hfirst⟩
    have hrounds := proceedFor_eq_ok_iff.2 ⟨ht, hfirst⟩
    refine ⟨k + 1, ?_⟩
    rw [proceedFor_succ_of_proceedFor hrounds]
    exact (stopAt_none_eq_some_iff ht).1 hstop
  · rintro ⟨n, hn⟩
    obtain ⟨k, -, t, hk, hstop⟩ := exists_proceed_of_proceedFor hn
    obtain ⟨ht, hfirst⟩ := proceedFor_eq_ok_iff.1 hk
    exact ⟨k, ⟨t, ht, (stopAt_none_eq_some_iff ht).2 hstop⟩, hfirst⟩

theorem spent_some_iff {n : Int} {k : Nat} : spent (some n) k = true ↔ n.toNat ≤ k := by
  simp only [spent, decide_eq_true_eq]
  omega

/-- A run with a budget stops at its first stopping point, which is where the budget is used up if
    it is not before. -/
theorem firstStop_runFor (e : Emulator) (n : Int) :
    ∃ k, e.FirstStop (some n) k (e.runFor n.toNat) := by
  have hunspent : ∀ j < n.toNat, spent (some n) j = false := by
    intro j hj
    refine Bool.eq_false_iff.2 fun hspent => ?_
    exact Nat.not_le_of_lt hj (spent_some_iff.1 hspent)
  cases hrounds : e.proceedFor n.toNat with
  | ok t =>
    rw [runFor_of_ok hrounds]
    obtain ⟨ht, hfirst⟩ := proceedFor_eq_ok_iff.1 hrounds
    have hspent : spent (some n) n.toNat = true := spent_some_iff.2 (Nat.le_refl _)
    refine ⟨n.toNat, ⟨t, ht, stopAt_of_spent hspent⟩, fun j hj u hu => ?_⟩
    rw [stopAt_of_not_spent (hunspent j hj)]
    exact hfirst j hj u hu
  | error stop =>
    rw [runFor_of_error hrounds]
    obtain ⟨k, hk, t, hkt, hstop⟩ := exists_proceed_of_proceedFor hrounds
    obtain ⟨ht, hfirst⟩ := proceedFor_eq_ok_iff.1 hkt
    refine ⟨k, ⟨t, ht, ?_⟩, fun j hj u hu => ?_⟩
    · rw [stopAt_of_not_spent (hunspent k hk)]
      exact (stopAt_none_eq_some_iff ht).2 hstop
    · rw [stopAt_of_not_spent (hunspent j (Nat.lt_trans hj hk))]
      exact hfirst j hj u hu

/-- A run stops exactly as its first stopping point says. -/
theorem run_eq_some_iff : e.run budget = some stop ↔ ∃ k, e.FirstStop budget k stop := by
  cases budget with
  | none => rw [run_none_eq_some_iff, exists_firstStop_none_iff]
  | some n =>
    obtain ⟨j, hj⟩ := firstStop_runFor e n
    constructor
    · intro h
      cases h
      exact ⟨j, hj⟩
    · rintro ⟨k, hk⟩
      rw [hk.unique hj]
      rfl

/-- Where neither the budget nor a breakpoint stops a run before, the first stopping point is
    after the steps that go on. -/
theorem firstStop_of_after {k : Nat} (ht : e.after k = some t)
    (hunspent : ∀ j < k, spent budget j = false)
    (hbreaks : ∀ j < k, ∀ s, e.after j = some s → ¬s.breaksAfter j)
    (hstop : stopAt budget k t = some stop) : e.FirstStop budget k stop := by
  refine ⟨⟨t, ht, hstop⟩, fun j hj s hs => ?_⟩
  obtain ⟨u, hran⟩ := exists_ran_of_lt ht hj hs
  exact stopAt_of_ran (hunspent j hj) (hbreaks j hj s hs) hran

/-! ## Runs -/

theorem run_eq_none_iff :
    e.run budget = none ↔ ∀ k t, e.after k = some t → stopAt budget k t = none := by
  constructor
  · intro hrun k t ht
    by_contra hstop
    obtain ⟨j, stop, hfirst⟩ := exists_firstStop ht hstop
    rw [run_eq_some_iff.2 ⟨j, hfirst⟩] at hrun
    cases hrun
  · intro hnone
    refine Option.eq_none_iff_forall_ne_some.2 fun stop hrun => ?_
    obtain ⟨k, ⟨t, ht, hstop⟩, -⟩ := run_eq_some_iff.1 hrun
    rw [hnone k t ht] at hstop
    cases hstop

theorem run_none_ne_timeout : e.run none ≠ some (.ok .timeout, s) := by
  intro h
  obtain ⟨n, hn⟩ := run_none_eq_some_iff.1 h
  exact proceedFor_ne_timeout hn

theorem run_of_nonpos {n : Int} (h : n ≤ 0) : e.run (some n) = some (.ok .timeout, e) := by
  have hspent : spent (some n) 0 = true := decide_eq_true h
  refine run_eq_some_iff.2 ⟨0, ⟨e, rfl, stopAt_of_spent hspent⟩, fun j hj => ?_⟩
  exact absurd hj (Nat.not_lt_zero j)

theorem spent_eq_false_of_lt {j n : Nat} (h : j < n) : spent (some (n : Int)) j = false := by
  rw [spent, decide_eq_false_iff_not]
  omega

/-- An `HLT` that is the last instruction of a budget halts. -/
theorem run_of_halted_after {k : Nat} {u : Emulator} (ht : e.after k = some t)
    (hbreaks : ∀ j ≤ k, ∀ s, e.after j = some s → ¬s.breaksAfter j)
    (hstep : t.step = (.ok .halted, u)) : e.run (some (k + 1)) = some (.ok .halt, u) := by
  have hunspent : ∀ j ≤ k, spent (some (k + 1)) j = false :=
    fun j hj => spent_eq_false_of_lt (Nat.lt_succ_of_le hj)
  have hk := Nat.le_refl k
  refine run_eq_some_iff.2 ⟨k, firstStop_of_after ht (fun j hj => ?_) (fun j hj => ?_) ?_⟩
  · exact hunspent j (Nat.le_of_lt hj)
  · exact hbreaks j (Nat.le_of_lt hj)
  · exact stopAt_of_halted (hunspent k hk) (hbreaks k hk t ht) hstep

theorem run_of_spent_after {n : Nat} (hs : e.after n = some s)
    (hbreaks : ∀ j < n, ∀ t, e.after j = some t → ¬t.breaksAfter j) :
    e.run (some n) = some (.ok .timeout, s) := by
  have hspent : spent (some (n : Int)) n = true := decide_eq_true (Int.le_refl _)
  refine run_eq_some_iff.2 ⟨n, firstStop_of_after hs (fun j hj => ?_) hbreaks ?_⟩
  · exact spent_eq_false_of_lt hj
  · exact stopAt_of_spent hspent

/-- A breakpoint that was reached by a step holds up any run that begins there. -/
theorem run_of_ran_onto_breakpoint (hran : t.step = (.ok .ran, s))
    (hmem : (s.location : Int) ∈ s.control.breakpoints)
    (hbudget : ∀ m, budget = some m → 1 ≤ m) :
    s.run budget = some (.ok .breakpoint, s.markBreakpoint) := by
  have hunspent : spent budget 0 = false := by
    cases budget with
    | none => rfl
    | some m => exact decide_eq_false (Int.not_le.2 (hbudget m rfl))
  obtain ⟨hrunning, i, effect, -, -, rfl⟩ := exists_of_ran hran
  have hbreak : (t.executed i effect).breaksAfter 0 :=
    ⟨hrunning, hmem, fun hmarker => by cases hmarker.2⟩
  refine run_eq_some_iff.2 ⟨0, ⟨_, rfl, stopAt_of_breaksAfter hunspent hbreak⟩, fun j hj => ?_⟩
  exact absurd hj (Nat.not_lt_zero j)

/-- A run stops exactly at its first stopping point, and not at all if there is none. So a run
    without a budget never answers that its budget is used up; `HLT` as the last instruction of a
    budget halts; a breakpoint that is reached as a budget ends holds up the next run; and a
    budget of nothing or less is used up at once. -/
theorem run_firstStop (e : Emulator) :
    (∀ budget stop, e.run budget = some stop ↔ ∃ k, e.FirstStop budget k stop) ∧
      (∀ budget, e.run budget = none ↔
        ∀ k t, e.after k = some t → stopAt budget k t = none) ∧
      (∀ s, e.run none ≠ some (.ok .timeout, s)) ∧
      (∀ (k : Nat) (t u : Emulator), e.after k = some t →
        (∀ j ≤ k, ∀ s, e.after j = some s → ¬s.breaksAfter j) → t.step = (.ok .halted, u) →
        e.run (some (k + 1)) = some (.ok .halt, u)) ∧
      (∀ (n : Nat) (s : Emulator), 1 ≤ n → e.after n = some s →
        (∀ j < n, ∀ t, e.after j = some t → ¬t.breaksAfter j) →
        (s.location : Int) ∈ s.control.breakpoints →
        e.run (some n) = some (.ok .timeout, s) ∧
          ∀ budget : Option Int, (∀ m, budget = some m → 1 ≤ m) →
            s.run budget = some (.ok .breakpoint, s.markBreakpoint)) ∧
      ∀ n ≤ 0, e.run (some n) = some (.ok .timeout, e) := by
  refine ⟨fun budget stop => run_eq_some_iff, fun budget => run_eq_none_iff,
    fun s => run_none_ne_timeout, fun k t u ht hbreaks hstep => ?_,
    fun n s hn hs hbreaks hmem => ⟨?_, fun budget hbudget => ?_⟩, fun n hn => run_of_nonpos hn⟩
  · exact run_of_halted_after ht hbreaks hstep
  · exact run_of_spent_after hs hbreaks
  · obtain ⟨k, rfl⟩ := Nat.exists_eq_add_of_le' hn
    obtain ⟨t, -, hran⟩ := after_succ_iff.1 hs
    exact run_of_ran_onto_breakpoint hran hmem hbudget

/-- `LDA 3` and then, at a breakpoint, `HLT`. A budget of one instruction ends on the breakpoint,
    the next run reports it, and the one after that halts on its only instruction. -/
theorem run_firstStop_on_last_instruction :
    let e : Emulator :=
      { machine := { memory := ⟨#[1, 3, 0, 7]⟩ }, control := { breakpoints := [2] } }
    ∃ s t, e.run (some 1) = some (.ok .timeout, s) ∧
      s.run none = some (.ok .breakpoint, s.markBreakpoint) ∧
      s.markBreakpoint.run (some 1) = some (.ok .halt, t) := by
  intro e
  obtain ⟨-, -, -, -, hbudget, -⟩ := run_firstStop e
  obtain ⟨htimeout, hbreak⟩ := hbudget 1 e.step.2 (by decide) (by decide) (by decide) (by decide)
  obtain ⟨-, -, -, hhalt, -⟩ := run_firstStop e.step.2.markBreakpoint
  exact ⟨e.step.2, _, htimeout, hbreak none (by decide),
    hhalt 0 _ e.step.2.markBreakpoint.step.2 rfl (by decide) (by decide)⟩

end WordMachine.Emulator
