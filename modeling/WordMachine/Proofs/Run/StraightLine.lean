import WordMachine.Proofs.Run.Attempts
import WordMachine.Proofs.Session.Invariant

set_option autoImplicit false

/-! # Runs on a straight line

An instruction that is neither `HLT` nor a jump that is taken was fetched from two cells and moves
the location counter past both of them (`location_of_ran`). As long as no jump is taken the
distance from the location counter to the end of the memory therefore shrinks by two with each
instruction (`location_of_after`), whatever the cells hold and whatever the instructions store in
them: the argument is about the instructions as they are executed and not about a program.

So a run without a budget comes to an end unless it takes jumps (`exists_run_of_straight`), and a
run that never ends takes one in every stretch that is longer than half of the memory
(`exists_takesJump_of_endless`). `Session.play_straight_line` says so of every emulator that a
session can come to. -/

namespace WordMachine

theorem Machine.location_complete {m : Machine} {i : Instruction} {effect : Effect}
    (h : effect.redirects = false) :
    (m.complete i effect).registers.location = m.registers.location + i.length := by
  rw [complete, h]
  rfl

namespace Emulator

/-- Whether the instruction at the location counter is a jump that is taken. -/
def takesJump (e : Emulator) : Bool :=
  match e.machine.plan with
  | .ok (_, effect) => effect.redirects
  | .error _ => false

/-- None of the first `k` instructions from `e` on is a jump that is taken. -/
def StraightFor (k : Nat) (e : Emulator) : Prop :=
  ∀ j < k, ∀ u, e.after j = some u → u.takesJump = false

variable {e s t : Emulator} {k size : Nat}

/-! ## Instructions -/

/-- An instruction that goes on in a straight line moves past the two cells that it was fetched
    from. -/
theorem location_of_ran (h : e.step = (.ok .ran, s)) (hstraight : e.takesJump = false) :
    s.location = e.location + 2 ∧ e.location + 2 ≤ e.machine.memory.size := by
  obtain ⟨-, i, effect, hplan, hop, rfl⟩ := exists_of_ran h
  have hredirects : effect.redirects = false := by simpa only [takesJump, hplan] using hstraight
  rcases Machine.plan_cases hplan with ⟨rfl, -, -⟩ | ⟨op, operand, -, rfl, -, hlt⟩
  · exact absurd rfl hop
  · exact ⟨Machine.location_complete hredirects, hlt⟩

theorem within_of_after (he : e.machine.Within size) (h : e.after k = some t) :
    t.machine.Within size := by
  induction k generalizing t with
  | zero => cases h; exact he
  | succ k ih =>
    obtain ⟨s, hs, hstep⟩ := after_succ_iff.1 h
    obtain ⟨-, i, effect, hplan, -, rfl⟩ := exists_of_ran hstep
    exact (ih hs).complete hplan

theorem StraightFor.of_succ (h : e.StraightFor (k + 1)) : e.StraightFor k :=
  fun j hj => h j (Nat.lt_succ_of_lt hj)

theorem location_of_after (h : e.after k = some t) (hstraight : e.StraightFor k) :
    t.location = e.location + 2 * k := by
  induction k generalizing t with
  | zero => cases h; rfl
  | succ k ih =>
    obtain ⟨s, hs, hstep⟩ := after_succ_iff.1 h
    have hmove := (location_of_ran hstep (hstraight k (Nat.lt_succ_self k) s hs)).1
    rw [hmove, ih hs hstraight.of_succ, Nat.mul_succ, Nat.add_assoc]

/-- Instructions in a straight line do not reach further than the memory. -/
theorem location_add_le_of_after (he : e.machine.Within size) (h : e.after k = some t)
    (hstraight : e.StraightFor k) : e.location + 2 * k ≤ size := by
  have hle : t.location ≤ size := (within_of_after he h).location_le
  rwa [location_of_after h hstraight] at hle

/-- More instructions than there is room for take a jump. -/
theorem exists_takesJump_of_after (he : e.machine.Within size) (h : e.after k = some t)
    (hroom : size < e.location + 2 * k) :
    ∃ j < k, ∃ u, e.after j = some u ∧ u.takesJump = true := by
  by_contra hnone
  have hstraight : e.StraightFor k := fun j hj u hu =>
    Bool.eq_false_iff.2 fun hjump => hnone ⟨j, hj, u, hu, hjump⟩
  have hle := location_add_le_of_after he h hstraight
  omega

/-! ## Runs without a budget -/

/-- Rounds that go on for longer than there is room take a jump in one of them. -/
theorem exists_takesJump_of_proceedFor (he : e.machine.Within size) (h : e.proceedFor k = .ok t)
    (hroom : size < e.location + 2 * k) :
    ∃ j < k, ∃ u, e.Attempts none j u ∧ u.takesJump = true := by
  obtain ⟨j, hj, u, hu, hjump⟩ :=
    exists_takesJump_of_after he (proceedFor_eq_ok_iff.1 h).1 hroom
  exact ⟨j, hj, u, attempts_of_proceedFor h hj hu, hjump⟩

/-- A run that takes no jump ends before it has gone past the memory. -/
theorem exists_run_of_straight (he : e.machine.Within size)
    (hstraight : ∀ k t, e.Attempts none k t → t.takesJump = false) :
    ∃ outcome last, e.run none = some (outcome, last) ∧
      (outcome = .ok .halt ∨ outcome = .ok .breakpoint ∨ ∃ f, outcome = .error f) ∧
      ∃ n ≤ (size - e.location) / 2 + 1, last.control.steps = e.control.steps + n := by
  set rounds := (size - e.location) / 2 + 1 with hrounds
  cases h : e.proceedFor rounds with
  | ok t =>
    obtain ⟨j, -, u, hu, hjump⟩ := exists_takesJump_of_proceedFor he h (by omega)
    rw [hstraight j u hu] at hjump
    cases hjump
  | error stop =>
    obtain ⟨outcome, last⟩ := stop
    have hsteps := steps_runFor rounds e
    rw [runFor_of_error h] at hsteps
    refine ⟨outcome, last, run_none_eq_some_iff.2 ⟨rounds, h⟩, ?_, e.executions rounds,
      executions_le rounds e, hsteps⟩
    match outcome with
    | .ok .halt => exact Or.inl rfl
    | .ok .breakpoint => exact Or.inr (Or.inl rfl)
    | .ok .timeout => exact absurd h proceedFor_ne_timeout
    | .error f => exact Or.inr (Or.inr ⟨f, rfl⟩)

/-- A run that never ends takes a jump among any instructions that are more than half as many as
    there are cells. -/
theorem exists_takesJump_of_endless (he : e.machine.Within size) (h : e.run none = none)
    (i : Nat) :
    ∃ j t, i ≤ j ∧ j < i + (size / 2 + 1) ∧ e.Attempts none j t ∧ t.takesJump = true := by
  obtain ⟨s, hs⟩ := run_none_eq_none_iff.1 h i
  obtain ⟨t, ht⟩ := run_none_eq_none_iff.1 h (i + (size / 2 + 1))
  rw [proceedFor_add_of_ok hs] at ht
  have hwithin := within_of_after he (proceedFor_eq_ok_iff.1 hs).1
  obtain ⟨j, hj, u, hu, hjump⟩ := exists_takesJump_of_proceedFor hwithin ht (by omega)
  exact ⟨i + j, u, Nat.le_add_right i j, Nat.add_lt_add_left hj i, hu.after_rounds hs, hjump⟩

end Emulator

/-! ## Emulators of a session -/

namespace Session

/-- Straight-line progress of any emulator that a session comes to, at a location counter `p` of a
    machine with `S` cells. If `k` instructions are executed one after the other, none of them
    `HLT` and none of them a jump that is taken, then `p + 2 * k ≤ S`. So a run without a budget
    that takes no jump ends, in `HALT`, `BREAK` or a fault, and has executed at most
    `(S - p) / 2 + 1` instructions; and a run that never ends takes a jump in every
    `S / 2 + 1` instructions. -/
theorem play_straight_line (commands : List Command) (answers : List (Except Error Answer))
    (s : Session) (h : ({} : Session).play commands = some (answers, s)) (number : Nat)
    (e : Emulator) (he : s.emulator? number = some e) :
    let size := e.machine.memory.size
    (∀ k t, e.after k = some t → e.StraightFor k → e.location + 2 * k ≤ size) ∧
      ((∀ k t, e.Attempts none k t → t.takesJump = false) →
        ∃ outcome last, e.run none = some (outcome, last) ∧
          (outcome = .ok .halt ∨ outcome = .ok .breakpoint ∨ ∃ f, outcome = .error f) ∧
          ∃ n ≤ (size - e.location) / 2 + 1, last.control.steps = e.control.steps + n) ∧
      (e.run none = none → ∀ i, ∃ j t, i ≤ j ∧ j < i + (size / 2 + 1) ∧
        e.Attempts none j t ∧ t.takesJump = true) := by
  intro size
  have hs : s.Sound (createdSizes commands) := play_sound sound_empty h
  obtain ⟨-, cells, -, -, -, hsound⟩ := hs.emulator? he
  obtain rfl : size = cells := hsound.within.size_eq
  have hwithin : e.machine.Within size := hsound.within
  refine ⟨fun k t ht hstraight => ?_, fun hstraight => ?_, fun hrun i => ?_⟩
  · exact Emulator.location_add_le_of_after hwithin ht hstraight
  · exact Emulator.exists_run_of_straight hwithin hstraight
  · exact Emulator.exists_takesJump_of_endless hwithin hrun i

/-- Two machines: three cells in which a load is followed by `HLT`, so that all the instructions
    there is room for are executed, and two cells that hold a jump to itself. -/
theorem play_straight_line_beside_a_loop :
    let commands : List Command := [.create 3, .perform 0 (.load (.words [1, 0, 0])), .create 2,
      .perform 1 (.load (.words [6, 0]))]
    let line : Emulator := { machine := { memory := ⟨#[1, 0, 0]⟩ } }
    let loop : Emulator := { machine := { memory := ⟨#[6, 0]⟩ } }
    ∃ answers s, ({} : Session).play commands = some (answers, s) ∧
      s.emulator? 0 = some line ∧ s.emulator? 1 = some loop ∧
      line.location + 2 * 1 ≤ 3 ∧
      (∃ outcome last, line.run none = some (outcome, last) ∧ last.control.steps ≤ 2) ∧
      loop.run none = none ∧
      ∀ i, ∃ j t, i ≤ j ∧ j < i + 2 ∧ loop.Attempts none j t ∧ t.takesJump = true := by
  intro commands line loop
  obtain ⟨answers, s, h, hline, hloop⟩ : ∃ answers s,
      ({} : Session).play commands = some (answers, s) ∧ s.emulator? 0 = some line ∧
        s.emulator? 1 = some loop := ⟨_, _, rfl, rfl, rfl⟩
  obtain ⟨hroom, hends, -⟩ := play_straight_line commands answers s h 0 line hline
  obtain ⟨-, -, hjumps⟩ := play_straight_line commands answers s h 1 loop hloop
  -- The second instruction is `HLT`, so there is none after it.
  have hafter : ∀ k u, line.after k = some u → u.takesJump = false := by
    intro k u hu
    match k with
    | 0 => cases hu; rfl
    | 1 => cases hu; rfl
    | k + 2 => cases hu
  have hattempts : ∀ k u, line.Attempts none k u → u.takesJump = false := fun k u hu =>
    hafter k u (Emulator.proceedFor_eq_ok_iff.1 (Emulator.attempts_iff.1 hu).2.1).1
  obtain ⟨outcome, last, hrun, -, n, hn, hsteps⟩ := hends hattempts
  have hexecuted : last.control.steps ≤ 0 + 2 :=
    hsteps ▸ Nat.add_le_add_left (Nat.le_trans hn (by decide)) 0
  have hendless : loop.run none = none :=
    Emulator.run_none_of_alike rfl ⟨⟨rfl, rfl, rfl⟩, rfl, rfl, rfl⟩
  refine ⟨answers, s, h, hline, hloop, hroom 1 _ rfl fun j _ u hu => hafter j u hu,
    ⟨outcome, last, hrun, hexecuted⟩, hendless, fun i => ?_⟩
  obtain ⟨j, t, hij, hj, hjump⟩ := hjumps hendless i
  have hwindow : loop.machine.memory.size / 2 + 1 = 2 := by decide
  exact ⟨j, t, hij, hwindow ▸ hj, hjump⟩

end Session

end WordMachine
