import Mathlib.Data.Fintype.BigOperators
import Mathlib.Data.Fintype.Pigeonhole
import WordMachine.Proofs.Emulator.Step
import WordMachine.Proofs.Run.Simulation

set_option autoImplicit false

/-! # Runs without a budget

`Emulator.run none` tries a number of rounds and answers nothing if they do not stop. That number
is large enough: `run_none_eq_some_iff` says that a run without a budget stops exactly as some
number of rounds does.

What a run does next depends on the location counter, the accumulator and the cells alone, once it
has executed an instruction (`Alike`). There are fewer such configurations than rounds are tried,
so a run that is still going after them was in one configuration twice, and repeats itself. The
other way round, a run that is where it was before after one round never ends
(`run_none_of_alike`). -/

namespace WordMachine

/-! ## What the next instruction depends on -/

/-- Machines with the same location counter, accumulator and memory. -/
structure Machine.Alike (m n : Machine) : Prop where
  location : m.registers.location = n.registers.location
  accumulator : m.registers.accumulator = n.registers.accumulator
  memory : m.memory = n.memory

namespace Machine

variable {m n : Machine}

theorem Alike.plan_eq (h : m.Alike n) : m.plan = n.plan := by
  obtain ⟨⟨_, _, _, _, _⟩, _⟩ := m
  obtain ⟨⟨_, _, _, _, _⟩, _⟩ := n
  obtain ⟨rfl, rfl, rfl⟩ := h
  rfl

theorem Alike.complete (h : m.Alike n) (i : Instruction) (effect : Effect) :
    (m.complete i effect).Alike (n.complete i effect) := by
  obtain ⟨⟨_, _, _, _, _⟩, _⟩ := m
  obtain ⟨⟨_, _, _, _, _⟩, _⟩ := n
  obtain ⟨rfl, rfl, rfl⟩ := h
  cases effect with
  | none | accumulate word | store cell word | compare word | jump cell => exact ⟨rfl, rfl, rfl⟩

end Machine

namespace Emulator

/-- Emulators that a run cannot tell apart. -/
structure Alike (e s : Emulator) : Prop where
  machine : e.machine.Alike s.machine
  breakpoints : e.control.breakpoints = s.control.breakpoints
  halted : e.control.halted = s.control.halted
  resumeFrom : e.control.resumeFrom = s.control.resumeFrom

variable {e s : Emulator}

theorem Alike.location (h : e.Alike s) : e.location = s.location := h.machine.location

theorem Alike.atBreakpoint (h : e.Alike s) : e.atBreakpoint = s.atBreakpoint := by
  simp only [Emulator.atBreakpoint, h.location, h.breakpoints, h.halted, h.resumeFrom]

theorem Alike.markBreakpoint (h : e.Alike s) : e.markBreakpoint.Alike s.markBreakpoint :=
  ⟨h.machine, h.breakpoints, h.halted, congrArg some h.location⟩

theorem Alike.step (h : e.Alike s) : e.step.1 = s.step.1 ∧ e.step.2.Alike s.step.2 := by
  refine step_related h.machine.plan_eq h.halted h ?_ fun i effect _ => ?_
  · exact ⟨h.machine, h.breakpoints, h.halted, rfl⟩
  · have hmachine := h.machine.complete i effect
    exact ⟨⟨hmachine, h.breakpoints, h.halted, rfl⟩, ⟨hmachine, h.breakpoints, rfl, rfl⟩⟩

/-- Emulators that a run cannot tell apart stay so, however many rounds they go. -/
theorem Alike.proceedFor (h : e.Alike s) (n : Nat) :
    Matched Alike (e.proceedFor n) (s.proceedFor n) :=
  Matched.proceedFor (fun _ _ h => .proceed h.atBreakpoint h.markBreakpoint h.step.1 h.step.2) n h

end Emulator

/-! ## Configurations -/

/-- A word as one of finitely many numbers. -/
def Word.code (w : Word) : Fin (2 ^ 32) := w.toBitVec.toFin

theorem Word.code_inj {v w : Word} (h : v.code = w.code) : v = w :=
  Int32.toBitVec_inj.1 (BitVec.toFin_inj.1 h)

/-- Location counter, accumulator and cells of machines with so many cells. -/
abbrev Configuration (size : Nat) : Type := Fin size × Fin (2 ^ 32) × (Fin size → Fin (2 ^ 32))

theorem card_configuration (size : Nat) :
    Fintype.card (Configuration size) = size * (2 ^ 32 * (2 ^ 32) ^ size) := by
  rw [Fintype.card_prod, Fintype.card_prod, Fintype.card_fun, Fintype.card_fin, Fintype.card_fin]

namespace Machine

/-- The configuration of a machine whose location counter is at a cell. -/
def configuration (m : Machine) {size : Nat} (h : m.registers.location < size) :
    Configuration size :=
  (⟨m.registers.location, h⟩, m.registers.accumulator.code,
    fun i => (m.memory.cells.getD i 0).code)

theorem alike_of_configuration_eq {m n : Machine} {size : Nat} (hm : m.memory.size = size)
    (hn : n.memory.size = size) {hml : m.registers.location < size}
    {hnl : n.registers.location < size} (h : m.configuration hml = n.configuration hnl) :
    m.Alike n := by
  obtain ⟨hlocation, haccumulator, hcells⟩ : _ ∧ _ ∧ _ := by
    simpa only [configuration, Prod.mk.injEq, Fin.mk.injEq] using h
  refine ⟨hlocation, Word.code_inj haccumulator, ?_⟩
  have hms : m.memory.cells.size = size := hm
  have hns : n.memory.cells.size = size := hn
  refine congrArg Memory.mk (Array.ext (hms.trans hns.symm) fun i hi hi' => ?_)
  have hcode := Word.code_inj (congrFun hcells ⟨i, hms ▸ hi⟩)
  rwa [Array.getD_eq_getD_getElem?, Array.getD_eq_getD_getElem?, Array.getElem?_eq_getElem hi,
    Array.getElem?_eq_getElem hi', Option.getD_some, Option.getD_some] at hcode

end Machine

namespace Emulator

variable {e s : Emulator}

theorem roundLimit_eq (e : Emulator) :
    e.roundLimit = Fintype.card (Configuration e.machine.memory.size) + 2 ^ 32 := by
  rw [card_configuration, ← pow_mul]
  simp only [roundLimit, roundsToRepeat, roundLength, Word.bits, Nat.pow_eq]
  rw [Nat.add_mul, Nat.one_mul, Nat.mul_assoc, Nat.mul_comm (2 ^ (32 * _))]

/-- An emulator in the course of a run from `e`. -/
structure Underway (e s : Emulator) : Prop where
  size_eq : s.machine.memory.size = e.machine.memory.size
  breakpoints : s.control.breakpoints = e.control.breakpoints
  halted : s.control.halted = false
  resumeFrom : s.control.resumeFrom = none

theorem underway_of_proceed (h : e.proceed = .ok s) : e.Underway s := by
  obtain ⟨hrun, i, effect, -, -, rfl⟩ := exists_of_ran (step_of_proceed h).2
  exact ⟨Machine.size_complete .., executed_breakpoints, hrun, executed_resumeFrom⟩

theorem underway_of_proceedFor {n : Nat} (h : e.proceedFor (n + 1) = .ok s) : e.Underway s := by
  induction n generalizing e with
  | zero =>
    cases hp : e.proceed with
    | ok t => rw [proceedFor_succ_of_ok hp] at h; cases h; exact underway_of_proceed hp
    | error stop => rw [proceedFor_succ_of_error hp] at h; cases h
  | succ n ih =>
    cases hp : e.proceed with
    | ok t =>
      rw [proceedFor_succ_of_ok hp] at h
      have hfirst := underway_of_proceed hp
      have hrest := ih h
      exact ⟨hrest.size_eq.trans hfirst.size_eq, hrest.breakpoints.trans hfirst.breakpoints,
        hrest.halted, hrest.resumeFrom⟩
    | error stop => rw [proceedFor_succ_of_error hp] at h; cases h

theorem Underway.alike {t : Emulator} (hs : e.Underway s) (ht : e.Underway t)
    (h : s.machine.Alike t.machine) : s.Alike t :=
  ⟨h, hs.breakpoints.trans ht.breakpoints.symm, hs.halted.trans ht.halted.symm,
    hs.resumeFrom.trans ht.resumeFrom.symm⟩

/-- A run that goes on for more rounds than there are configurations is in one of them twice. -/
theorem exists_alike_of_proceedFor {n : Nat} {last : Emulator} (h : e.proceedFor n = .ok last)
    (hn : Fintype.card (Configuration e.machine.memory.size) + 1 < n) :
    ∃ i j s t, i < j ∧ j < n ∧ e.proceedFor i = .ok s ∧ e.proceedFor j = .ok t ∧ s.Alike t := by
  -- The first emulator is left out, as it alone may have a place to go on from, and so is the
  -- last, which need not be at a cell.
  have hstates : ∀ k : Fin (n - 1), ∃ s, e.proceedFor (k + 1) = .ok s ∧
      s.machine.registers.location < e.machine.memory.size := by
    intro k
    have hk := k.isLt
    obtain ⟨s, hs⟩ := exists_proceedFor_of_le h (by omega : (k : Nat) + 1 ≤ n)
    obtain ⟨t, ht⟩ := exists_proceedFor_of_le h (by omega : (k : Nat) + 1 + 1 ≤ n)
    rw [proceedFor_succ_of_proceedFor hs] at ht
    refine ⟨s, hs, ?_⟩
    rw [← (underway_of_proceedFor hs).size_eq]
    exact location_lt_of_ran (step_of_proceed ht).2
  choose state hstate hlocation using hstates
  have hcard : Fintype.card (Configuration e.machine.memory.size) <
      Fintype.card (Fin (n - 1)) := by
    rw [Fintype.card_fin]
    omega
  obtain ⟨x, y, hxy, heq⟩ := Fintype.exists_ne_map_eq_of_card_lt
    (fun k => (state k).machine.configuration (hlocation k)) hcard
  have halike : ∀ a b : Fin (n - 1), (state a).machine.configuration (hlocation a) =
      (state b).machine.configuration (hlocation b) → (state a).Alike (state b) := by
    intro a b hab
    have ha := underway_of_proceedFor (hstate a)
    have hb := underway_of_proceedFor (hstate b)
    exact ha.alike hb (Machine.alike_of_configuration_eq ha.size_eq hb.size_eq hab)
  have hx := x.isLt
  have hy := y.isLt
  rcases Nat.lt_or_gt_of_ne (Fin.val_ne_of_ne hxy) with hlt | hgt
  · exact ⟨x + 1, y + 1, state x, state y, by omega, by omega, hstate x, hstate y,
      halike x y heq⟩
  · exact ⟨y + 1, x + 1, state y, state x, by omega, by omega, hstate y, hstate x,
      halike y x heq.symm⟩

/-- A run that stops at all stops within the rounds that are tried. -/
theorem proceedFor_roundLimit {m : Nat} {stop : RunOutcome × Emulator}
    (h : e.proceedFor m = .error stop) : e.proceedFor e.roundLimit = .error stop := by
  cases hlimit : e.proceedFor e.roundLimit with
  | error other => rw [proceedFor_error_unique h hlimit]
  | ok last =>
    exfalso
    have hn : Fintype.card (Configuration e.machine.memory.size) + 1 < e.roundLimit := by
      rw [roundLimit_eq]
      omega
    obtain ⟨i, j, s, t, hij, -, hs, ht, halike⟩ := exists_alike_of_proceedFor hlimit hn
    -- The fewest rounds that stop can be made fewer by the rounds between the two.
    classical
    have hstops : ∃ n stop, e.proceedFor n = .error stop := ⟨m, stop, h⟩
    obtain ⟨least, hleast⟩ := Nat.find_spec hstops
    have hj : j ≤ Nat.find hstops := by
      by_contra hlt
      rw [proceedFor_of_le hleast (by omega)] at ht
      cases ht
    obtain ⟨r, hr⟩ := Nat.exists_eq_add_of_le hj
    rw [hr, proceedFor_add_of_ok ht] at hleast
    have hmatched := halike.proceedFor r
    rw [hleast] at hmatched
    have hs' : ∃ stop, s.proceedFor r = .error stop := by
      cases hsr : s.proceedFor r with
      | error stop => exact ⟨stop, rfl⟩
      | ok u => rw [hsr] at hmatched; cases hmatched
    obtain ⟨stop', hstop'⟩ := hs'
    rw [← proceedFor_add_of_ok hs] at hstop'
    exact Nat.find_min hstops (by omega) ⟨stop', hstop'⟩

/-- A run without a budget stops exactly as some number of rounds does. -/
theorem run_none_eq_some_iff {stop : RunOutcome × Emulator} :
    e.run none = some stop ↔ ∃ n, e.proceedFor n = .error stop := by
  rw [run_none_eq]
  constructor
  · intro h
    split at h
    · cases h
    · next other hother => cases h; exact ⟨_, hother⟩
  · rintro ⟨n, hn⟩
    rw [proceedFor_roundLimit hn]

theorem run_none_eq_none_iff : e.run none = none ↔ ∀ n, ∃ t, e.proceedFor n = .ok t := by
  constructor
  · intro h n
    cases hrounds : e.proceedFor n with
    | ok t => exact ⟨t, rfl⟩
    | error stop =>
      rw [run_none_eq_some_iff.2 ⟨n, hrounds⟩] at h
      cases h
  · intro h
    refine Option.eq_none_iff_forall_ne_some.2 fun stop hrun => ?_
    obtain ⟨n, hn⟩ := run_none_eq_some_iff.1 hrun
    obtain ⟨t, ht⟩ := h n
    rw [ht] at hn
    cases hn

theorem run_none_of_error {stop : RunOutcome × Emulator} (h : e.proceed = .error stop) :
    e.run none = some stop :=
  run_none_eq_some_iff.2 ⟨1, proceedFor_succ_of_error h 0⟩

theorem run_none_of_ok (h : e.proceed = .ok s) : e.run none = s.run none := by
  refine Option.ext fun stop => ?_
  rw [run_none_eq_some_iff, run_none_eq_some_iff]
  constructor
  · rintro ⟨n, hn⟩
    cases n with
    | zero => cases hn
    | succ n => exact ⟨n, (proceedFor_succ_of_ok h n).symm.trans hn⟩
  · rintro ⟨n, hn⟩
    exact ⟨n + 1, (proceedFor_succ_of_ok h n).trans hn⟩

/-- A run never ends that is, after one round, where it was before. -/
theorem run_none_of_alike (h : e.proceed = .ok s) (halike : e.Alike s) : e.run none = none := by
  refine run_none_eq_none_iff.2 fun n => ?_
  induction n with
  | zero => exact ⟨e, rfl⟩
  | succ n ih =>
    obtain ⟨t, ht⟩ := ih
    obtain ⟨u, hu, -⟩ := Matched.exists_of_ok (ht ▸ halike.proceedFor n)
    exact ⟨u, (proceedFor_succ_of_ok h n).trans hu⟩

end Emulator

end WordMachine
