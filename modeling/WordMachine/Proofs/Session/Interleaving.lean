import Mathlib.Algebra.BigOperators.Group.Finset.Basic
import WordMachine.Proofs.Run.Attempts
import WordMachine.Proofs.Session.Requests

set_option autoImplicit false

/-! # Emulators that share a machine

The steps of emulators that drive one machine, in whatever order they take turns, are the steps of a
single emulator with such a machine. For a step looks at nothing that an emulator has for itself,
except whether it has halted (`Emulator.step_same_machine`); so one step of a session and one of the
single emulator keep the machines the same (`StandsFor.apply_step`), and by induction over the
schedule so do all of them (`StandsFor.ask_steps`), up to the first `HLT`. Only the emulator that
executes it has halted then. -/

namespace WordMachine

namespace Emulator

variable {e f : Emulator}

/-- Whether a step halts an emulator is known from how it went. -/
theorem halted_step (h : e.control.halted = false) (hne : e.step.1 ≠ .ok .halted) :
    e.step.2.control.halted = false := by
  rcases step_cases e with ⟨hhalted, -⟩ | ⟨-, ⟨f, -, hs⟩ | ⟨i, effect, -, ⟨-, hs⟩ | ⟨-, hs⟩⟩⟩
  · rw [h] at hhalted
    cases hhalted
  · rw [hs]
    exact h
  · rw [hs]
    exact h
  · rw [hs] at hne
    exact absurd rfl hne

/-- Steps of emulators with the same machine go the same way, whatever breakpoints, trace or count
    of instructions the emulators have. -/
theorem step_same_machine (hmachine : f.machine = e.machine)
    (hhalted : f.control.halted = e.control.halted) :
    f.step.1 = e.step.1 ∧ f.step.2.machine = e.step.2.machine := by
  refine step_related (R := fun x y => x.machine = y.machine) (by rw [hmachine]) hhalted hmachine
    hmachine fun i effect _ => ?_
  have hexecuted : (f.executed i effect).machine = (e.executed i effect).machine := by
    rw [executed_machine, executed_machine, hmachine]
  exact ⟨hexecuted, hexecuted⟩

end Emulator

namespace Session

/-- The emulator stands for all the emulators in the schedule: these drive one machine, its own
    machine is the same, and none of them has halted. -/
structure StandsFor (k : Nat) (schedule : List Nat) (s : Session) (e : Emulator) : Prop where
  machine : s.machines[k]? = some e.machine
  running : e.control.halted = false
  seats : ∀ number ∈ schedule, ∃ seat, s.seats[number]? = some seat ∧ seat.machine = k ∧
    seat.control.halted = false

variable {s t : Session} {k number : Nat} {schedule : List Nat} {e last : Emulator}
  {answers single : List (Except Error Answer)}

/-! ## One step -/

theorem StandsFor.exists_emulator? (h : s.StandsFor k (number :: schedule) e) :
    ∃ f, s.emulator? number = some f ∧ f.machine = e.machine ∧ f.control.halted = false := by
  obtain ⟨seat, hseat, rfl, hrunning⟩ := h.seats number List.mem_cons_self
  exact ⟨⟨seat.control, e.machine⟩, emulator?_eq_some_iff.2 ⟨seat, hseat, h.machine, rfl⟩, rfl,
    hrunning⟩

/-- A step of an emulator in the session goes as the step of the one that stands for it. It is
    counted by this emulator alone. -/
theorem StandsFor.apply_step (h : s.StandsFor k (number :: schedule) e) :
    ∃ mid, s.apply (.perform number .step) =
        some (Operation.reported (e.step.1.map Operation.stepAnswer), mid) ∧
      mid.machines[k]? = some e.step.2.machine ∧
      (∀ n, (mid.control n).steps =
        (s.control n).steps + if n = number then if e.executes then 1 else 0 else 0) ∧
      (e.step.1 ≠ .ok .halted → mid.StandsFor k schedule e.step.2) := by
  obtain ⟨f, hf, hmachine, hrunning⟩ := h.exists_emulator?
  obtain ⟨houtcome, hafter⟩ :=
    Emulator.step_same_machine hmachine (hrunning.trans h.running.symm)
  obtain ⟨seat, hseat, hk, -⟩ := h.seats number List.mem_cons_self
  obtain ⟨hlt, -⟩ := Array.getElem?_eq_some_iff.1 h.machine
  have hmid : (s.update number f.step.2).machines[k]? = some e.step.2.machine := by
    rw [machines_update hseat (hk ▸ hlt), if_pos hk.symm, hafter]
  refine ⟨s.update number f.step.2, ?_, hmid, fun n => ?_, fun hne => ⟨hmid, ?_, fun n hn => ?_⟩⟩
  · refine (apply_perform_iff hf).2 ⟨f.step.2, ?_, rfl⟩
    rw [Operation.perform_step, houtcome]
  · by_cases hn : n = number
    · subst hn
      have hsteps := Emulator.steps_step hrunning
      rw [Emulator.executes, houtcome, ← Emulator.executes] at hsteps
      rw [if_pos rfl, control_of_emulator? (emulator?_update_self hf), control_of_emulator? hf]
      exact hsteps
    · rw [if_neg hn, control_update hf (Ne.symm hn)]
      rfl
  · exact Emulator.halted_step h.running hne
  · rw [seats_update hseat]
    split
    · refine ⟨_, rfl, hk, Emulator.halted_step hrunning ?_⟩
      rw [houtcome]
      exact hne
    · exact h.seats n (List.mem_cons_of_mem _ hn)

/-! ## A schedule -/

/-- Requests of steps are answered. -/
theorem exists_ask_steps (s : Session) (schedule : List Nat) :
    ∃ answers t, s.ask (schedule.map (·, .step)) = some (answers, t) := by
  induction schedule generalizing s with
  | nil => exact ⟨[], s, rfl⟩
  | cons number rest ih =>
    have hfirst : ∃ answer mid, s.apply (.perform number .step) = some (answer, mid) := by
      cases he : s.emulator? number with
      | none => exact ⟨_, s, apply_perform_of_no_emulator he⟩
      | some e =>
        exact ⟨_, _, (apply_perform_iff he).2 ⟨_, Operation.perform_step e, rfl⟩⟩
    obtain ⟨answer, mid, happly⟩ := hfirst
    obtain ⟨later, t, hrest⟩ := ih mid
    exact ⟨_, t, ask_cons_iff.2 ⟨answer, mid, later, happly, hrest, rfl⟩⟩

theorem exists_serve_steps (e : Emulator) (schedule : List Nat) :
    ∃ answers last, e.serve (schedule.map fun _ => .step) = some (answers, last) := by
  induction schedule generalizing e with
  | nil => exact ⟨[], e, rfl⟩
  | cons number rest ih =>
    obtain ⟨later, last, hrest⟩ := ih e.step.2
    exact ⟨_, last, Emulator.serve_cons_iff.2
      ⟨_, _, later, Operation.perform_step e, hrest, rfl⟩⟩

/-- The steps of a schedule go as the steps of the emulator that stands for those in the schedule,
    if nothing is executed after an `HLT`, and are counted by one emulator each. -/
theorem StandsFor.ask_steps {count : Nat} (h : s.StandsFor k schedule e)
    (hcount : ∀ number ∈ schedule, number < count)
    (hask : s.ask (schedule.map (·, .step)) = some (answers, t))
    (hserve : e.serve (schedule.map fun _ => .step) = some (single, last))
    (hhlt : .ok (.stopped .halt) ∉ answers.dropLast) :
    answers = single ∧ t.machines[k]? = some last.machine ∧
      ∃ executed : Nat → Nat,
        (∀ n, (t.control n).steps = (s.control n).steps + executed n) ∧
        last.control.steps = e.control.steps + ∑ n ∈ Finset.range count, executed n := by
  induction schedule generalizing s e answers single with
  | nil =>
    cases hask
    cases hserve
    exact ⟨rfl, h.machine, fun _ => 0, fun _ => rfl, by simp⟩
  | cons number rest ih =>
    obtain ⟨mid, happly, hmid, hsteps, hnext⟩ := h.apply_step
    obtain ⟨answer, mid', later, happly', hrest, rfl⟩ := ask_cons_iff.1 hask
    rw [happly] at happly'
    cases happly'
    obtain ⟨answer, next, alone, hperform, hrest', rfl⟩ := Emulator.serve_cons_iff.1 hserve
    rw [Operation.perform_step] at hperform
    cases hperform
    have hlater : later = alone ∧ t.machines[k]? = some last.machine ∧
        ∃ executed : Nat → Nat,
          (∀ n, (t.control n).steps = (mid.control n).steps + executed n) ∧
          last.control.steps =
            e.step.2.control.steps + ∑ n ∈ Finset.range count, executed n := by
      cases rest with
      | nil =>
        -- The last step of all may halt the emulators.
        cases hrest
        cases hrest'
        exact ⟨rfl, hmid, fun _ => 0, fun _ => rfl, by simp⟩
      | cons second rest =>
        have hlength : later ≠ [] := by
          intro hnil
          have hall := length_of_ask hrest
          rw [hnil] at hall
          cases hall
        rw [List.dropLast_cons_of_ne_nil hlength, List.mem_cons, not_or] at hhlt
        refine ih (hnext fun hhalted => hhlt.1 ?_)
          (fun n hn => hcount n (List.mem_cons_of_mem _ hn)) hrest hrest' hhlt.2
        rw [hhalted]
        rfl
    obtain ⟨rfl, hmachine, executed, heach, hsum⟩ := hlater
    refine ⟨rfl, hmachine,
      fun n => (if n = number then if e.executes then 1 else 0 else 0) + executed n,
      fun n => ?_, ?_⟩
    · rw [heach, hsteps, Nat.add_assoc]
    · have hnumber : number ∈ Finset.range count :=
        Finset.mem_range.2 (hcount number List.mem_cons_self)
      rw [hsum, Emulator.steps_step h.running, Finset.sum_add_distrib, Finset.sum_ite_eq',
        if_pos hnumber, Nat.add_assoc]

/-- Emulators that share a machine interleave as one. Let emulators of one machine, none of which
    has halted, take steps in the order of a schedule, and let a single emulator with the same
    machine, that has not halted either, take as many steps. If no step before the last one answers
    that its emulator has halted, then each step is answered or refused as the single emulator's
    step of the same turn, the machines are the same at the end, and the single emulator has counted
    as many instructions as the others together. Whatever is answered, an emulator that is not in
    the schedule is as it was. -/
theorem ask_schedule (s : Session) (k : Nat) (schedule : List Nat) (e : Emulator)
    (hmachine : s.machines[k]? = some e.machine) (hrunning : e.control.halted = false)
    (hschedule : ∀ number ∈ schedule, ∃ seat, s.seats[number]? = some seat ∧ seat.machine = k ∧
      seat.control.halted = false) :
    ∃ answers t single last,
      s.ask (schedule.map (·, .step)) = some (answers, t) ∧
      e.serve (schedule.map fun _ => .step) = some (single, last) ∧
      (.ok (.stopped .halt) ∉ answers.dropLast →
        answers = single ∧ t.machines[k]? = some last.machine ∧
        ∃ executed : Nat → Nat,
          (∀ number, (t.control number).steps = (s.control number).steps + executed number) ∧
          last.control.steps =
            e.control.steps + ∑ number ∈ Finset.range s.seats.size, executed number) ∧
      ∀ number, number ∉ schedule → t.seats[number]? = s.seats[number]? := by
  obtain ⟨answers, t, hask⟩ := exists_ask_steps s schedule
  obtain ⟨single, last, hserve⟩ := exists_serve_steps e schedule
  refine ⟨answers, t, single, last, hask, hserve, fun hhlt => ?_, fun number hnumber => ?_⟩
  · have hcount : ∀ number ∈ schedule, number < s.seats.size := fun number hnumber => by
      obtain ⟨seat, hseat, -⟩ := hschedule number hnumber
      exact (Array.getElem?_eq_some_iff.1 hseat).1
    have hstands : s.StandsFor k schedule e := ⟨hmachine, hrunning, hschedule⟩
    exact hstands.ask_steps hcount hask hserve hhlt
  · refine seats_ask_of_not_addressed hask fun request hrequest => ?_
    obtain ⟨n, hn, rfl⟩ := List.mem_map.1 hrequest
    rintro rfl
    exact hnumber hn

/-- Two emulators of one machine take turns. The first loads a zero, the other stores it over a word
    that is no opcode, and the first halts there; a third one is not asked. The single emulator has
    a breakpoint and a count of its own. -/
theorem ask_schedule_storing_the_halt :
    let machine : Machine := { memory := ⟨#[1, 5, 2, 4, 42, 0]⟩ }
    let s : Session := ⟨#[machine],
      #[⟨0, {}⟩, ⟨0, { steps := 3, resumeFrom := some 0 }⟩,
        ⟨0, { breakpoints := [2], halted := true }⟩]⟩
    let e : Emulator := ⟨{ steps := 7, breakpoints := [4] }, machine⟩
    let last : Machine := { registers := { location := 5 }, memory := ⟨#[1, 5, 2, 4, 0, 0]⟩ }
    ∃ t single,
      s.ask [(0, .step), (1, .step), (0, .step)] =
        some ([.ok .done, .ok .done, .ok (.stopped .halt)], t) ∧
      e.serve [.step, .step, .step] =
        some ([.ok .done, .ok .done, .ok (.stopped .halt)], single) ∧
      t.machines[0]? = some last ∧ single.machine = last ∧
      (t.control 0).steps = 2 ∧ (t.control 1).steps = 4 ∧ single.control.steps = 10 ∧
      t.seats[2]? = s.seats[2]? := by
  intro machine s e last
  let t : Session := ⟨#[last],
    #[⟨0, { steps := 2, halted := true }⟩, ⟨0, { steps := 4 }⟩,
      ⟨0, { breakpoints := [2], halted := true }⟩]⟩
  have hask : s.ask [(0, .step), (1, .step), (0, .step)] =
      some ([.ok .done, .ok .done, .ok (.stopped .halt)], t) := by
    simp only [s, machine, t, last]
    rfl
  have hschedule : ∀ number ∈ [0, 1, 0], ∃ seat, s.seats[number]? = some seat ∧
      seat.machine = 0 ∧ seat.control.halted = false := by
    simp [s]
  obtain ⟨answers, t', single, final, hask', hserve, hone, hidle⟩ :=
    ask_schedule s 0 [0, 1, 0] e rfl rfl hschedule
  obtain ⟨rfl, rfl⟩ : answers = _ ∧ t' = t := by simpa using hask'.symm.trans hask
  obtain ⟨rfl, hmachine, executed, heach, hsum⟩ := hone (by simp)
  have hlast : final.machine = last := by simpa [t] using hmachine.symm
  have hzero : 2 = 0 + executed 0 := heach 0
  have hfirst : 4 = 3 + executed 1 := heach 1
  have hsecond : 0 = 0 + executed 2 := heach 2
  refine ⟨t, final, hask, hserve, hmachine.trans (congrArg some hlast), hlast, rfl, rfl, ?_,
    hidle 2 (by simp)⟩
  rw [hsum]
  simp only [s, e, List.size_toArray, List.length_cons, List.length_nil, Finset.sum_range_succ,
    Finset.sum_range_zero]
  omega

end Session

end WordMachine
