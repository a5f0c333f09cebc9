import WordMachine.Proofs.Run.Attempts
import WordMachine.Proofs.Session.Operations
import WordMachine.Proofs.Session.Seats

set_option autoImplicit false

/-! # Breakpoints are reported before they are passed

A run passes a breakpoint only where it begins, and only if the marker says that an earlier run
stopped there. The marker is hidden: it cannot be set from outside, and the commands of a session
can do many things between the two runs. So what it stands for is said of whole histories
(`Session.Reported`): some run of the same emulator answered that it stopped at this breakpoint,
and nothing since has made the emulator new or attempted an instruction with it.

One operation either keeps the marker, and then is none of those, or is a run that sets it
(`Operation.marker_perform`); so does one command of a session, to whichever emulator it is
addressed (`marker_apply`), and the history follows by induction over the commands
(`reported_of_marker`). -/

namespace WordMachine

/-! ## What takes the marker back -/

/-- Whether the operation makes the emulator attempt an instruction. -/
def Operation.Attempts (e : Emulator) : Operation → Prop
  | .step => e.control.halted = false
  | .run budget => ∃ k t, e.Attempts budget k t
  | _ => False

/-- Whether the command makes the emulator with this number new, or has it attempt an
    instruction. -/
def Command.Disturbs (number : Nat) (s : Session) (command : Command) : Prop :=
  ∃ e operation, s.emulator? number = some e ∧ command = .perform number operation ∧
    (operation = .reset ∨ operation.Attempts e)

namespace Session

/-- The commands lead from one session to another, and none of them disturbs the emulator with this
    number. -/
inductive Undisturbed (number : Nat) : Session → List Command → Session → Prop where
  | nil (s : Session) : Undisturbed number s [] s
  | concat {s t u : Session} {commands : List Command} {command : Command}
    {answer : Except Error Answer} (h : Undisturbed number s commands t)
    (hkept : ¬command.Disturbs number t) (happly : t.apply command = some (answer, u)) :
    Undisturbed number s (commands ++ [command]) u

/-- Among the commands, which lead from the empty session to `s`, is a run of the emulator with this
    number that stopped at a breakpoint at this location, and the emulator was not disturbed
    since. -/
def Reported (number location : Nat) (commands : List Command) (s : Session) : Prop :=
  ∃ earlier budget later answers before after e,
    commands = earlier ++ .perform number (.run budget) :: later ∧
      ({} : Session).play earlier = some (answers, before) ∧
      before.apply (.perform number (.run budget)) = some (.ok (.stopped .breakpoint), after) ∧
      after.emulator? number = some e ∧ e.location = location ∧
      Undisturbed number after later s

end Session

/-! ## Operations -/

namespace Emulator

variable {e s t : Emulator} {budget : Option Int} {outcome : RunOutcome} {k p : Nat}

theorem not_attempts_of_halted (h : e.control.halted = true) : ¬e.Attempts budget k t := by
  cases budget with
  | none => simp [Attempts, attemptsFor_of_halted h]
  | some n => simp [Attempts, attemptsFor_of_halted h]

/-- A run that leaves a marker has set it at a breakpoint, or has attempted nothing. -/
theorem marker_run (h : e.run budget = some (outcome, s)) (hp : s.control.resumeFrom = some p) :
    (outcome = .ok .breakpoint ∧ s.location = p) ∨ (∀ k t, ¬e.Attempts budget k t) ∧ s = e := by
  rcases run_cases h with ⟨n, rfl, rfl, hrounds⟩ | ⟨k, t, -, hrounds, hstop⟩
  · cases hn : n.toNat with
    | zero =>
      rw [hn] at hrounds
      cases hrounds
      exact Or.inr ⟨fun k t => by simp [Attempts, hn, attemptsFor], rfl⟩
    | succ rounds =>
      rw [hn] at hrounds
      rw [(underway_of_proceedFor hrounds).resumeFrom] at hp
      cases hp
  · rcases proceed_error_cases hstop with ⟨-, rfl, rfl⟩ | ⟨rfl, hstep⟩ | ⟨f, rfl, hstep⟩
    · exact Or.inl ⟨rfl, Option.some.inj hp⟩
    · rcases eq_or_resumeFrom_of_halted hstep with ⟨hhalted, rfl⟩ | ⟨-, hnone⟩
      · -- Only a run that begins with a halted emulator meets one.
        cases k with
        | zero => cases hrounds; exact Or.inr ⟨fun k t => not_attempts_of_halted hhalted, rfl⟩
        | succ k => rw [(underway_of_proceedFor hrounds).halted] at hhalted; cases hhalted
      · rw [hnone] at hp; cases hp
    · obtain ⟨-, -, rfl⟩ := exists_of_fault hstep
      cases hp

/-- A step that leaves a marker was that of a halted emulator. -/
theorem marker_step (hp : e.step.2.control.resumeFrom = some p) :
    e.control.halted = true ∧ e.step.2 = e := by
  rcases step_cases e with ⟨hhalted, hs⟩ | ⟨-, ⟨f, -, hs⟩ | ⟨i, effect, -, ⟨-, hs⟩ | ⟨-, hs⟩⟩⟩
  · exact ⟨hhalted, by rw [hs]⟩
  all_goals
    rw [hs] at hp
    cases hp

end Emulator

namespace Operation

variable {e s : Emulator} {answer : Except Error Answer} {operation : Operation} {p : Nat}

theorem not_attempts_of_isPlain (h : operation.IsPlain) :
    operation ≠ .reset ∧ ¬operation.Attempts e := by
  cases operation with
  | step | run budget | reset => exact h.elim
  | _ => exact ⟨Operation.noConfusion, id⟩

/-- An operation that leaves a marker is a run that set it at a breakpoint, or one that keeps it
    and attempts no instruction. -/
theorem marker_perform (h : operation.perform e = some (answer, s))
    (hp : s.control.resumeFrom = some p) :
    (∃ budget, operation = .run budget ∧ answer = .ok (.stopped .breakpoint) ∧ s.location = p) ∨
      e.control.resumeFrom = some p ∧ operation ≠ .reset ∧ ¬operation.Attempts e := by
  rcases perform_cases h with
    ⟨hplain, hspared⟩ | ⟨rfl, -, rfl⟩ | ⟨budget, outcome, rfl, rfl, hrun⟩ | ⟨-, -, rfl⟩
  · rw [hspared.resumeFrom] at hp
    exact Or.inr ⟨hp, not_attempts_of_isPlain hplain⟩
  · obtain ⟨hhalted, hsame⟩ := Emulator.marker_step hp
    rw [hsame] at hp
    exact Or.inr ⟨hp, Operation.noConfusion, by simp [Attempts, hhalted]⟩
  · rcases Emulator.marker_run hrun hp with ⟨rfl, hlocation⟩ | ⟨hnone, rfl⟩
    · exact Or.inl ⟨budget, rfl, rfl, hlocation⟩
    · exact Or.inr ⟨hp, Operation.noConfusion, fun ⟨k, t, hattempt⟩ => hnone k t hattempt⟩
  · cases hp

end Operation

/-! ## Commands -/

namespace Session

variable {s after : Session} {number p : Nat} {command : Command} {answer : Except Error Answer}
  {seat : Seat}

theorem disturbs_perform_iff {k : Nat} {operation : Operation} {e : Emulator}
    (he : s.emulator? k = some e) :
    (Command.perform k operation).Disturbs number s ↔
      k = number ∧ (operation = .reset ∨ operation.Attempts e) := by
  constructor
  · rintro ⟨found, other, hfound, heq, hdisturbs⟩
    cases heq
    rw [he] at hfound
    cases hfound
    exact ⟨rfl, hdisturbs⟩
  · rintro ⟨rfl, hdisturbs⟩
    exact ⟨e, operation, he, rfl, hdisturbs⟩

theorem not_disturbs_of_no_emulator {k : Nat} {operation : Operation}
    (he : s.emulator? k = none) : ¬(Command.perform k operation).Disturbs number s := by
  rintro ⟨e, other, hfound, heq, -⟩
  cases heq
  rw [he] at hfound
  cases hfound

theorem marker_addSeat {machine : Nat} (hseat : (s.addSeat machine).seats[number]? = some seat)
    (hp : seat.control.resumeFrom = some p) : s.seats[number]? = some seat := by
  rw [seats_addSeat] at hseat
  split at hseat
  · cases hseat; cases hp
  · exact hseat

/-- A command that leaves a marker is a run that set it at a breakpoint, or one that keeps it and
    does not disturb the emulator. -/
theorem marker_apply (h : s.apply command = some (answer, after))
    (hseat : after.seats[number]? = some seat) (hp : seat.control.resumeFrom = some p) :
    (∃ budget e, command = .perform number (.run budget) ∧ answer = .ok (.stopped .breakpoint) ∧
        after.emulator? number = some e ∧ e.location = p) ∨
      (∃ old, s.seats[number]? = some old ∧ old.control.resumeFrom = some p) ∧
        ¬command.Disturbs number s := by
  cases command with
  | create memorySize =>
    refine Or.inr ⟨?_, by rintro ⟨_, _, _, hno, _⟩; cases hno⟩
    simp only [apply] at h
    split at h
    · cases h; exact ⟨seat, hseat, hp⟩
    · cases h; exact ⟨seat, marker_addSeat hseat hp, hp⟩
  | share k =>
    refine Or.inr ⟨?_, by rintro ⟨_, _, _, hno, _⟩; cases hno⟩
    simp only [apply] at h
    split at h
    · cases h; exact ⟨seat, hseat, hp⟩
    · cases h; exact ⟨seat, marker_addSeat hseat hp, hp⟩
  | perform k operation =>
    cases he : s.emulator? k with
    | none =>
      simp only [apply, he] at h
      cases h
      exact Or.inr ⟨⟨seat, hseat, hp⟩, not_disturbs_of_no_emulator he⟩
    | some e =>
      obtain ⟨new, hperform, rfl⟩ := (apply_perform_iff he).1 h
      obtain ⟨old, hold, -, hcontrol⟩ := emulator?_eq_some_iff.1 he
      rw [disturbs_perform_iff he]
      rw [seats_update hold] at hseat
      split at hseat
      · next heq =>
        -- The operation is one on the emulator itself, so it is the operation that decides.
        subst heq
        cases hseat
        rcases Operation.marker_perform hperform hp with
          ⟨budget, rfl, rfl, hlocation⟩ | ⟨hkept, hnew, hquiet⟩
        · exact Or.inl ⟨budget, new, rfl, rfl, emulator?_update_self he, hlocation⟩
        · exact Or.inr ⟨⟨old, hold, by rw [hcontrol, hkept]⟩, fun hd => hd.2.elim hnew hquiet⟩
      · next hne => exact Or.inr ⟨⟨seat, hseat, hp⟩, fun hd => hne hd.1.symm⟩

/-- Whatever commands were given, a marker is that of a breakpoint which was reported. -/
theorem reported_of_marker {commands : List Command} {answers : List (Except Error Answer)}
    (h : ({} : Session).play commands = some (answers, s)) (hseat : s.seats[number]? = some seat)
    (hp : seat.control.resumeFrom = some p) : Reported number p commands s := by
  -- Histories grow at their end, so it is the last command that is split off.
  induction commands using List.reverseRecOn generalizing answers s seat with
  | nil => cases h; simp at hseat
  | append_singleton commands command ih =>
    obtain ⟨_, mid, _, hplay, happly, -⟩ := play_concat_iff.1 h
    rcases marker_apply happly hseat hp with
      ⟨budget, e, rfl, rfl, he, hlocation⟩ | ⟨⟨old, hold, hkept⟩, hquiet⟩
    · exact ⟨commands, budget, [], _, mid, s, e, rfl, hplay, happly, he, hlocation, .nil s⟩
    · obtain ⟨earlier, budget, later, _, before, after, e, rfl, hearlier, hrun, he, hlocation,
        hsince⟩ := ih hplay hold hkept
      exact ⟨earlier, budget, later ++ [command], _, before, after, e, by simp, hearlier, hrun, he,
        hlocation, hsince.concat hquiet happly⟩

/-- A breakpoint is never passed unreported. After any commands, if a run of an emulator attempts an
    instruction where the emulator has a breakpoint, then this is the first instruction of the run,
    and an earlier run of the emulator stopped at this breakpoint, since when the emulator was not
    made new and has attempted no instruction. What a run attempts is told by what shorter runs come
    to. -/
theorem play_breakpoint_reported (commands : List Command) (answers : List (Except Error Answer))
    (s : Session) (h : ({} : Session).play commands = some (answers, s)) (number : Nat)
    (e : Emulator) (he : s.emulator? number = some e) (budget : Option Int) (k : Nat) (t : Emulator)
    (hattempt : e.Attempts budget k t) (hmem : (t.location : Int) ∈ t.control.breakpoints) :
    (∀ j u, e.Attempts budget j u ↔
      Emulator.spent budget j = false ∧ e.run (some j) = some (.ok .timeout, u) ∧
        u.atBreakpoint = false ∧ u.control.halted = false) ∧
      k = 0 ∧ Reported number t.location commands s := by
  obtain ⟨rfl, rfl, hmarked⟩ := Emulator.marked_of_attempts_at_breakpoint hattempt hmem
  obtain ⟨seat, hseat, -, hcontrol⟩ := emulator?_eq_some_iff.1 he
  rw [← hcontrol] at hmarked
  exact ⟨fun _ _ => Emulator.attempts_iff_run, rfl, reported_of_marker h hseat hmarked⟩

/-- Two jumps that lead to one another, with a breakpoint at the first. After it was reported
    another emulator of the machine goes round once and a write is refused, and then the run is
    resumed. -/
theorem play_breakpoint_reported_shared :
    let commands : List Command :=
      [.create 4, .perform 0 (.load (.words [6, 2, 6, 0])), .share 0,
        .perform 0 (.addBreakpoint 0), .perform 0 (.run (some 5)), .perform 1 .step,
        .perform 1 .step, .perform 0 (.write (-1) 0)]
    ∃ answers s e, ({} : Session).play commands = some (answers, s) ∧
      s.emulator? 0 = some e ∧ (e.location : Int) ∈ e.control.breakpoints ∧
      e.Attempts (some 1) 0 e ∧ Reported 0 0 commands s := by
  intro commands
  let machine : Machine := { memory := ⟨#[6, 2, 6, 0]⟩ }
  let first : Control := { breakpoints := [0], resumeFrom := some 0 }
  let s : Session := ⟨#[machine], #[⟨0, first⟩, ⟨0, { steps := 2 }⟩]⟩
  let e : Emulator := ⟨first, machine⟩
  have hplay : ({} : Session).play commands =
      some ([.ok .done, .ok .done, .ok .done, .ok .done, .ok (.stopped .breakpoint), .ok .done,
        .ok .done, .error (.fault (.badAddress (-1) 4))], s) := by rfl
  have hattempt : e.Attempts (some 1) 0 e := by rfl
  have hmem : (e.location : Int) ∈ e.control.breakpoints := by decide
  obtain ⟨-, -, hreported⟩ :=
    play_breakpoint_reported commands _ s hplay 0 e rfl (some 1) 0 e hattempt hmem
  exact ⟨_, s, e, hplay, rfl, hmem, hattempt, hreported⟩

end Session

end WordMachine
