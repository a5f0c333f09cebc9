import WordMachine.Proofs.Run.Faults
import WordMachine.Proofs.Run.Instructions
import WordMachine.Proofs.Session.Invariant
import WordMachine.Proofs.Session.Operations
import WordMachine.Proofs.Session.Seats

set_option autoImplicit false

/-! # The life of an emulator

The life of an emulator is the list of the instructions that it executed since it was created or
made new (`Session.lifetime`). Its count of instructions is the length of this list, and it has
halted exactly if the list ends with `HLT`, which stands nowhere else in it (`Control.Lived`). Each
operation of the emulator keeps this up (`Operation.lived_perform`), and no operation of another one
touches it, though it may change the machine that both drive.

A halted emulator stays halted until it is made new (`halted_play`), whatever happens to its machine
meanwhile: steps and runs answer that it has halted, and change nothing. -/

namespace WordMachine

/-- Whether these are the instructions that were executed, by what an emulator keeps of them. -/
structure Control.Lived (life : List Instruction) (c : Control) : Prop where
  steps : c.steps = life.length
  running : c.halted = false → ∀ i ∈ life, i.opcode ≠ .hlt
  halted : c.halted = true →
    ∃ before i, life = before ++ [i] ∧ i.opcode = .hlt ∧ ∀ j ∈ before, j.opcode ≠ .hlt

/-- The life of an emulator after an operation on it. -/
def Operation.lifetime (e : Emulator) (life : List Instruction) : Operation → List Instruction
  | .step => life ++ e.instructions
  | .run budget => life ++ e.runInstructions budget
  | .reset => []
  | _ => life

/-- The life of the emulator with this number after a command. -/
def Command.lifetime (number : Nat) (s : Session) (life : List Instruction) (command : Command) :
    List Instruction :=
  match command.performed number s with
  | some (e, operation) => operation.lifetime e life
  | none => life

/-- The life of the emulator with this number after the commands. -/
def Session.lifetime (number : Nat) (s : Session) (life : List Instruction) :
    List Command → List Instruction
  | [] => life
  | command :: rest =>
    match s.apply command with
    | some (_, after) => after.lifetime number (command.lifetime number s life) rest
    | none => life

/-! ## Lives -/

namespace Control

variable {c d : Control} {life : List Instruction}

theorem lived_fresh (hsteps : c.steps = 0) (hrunning : c.halted = false) : c.Lived [] where
  steps := hsteps
  running _ i hi := by cases hi
  halted h := by rw [hrunning] at h; cases h

theorem Lived.congr (h : c.Lived life) (hhalted : d.halted = c.halted)
    (hsteps : d.steps = c.steps) : d.Lived life :=
  ⟨hsteps.trans h.steps, fun hd => h.running (hhalted ▸ hd), fun hd => h.halted (hhalted ▸ hd)⟩

theorem Lived.halted_iff (h : c.Lived life) :
    c.halted = true ↔ ∃ i ∈ life, i.opcode = .hlt := by
  constructor
  · intro hhalted
    obtain ⟨before, i, rfl, hop, -⟩ := h.halted hhalted
    exact ⟨i, by simp, hop⟩
  · rintro ⟨i, hi, hop⟩
    by_contra hrunning
    exact h.running (Bool.eq_false_iff.2 hrunning) i hi hop

/-- Nothing was executed after `HLT`. -/
theorem Lived.after_hlt (h : c.Lived life) {before after : List Instruction} {i : Instruction}
    (hlife : life = before ++ i :: after) (hop : i.opcode = .hlt) : after = [] := by
  have hi : i ∈ life := by simp [hlife]
  obtain ⟨earlier, j, hj, -, hnone⟩ := h.halted (h.halted_iff.2 ⟨i, hi, hop⟩)
  -- Were anything after it, this `HLT` would be among the instructions before the last one.
  rcases List.eq_nil_or_concat after with hnil | ⟨between, last, rfl⟩
  · exact hnil
  · rw [hlife, List.concat_eq_append, ← List.cons_append, ← List.append_assoc] at hj
    obtain ⟨rfl, -⟩ := List.append_inj' hj rfl
    exact absurd hop (hnone i (by simp))

end Control

namespace Emulator

variable {e s : Emulator} {life : List Instruction} {budget : Option Int} {outcome : RunOutcome}

theorem lived_step (h : e.control.Lived life) :
    e.step.2.control.Lived (life ++ e.instructions) := by
  rcases step_cases e with ⟨hhalted, hs⟩ | ⟨hrunning, ⟨f, hplan, hs⟩ | ⟨i, effect, hplan, hs⟩⟩
  · rw [hs, instructions_of_halted hhalted, List.append_nil]
    exact h
  · rw [hs, instructions_of_fault hrunning hplan, List.append_nil]
    exact h.congr rfl rfl
  · rw [instructions_of_plan hrunning hplan]
    have hsteps : e.control.steps + 1 = (life ++ [i]).length := by
      rw [h.steps, List.length_append, List.length_singleton]
    have hearlier := h.running hrunning
    rcases hs with ⟨hop, hs⟩ | ⟨hop, hs⟩
    · rw [hs]
      refine ⟨hsteps, fun _ j hj => ?_, fun hhalted => ?_⟩
      · rcases List.mem_append.1 hj with hj | hj
        · exact hearlier j hj
        · rw [List.mem_singleton.1 hj]
          exact hop
      · exact absurd (hrunning.symm.trans hhalted) Bool.false_ne_true
    · rw [hs]
      exact ⟨hsteps, nofun, fun _ => ⟨life, i, rfl, hop, hearlier⟩⟩

theorem lived_run (h : e.control.Lived life) (hrun : e.run budget = some (outcome, s)) :
    s.control.Lived (life ++ e.runInstructions budget) :=
  history_run (P := fun life s => s.control.Lived life) (fun _ _ _ => lived_step)
    (fun _ _ hs => hs.congr rfl rfl) h hrun

/-! ## Halted emulators -/

theorem proceed_of_halted_before (h : e.control.halted = true) :
    e.proceed = .error (.ok .halt, e) := by
  have hfree : e.atBreakpoint = false := by
    rw [Bool.eq_false_iff]
    intro hb
    rw [halted_of_atBreakpoint hb] at h
    cases h
  exact proceed_of_halted hfree (step_of_halted h)

theorem run_of_halted (h : e.control.halted = true) (hbudget : ∀ n, budget = some n → 1 ≤ n) :
    e.run budget = some (.ok .halt, e) :=
  run_of_proceed hbudget (proceed_of_halted_before h)

/-- A run of a halted emulator leaves it as it is, also without a budget for one instruction. -/
theorem eq_of_run_of_halted (h : e.control.halted = true)
    (hrun : e.run budget = some (outcome, s)) : s = e := by
  refine run_induction (P := fun s => s = e) (fun t ht => ?_) (fun t hb ht => ?_) rfl hrun
  · rw [ht, step_of_halted h]
  · rw [ht] at hb
    rw [halted_of_atBreakpoint hb] at h
    cases h

theorem halted_of_run_error {f : Fault} (hrun : e.run budget = some (.error f, s)) :
    s.control.halted = e.control.halted := by
  have hlast := (faulty_of_run hrun).running
  cases hfirst : e.control.halted with
  | false => exact hlast
  | true => rw [eq_of_run_of_halted hfirst hrun, hfirst] at hlast; cases hlast

end Emulator

/-! ## Operations -/

namespace Operation

variable {e s : Emulator} {operation : Operation} {answer : Except Error Answer}
  {life : List Instruction}

theorem lifetime_of_isPlain (h : operation.IsPlain) : operation.lifetime e life = life := by
  cases operation with
  | step | run budget | reset => exact h.elim
  | _ => rfl

/-- An operation executes what it adds to the life of the emulator. -/
theorem lived_perform (h : e.control.Lived life)
    (hperform : operation.perform e = some (answer, s)) :
    s.control.Lived (operation.lifetime e life) := by
  rcases perform_cases hperform with
    ⟨hplain, hspared⟩ | ⟨rfl, -, rfl⟩ | ⟨budget, outcome, rfl, -, hrun⟩ | ⟨rfl, -, rfl⟩
  · rw [lifetime_of_isPlain hplain]
    exact h.congr hspared.halted hspared.steps
  · exact Emulator.lived_step h
  · exact Emulator.lived_run h hrun
  · exact Control.lived_fresh rfl rfl

/-- A halted emulator stays so, with its count of instructions, unless it is made new. -/
theorem halted_perform (h : e.control.halted = true) (hne : operation ≠ .reset)
    (hperform : operation.perform e = some (answer, s)) :
    s.control.halted = true ∧ s.control.steps = e.control.steps := by
  rcases perform_cases hperform with
    ⟨-, hspared⟩ | ⟨-, -, rfl⟩ | ⟨budget, outcome, -, -, hrun⟩ | ⟨hreset, -, -⟩
  · exact ⟨hspared.halted.trans h, hspared.steps⟩
  · rw [Emulator.step_of_halted h]
    exact ⟨h, rfl⟩
  · rw [Emulator.eq_of_run_of_halted h hrun]
    exact ⟨h, rfl⟩
  · exact absurd hreset hne

/-- An operation that answers an error neither halts the emulator nor makes it go on. -/
theorem halted_of_error {error : Error} (hperform : operation.perform e = some (.error error, s)) :
    s.control.halted = e.control.halted := by
  rcases perform_cases hperform with
    ⟨-, hspared⟩ | ⟨-, hanswer, rfl⟩ | ⟨budget, outcome, -, hanswer, hrun⟩ | ⟨-, hanswer, -⟩
  · exact hspared.halted
  · rw [eq_attempted_of_refused hanswer]
    rfl
  · cases outcome with
    | error f => exact Emulator.halted_of_run_error hrun
    | ok reason => cases hanswer
  · cases hanswer

end Operation

/-! ## Sessions -/

namespace Session

variable {s t : Session} {number : Nat} {e : Emulator} {command : Command}
  {commands : List Command} {answer : Except Error Answer} {answers : List (Except Error Answer)}
  {life : List Instruction}

/-- A command adds to the life of an emulator what it executes of it. -/
theorem lived_apply (h : (s.control number).Lived life)
    (happly : s.apply command = some (answer, t)) :
    (t.control number).Lived (command.lifetime number s life) := by
  rcases control_apply happly number with
    ⟨hnone, hsame⟩ | ⟨e, operation, new, hsome, -, hnew, hbefore, hafter⟩
  · simp only [Command.lifetime, hnone]
    rw [hsame]
    exact h
  · simp only [Command.lifetime, hsome]
    rw [hbefore] at h
    rw [hafter]
    exact Operation.lived_perform h hnew

theorem lived_play (h : (s.control number).Lived life)
    (hplay : s.play commands = some (answers, t)) :
    (t.control number).Lived (s.lifetime number life commands) := by
  induction commands generalizing s life answers with
  | nil => cases hplay; exact h
  | cons command rest ih =>
    obtain ⟨answer, mid, later, happly, hrest, -⟩ := play_cons_iff.1 hplay
    have hlived := ih (lived_apply h happly) hrest
    simpa only [lifetime, happly] using hlived

/-- A command that does not make a halted emulator new leaves it halted, with its count of
    instructions. -/
theorem halted_apply (h : (s.control number).halted = true)
    (hne : command ≠ .perform number .reset) (happly : s.apply command = some (answer, t)) :
    (t.control number).halted = true ∧ (t.control number).steps = (s.control number).steps := by
  rcases control_apply happly number with
    ⟨-, hsame⟩ | ⟨e, operation, new, -, rfl, hnew, hbefore, hafter⟩
  · rw [hsame]
    exact ⟨h, rfl⟩
  · rw [hbefore] at h ⊢
    rw [hafter]
    exact Operation.halted_perform h (fun hreset => hne (by rw [hreset])) hnew

theorem halted_play (h : (s.control number).halted = true)
    (hne : ∀ command ∈ commands, command ≠ .perform number .reset)
    (hplay : s.play commands = some (answers, t)) :
    (t.control number).halted = true ∧ (t.control number).steps = (s.control number).steps := by
  induction commands generalizing s answers with
  | nil => cases hplay; exact ⟨h, rfl⟩
  | cons command rest ih =>
    obtain ⟨answer, mid, later, happly, hrest, -⟩ := play_cons_iff.1 hplay
    obtain ⟨hhalted, hsteps⟩ := halted_apply h (hne command List.mem_cons_self) happly
    obtain ⟨hlast, hlaststeps⟩ :=
      ih hhalted (fun c hc => hne c (List.mem_cons_of_mem _ hc)) hrest
    exact ⟨hlast, hlaststeps.trans hsteps⟩

/-- A command that answers an error neither halts an emulator nor makes it go on. -/
theorem halted_of_error_apply {error : Error} (happly : s.apply command = some (.error error, t))
    (number : Nat) : (t.control number).halted = (s.control number).halted := by
  rcases control_apply happly number with
    ⟨-, hsame⟩ | ⟨e, operation, new, -, -, hnew, hbefore, hafter⟩
  · rw [hsame]
  · rw [hbefore, hafter]
    exact Operation.halted_of_error hnew

/-- In a sound session every seat is that of an emulator. -/
theorem Sound.exists_emulator? {sizes : List Nat} (hs : s.Sound sizes)
    (h : number < s.seats.size) : ∃ e, s.emulator? number = some e := by
  have hseat := Array.getElem?_eq_getElem h
  have hmachine := Array.getElem?_eq_getElem (hs.seats_lt number _ hseat)
  exact ⟨⟨_, _⟩, emulator?_eq_some_iff.2 ⟨_, hseat, hmachine, rfl⟩⟩

/-- An emulator is there as long as its session is. -/
theorem exists_emulator?_play {sizes : List Nat} (hs : s.Sound sizes)
    (he : s.emulator? number = some e) (hplay : s.play commands = some (answers, t)) :
    ∃ last, t.emulator? number = some last := by
  obtain ⟨seat, hseat, -⟩ := emulator?_eq_some_iff.1 he
  obtain ⟨hlt, -⟩ := Array.getElem?_eq_some_iff.1 hseat
  exact (play_sound hs hplay).exists_emulator? (Nat.lt_of_lt_of_le hlt (size_seats_play hplay))

/-- A halted emulator answers that it has halted, and nothing in the session changes. -/
theorem apply_of_halted (he : s.emulator? number = some e) (h : e.control.halted = true) :
    s.apply (.perform number .step) = some (.ok (.stopped .halt), s) ∧
      ∀ budget : Option Int, (∀ n, budget = some n → 1 ≤ n) →
        s.apply (.perform number (.run budget)) = some (.ok (.stopped .halt), s) := by
  constructor
  · refine apply_of_perform he ?_
    rw [Operation.perform_step, Emulator.step_of_halted h]
    rfl
  · intro budget hbudget
    refine apply_of_perform he ?_
    rw [Operation.perform, Emulator.run_of_halted h hbudget]
    rfl

/-- The life of an emulator, after any commands to any emulators that drive the same machine or
    others. Its count of instructions is the number of those that it executed since it was created
    or last made new; it has halted exactly if one of these was an `HLT`, and that is the last of
    them. Once it has halted, and until it is made new, its steps and its runs, if they have a
    budget for one instruction, answer that it has halted and leave the whole session as it is,
    whatever other commands were given in between. To make it new ends this. A command that answers
    an error never halts it. -/
theorem play_lifetime (commands : List Command) (answers : List (Except Error Answer)) (s : Session)
    (h : ({} : Session).play commands = some (answers, s)) (number : Nat) (e : Emulator)
    (he : s.emulator? number = some e) :
    let life := ({} : Session).lifetime number [] commands
    e.control.steps = life.length ∧
      (e.control.halted = true ↔ ∃ i ∈ life, i.opcode = .hlt) ∧
      (∀ before i after, life = before ++ i :: after → i.opcode = .hlt → after = []) ∧
      (e.control.halted = true →
        ∀ more later t, s.play more = some (later, t) →
          (∀ command ∈ more, command ≠ .perform number .reset) →
          ∃ last, t.emulator? number = some last ∧ last.control.halted = true ∧
            last.control.steps = e.control.steps ∧
            t.apply (.perform number .step) = some (.ok (.stopped .halt), t) ∧
            ∀ budget : Option Int, (∀ n, budget = some n → 1 ≤ n) →
              t.apply (.perform number (.run budget)) = some (.ok (.stopped .halt), t)) ∧
      (∃ t, s.apply (.perform number .reset) = some (.ok .done, t) ∧
        t.emulator? number = some e.reset ∧ e.reset.control.halted = false ∧
        e.reset.control.steps = 0) ∧
      ∀ command error t, s.apply command = some (.error error, t) →
        ∃ last, t.emulator? number = some last ∧
          last.control.halted = e.control.halted := by
  intro life
  have hcontrol := control_of_emulator? he
  have hsound := play_sound sound_empty h
  have hlived : e.control.Lived life := by
    rw [← hcontrol]
    exact lived_play (Control.lived_fresh rfl rfl) h
  refine ⟨hlived.steps, hlived.halted_iff, fun _ _ _ => hlived.after_hlt,
    fun hhalted more later t hmore hne => ?_, ?_, fun command error t happly => ?_⟩
  · obtain ⟨last, hlast⟩ := exists_emulator?_play hsound he hmore
    rw [← hcontrol] at hhalted ⊢
    obtain ⟨hstill, hsteps⟩ := halted_play hhalted hne hmore
    rw [control_of_emulator? hlast] at hstill hsteps
    exact ⟨last, hlast, hstill, hsteps, apply_of_halted hlast hstill⟩
  · exact ⟨s.update number e.reset, (apply_perform_iff he).2 ⟨e.reset, rfl, rfl⟩,
      emulator?_update_self he, rfl, rfl⟩
  · have hplay : s.play [command] = some ([.error error], t) :=
      play_cons_iff.2 ⟨_, t, [], happly, rfl, rfl⟩
    obtain ⟨last, hlast⟩ := exists_emulator?_play hsound he hplay
    refine ⟨last, hlast, ?_⟩
    rw [← control_of_emulator? hlast, ← hcontrol]
    exact halted_of_error_apply happly number

/-- Two emulators of one machine. The first is made new after an `HLT`, is refused a step, and
    executes `LDA 3` and `HLT`. Then the other clears the machine, loads the program and executes
    an instruction of it, the counter is set back, and the other is made new. The first still has
    halted. -/
theorem play_lifetime_shared :
    let commands : List Command :=
      [.create 4, .perform 0 .step, .perform 0 .reset, .perform 0 (.load (.words [11, 3, 0, 5])),
        .perform 0 .step, .perform 0 (.write 0 1), .perform 0 (.run (some 5)), .share 0]
    let more : List Command :=
      [.perform 1 .resetMachine, .perform 1 (.load (.words [1, 3, 0, 5])), .perform 1 .step,
        .perform 0 (.addBreakpoint 0), .perform 0 (.setLocation 0), .perform 1 .reset]
    ∃ answers s later t, ({} : Session).play commands = some (answers, s) ∧
      s.play more = some (later, t) ∧
      ({} : Session).lifetime 0 [] commands = [⟨.lda, some 3⟩, ⟨.hlt, none⟩] ∧
      t.apply (.perform 0 .step) = some (.ok (.stopped .halt), t) ∧
      t.apply (.perform 0 (.run none)) = some (.ok (.stopped .halt), t) := by
  intro commands more
  let machine : Machine :=
    { registers := { accumulator := 5, location := 3 }, memory := ⟨#[1, 3, 0, 5]⟩ }
  let first : Control := { halted := true, steps := 2 }
  let s : Session := ⟨#[machine], #[⟨0, first⟩, ⟨0, {}⟩]⟩
  let t : Session :=
    ⟨#[{ memory := ⟨#[0, 0, 0, 0]⟩ }],
      #[⟨0, { halted := true, steps := 2, breakpoints := [0] }⟩, ⟨0, {}⟩]⟩
  have hplay : ({} : Session).play commands =
      some ([.ok .done, .ok (.stopped .halt), .ok .done, .ok .done,
        .error (.fault (.unknownOpcode 11 0)), .ok .done, .ok (.stopped .halt), .ok .done], s) := by
    rfl
  have hmore : s.play more =
      some ([.ok .done, .ok .done, .ok .done, .ok .done, .ok .done, .ok .done], t) := by
    simp only [s, machine, first, more, t]
    rfl
  have hkept : ∀ command ∈ more, command ≠ .perform 0 .reset := by simp [more]
  obtain ⟨-, -, -, hhalted, -, -⟩ := play_lifetime commands _ s hplay 0 ⟨first, machine⟩ rfl
  obtain ⟨last, -, -, -, hstep, hrun⟩ := hhalted rfl more _ t hmore hkept
  exact ⟨_, s, _, t, hplay, hmore, rfl, hstep, hrun none nofun⟩

end Session

end WordMachine
