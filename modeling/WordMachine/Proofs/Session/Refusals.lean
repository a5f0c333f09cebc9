import WordMachine.Proofs.Session.Operations
import WordMachine.Proofs.Session.Seats
import WordMachine.Proofs.WordFile.Tokens

set_option autoImplicit false

/-! # Refused operations

An operation that answers an error has changed nothing that can be seen of any emulator: neither of
the one that it was asked of nor of those that drive the same machine (`Emulator.Unchanged`). Only
the hidden marker of a breakpoint may be gone, after a step. A run is no such operation, as it
executes what comes before the instruction that it fails at.

Loading has three places to fail in: the bytes of a file may be no text, a token may be no word,
and there may be too few cells. All of them come before the first cell is written. -/

namespace WordMachine

/-- All of an emulator is as before, but for the marker of a breakpoint. -/
structure Emulator.Unchanged (e s : Emulator) : Prop where
  registers : s.machine.registers = e.machine.registers
  cells : s.machine.memory.cells = e.machine.memory.cells
  halted : s.control.halted = e.control.halted
  steps : s.control.steps = e.control.steps
  breakpoints : s.control.breakpoints = e.control.breakpoints
  tracing : s.control.tracing = e.control.tracing
  trace : s.control.trace = e.control.trace

theorem Emulator.Unchanged.refl (e : Emulator) : e.Unchanged e :=
  ⟨rfl, rfl, rfl, rfl, rfl, rfl, rfl⟩

theorem Emulator.unchanged_attempted (e : Emulator) : e.Unchanged e.attempted :=
  ⟨rfl, rfl, rfl, rfl, rfl, rfl, rfl⟩

/-! ## Operations -/

namespace Operation

variable {e s : Emulator} {error : Error} {operation : Operation}

/-- Whether the operation may execute any number of instructions. -/
def IsRun : Operation → Prop
  | .run _ => True
  | _ => False

theorem isSome_change (e : Emulator) (result : Except Error Machine) :
    (change e result).isSome := by
  cases result <;> rfl

/-- Whatever is no run ends. -/
theorem isSome_perform (hrun : ¬operation.IsRun) (e : Emulator) :
    (operation.perform e).isSome := by
  cases operation with
  | run budget => exact absurd trivial hrun
  | step => rw [perform_step]; rfl
  | write address value | writeRegister name value | writeIndex selector value
    | setLocation address => exact isSome_change e _
  | load program =>
    simp only [perform]
    cases e.load program <;> rfl
  | execute opcode address =>
    simp only [perform]
    split
    · rfl
    · split <;> rfl
  | _ => rfl

/-- An operation that answers an error leaves the emulator as it was, or is a step that was
    refused. -/
theorem of_error_perform (hrun : ¬operation.IsRun)
    (h : operation.perform e = some (.error error, s)) : s = e ∨ s = e.attempted := by
  rcases perform_cases h with
    ⟨-, hspared⟩ | ⟨-, hanswer, rfl⟩ | ⟨budget, outcome, rfl, -, -⟩ | ⟨-, hanswer, -⟩
  · exact Or.inl (hspared.refused error rfl)
  · exact Or.inr (eq_attempted_of_refused hanswer)
  · exact absurd trivial hrun
  · cases hanswer

end Operation

/-! ## Sessions -/

namespace Session

variable {s after : Session} {number k : Nat} {e old : Emulator} {operation : Operation}
  {error : Error}

theorem unchanged_of_error_apply (he : s.emulator? number = some e) (hrun : ¬operation.IsRun)
    (h : s.apply (.perform number operation) = some (.error error, after))
    (hold : s.emulator? k = some old) :
    ∃ new, after.emulator? k = some new ∧ old.Unchanged new := by
  obtain ⟨new, hperform, rfl⟩ := (apply_perform_iff he).1 h
  rcases Operation.of_error_perform hrun hperform with rfl | rfl
  · rw [update_self he]
    exact ⟨old, hold, .refl old⟩
  · by_cases hk : k = number
    · subst hk
      obtain rfl : e = old := Option.some.inj (he.symm.trans hold)
      exact ⟨e.attempted, emulator?_update_self he, e.unchanged_attempted⟩
    · have hmachine : e.attempted.machine = e.machine := rfl
      rw [emulator?_update_of_machine_eq he hmachine hk]
      exact ⟨old, hold, .refl old⟩

theorem apply_load_of_error (he : s.emulator? number = some e) {program : Program}
    (h : e.load program = .error error) :
    s.apply (.perform number (.load program)) = some (.error error, s) := by
  have hperform : (Operation.load program).perform e = some (.error error, e) := by
    rw [Operation.perform, h]
  exact (apply_perform_iff he).2 ⟨e, hperform, update_self he⟩

/-- A failing operation changes nothing, and a program that cannot be read, or has one token that is
    no word, or has more words than there are cells, fails to load. -/
theorem refusal_changes_nothing (s : Session) (number : Nat) (e : Emulator)
    (he : s.emulator? number = some e) :
    (∀ operation : Operation, ¬operation.IsRun →
      ∃ answer after, s.apply (.perform number operation) = some (answer, after) ∧
        ∀ error, answer = .error error → ∀ k old, s.emulator? k = some old →
          ∃ new, after.emulator? k = some new ∧ old.Unchanged new) ∧
    (∀ (program : Program) (error : Error), program.read = .error error →
      s.apply (.perform number (.load program)) = some (.error error, s)) ∧
    (∀ (text : String) (n : Nat) (line token : List Char),
      (Text.lines text.toList)[n]? = some line → token ∈ WordFile.tokens line →
      (∀ value, WordFile.readToken (n + 1) token ≠ .ok value) →
      ∃ error, s.apply (.perform number (.load (.text text))) = some (.error error, s)) ∧
    ∀ (program : Program) (words : List Int), program.read = .ok words →
      e.machine.memory.size < words.length →
      s.apply (.perform number (.load program)) =
        some (.error (.fault (.programTooLarge words.length e.machine.memory.size)), s) := by
  refine ⟨fun operation hrun => ?_, fun program error hread => ?_,
    fun text n line token hn hmem hbad => ?_, fun program words hread hlong => ?_⟩
  · obtain ⟨⟨answer, new⟩, hperform⟩ := Option.isSome_iff_exists.1 (Operation.isSome_perform hrun e)
    have happly := (apply_perform_iff he).2 ⟨new, hperform, rfl⟩
    refine ⟨answer, s.update number new, happly, ?_⟩
    rintro error rfl k old hold
    exact unchanged_of_error_apply he hrun happly hold
  · exact apply_load_of_error he (Emulator.load_of_unread hread)
  · cases hread : (Program.text text).read with
    | error error => exact ⟨error, apply_load_of_error he (Emulator.load_of_unread hread)⟩
    | ok words =>
      obtain ⟨value, hvalue⟩ := WordFile.exists_readToken_of_parse hread hn hmem
      exact absurd hvalue (hbad value)
  · refine apply_load_of_error he ?_
    rw [Emulator.load_of_read hread, if_pos hlong]

/-- Two emulators of a machine of two cells, the first of which goes on from a breakpoint to an
    instruction that is refused. A text whose last token is no word, and a program of three words,
    are refused as well. -/
theorem refusal_changes_nothing_shared :
    let s : Session :=
      ⟨#[{ memory := ⟨#[1, 9]⟩ }], #[⟨0, { breakpoints := [0], resumeFrom := some 0 }⟩, ⟨0, {}⟩]⟩
    (∃ after, s.apply (.perform 0 .step) = some (.error (.fault (.badAddress 9 2)), after) ∧
      ∀ k old, s.emulator? k = some old →
        ∃ new, after.emulator? k = some new ∧ old.Unchanged new) ∧
    (∃ error, s.apply (.perform 1 (.load (.text "1, 2\n3 x"))) = some (.error error, s)) ∧
    s.apply (.perform 1 (.load (.words [1, 2, 3]))) =
      some (.error (.fault (.programTooLarge 3 2)), s) := by
  intro s
  obtain ⟨hstep, -, -, -⟩ := refusal_changes_nothing s 0 _ rfl
  obtain ⟨-, -, htoken, hlong⟩ := refusal_changes_nothing s 1 _ rfl
  refine ⟨?_, ?_, hlong (.words [1, 2, 3]) _ rfl (by decide)⟩
  · let after : Session :=
      ⟨#[{ memory := ⟨#[1, 9]⟩ }], #[⟨0, { breakpoints := [0] }⟩, ⟨0, {}⟩]⟩
    have hrefused : s.apply (.perform 0 .step) =
        some (.error (.fault (.badAddress 9 2)), after) := by
      simp only [s, after]
      rfl
    obtain ⟨answer, found, happly, hkept⟩ := hstep .step id
    rw [hrefused] at happly
    cases happly
    exact ⟨after, hrefused, hkept _ rfl⟩
  · have hbad : WordFile.readToken 2 ['x'] = .error (.format (.notAWord 2 ['x'])) := by rfl
    exact htoken "1, 2\n3 x" 1 ['3', ' ', 'x'] ['x'] (by decide) (by decide) fun value => by
      rw [hbad]
      exact nofun

end Session

end WordMachine
