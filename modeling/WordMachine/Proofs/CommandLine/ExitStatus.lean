import WordMachine.CommandLine.Run
import WordMachine.Proofs.CommandLine.Options
import WordMachine.Proofs.Machine.Faults
import WordMachine.Proofs.Program.Files
import WordMachine.Proofs.Run.Faults
import WordMachine.Proofs.Session.Invariant
import WordMachine.Proofs.WordFile.Refusals

set_option autoImplicit false

/-! # What the exit status says of the program file

A command that is accepted and can read its program file ends in one of a few ways. A file that is
no word file is reported as such, with exit status 1, unless it has a decimal number with too many
digits before any other refusal: the exit status is 2 then, as for an error that no one expects. Of
what the file contains nothing else leads to this exit status (`exit_of_program_file`).

The way there follows the command: the emulator that is set up is sound (`exists_size_of_setUp`),
and so stays any that goes on from it, so that the faults of the run can be reported as what they
are (`attempt_error_cases`). -/

namespace WordMachine.CommandLine

namespace Options

variable {o : Options} {e : Emulator} {dump : Option (Nat × Nat)} {program : Program}
  {error : Error} {p : Progress}

theorem mem_pokes_of_mem_assignments {assignment : Int × Int} (h : assignment ∈ o.assignments) :
    some assignment ∈ o.pokes := by
  obtain ⟨poke, hmem, hsome⟩ := List.mem_filterMap.1 h
  obtain rfl : poke = some assignment := hsome
  exact List.takeWhile_subset _ hmem

/-! ## Setting up -/

/-- Adding breakpoints changes nothing else of a control. -/
theorem exists_foldl_addBreakpoint (breakpoints : List Int) (c : Control) :
    ∃ all, breakpoints.foldl Control.addBreakpoint c = { c with breakpoints := all } := by
  induction breakpoints generalizing c with
  | nil => exact ⟨c.breakpoints, rfl⟩
  | cons address rest ih => exact ih _

/-- A command begins with an empty memory and with nothing executed. -/
theorem exists_of_emulator {size : Int} {breakpoints : List Int}
    (h : o.emulator size breakpoints = .ok e) :
    0 < size ∧ ∃ all on,
      e = ⟨{ breakpoints := all, tracing := on }, { memory := Memory.zeros size.toNat }⟩ := by
  unfold emulator at h
  split at h
  · cases h
  · next fresh hfresh =>
    cases h
    obtain ⟨machine, hmachine, rfl⟩ := map_eq_ok_iff.1 hfresh
    obtain ⟨hpos, rfl⟩ := Machine.ofSize_eq_ok_iff.1 hmachine
    obtain ⟨all, hall⟩ := exists_foldl_addBreakpoint breakpoints {}
    refine ⟨hpos, all, o.trace || o.logLevel = .debug, ?_⟩
    simp only [hall, Control.setTracing]

theorem emulator_sound {size : Int} {breakpoints : List Int}
    (h : o.emulator size breakpoints = .ok e) : 0 < size ∧ e.Sound size.toNat := by
  obtain ⟨hpos, all, on, rfl⟩ := exists_of_emulator h
  exact ⟨hpos, ⟨Memory.size_zeros _, Nat.zero_le _⟩, nofun⟩

theorem setUp_cases (h : o.setUp = .ok (e, dump)) :
    ∃ size breakpoints, o.memorySize = some size ∧ o.shownRange size = .ok dump ∧
      o.emulator size breakpoints = .ok e := by
  unfold setUp at h
  split at h
  · cases h
  next size hsize =>
  split at h
  · cases h
  next range hrange =>
  split at h
  · cases h
  next breakpoints _ =>
  split at h
  · cases h
  next emulator hemulator =>
  cases h
  exact ⟨size, breakpoints, hsize, hrange, hemulator⟩

theorem exists_size_of_setUp (h : o.setUp = .ok (e, dump)) :
    ∃ size, o.memorySize = some size ∧ 0 < size ∧ e.Sound size.toNat := by
  obtain ⟨size, breakpoints, hsize, -, hemulator⟩ := setUp_cases h
  exact ⟨size, hsize, emulator_sound hemulator⟩

theorem execute_of_setUp (h : o.setUp = .ok (e, dump)) (program : Program) :
    o.execute program = (o.attempt e program).map fun p => o.conclude p dump := by
  simp only [execute, h]

/-! ## How a command ends -/

theorem attempt_of_unread (h : program.read = .error error) :
    o.attempt e program = some { emulator := e, ended := .error error } := by
  simp only [attempt, h]

/-- A program that was read is refused only for its length. -/
theorem exists_of_load_words {words : List Int} (h : e.load (.words words) = .error error) :
    ∃ f, error = .fault f := by
  rw [Emulator.load_of_read rfl] at h
  split at h
  · cases h
    exact ⟨_, rfl⟩
  · cases h

/-- The fault that ends the run of a sound emulator is reported as a fault. -/
theorem ofFault_of_run {s : Emulator} {size : Nat} {budget : Option Int} {f : Fault}
    (he : e.Sound size) (hsize : Decimal.isWritable size = true)
    (h : e.run budget = some (.error f, s)) : Error.ofFault f = .fault f := by
  have hfaulty := Emulator.faulty_of_run h
  have hsmall := Machine.small_of_plan (he.run h).within hfaulty.plan_eq
  exact if_pos (hsmall.isWritable hsize)

/-- The errors that a command can end in: the program is not read, or there is a fault that can be
    reported, or there is an assignment that was given empty or has an address with too many
    digits. -/
theorem attempt_error_cases {size : Nat} (he : e.Sound size)
    (hsize : Decimal.isWritable size = true) (h : o.attempt e program = some p)
    (hended : p.ended = .error error) :
    program.read = .error error ∨ (∃ f, error = .fault f) ∨ none ∈ o.pokes ∨
      ∃ address value, some (address, value) ∈ o.pokes ∧ Decimal.isWritable address = false := by
  unfold attempt at h
  split at h
  · next unread hread =>
    cases h
    cases hended
    exact Or.inl hread
  next words hread =>
  split at h
  · next refusal hload =>
    cases h
    cases hended
    exact Or.inr (Or.inl (exists_of_load_words hload))
  next loaded hload =>
  have hloaded : loaded.Sound size := he.load hload
  split at h
  · next f machine hwrite =>
    cases h
    cases hended
    obtain ⟨address, value, cells, hmem, rfl⟩ := Machine.exists_of_writeAll_error hwrite
    cases hwritable : Decimal.isWritable address with
    | true =>
      have hfault : (Fault.badAddress address cells).isWritable = true := by
        simp [Fault.isWritable, Fault.address?, Fault.opcode?, hwritable]
      exact Or.inr (Or.inl ⟨_, if_pos hfault⟩)
    | false =>
      have hpoke := mem_pokes_of_mem_assignments hmem
      exact Or.inr (Or.inr (Or.inr ⟨address, value, hpoke, hwritable⟩))
  next machine hwrite =>
  have hwritten : Emulator.Sound size { loaded with machine } :=
    ⟨hloaded.within.writeAll hwrite, hloaded.settled⟩
  split at h
  · next hnone => exact Or.inr (Or.inr (Or.inl hnone))
  obtain ⟨⟨outcome, last⟩, hrun, hp⟩ := Option.map_eq_some_iff.1 h
  cases outcome with
  | ok reason =>
    cases hp
    cases hended
  | error f =>
    cases hp
    cases hended
    exact Or.inr (Or.inl ⟨f, ofFault_of_run hwritten hsize hrun⟩)

/-! ## The exit status -/

theorem exitStatus_ne_two (reason : StopReason) : exitStatus reason ≠ 2 := by
  cases reason <;> decide

/-- Only an error that is neither a fault nor one of the format is reported as internal. -/
theorem exists_error_of_exit_eq_two (h : (o.conclude p dump).exit = 2) :
    ∃ error, p.ended = .error error ∧ (∀ f, error ≠ .fault f) ∧ ∀ e, error ≠ .format e := by
  unfold conclude at h
  split at h
  · next reason hended => exact absurd h (exitStatus_ne_two reason)
  next error hended =>
  refine ⟨error, hended, ?_, ?_⟩
  · rintro f rfl
    cases h
  · rintro e rfl
    cases h

/-- If the program is not read, the command leaves nothing behind but the message about that. -/
theorem execute_of_unread (hsetUp : o.setUp = .ok (e, dump)) (h : program.read = .error error)
    (hfault : ∀ f, error ≠ .fault f) :
    o.execute program = some ⟨(o.complaint error).2, "", (o.complaint error).1⟩ := by
  have hlog : String.join [] ++ (o.complaint error).1 = (o.complaint error).1 :=
    String.empty_append
  rw [execute_of_setUp hsetUp, attempt_of_unread h, ← hlog]
  cases error with
  | fault f => exact absurd rfl (hfault f)
  | _ => rfl

end Options

/-! ## The program file -/

variable {d : Directory} {arguments : List String} {o : Options} {e : Emulator}
  {dump : Option (Nat × Nat)} {bytes : ByteArray} {chars : List Char}

theorem program_of_read (hread : d.read (Path.ofString o.program) = .ok bytes) :
    d.program o.program = .file (Path.ofString o.program).text (.ok bytes) := by
  rw [Directory.program, hread]

theorem read_of_text (hread : d.read (Path.ofString o.program) = .ok bytes)
    (h : Text.Utf8.decode bytes = .ok chars) :
    (d.program o.program).read = WordFile.parse chars := by
  rw [program_of_read hread, Program.read_file_of_text h, Program.read, String.toList_ofList]

/-- A file that is refused for anything but its format has a number with too many digits. -/
theorem tooLong_of_unread {error : Error} (hread : d.read (Path.ofString o.program) = .ok bytes)
    (h : (d.program o.program).read = .error error) (hformat : ∀ e, error ≠ .format e) :
    ∃ text n, Text.Utf8.decode bytes = .ok text ∧
      WordFile.parse text = .error (.numeral (.tooLong n)) := by
  cases hdecode : Text.Utf8.decode bytes with
  | error malformed =>
    rw [program_of_read hread, Program.read_file_of_malformed hdecode] at h
    exact absurd (Except.error.inj h).symm (hformat _)
  | ok text =>
    rw [read_of_text hread hdecode] at h
    refine ⟨text, ?_⟩
    rcases WordFile.parse_cases text with ⟨words, hparse⟩ | ⟨line, token, -, hrefused⟩
    · cases hparse.symm.trans h
    rcases hrefused with ⟨hparse, -⟩ | ⟨factor, values, hparse, -⟩
    · exact absurd (Except.error.inj (hparse.symm.trans h)).symm (hformat _)
    · exact ⟨values.length, rfl, hparse⟩

theorem run_of_parse (hparse : Options.parse arguments = .ok o) :
    run d arguments = o.execute (d.program o.program) := by
  simp only [run, hparse]

/-- What a command leaves behind whose arguments are accepted and whose program file can be read.
    If the file is no text, the exit status is 1 and this is reported. If it is a text, then it is a
    word file, or the first token that is refused is reported with its line and the exit status 1,
    or this token is a decimal number with too many digits and the exit status is 2. There is this
    exit status in no other case, unless an assignment was given empty or has an address with too
    many digits. -/
theorem exit_of_program_file (d : Directory) (arguments : List String) (o : Options) (e : Emulator)
    (dump : Option (Nat × Nat)) (bytes : ByteArray) (hparse : Options.parse arguments = .ok o)
    (hsetUp : o.setUp = .ok (e, dump))
    (hread : d.read (Path.ofString o.program) = .ok bytes) :
    (∀ malformed, Text.Utf8.decode bytes = .error malformed →
      let error := FormatError.notText (Path.ofString o.program).text malformed
      run d arguments = some ⟨1, "", s!"Program format error: {error.message}\n"⟩) ∧
    (∀ text, (∃ words, WordFile.parse text = .ok words) ∨
      ∃ line token, 1 ≤ line ∧
        ((WordFile.FirstRefusal text line token (.format (.notAWord line token)) ∧
          WordFile.parse text = .error (.format (.notAWord line token)) ∧
          (Text.Utf8.decode bytes = .ok text →
            let error := FormatError.notAWord line token
            run d arguments = some ⟨1, "", s!"Program format error: {error.message}\n"⟩)) ∨
        ∃ n, Decimal.digitLimit < n ∧
          WordFile.FirstRefusal text line token (.numeral (.tooLong n)) ∧
          WordFile.parse text = .error (.numeral (.tooLong n)) ∧
          (Text.Utf8.decode bytes = .ok text →
            let error := NumeralError.tooLong n
            run d arguments = some ⟨2, "", s!"Internal error: {error.message}\n" ++
              if o.verbose then originLine else ""⟩))) ∧
    (∀ outcome, run d arguments = some outcome → outcome.exit = 2 →
      (∃ text n, Text.Utf8.decode bytes = .ok text ∧
        WordFile.parse text = .error (.numeral (.tooLong n))) ∨
      none ∈ o.pokes ∨
      ∃ address value, some (address, value) ∈ o.pokes ∧ Decimal.isWritable address = false) := by
  have hunread : ∀ error, (d.program o.program).read = .error error →
      (∀ f, error ≠ .fault f) →
        run d arguments = some ⟨(o.complaint error).2, "", (o.complaint error).1⟩ :=
    fun error h hfault => (run_of_parse hparse).trans (Options.execute_of_unread hsetUp h hfault)
  refine ⟨fun malformed h => ?_, fun text => ?_, fun outcome hrun hexit => ?_⟩
  · have hprogram : (d.program o.program).read = _ :=
      program_of_read hread ▸ Program.read_file_of_malformed h
    exact hunread _ hprogram (by simp)
  · rcases WordFile.parse_cases text with hwords | ⟨line, token, hline, hrefused⟩
    · exact Or.inl hwords
    refine Or.inr ⟨line, token, hline, ?_⟩
    rcases hrefused with ⟨hparse, hfirst, -⟩ | ⟨factor, values, hparse, hfirst, -, hlong⟩
    · refine Or.inl ⟨hfirst, hparse, fun hdecode => ?_⟩
      exact hunread _ ((read_of_text hread hdecode).trans hparse) (by simp)
    · refine Or.inr ⟨values.length, hlong, hfirst, hparse, fun hdecode => ?_⟩
      exact hunread _ ((read_of_text hread hdecode).trans hparse) (by simp)
  · rw [run_of_parse hparse, Options.execute_of_setUp hsetUp] at hrun
    obtain ⟨p, hattempt, rfl⟩ := Option.map_eq_some_iff.1 hrun
    obtain ⟨error, hended, hfault, hformat⟩ := Options.exists_error_of_exit_eq_two hexit
    obtain ⟨size, hsize, hpos, hsound⟩ := Options.exists_size_of_setUp hsetUp
    have hwritable : Decimal.isWritable size.toNat = true := by
      rw [Int.toNat_of_nonneg (Int.le_of_lt hpos)]
      exact Options.isWritable_memorySize hparse hsize
    rcases Options.attempt_error_cases hsound hwritable hattempt hended with
      hunread | ⟨f, rfl⟩ | hpokes
    · obtain ⟨text, n, hdecode, hlong⟩ := tooLong_of_unread hread hunread hformat
      exact Or.inl ⟨text, n, hdecode, hlong⟩
    · exact absurd rfl (hfault f)
    · exact Or.inr hpokes

/-- A file that holds a question mark. -/
theorem exit_of_program_file_question_mark :
    let d : Directory := ⟨[("p", ⟨#[0x3F]⟩)]⟩
    let error := FormatError.notAWord 1 ['?']
    run d ["p"] = some ⟨1, "", s!"Program format error: {error.message}\n"⟩ := by
  intro d
  have hdecode : Text.Utf8.decode ⟨#[0x3F]⟩ = .ok ['?'] := Text.Utf8.decode_utf8Encode ['?']
  have hparse : WordFile.parse ['?'] = .error (.format (.notAWord 1 ['?'])) := by decide
  obtain ⟨-, htext, -⟩ := exit_of_program_file d ["p"] { program := "p" } _ none ⟨#[0x3F]⟩
    (by decide) rfl rfl
  rcases htext ['?'] with
    ⟨words, hwords⟩ | ⟨line, token, -, ⟨-, hrefused, hrun⟩ | ⟨n, -, -, hlong, -⟩⟩
  · cases hparse.symm.trans hwords
  · cases hparse.symm.trans hrefused
    exact hrun hdecode
  · cases hparse.symm.trans hlong

end WordMachine.CommandLine
