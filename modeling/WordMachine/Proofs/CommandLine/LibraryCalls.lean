import WordMachine.Proofs.CommandLine.Forms
import WordMachine.Proofs.CommandLine.Parsing
import WordMachine.Proofs.Run.Lockstep

set_option autoImplicit false

/-! # A command makes the calls of the library

What a command does can be done with operations on a new emulator: the trace is turned on or off,
the breakpoints are added, the program is loaded, the assigned values are written, and the emulator
runs (`Options.calls`). The exit status of the command says how these operations ended, and what it
prints can be read back to the emulator that they left (`Options.Reports`, `run_refines_calls`).

Before the run both only change the machine, and in the same way (`Options.prepare`). The command
may record instructions for its log where the operations do not, so that the two runs are not the
same but go in lockstep. -/

namespace WordMachine

open Decimal

/-- The value of the first field with this name. -/
def Json.field? (name : String) : Json → Option Json
  | .object fields => fields.lookup name
  | _ => none

namespace CommandLine

namespace Options

/-- The operations before the run. -/
def preparation (o : Options) (breakpoints : List Int) (program : Program) :
    List (Option Operation) :=
  some (.setTracing o.trace) ::
    (breakpoints.map (fun address => some (.addBreakpoint address)) ++ o.loading program)

/-- Performs the operations that a command stands for, the run last. -/
def calls (o : Options) (breakpoints : List Int) (program : Program) (fresh : Emulator) :
    Performance :=
  match fresh.performAll (o.preparation breakpoints program) with
  | some (.ok _, before) => (Operation.run o.budget).perform before
  | stopped => stopped

end Options

variable {o : Options} {e fresh last : Emulator} {breakpoints : List Int} {program : Program}
  {result : Except Error Answer} {p : Progress} {dump : Option (Nat × Nat)} {error : Error}
  {stop : Option StopReason}

/-! ## Before the run -/

theorem performAll_breakpoints (breakpoints : List Int) (rest : List (Option Operation))
    (e : Emulator) :
    e.performAll (breakpoints.map (fun address => some (.addBreakpoint address)) ++ rest) =
      Emulator.performAll
        { e with control := breakpoints.foldl Control.addBreakpoint e.control } rest := by
  induction breakpoints generalizing e with
  | nil => rfl
  | cons address later ih => exact ih _

theorem performAll_preparation (o : Options) (breakpoints : List Int) (program : Program)
    (fresh : Emulator) :
    fresh.performAll (o.preparation breakpoints program) =
      some ((o.prepare fresh.machine program).1.map fun _ => .done,
        ⟨breakpoints.foldl Control.addBreakpoint (fresh.control.setTracing o.trace),
          (o.prepare fresh.machine program).2⟩) := by
  have htracing : fresh.performAll (o.preparation breakpoints program) =
      Emulator.performAll { fresh with control := fresh.control.setTracing o.trace }
        (breakpoints.map (fun address => some (.addBreakpoint address)) ++ o.loading program) := rfl
  rw [htracing, performAll_breakpoints, performAll_loading]

/-- The operations in the order of the command, told by what they do to the machine. -/
theorem calls_eq (o : Options) (breakpoints : List Int) (program : Program) (fresh : Emulator) :
    o.calls breakpoints program fresh =
      let control := breakpoints.foldl Control.addBreakpoint (fresh.control.setTracing o.trace)
      match o.prepare fresh.machine program with
      | (.error error, machine) => some (.error error, ⟨control, machine⟩)
      | (.ok (), machine) =>
        (Emulator.run ⟨control, machine⟩ o.budget).map fun (outcome, last) =>
          (Operation.reported (outcome.map .stopped), last) := by
  simp only [Options.calls, performAll_preparation]
  rcases o.prepare fresh.machine program with ⟨_ | _, machine⟩
  · rfl
  · rfl

/-! ## The run -/

/-- The command ends as the operations do, with an emulator that is so related to theirs, if the
    relation is kept in lockstep. -/
theorem exists_attempt_of_calls {R : Emulator → Emulator → Prop}
    (hR : Emulator.Lockstep (fun _ => False) R) {control : Control}
    (hstart : ∀ machine, R
      ⟨breakpoints.foldl Control.addBreakpoint (fresh.control.setTracing o.trace), machine⟩
      ⟨control, machine⟩)
    (h : o.calls breakpoints program fresh = some (result, last)) :
    ∃ p, o.attempt ⟨control, fresh.machine⟩ program = some p ∧
      p.ended.map .stopped = result ∧ R last p.emulator := by
  rw [calls_eq] at h
  have hending := ending_attempt o ⟨control, fresh.machine⟩ program
  rcases hprepare : o.prepare fresh.machine program with ⟨error | _, machine⟩
  · simp only [hprepare] at h hending
    cases h
    obtain ⟨p, hp, hpair⟩ := Option.map_eq_some_iff.1 hending
    obtain ⟨hended, hemulator⟩ := Prod.mk.inj hpair
    refine ⟨p, hp, by rw [hended]; rfl, ?_⟩
    rw [hemulator]
    exact hstart machine
  · simp only [hprepare] at h hending
    obtain ⟨⟨outcome, last⟩, hrun, hpair⟩ := Option.map_eq_some_iff.1 h
    cases hpair
    obtain ⟨u, hu, hend⟩ := hR.run (hstart machine) hrun fun _ _ => id
    rw [hu] at hending
    obtain ⟨p, hp, hpair⟩ := Option.map_eq_some_iff.1 hending
    obtain ⟨hended, hemulator⟩ := Prod.mk.inj hpair
    refine ⟨p, hp, ?_, ?_⟩
    · rw [hended]
      cases outcome <;> rfl
    · rw [hemulator]
      exact hend

/-- An emulator goes in lockstep with itself. -/
theorem lockstep_eq : Emulator.Lockstep (fun _ => False) (· = ·) where
  location h := by rw [h]
  control h := by rw [h]; exact .refl _
  plan h := Or.inr (by rw [h])
  markBreakpoint h := by rw [h]
  attempted h := by rw [h]
  executed h _ := by rw [h]
  halt h := by rw [h]

/-- Whether instructions are recorded makes no difference to a run. -/
theorem lockstep_same : Emulator.Lockstep (fun _ => False) (Emulator.Beside (· = ·)) :=
  Emulator.lockstep_beside (fun h => by rw [h]) (fun h => Or.inr (by rw [h])) fun h _ => by rw [h]

theorem foldl_addBreakpoint_setTracing (breakpoints : List Int) (c : Control) (on : Bool) :
    breakpoints.foldl Control.addBreakpoint (c.setTracing on) =
      (breakpoints.foldl Control.addBreakpoint c).setTracing on := by
  induction breakpoints generalizing c with
  | nil => rfl
  | cons address rest ih =>
    have hcomm : (c.setTracing on).addBreakpoint address =
        (c.addBreakpoint address).setTracing on := rfl
    rw [List.foldl_cons, List.foldl_cons, hcomm, ih]

/-- The command may have recorded more than the operations, but not if a trace is asked for. -/
structure Options.Matches (o : Options) (last : Emulator) (p : Progress) : Prop where
  machine : last.machine = p.emulator.machine
  steps : last.control.steps = p.emulator.control.steps
  trace : o.trace = true → last.control.trace = p.emulator.control.trace

theorem exists_matches_of_calls (log : Bool)
    (h : o.calls breakpoints program fresh = some (result, last)) :
    let control := breakpoints.foldl Control.addBreakpoint fresh.control
    ∃ p, o.attempt { fresh with control := control.setTracing (o.trace || log) } program = some p ∧
      p.ended.map .stopped = result ∧ o.Matches last p := by
  intro control
  have hcontrol : ∀ machine, Emulator.Beside (· = ·)
      ⟨breakpoints.foldl Control.addBreakpoint (fresh.control.setTracing o.trace), machine⟩
      ⟨control.setTracing (o.trace || log), machine⟩ := by
    intro machine
    rw [foldl_addBreakpoint_setTracing]
    exact ⟨rfl, rfl, rfl, rfl, fun _ => Iff.rfl⟩
  obtain ⟨p, hattempt, hended, hbeside⟩ := exists_attempt_of_calls lockstep_same hcontrol h
  refine ⟨p, hattempt, hended, hbeside.machine, hbeside.control.steps, fun htrace => ?_⟩
  -- If a trace is asked for, the two begin as the same emulator and record the same.
  have hequal : ∀ machine, (⟨breakpoints.foldl Control.addBreakpoint
      (fresh.control.setTracing o.trace), machine⟩ : Emulator) =
      ⟨control.setTracing (o.trace || log), machine⟩ := by
    intro machine
    rw [foldl_addBreakpoint_setTracing, htrace, Bool.true_or]
  obtain ⟨q, hq, -, hlast⟩ := exists_attempt_of_calls lockstep_eq hequal h
  cases hattempt.symm.trans hq
  rw [hlast]

/-- An error leaves the machine as the instructions before left it, none if the run did not
    begin. -/
theorem exists_after_of_calls (hfresh : fresh.control.steps = 0)
    (h : o.calls breakpoints program fresh = some (.error error, last)) :
    ∃ answer before k t,
      fresh.performAll (o.preparation breakpoints program) = some (answer, before) ∧
        before.after k = some t ∧ last.machine = t.machine ∧ last.control.steps = k := by
  obtain ⟨all, hcontrol⟩ :=
    Options.exists_foldl_addBreakpoint breakpoints (fresh.control.setTracing o.trace)
  have hsteps : (fresh.control.setTracing o.trace).steps = 0 := hfresh
  have hbefore := performAll_preparation o breakpoints program fresh
  rw [calls_eq] at h
  rcases hprepare : o.prepare fresh.machine program with ⟨refusal | _, machine⟩
  · simp only [hprepare] at h hbefore
    cases h
    exact ⟨_, _, 0, _, hbefore, rfl, rfl, by rw [hcontrol]; exact hsteps⟩
  · simp only [hprepare] at h hbefore
    obtain ⟨⟨_ | reason, last⟩, hrun, hpair⟩ := Option.map_eq_some_iff.1 h
    · cases hpair
      obtain ⟨k, t, ht, hmachine, hcount⟩ := Emulator.exists_after_of_fault hrun
      refine ⟨_, _, k, t, hbefore, ht, hmachine, ?_⟩
      rw [hcount, hcontrol, hsteps, Nat.zero_add]
    · cases hpair

/-! ## Errors of reading a file -/

theorem ofFault_ne_file (f : Fault) (e : FileError) : Error.ofFault f ≠ .file e := by
  unfold Error.ofFault
  split <;> exact nofun

theorem writeGiven_ne_file (pokes : List (Option (Int × Int))) (m : Machine) (e : FileError) :
    (m.writeGiven pokes).1 ≠ .error (.file e) := by
  induction pokes generalizing m with
  | nil => nofun
  | cons poke rest ih =>
    cases poke with
    | none => nofun
    | some assignment =>
      rw [Machine.writeGiven]
      cases m.write assignment.1 assignment.2 with
      | ok machine => exact ih machine
      | error f => exact fun h => ofFault_ne_file f e (Except.error.inj h)

/-- Of all that comes before the run, only reading the program meets a file. -/
theorem read_of_prepare {m : Machine} {e : FileError}
    (h : (o.prepare m program).1 = .error (.file e)) : program.read = .error (.file e) := by
  rw [Options.prepare] at h
  split at h
  · next unread hunread => rw [hunread, Except.error.inj h]
  split at h
  · exact absurd (Except.error.inj h) (ofFault_ne_file _ e)
  · exact absurd h (writeGiven_ne_file _ _ e)

/-- No operation answers an error of reading a file that was read. -/
theorem ne_file_of_calls {d : Directory} {bytes : ByteArray}
    (hread : d.read (Path.ofString o.program) = .ok bytes)
    (h : o.calls breakpoints (d.program o.program) fresh = some (.error error, last))
    (e : FileError) : error ≠ .file e := by
  rintro rfl
  rw [calls_eq] at h
  rcases hprepare : o.prepare fresh.machine (d.program o.program) with ⟨refusal | _, machine⟩
  · simp only [hprepare] at h
    cases h
    have hunread := read_of_prepare (congrArg Prod.fst hprepare)
    obtain ⟨text, n, hdecode, hparse⟩ := tooLong_of_unread hread hunread nofun
    rw [read_of_text hread hdecode, hparse] at hunread
    cases hunread
  · simp only [hprepare] at h
    obtain ⟨⟨outcome, last⟩, -, hpair⟩ := Option.map_eq_some_iff.1 h
    obtain ⟨hended, -⟩ := Prod.mk.inj hpair
    cases outcome with
    | error f => exact ofFault_ne_file f e (Except.error.inj hended)
    | ok reason => cases hended

/-! ## What is printed -/

namespace Options

/-- The trace that is printed before the report, if it is asked for. -/
def shownTrace (o : Options) (e : Emulator) : String :=
  if o.trace then traceText e.control.trace ++ "\n" else ""

/-- The report can be read back, in the form that was asked for, to why and after how many
    instructions the emulator stopped, its registers, and the cells of the range to show. -/
def Shows (o : Options) (dump : Option (Nat × Nat)) (stop : Option StopReason) (e : Emulator)
    (stdout : String) : Prop :=
  ∃ report cells, stdout = o.shownTrace e ++ report ∧
    Option.Rel (fun range shown => CellsOf e.machine.memory range.1 range.2 shown) dump cells ∧
    (o.json = true → Json.parse? report = some (finalJson stop e cells)) ∧
    (o.json = false → readShown? report = some
      ⟨stop.map fun reason => (reason.name, (e.control.steps : Int)),
        e.machine.registers.readings, cells⟩)

/-- A JSON report with this as its reason to stop. -/
def Tells (o : Options) (e : Emulator) (stdout name : String) : Prop :=
  ∃ report json, stdout = o.shownTrace e ++ report ∧ Json.parse? report = some json ∧
    json.field? "stop" = some (.text name)

/-- What a command leaves behind tells how the operations ended and what emulator they left. -/
structure Reports (o : Options) (dump : Option (Nat × Nat)) (result : Except Error Answer)
    (last : Emulator) (outcome : Outcome) : Prop where
  halt : outcome.exit = 0 ↔ result = .ok (.stopped .halt)
  timeout : outcome.exit = 3 ↔ result = .ok (.stopped .timeout)
  breakpoint : outcome.exit = 4 ↔ result = .ok (.stopped .breakpoint)
  refused : outcome.exit = 1 ↔
    (∃ f, result = .error (.fault f)) ∨ ∃ e, result = .error (.format e)
  stopped : ∀ reason, result = .ok (.stopped reason) →
    o.Shows dump (some reason) last outcome.stdout
  fault : ∀ f, result = .error (.fault f) → o.Shows dump none last outcome.stdout
  silent : ∀ error, result = .error error → (∀ f, error ≠ .fault f) → outcome.stdout = ""
  tellsHalt : o.json = true →
    (o.Tells last outcome.stdout "HALT" ↔ result = .ok (.stopped .halt))
  tellsTimeout : o.json = true →
    (o.Tells last outcome.stdout "TIMEOUT" ↔ result = .ok (.stopped .timeout))
  tellsBreak : o.json = true →
    (o.Tells last outcome.stdout "BREAK" ↔ result = .ok (.stopped .breakpoint))
  tellsError : o.json = true →
    (o.Tells last outcome.stdout "ERROR" ↔ ∃ f, result = .error (.fault f))

end Options

variable {stdout name : String}

theorem tells_iff_of_shows (hjson : o.json = true) (h : o.Shows dump stop last stdout) :
    o.Tells last stdout name ↔ name = stop.elim "ERROR" StopReason.name := by
  obtain ⟨report, cells, rfl, -, hparse, -⟩ := h
  have hfield : (finalJson stop last cells).field? "stop" =
      some (.text (stop.elim "ERROR" StopReason.name)) := rfl
  constructor
  · rintro ⟨other, json, hother, hread, hname⟩
    rw [← (String.append_right_inj _).1 hother, hparse hjson] at hread
    cases hread
    rw [hfield] at hname
    cases hname
    rfl
  · rintro rfl
    exact ⟨report, _, rfl, hparse hjson, hfield⟩

/-- A JSON report is not empty. -/
theorem not_tells_empty : ¬o.Tells last "" name := by
  rintro ⟨report, json, hempty, hparse, -⟩
  obtain ⟨-, rfl⟩ := String.append_eq_empty_iff.1 hempty.symm
  have hnothing : Json.parse? "" = none := by decide
  rw [hnothing] at hparse
  cases hparse

/-- The cells of a range that exists are shown. -/
theorem rel_cellsOf {memory : Memory} (hrange : ∀ range ∈ dump, range.2 < memory.size) :
    Option.Rel (fun range shown => CellsOf memory range.1 range.2 shown) dump (dump.map fun range =>
      Memory.addressed range.1 (memory.values range.1 (range.2 + 1))) := by
  cases dump with
  | none => exact .none
  | some range => exact .some (cellsOf_values memory (hrange range rfl))

theorem shows_report (hlast : o.Matches last p) (hrange : ∀ range ∈ dump, range.1 ≤ range.2 ∧
    range.2 < last.machine.memory.size) :
    o.Shows dump p.ended.toOption last (o.report p dump) := by
  let r : Report := .of p.ended.toOption last dump
  have htrace : (if o.trace then traceText p.emulator.control.trace ++ "\n" else "") =
      o.shownTrace last := by
    unfold Options.shownTrace
    split
    · next htrace => rw [hlast.trace htrace]
    · rfl
  have hreport : o.report p dump =
      o.shownTrace last ++ (if o.json then r.toJson.write 0 ++ "\n" else r.text) := by
    rw [← htrace]
    simp only [Options.report, r, Report.of, hlast.machine, hlast.steps]
  refine ⟨_, _, hreport, rel_cellsOf fun range h => (hrange range h).2, fun hjson => ?_,
    fun hjson => ?_⟩
  · rw [if_pos hjson, Json.parse?_write _ (by decide), toJson_of]
  · rw [hjson, if_neg Bool.false_ne_true]
    exact readShown?_text hrange

/-! ## What is left behind -/

theorem exit_conclude (o : Options) (p : Progress) (dump : Option (Nat × Nat)) :
    (o.conclude p dump).exit =
      match p.ended with
      | .ok reason => exitStatus reason
      | .error error => (o.complaint error).2 := by
  unfold Options.conclude
  rcases p.ended with error | reason
  · cases error <;> rfl
  · rfl

/-- A fault and an error of the format are reported with the exit status 1, and any other error
    than one of reading a file with 2. -/
theorem exit_complaint (o : Options) (hfile : ∀ e, error ≠ .file e) :
    ((o.complaint error).2 = 1 ∨ (o.complaint error).2 = 2) ∧
      ((o.complaint error).2 = 1 ↔ (∃ f, error = .fault f) ∨ ∃ e, error = .format e) := by
  cases error with
  | file e => exact absurd rfl (hfile e)
  | fault f => exact ⟨Or.inl rfl, iff_of_true rfl (Or.inl ⟨f, rfl⟩)⟩
  | format e => exact ⟨Or.inl rfl, iff_of_true rfl (Or.inr ⟨e, rfl⟩)⟩
  | _ => exact ⟨Or.inr rfl, iff_of_false (by decide : (2 : Nat) ≠ 1) (by simp)⟩

theorem reports_of_ok {reason : StopReason} (hended : p.ended = .ok reason)
    (hshows : o.Shows dump p.ended.toOption last (o.report p dump)) :
    o.Reports dump (.ok (.stopped reason)) last (o.conclude p dump) := by
  have hexit : (o.conclude p dump).exit = exitStatus reason := by rw [exit_conclude, hended]
  have hstdout : (o.conclude p dump).stdout = o.report p dump := by
    simp only [Options.conclude, hended]
  rw [hended, ← hstdout] at hshows
  have htells : o.json = true → ∀ name,
      (o.Tells last (o.conclude p dump).stdout name ↔ name = reason.name) :=
    fun hjson name => tells_iff_of_shows hjson hshows
  exact {
    halt := by cases reason <;> simp [hexit, exitStatus]
    timeout := by cases reason <;> simp [hexit, exitStatus]
    breakpoint := by cases reason <;> simp [hexit, exitStatus]
    refused := by cases reason <;> simp [hexit, exitStatus]
    stopped := fun other hother => by
      cases hother
      exact hshows
    fault := by simp
    silent := by simp
    tellsHalt := fun hjson => by cases reason <;> simp [htells hjson, StopReason.name]
    tellsTimeout := fun hjson => by cases reason <;> simp [htells hjson, StopReason.name]
    tellsBreak := fun hjson => by cases reason <;> simp [htells hjson, StopReason.name]
    tellsError := fun hjson => by cases reason <;> simp [htells hjson, StopReason.name] }

theorem reports_of_error (hended : p.ended = .error error) (hfile : ∀ e, error ≠ .file e)
    (hshows : o.Shows dump p.ended.toOption last (o.report p dump)) :
    o.Reports dump (.error error) last (o.conclude p dump) := by
  have hexit : (o.conclude p dump).exit = (o.complaint error).2 := by rw [exit_conclude, hended]
  obtain ⟨hstatus, hrefused⟩ := exit_complaint o hfile
  have hfault : ∀ f, error = .fault f → o.Shows dump none last (o.conclude p dump).stdout := by
    rintro f rfl
    rw [hended] at hshows
    simp only [Options.conclude, hended]
    exact hshows
  have hsilent : (∀ f, error ≠ .fault f) → (o.conclude p dump).stdout = "" := by
    intro hno
    simp only [Options.conclude, hended]
  have htells : o.json = true → ∀ name, (o.Tells last (o.conclude p dump).stdout name ↔
      name = "ERROR" ∧ ∃ f, error = .fault f) := by
    intro hjson name
    by_cases hany : ∃ f, error = .fault f
    · obtain ⟨f, hf⟩ := hany
      rw [tells_iff_of_shows hjson (hfault f hf)]
      exact ⟨fun hname => ⟨hname, f, hf⟩, And.left⟩
    · rw [hsilent fun f hf => hany ⟨f, hf⟩]
      exact iff_of_false not_tells_empty fun h => hany h.2
  exact {
    halt := iff_of_false (by omega) (by simp)
    timeout := iff_of_false (by omega) (by simp)
    breakpoint := iff_of_false (by omega) (by simp)
    refused := by simpa [hexit] using hrefused
    stopped := by simp
    fault := fun f hf => hfault f (Except.error.inj hf)
    silent := fun other hother => by
      cases hother
      exact hsilent
    tellsHalt := fun hjson => by simp [htells hjson]
    tellsTimeout := fun hjson => by simp [htells hjson]
    tellsBreak := fun hjson => by simp [htells hjson]
    tellsError := fun hjson => by simp [htells hjson] }

/-- A command whose options are sound begins with a new emulator that has the breakpoints. -/
theorem setUp_eq {size : Int} (hsize : o.memorySize = some size)
    (hdump : o.shownRange size = .ok dump) (hbreakpoints : o.breakpoints = breakpoints.map some) :
    ∃ fresh, Emulator.ofSize size = .ok fresh ∧ fresh.control = {} ∧
      let control := breakpoints.foldl Control.addBreakpoint fresh.control
      o.setUp = .ok
        ({ fresh with control := control.setTracing (o.trace || o.logLevel = .debug) }, dump) := by
  have hpos : 0 < size := by
    by_contra hno
    rw [Options.shownRange, if_pos (by omega)] at hdump
    cases hdump
  have hfresh :
      Emulator.ofSize size = .ok { machine := { memory := Memory.zeros size.toNat } } := by
    rw [Emulator.ofSize, Machine.ofSize_eq_ok_iff.2 ⟨hpos, rfl⟩]
    rfl
  have hgiven : (breakpoints.map some).mapM id = some breakpoints := by
    rw [List.mapM_map]
    exact List.mapM_pure.trans (congrArg some (List.map_id _))
  refine ⟨_, hfresh, rfl, ?_⟩
  simp only [Options.setUp, hsize, hdump, hbreakpoints, hgiven, Options.emulator, hfresh]

/-- The cells to show are the range that the options have, if they have one. -/
theorem dump_of_setUp (ho : o.Checked) (h : o.setUp = .ok (e, dump)) :
    o.dump = dump.map fun range => ((range.1 : Int), (range.2 : Int)) := by
  cases dump with
  | some range => exact (Options.range_of_setUp ho h).1
  | none =>
    obtain ⟨size, -, -, hrange, -⟩ := Options.setUp_cases h
    unfold Options.shownRange at hrange
    split at hrange
    · cases hrange
    split at hrange
    · assumption
    split at hrange
    · cases hrange
    · cases hrange

/-- A command does what the calls of the library do. Let its arguments be accepted, with a memory
    size and breakpoints that are given and cells to show that exist, and let the program file be
    readable. The options are then those that the arguments ask for, and no others: the assignments
    and the breakpoints as they are given one after the other, and of all else the last or the
    default. Let the trace be turned on or off for a new emulator of the asked size, the breakpoints
    be added, the program be loaded, the assigned values be written in their order and the emulator
    be run, up to the first operation that answers an error. If this comes to an end, then so does
    the command. Its exit status tells how the operations ended, and what it prints can be read back
    to the reason, the count of executed instructions, the registers and the asked cells of the
    emulator that the operations left, whether the report is plain or JSON. Only a run without a
    budget that executes `10 ^ digitLimit` instructions has a count too long to be written. After an
    error the machine is that which the instructions before it left, and their number is counted. -/
theorem run_refines_calls (d : Directory) (arguments : List String) (o : Options) (size : Int)
    (breakpoints : List Int) (dump : Option (Nat × Nat)) (bytes : ByteArray)
    (hparse : Options.parse arguments = .ok o) (hsize : o.memorySize = some size)
    (hdump : o.shownRange size = .ok dump) (hbreakpoints : o.breakpoints = breakpoints.map some)
    (hread : d.read (Path.ofString o.program) = .ok bytes) :
    (∀ other : Options, other.AskedBy arguments ↔ other = o) ∧
    o.dump = dump.map (fun range => ((range.1 : Int), (range.2 : Int))) ∧
    ∃ fresh, Emulator.ofSize size = .ok fresh ∧
      ∀ result last, o.calls breakpoints (d.program o.program) fresh = some (result, last) →
        ∃ outcome, run d arguments = some outcome ∧ o.Reports dump result last outcome ∧
          (isWritable last.control.steps = true ∨
            o.maxSteps = 0 ∧ 10 ^ digitLimit ≤ last.control.steps) ∧
          ((∃ reason, result = .ok (.stopped reason)) ∨
            ∃ error, result = .error error ∧ ∃ answer before k t,
              fresh.performAll (o.preparation breakpoints (d.program o.program)) =
                  some (answer, before) ∧
                before.after k = some t ∧ last.machine = t.machine ∧ last.control.steps = k) := by
  have ho := Options.checked_of_parse hparse
  obtain ⟨fresh, hfresh, hcontrol, hsetUp⟩ := setUp_eq hsize hdump hbreakpoints
  have hasked : ∀ other : Options, other.AskedBy arguments ↔ other = o := fun other => by
    rw [← Options.parse_eq_ok_iff, hparse, Except.ok.injEq, eq_comm]
  refine ⟨hasked, dump_of_setUp ho hsetUp, fresh, hfresh, fun result last hcalls => ?_⟩
  obtain ⟨p, hattempt, hended, hlast⟩ := exists_matches_of_calls (o.logLevel = .debug) hcalls
  have hrun : run d arguments = some (o.conclude p dump) := by
    rw [run_of_parse hparse, Options.execute_of_setUp hsetUp, hattempt]
    rfl
  have hshows : o.Shows dump p.ended.toOption last (o.report p dump) := by
    refine shows_report hlast ?_
    rw [hlast.machine]
    exact Options.range_of_attempt ho hsetUp hattempt
  have hcount : isWritable last.control.steps = true ∨
      o.maxSteps = 0 ∧ 10 ^ digitLimit ≤ last.control.steps := by
    rw [hlast.steps]
    exact Options.isWritable_steps_or ho hsetUp hattempt
  refine ⟨_, hrun, ?_⟩
  cases hp : p.ended with
  | ok reason =>
    rw [hp] at hended
    cases hended
    exact ⟨reports_of_ok hp hshows, hcount, Or.inl ⟨reason, rfl⟩⟩
  | error error =>
    rw [hp] at hended
    cases hended
    have hfile : ∀ e, error ≠ .file e := ne_file_of_calls hread hcalls
    have hafter := exists_after_of_calls (by rw [hcontrol]) hcalls
    exact ⟨reports_of_error hp hfile hshows, hcount, Or.inr ⟨error, rfl, hafter⟩⟩

/-- `LDA 1` in the only two cells. There is no instruction after it, and what is reported is the
    machine that it left. -/
theorem run_refines_calls_off_the_end :
    let d : Directory := ⟨[("p", ⟨#[0x31, 0x20, 0x31]⟩)]⟩
    ∃ outcome, run d ["p", "--memory-size", "2", "--json"] = some outcome ∧
      outcome.exit = 1 ∧ Json.parse? outcome.stdout = some (.object
        [("stop", .text "ERROR"), ("steps", .integer 1),
          ("registers", .object
            [("A", .integer 1), ("X", .integer 0), ("I", .list (List.replicate 6 (.integer 0))),
              ("comparison", .integer 0), ("location", .integer 2)])]) := by
  intro d
  let o : Options := { program := "p", memorySize := some 2, json := true }
  let loaded : Emulator := { machine := { memory := ⟨#[1, 1]⟩ } }
  have hprogram : o.program = "p" := rfl
  have hread : d.read (Path.ofString o.program) = .ok ⟨#[0x31, 0x20, 0x31]⟩ := by
    rw [hprogram]
    rfl
  have hdecode : Text.Utf8.decode ⟨#[0x31, 0x20, 0x31]⟩ = .ok ['1', ' ', '1'] :=
    Text.Utf8.decode_utf8Encode ['1', ' ', '1']
  have hwords : (d.program o.program).read = .ok [1, 1] :=
    (read_of_text hread hdecode).trans (by decide)
  have hrun : loaded.run o.budget = some (.error (.badAddress 2 2), loaded.step.2.step.2) :=
    Emulator.run_of_proceedFor (k := 1) (by decide) (by decide)
  obtain ⟨-, -, fresh, hfresh, hrefines⟩ :=
    run_refines_calls d ["p", "--memory-size", "2", "--json"] o 2 [] none _ (by decide) rfl rfl rfl
      hread
  cases hfresh
  have hprepare : o.prepare (Machine.mk {} (Memory.zeros 2)) (d.program o.program) =
      (.ok (), loaded.machine) := by
    simp only [Options.prepare, hwords]
    decide
  have hcalls : o.calls [] (d.program o.program) { machine := { memory := Memory.zeros 2 } } =
      some (.error (.fault (.badAddress 2 2)), loaded.step.2.step.2) := by
    simp only [calls_eq, hprepare]
    change Option.map _ (loaded.run o.budget) = _
    rw [hrun]
    rfl
  obtain ⟨outcome, houtcome, hreports, -⟩ := hrefines _ _ hcalls
  obtain ⟨report, cells, hstdout, hcells, hjson, -⟩ := hreports.fault _ rfl
  refine ⟨outcome, houtcome, hreports.refused.2 (Or.inl ⟨_, rfl⟩), ?_⟩
  have hreport : outcome.stdout = report := hstdout.trans String.empty_append
  have hreadings : loaded.step.2.step.2.machine.registers.readings =
      { accumulator := 1, location := 2 } := by decide +kernel
  have hsteps : loaded.step.2.step.2.control.steps = 1 := by decide +kernel
  cases hcells
  rw [hreport, hjson rfl, finalJson, hreadings, hsteps]
  rfl

end CommandLine

end WordMachine
