import WordMachine.CommandLine.Log
import WordMachine.CommandLine.Options
import WordMachine.CommandLine.Report
import WordMachine.Directory

set_option autoImplicit false

/-! # Running from the command line

A command makes an emulator of the size that the options ask for, loads the program, puts the
assigned values into memory, and runs. An error ends it where it strikes. What came of it is then
reported, and the exit status says how it ended. -/

namespace WordMachine.CommandLine

/-- What a command leaves behind. -/
structure Outcome where
  exit : Nat
  stdout : String := ""
  stderr : String := ""
  deriving DecidableEq, Repr

/-- The line that stands for the origin of an error that no one expects. -/
def originLine : String := "Traceback\n"

/-- What a command leaves behind whose arguments are not accepted. -/
def Outcome.ofUsage (e : UsageError) : Outcome := ⟨2, "", e.report⟩

/-- What a command leaves behind that breaks down before it begins, since a value that it needs was
    given empty. -/
def Outcome.breakdown : Outcome := ⟨1, "", originLine⟩

/-- The exit status for the end of a run. -/
def exitStatus : StopReason → Nat
  | .halt => 0
  | .timeout => 3
  | .breakpoint => 4

/-- How far a command came: the emulator, the log, and how it ended. -/
structure Progress where
  emulator : Emulator
  log : List LogLine := []
  ended : Except Error StopReason

namespace Options

/-- The least level of the log lines that are shown. -/
def logLevel (o : Options) : LogLevel :=
  if o.quiet then .error else if o.verbose then .debug else .info

/-- The budget of instructions, if there is one. -/
def budget (o : Options) : Option Int := if o.maxSteps = 0 then none else some o.maxSteps

/-- The cells that are shown after a run with a memory of this size. It is an error if no memory
    can have the size, or if the cells are not all in such a memory. -/
def shownRange (o : Options) (size : Int) : Except UsageError (Option (Nat × Nat)) :=
  if size ≤ 0 then .error .memorySize
  else
    match o.dump with
    | none => .ok none
    | some (first, last) =>
      if 0 ≤ first ∧ last < size then .ok (some (first.toNat, last.toNat))
      else .error (.dumpRange size.toNat)

/-- An emulator with a memory of this size and with breakpoints. Instructions are recorded if the
    trace or the log is to show them. -/
def emulator (o : Options) (size : Int) (breakpoints : List Int) : Except UsageError Emulator :=
  match Emulator.ofSize size with
  | .error _ => .error .memorySize
  | .ok e =>
    let control := breakpoints.foldl Control.addBreakpoint e.control
    .ok { e with control := control.setTracing (o.trace || o.logLevel = .debug) }

/-- The emulator that the options ask for and the cells that they ask to show, or what the command
    leaves behind if it cannot begin. -/
def setUp (o : Options) : Except Outcome (Emulator × Option (Nat × Nat)) :=
  match o.memorySize with
  | none => .error .breakdown
  | some size =>
    match o.shownRange size with
    | .error e => .error (.ofUsage e)
    | .ok dump =>
      match o.breakpoints.mapM id with
      | none => .error .breakdown
      | some breakpoints =>
        match o.emulator size breakpoints with
        | .error e => .error (.ofUsage e)
        | .ok e => .ok (e, dump)

/-- The assignments up to the first that was given empty. -/
def assignments (o : Options) : List (Int × Int) :=
  (o.pokes.takeWhile Option.isSome).filterMap id

/-- Loads the program, puts the assigned values into memory and runs. Nothing is answered if the
    run never stops. -/
def attempt (o : Options) (e : Emulator) (program : Program) : Option Progress :=
  match program.read with
  | .error error => some { emulator := e, ended := .error error }
  | .ok words =>
    match e.load (.words words) with
    | .error error => some { emulator := e, ended := .error error }
    | .ok e =>
      let log := [loadedLine words]
      match e.machine.writeAll o.assignments with
      | (.error f, machine) => some ⟨{ e with machine }, log, .error (.ofFault f)⟩
      | (.ok (), machine) =>
        if none ∈ o.pokes then some ⟨{ e with machine }, log, .error .emptyAssignment⟩
        else
          (Emulator.run { e with machine } o.budget).map fun (ended, e) =>
            let log := log ++ instructionLines e.control.trace
            match ended with
            | .ok reason => ⟨e, log ++ [stopLine o.maxSteps e reason], .ok reason⟩
            | .error f => ⟨e, log, .error (.ofFault f)⟩

/-- The report of a command that showed the given cells. -/
def report (o : Options) (p : Progress) (dump : Option (Nat × Nat)) : String :=
  let r : Report :=
    { stop := p.ended.toOption
      steps := p.emulator.control.steps
      registers := p.emulator.machine.registers.readings
      memory := p.emulator.machine.memory
      dump }
  (if o.trace then traceText p.emulator.control.trace ++ "\n" else "") ++
    if o.json then r.toJson.write 0 ++ "\n" else r.text

/-- The message about an error, and the exit status. -/
def complaint (o : Options) : Error → String × Nat
  | .file .nullCharacter => internal FileError.nullCharacter.message
  | .file e => (s!"Error reading {o.program}: {e.message}\n", 1)
  | .format e => (s!"Program format error: {e.message}\n", 1)
  | .fault f =>
    let place := f.address?.elim "" fun a => s!" at {Decimal.padded 4 a}"
    (s!"Machine error: {f.kind.name}{place}: {f.message}\n", 1)
  | e => internal e.message
where
  /-- An error that no one expects, with its origin if everything is logged. -/
  internal (message : String) : String × Nat :=
    (s!"Internal error: {message}\n" ++ if o.verbose then originLine else "", 2)

/-- What a command leaves behind that came so far. The state is reported if the run stopped or a
    fault struck. -/
def conclude (o : Options) (p : Progress) (dump : Option (Nat × Nat)) : Outcome :=
  let shown := p.log.filter fun line => o.logLevel.rank ≤ line.level.rank
  let log := String.join (shown.map LogLine.render)
  match p.ended with
  | .ok reason => ⟨exitStatus reason, o.report p dump, log⟩
  | .error error =>
    let (message, exit) := o.complaint error
    match error with
    | .fault _ => ⟨exit, o.report p dump, log ++ message⟩
    | _ => ⟨exit, "", log ++ message⟩

/-- Carries out the options on a program. Nothing is answered if the run never stops. -/
def execute (o : Options) (program : Program) : Option Outcome :=
  match o.setUp with
  | .error outcome => some outcome
  | .ok (e, dump) => (o.attempt e program).map fun p => o.conclude p dump

end Options

/-- What a command leaves behind that has nothing to run. -/
def Refusal.outcome : Refusal → Outcome
  | .help => ⟨0, helpText, ""⟩
  | .version => ⟨0, s!"{programName} {CommandLine.version}\n", ""⟩
  | .usage e => .ofUsage e

/-- Runs a command on the files of a directory. Nothing is answered if the run never stops. -/
def run (directory : Directory) (arguments : List String) : Option Outcome :=
  match Options.parse arguments with
  | .error refusal => some refusal.outcome
  | .ok options => options.execute (directory.program options.program)

end WordMachine.CommandLine
