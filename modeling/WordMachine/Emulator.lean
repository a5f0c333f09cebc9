import WordMachine.Machine.Execution
import WordMachine.Program
import WordMachine.Trace

set_option autoImplicit false

/-! # Emulators

An emulator drives a machine one instruction at a time. Beside the machine it keeps what is its
own: whether it has halted, how many instructions it executed, its breakpoints and its trace.
Several emulators may drive one machine, each with a `Control` of its own.

After a run has stopped at a breakpoint the emulator remembers the place, so that the next run
can go on from there. Any attempt to execute an instruction makes it forget the place. -/

namespace WordMachine

/-- What an emulator keeps beside its machine. -/
structure Control where
  halted : Bool := false
  /-- The number of executed instructions. -/
  steps : Nat := 0
  /-- The addresses at which a run stops. -/
  breakpoints : List Int := []
  /-- The breakpoint at which the last run stopped, if nothing was attempted since. -/
  resumeFrom : Option Nat := none
  /-- Whether executed instructions are recorded. -/
  tracing : Bool := false
  trace : Array TraceEntry := #[]
  deriving DecidableEq, Repr

namespace Control

/-- Counts an executed instruction, and records it if tracing is on. -/
def record (c : Control) (entry : TraceEntry) : Control :=
  { c with
    steps := c.steps + 1
    trace := if c.tracing then c.trace.push entry else c.trace }

/-- Adds a breakpoint. -/
def addBreakpoint (c : Control) (address : Int) : Control :=
  { c with breakpoints := c.breakpoints.insert address }

/-- Removes a breakpoint, if it is there. -/
def removeBreakpoint (c : Control) (address : Int) : Control :=
  { c with breakpoints := c.breakpoints.filter (· ≠ address) }

/-- Removes all breakpoints. -/
def clearBreakpoints (c : Control) : Control := { c with breakpoints := [] }

/-- Turns tracing on or off. The trace so far is kept. -/
def setTracing (c : Control) (on : Bool) : Control := { c with tracing := on }

/-- Empties the trace. -/
def clearTrace (c : Control) : Control := { c with trace := #[] }

/-- A fresh control, on which tracing is as before. -/
def reset (c : Control) : Control := { tracing := c.tracing }

end Control

/-- An emulator: a machine and what the emulator keeps beside it. -/
structure Emulator where
  control : Control := {}
  machine : Machine
  deriving DecidableEq, Repr

/-- How an attempt to execute an instruction went. -/
inductive StepOutcome where
  /-- An instruction was executed that was not `HLT`. -/
  | ran
  /-- The emulator has halted, now or before. -/
  | halted
  deriving DecidableEq, Repr

namespace Emulator

/-- An emulator of a new machine with a memory of this size. -/
def ofSize (size : Int) : Except Error Emulator :=
  (Machine.ofSize size).map fun machine => { machine }

/-- The location counter of the machine. -/
def location (e : Emulator) : Nat := e.machine.registers.location

/-- Loads a program from address zero on. -/
def load (e : Emulator) (program : Program) : Except Error Emulator :=
  match program.read with
  | .error error => .error error
  | .ok words =>
    match e.machine.load words with
    | .ok machine => .ok { e with machine }
    | .error f => .error (.ofFault f)

/-- Makes everything new: the machine is all zero and the control is fresh. -/
def reset (e : Emulator) : Emulator := ⟨e.control.reset, e.machine.reset⟩

/-- Executes the instruction at the location counter, unless the emulator has halted. A fault
    leaves everything as it was, apart from the place to go on from. -/
def step : Emulator → Except Fault StepOutcome × Emulator
  | ⟨control, machine⟩ =>
    if control.halted then (.ok .halted, ⟨control, machine⟩)
    else
      let control := { control with resumeFrom := none }
      match machine.plan with
      | .error f => (.error f, ⟨control, machine⟩)
      | .ok (instruction, effect) =>
        let location := machine.registers.location
        let machine := machine.complete instruction effect
        let control := control.record ⟨location, instruction, machine.registers.readings⟩
        if instruction.opcode = .hlt then (.ok .halted, ⟨{ control with halted := true }, machine⟩)
        else (.ok .ran, ⟨control, machine⟩)

/-! ## The cases of a step -/

theorem step_of_halted {e : Emulator} (h : e.control.halted = true) :
    e.step = (.ok .halted, e) := by
  simp [step, h]

theorem step_of_fault {e : Emulator} {f : Fault} (h : e.control.halted = false)
    (hplan : e.machine.plan = .error f) :
    e.step = (.error f, { e with control := { e.control with resumeFrom := none } }) := by
  simp [step, h, hplan]

theorem step_of_plan {e : Emulator} {i : Instruction} {effect : Effect}
    (h : e.control.halted = false) (hplan : e.machine.plan = .ok (i, effect)) :
    e.step =
      let machine := e.machine.complete i effect
      let control := { e.control with resumeFrom := none }.record
        ⟨e.location, i, machine.registers.readings⟩
      if i.opcode = .hlt then (.ok .halted, ⟨{ control with halted := true }, machine⟩)
      else (.ok .ran, ⟨control, machine⟩) := by
  simp [step, h, hplan, location]

end Emulator

end WordMachine
