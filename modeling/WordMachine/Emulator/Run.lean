import WordMachine.Emulator

set_option autoImplicit false

/-! # Runs

A run executes instructions until the emulator halts, a breakpoint is reached, a fault strikes or
the budget of instructions is used up. The budget is looked at first, then the breakpoints, then
the instruction.

A run without a budget may never stop. It cannot visit more states than there are before it
repeats one and goes on forever, so `run` tries that many instructions, in rounds, and answers
nothing if the emulator is still running after them. -/

namespace WordMachine

/-- Why a run stopped. -/
inductive StopReason where
  | halt
  | timeout
  | breakpoint
  deriving DecidableEq, Repr

namespace StopReason

/-- The reasons, in the order in which they are listed. -/
def all : List StopReason := [.halt, .timeout, .breakpoint]

/-- The name of the reason. -/
def name : StopReason → String
  | halt => "HALT"
  | timeout => "TIMEOUT"
  | breakpoint => "BREAK"

end StopReason

/-- How a run ended: why it stopped, or the fault that struck. -/
abbrev RunOutcome := Except Fault StopReason

namespace Emulator

/-- Whether a run stops here before it executes anything: the location counter is at a breakpoint
    that is not the one to go on from. A halted emulator heeds no breakpoints. -/
def atBreakpoint (e : Emulator) : Bool :=
  (e.location : Int) ∈ e.control.breakpoints && !e.control.halted &&
    e.control.resumeFrom ≠ some e.location

/-- The emulator when it has stopped at a breakpoint. -/
def markBreakpoint (e : Emulator) : Emulator :=
  { e with control := { e.control with resumeFrom := some e.location } }

/-- Runs with a budget. -/
def runFor : Nat → Emulator → RunOutcome × Emulator
  | 0, e => (.ok .timeout, e)
  | budget + 1, e =>
    if e.atBreakpoint then (.ok .breakpoint, e.markBreakpoint)
    else
      match e.step with
      | (.ok .ran, e) => runFor budget e
      | (.ok .halted, e) => (.ok .halt, e)
      | (.error f, e) => (.error f, e)

/-- The number of instructions in a round of a run without a budget. -/
def roundLength : Nat := Nat.pow 2 Word.bits

/-- Runs for at most so many rounds. -/
def runRounds : Nat → Emulator → Option (RunOutcome × Emulator)
  | 0, _ => none
  | rounds + 1, e =>
    match runFor roundLength e with
    | (.ok .timeout, e) => runRounds rounds e
    | stopped => some stopped

/-- Enough rounds to visit every state. A state that may lead to another one is given by a location
    counter within the memory, the accumulator and the cells, which makes
    `size * 2 ^ Word.bits * 2 ^ (Word.bits * size)` states; the breakpoint to go on from and the
    last state need one more round. -/
def roundsToRepeat (e : Emulator) : Nat :=
  let size := e.machine.memory.size
  size * Nat.pow 2 (Word.bits * size) + 1

/-- Runs with a budget, if one is given. Nothing is answered if the run never stops. -/
def run (e : Emulator) : (budget : Option Int) → Option (RunOutcome × Emulator)
  | some budget => some (e.runFor budget.toNat)
  | none => e.runRounds e.roundsToRepeat

end Emulator

end WordMachine
