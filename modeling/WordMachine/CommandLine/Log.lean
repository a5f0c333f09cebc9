import WordMachine.Emulator.Run

set_option autoImplicit false

/-! # Log

What is logged while a program is loaded and run. Nothing is logged as it happens: the lines are
read off the emulator afterwards, since its trace holds every executed instruction and its state
says where it stopped. -/

namespace WordMachine.CommandLine

/-- How much a log line matters, the least first. -/
inductive LogLevel where
  | debug
  | info
  | warning
  | error
  deriving DecidableEq, Repr

namespace LogLevel

/-- The rank of a level. -/
def rank : LogLevel → Nat
  | debug => 0
  | info => 1
  | warning => 2
  | error => 3

/-- The name of a level. -/
def name : LogLevel → String
  | debug => "DEBUG"
  | info => "INFO"
  | warning => "WARNING"
  | error => "ERROR"

end LogLevel

/-- A line of the log. -/
structure LogLine where
  level : LogLevel
  text : String
  deriving DecidableEq, Repr

/-- The line as it is shown. -/
def LogLine.render (l : LogLine) : String := s!"[{l.level.name}] {l.text}\n"

/-- The line for a loaded program. -/
def loadedLine (words : List Int) : LogLine :=
  ⟨.info, s!"Loaded {Decimal.text words.length} words"⟩

/-- The lines for the instructions in a trace. -/
def instructionLines (trace : Array TraceEntry) : List LogLine :=
  trace.toList.map fun entry => ⟨.debug, entry.textWith " "⟩

/-- The line for the end of a run with this budget, which left the emulator as it is given. -/
def stopLine (budget : Nat) (e : Emulator) : StopReason → LogLine
  | .halt =>
    ⟨.info, s!"HALT at {Decimal.padded 4 ((e.location : Int) - 1)} after " ++
      s!"{Decimal.text e.control.steps} steps"⟩
  | .breakpoint => ⟨.info, s!"BREAK at {Decimal.padded 4 e.location}"⟩
  | .timeout =>
    ⟨.warning, s!"Step budget of {Decimal.text budget} exhausted at " ++
      s!"{Decimal.padded 4 e.location}"⟩

end WordMachine.CommandLine
