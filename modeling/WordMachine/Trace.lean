import WordMachine.Instruction
import WordMachine.Registers

set_option autoImplicit false

/-! # Traces

A trace records the instructions that were executed: where each was fetched, what it was when it
was fetched, and the registers after it. -/

namespace WordMachine

/-- The record of an executed instruction. -/
structure TraceEntry where
  location : Nat
  instruction : Instruction
  after : Readings
  deriving DecidableEq, Repr

namespace TraceEntry

/-- The least width of the column that shows the instruction. -/
def instructionWidth : Nat := 9

/-- The entry with `separator` between the instruction and the registers. -/
def textWith (separator : String) (e : TraceEntry) : String :=
  s!"{Decimal.padded 4 e.location}: {Text.padRight instructionWidth e.instruction.text}" ++
    separator ++ e.after.summary

/-- The entry as a line of a trace. -/
def text (e : TraceEntry) : String := e.textWith " | "

end TraceEntry

/-- The text of a trace, one line for each instruction. -/
def traceText (trace : Array TraceEntry) : String :=
  "\n".intercalate (trace.toList.map TraceEntry.text)

end WordMachine
