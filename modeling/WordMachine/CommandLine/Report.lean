import WordMachine.Emulator.Run
import WordMachine.Json
import WordMachine.Memory.Dump

set_option autoImplicit false

/-! # Reports

The final state of a run, in one of two forms: as text, or as JSON. Both show the same registers
and the same cells. -/

namespace WordMachine.CommandLine

/-- What is reported of a run. -/
structure Report where
  /-- Why the run stopped; nothing if an error ended it. -/
  stop : Option StopReason
  steps : Nat
  registers : Readings
  memory : Memory
  /-- The first and the last cell to show. -/
  dump : Option (Nat × Nat)
  deriving DecidableEq, Repr

namespace Report

/-- The cells from a first to a last one, with their addresses. -/
def shownCells (r : Report) (first last : Nat) : List (Nat × Word) :=
  (r.memory.cells.extract first (last + 1)).toList.mapIdx fun i word => (first + i, word)

/-- The report as JSON. -/
def toJson (r : Report) : Json :=
  .object <|
    [("stop", .text (r.stop.elim "ERROR" StopReason.name)),
      ("steps", .integer r.steps),
      ("registers", .object
        [("A", .integer r.registers.accumulator),
          ("X", .integer r.registers.extension),
          ("I", .list (r.registers.index.toList.map .integer)),
          ("comparison", .integer r.registers.comparison),
          ("location", .integer r.registers.location)])] ++
    match r.dump with
    | none => []
    | some (first, last) =>
      [("memory", .object ((r.shownCells first last).map fun (address, word) =>
        (Decimal.text address, .integer word.toInt)))]

/-- The report as text. -/
def text (r : Report) : String :=
  (match r.stop with
    | none => ""
    | some reason => s!"Stopped: {reason.name} after {Decimal.text r.steps} steps\n") ++
  r.registers.display ++ "\n" ++
  match r.dump with
  | none => ""
  | some (first, last) => s!"Memory:\n{r.memory.dumpText first (last + 1)}\n"

end Report

end WordMachine.CommandLine
