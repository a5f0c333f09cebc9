import WordMachine.Emulator.Run

set_option autoImplicit false

/-! # Jobs

A job runs a program once: on a new machine, with data put into memory after the program is
loaded, and within a budget. -/

namespace WordMachine

/-- A program to run, and how. -/
structure Job where
  program : Program
  memorySize : Int := Memory.defaultSize
  /-- Addresses and the values they are to hold. -/
  data : List (Int × Int) := []
  budget : Option Int := none

namespace Job

/-- Gives an address a value: in its place if it has one already, else at the end. -/
def assign (address value : Int) : List (Int × Int) → List (Int × Int)
  | [] => [(address, value)]
  | (a, v) :: rest =>
    if a = address then (a, value) :: rest else (a, v) :: assign address value rest

/-- The data with every address named once: where it came first, with the value it got last. -/
def settled (data : List (Int × Int)) : List (Int × Int) :=
  data.foldl (fun settled (address, value) => assign address value settled) []

/-- The emulator with the program loaded and the data put into memory. -/
def prepare (job : Job) : Except Error Emulator :=
  match Emulator.ofSize job.memorySize with
  | .error e => .error e
  | .ok emulator =>
    match emulator.load job.program with
    | .error e => .error e
    | .ok emulator =>
      match emulator.machine.writeAll (settled job.data) with
      | (.error f, _) => .error (.ofFault f)
      | (.ok (), machine) => .ok { emulator with machine }

/-- The emulator after the job, or the error that ended it. Nothing is answered if the job never
    ends. -/
def run (job : Job) : Option (Except Error Emulator) :=
  match job.prepare with
  | .error e => some (.error e)
  | .ok emulator =>
    match emulator.run job.budget with
    | none => none
    | some (.ok _, emulator) => some (.ok emulator)
    | some (.error f, _) => some (.error (.ofFault f))

end Job

end WordMachine
