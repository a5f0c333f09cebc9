import WordMachine.Proofs.CommandLine.ExitStatus
import WordMachine.Proofs.Session.Operations

set_option autoImplicit false

/-! # What a command does before its run

A command loads a program and writes the assigned values. Done with the operations of an emulator,
one after the other up to the first that is refused (`Emulator.performAll`), this changes nothing
but the machine (`performAll_loading`). `Options.prepare` says how, and a command goes the same way
(`ending_attempt`). -/

namespace WordMachine

/-- Performs operations one after the other, up to the first that answers an error. There is no
    operation for an assignment that was given empty; it is an error when its turn comes. -/
def Emulator.performAll (e : Emulator) : List (Option Operation) → Performance
  | [] => some (.ok .done, e)
  | none :: _ => some (.error .emptyAssignment, e)
  | some operation :: rest =>
    match operation.perform e with
    | some (.ok _, s) => s.performAll rest
    | stopped => stopped

/-- Writes values one after the other, up to the first that is refused or was given empty. -/
def Machine.writeGiven (m : Machine) : List (Option (Int × Int)) → Except Error Unit × Machine
  | [] => (.ok (), m)
  | none :: _ => (.error .emptyAssignment, m)
  | some (address, value) :: rest =>
    match m.write address value with
    | .error f => (.error (.ofFault f), m)
    | .ok m => m.writeGiven rest

namespace CommandLine

namespace Options

/-- The operations that load a program and write the assigned values, in their order. -/
def loading (o : Options) (program : Program) : List (Option Operation) :=
  some (.load program) ::
    o.pokes.map fun poke => poke.map fun assignment => .write assignment.1 assignment.2

/-- Loads a program into a machine and writes the assigned values. -/
def prepare (o : Options) (m : Machine) (program : Program) : Except Error Unit × Machine :=
  match program.read with
  | .error error => (.error error, m)
  | .ok words =>
    match m.load words with
    | .error f => (.error (.ofFault f), m)
    | .ok m => m.writeGiven o.pokes

end Options

/-- The operations that write the assigned values do to the machine what `Machine.writeGiven` does,
    and nothing else. -/
theorem performAll_writes (pokes : List (Option (Int × Int))) (e : Emulator) :
    e.performAll (pokes.map fun poke =>
        poke.map fun assignment => .write assignment.1 assignment.2) =
      some ((e.machine.writeGiven pokes).1.map fun _ => .done,
        { e with machine := (e.machine.writeGiven pokes).2 }) := by
  induction pokes generalizing e with
  | nil => rfl
  | cons poke rest ih =>
    cases poke with
    | none => rfl
    | some assignment =>
      simp only [List.map_cons, Option.map_some, Emulator.performAll, Operation.perform,
        Machine.writeGiven]
      cases e.machine.write assignment.1 assignment.2 with
      | ok machine => exact ih { e with machine }
      | error f => rfl

/-- An assignment that was given empty is an error once those before it are written. -/
theorem writeGiven_eq (pokes : List (Option (Int × Int))) (m : Machine) :
    m.writeGiven pokes =
      match m.writeAll ((pokes.takeWhile Option.isSome).filterMap id) with
      | (.error f, machine) => (.error (.ofFault f), machine)
      | (.ok (), machine) =>
        if none ∈ pokes then (.error .emptyAssignment, machine) else (.ok (), machine) := by
  induction pokes generalizing m with
  | nil => rfl
  | cons poke rest ih =>
    cases poke with
    | none => rfl
    | some assignment =>
      have hmem : none ∈ some assignment :: rest ↔ none ∈ rest := by simp
      simp only [hmem, List.takeWhile_cons, Option.isSome_some, if_true, List.filterMap_cons, id,
        Machine.writeAll, Machine.writeGiven]
      cases m.write assignment.1 assignment.2 with
      | ok machine => exact ih machine
      | error f => rfl

/-- Loading and writing do to the machine what `Options.prepare` does, and nothing else. -/
theorem performAll_loading (o : Options) (program : Program) (e : Emulator) :
    e.performAll (o.loading program) =
      some ((o.prepare e.machine program).1.map fun _ => .done,
        { e with machine := (o.prepare e.machine program).2 }) := by
  simp only [Options.loading, Emulator.performAll, Operation.perform, Emulator.load,
    Options.prepare]
  cases program.read with
  | error error => rfl
  | ok words =>
    simp only
    cases e.machine.load words with
    | error f => rfl
    | ok machine => exact performAll_writes o.pokes { e with machine }

/-- A command ends where it cannot prepare the machine, and else as the run does. -/
theorem ending_attempt (o : Options) (e : Emulator) (program : Program) :
    (o.attempt e program).map (fun p => (p.ended, p.emulator)) =
      match o.prepare e.machine program with
      | (.error error, machine) => some (.error error, { e with machine })
      | (.ok (), machine) =>
        (Emulator.run { e with machine } o.budget).map fun (outcome, last) =>
          (Operation.reported outcome, last) := by
  simp only [Options.attempt, Options.prepare]
  cases program.read with
  | error error => rfl
  | ok words =>
    simp only [Emulator.load, Program.read]
    cases e.machine.load words with
    | error f => rfl
    | ok machine =>
      simp only [writeGiven_eq, Options.assignments]
      rcases machine.writeAll ((o.pokes.takeWhile Option.isSome).filterMap id) with ⟨_ | _, written⟩
      · rfl
      · simp only
        split
        · rfl
        · simp only [Option.map_map]
          congr 1
          funext stop
          obtain ⟨outcome, last⟩ := stop
          cases outcome <;> rfl

end CommandLine

end WordMachine
