import WordMachine.Operation

set_option autoImplicit false

/-! # Sessions

A session holds any number of emulators. Each of them drives one of the session's machines, and
several may drive the same one: they share registers and memory, and nothing else. Commands are
addressed to emulators by number, in the order in which these came. -/

namespace WordMachine

/-- An emulator of a session: the number of the machine it drives, and its own control. -/
structure Seat where
  machine : Nat
  control : Control := {}
  deriving DecidableEq, Repr

/-- The machines and the emulators of a session. -/
structure Session where
  machines : Array Machine := #[]
  seats : Array Seat := #[]
  deriving DecidableEq, Repr

/-- A request to a session. -/
inductive Command where
  /-- Adds an emulator with a new machine. -/
  | create (memorySize : Int)
  /-- Adds an emulator that drives the machine of another one. -/
  | share (emulator : Nat)
  /-- Performs an operation on an emulator. -/
  | perform (emulator : Nat) (operation : Operation)

namespace Session

/-- The emulator with this number. -/
def emulator? (s : Session) (number : Nat) : Option Emulator :=
  match s.seats[number]? with
  | none => none
  | some seat => s.machines[seat.machine]?.map (⟨seat.control, ·⟩)

/-- Puts an emulator back after an operation on it. -/
def update (s : Session) (number : Nat) (e : Emulator) : Session :=
  match s.seats[number]? with
  | none => s
  | some seat =>
    { machines := s.machines.setIfInBounds seat.machine e.machine
      seats := s.seats.setIfInBounds number { seat with control := e.control } }

/-- Adds an emulator that drives the machine with this number. -/
def addSeat (s : Session) (machine : Nat) : Session :=
  { s with seats := s.seats.push { machine } }

/-- Carries out a command. Nothing is answered if it never ends. -/
def apply (s : Session) : Command → Option (Except Error Answer × Session)
  | .create memorySize =>
    match Machine.ofSize memorySize with
    | .error e => some (.error e, s)
    | .ok machine =>
      some (.ok .done, { s with machines := s.machines.push machine }.addSeat s.machines.size)
  | .share number =>
    match s.seats[number]? with
    | none => some (.error (.noSuchEmulator number), s)
    | some seat => some (.ok .done, s.addSeat seat.machine)
  | .perform number operation =>
    match s.emulator? number with
    | none => some (.error (.noSuchEmulator number), s)
    | some e => (operation.perform e).map fun (answer, e) => (answer, s.update number e)

/-- Carries out commands one after the other, whatever they answer. -/
def play (s : Session) : List Command → Option (List (Except Error Answer) × Session)
  | [] => some ([], s)
  | command :: rest =>
    match s.apply command with
    | none => none
    | some (answer, s) => (s.play rest).map fun (answers, s) => (answer :: answers, s)

end Session

end WordMachine
