import WordMachine.CommandLine.Usage
import WordMachine.Memory

set_option autoImplicit false

/-! # Options

The arguments are read in two passes. The first tells options from operands, without regard to
the values that options need; a long option may be cut short as long as it stays unique. The
second goes through them from left to right, gives options their values and carries each out, so
that of several errors the first is reported.

One `--` is taken out of the values of each option. So the value `--`, joined to an option, stands
for no value: the option is given empty. A dump or a budget that is given empty is none at all. An
empty assignment, breakpoint or memory size is kept, and is an error only when its turn comes. -/

namespace WordMachine.CommandLine

/-- An argument by its form. -/
inductive Token where
  /-- An argument that is no option. -/
  | operand (text : String)
  /-- The mark `--`, after which there are no options. -/
  | endOfOptions
  /-- An option, whether by a short name, and the text joined to it. -/
  | option (option : Switch) (short : Bool) (joined : Option String)
  /-- An option that is not known. -/
  | unknown (text : String)
  deriving DecidableEq, Repr

/-! ## Telling options from operands -/

/-- Whether a name has one dash. -/
def isShort (name : String) : Bool := !"--".isPrefixOf name

/-- Whether all characters are decimal digits. -/
def allDecimal (cs : List Char) : Bool := cs.all fun c => (Text.decimalDigit? c).isSome

/-- Whether the text after a dash makes it a negative number: digits, or a fraction with digits
    after the point. A line feed at the end does not count. -/
def isNumber (cs : List Char) : Bool :=
  let cs := if cs.getLast? = some '\n' then cs.dropLast else cs
  match splitAtFirst '.' cs with
  | (whole, none) => whole ≠ [] && allDecimal whole
  | (whole, some fraction) => allDecimal whole && fraction ≠ [] && allDecimal fraction

/-- An argument that starts with a dash but names no option: a negative number and anything with
    a space are operands. -/
def unnamed (argument : String) : Token :=
  if isNumber (argument.toList.drop 1) || ' ' ∈ argument.toList then .operand argument
  else .unknown argument

/-- The option whose long name begins with `start`. -/
def cutShort (argument start : String) (joined : Option String) : Except UsageError Token :=
  match Switch.spellings.filter fun (name, _) => start.isPrefixOf name with
  | [] => .ok (unnamed argument)
  | [(_, s)] => .ok (.option s false joined)
  | candidates => .error (.ambiguous argument (candidates.map Prod.fst))

/-- The form of an argument before the end of the options. -/
def Token.ofArgument (argument : String) : Except UsageError Token :=
  match argument.toList with
  | [] | ['-'] => .ok (.operand argument)
  | '-' :: second :: rest =>
    let (start, joined) := splitAtFirst '=' argument.toList
    let start := String.ofList start
    let joined := joined.map String.ofList
    match Switch.named? argument, Switch.named? start with
    | some s, _ => .ok (.option s (isShort argument) none)
    | none, some s => .ok (.option s (isShort start) joined)
    | none, none =>
      if second = '-' then cutShort argument start joined
      else
        match Switch.named? (String.ofList ['-', second]) with
        | some s => .ok (.option s true (some (String.ofList rest)))
        | none => .ok (unnamed argument)
  | _ => .ok (.operand argument)

/-- The forms of all arguments. -/
def tokens : List String → Except UsageError (List Token)
  | [] => .ok []
  | argument :: rest =>
    if argument = "--" then .ok (.endOfOptions :: rest.map .operand)
    else
      match Token.ofArgument argument with
      | .error e => .error e
      | .ok token => (tokens rest).map (token :: ·)

/-! ## Carrying options out -/

/-- What the arguments ask for. -/
structure Options where
  program : String
  /-- Addresses and the values they get after loading, or nothing for an assignment given empty. -/
  pokes : List (Option (Int × Int)) := []
  /-- The first and the last address to show after the run. -/
  dump : Option (Int × Int) := none
  /-- The budget of instructions; zero is none. -/
  maxSteps : Nat := defaultMaxSteps
  /-- The size of the memory; nothing if it was given empty. -/
  memorySize : Option Int := some Memory.defaultSize
  /-- The breakpoints, or nothing for one given empty. -/
  breakpoints : List (Option Int) := []
  trace : Bool := false
  json : Bool := false
  verbose : Bool := false
  quiet : Bool := false
  deriving DecidableEq, Repr

/-- Why there is nothing to run. -/
inductive Refusal where
  /-- The explanation of the command line was asked for. -/
  | help
  /-- The version was asked for. -/
  | version
  | usage (error : UsageError)
  deriving DecidableEq, Repr

/-- How far the arguments have been read: the options so far, whether the program is among them,
    and the arguments that have no place. -/
structure Reading where
  options : Options := { program := "" }
  hasProgram : Bool := false
  extras : List String := []
  deriving DecidableEq, Repr

/-- Reads the value of an option. -/
def readValue {α : Type} (s : Switch) (value : Except ArgumentError α) : Except Refusal α :=
  value.mapError fun e => .usage (.badValue s e)

/-- Reads an integer value of the named type. -/
def readTyped (type text : String) (value : Except NumeralError Int) : Except ArgumentError Int :=
  value.mapError fun _ => .invalid type text

/-- Carries out an option that takes a value. -/
def Options.withValue (o : Options) (s : Switch) (text : String) : Except Refusal Options :=
  match s with
  | .set =>
    (readValue s (readAssignment text)).map fun v => { o with pokes := o.pokes ++ [some v] }
  | .dump => (readValue s (readRange text)).map fun v => { o with dump := some v }
  | .maxSteps => (readValue s (readCount text)).map fun n => { o with maxSteps := n }
  | .memorySize =>
    (readValue s (readTyped "int" text (Numeral.read .ten text.toList))).map fun n =>
      { o with memorySize := some n }
  | .breakAt =>
    (readValue s (readTyped "parse_int_arg" text (readInteger text.toList))).map fun a =>
      { o with breakpoints := o.breakpoints ++ [some a] }
  | _ => .error (.usage (.ignoredValue s text))

/-- Carries out an option that is given empty. -/
def Options.withNothing (o : Options) (s : Switch) : Options :=
  match s with
  | .set => { o with pokes := o.pokes ++ [none] }
  | .dump => { o with dump := none }
  | .maxSteps => { o with maxSteps := 0 }
  | .memorySize => { o with memorySize := none }
  | .breakAt => { o with breakpoints := o.breakpoints ++ [none] }
  | _ => o

/-- Carries out an option that takes no value. -/
def Options.withFlag (o : Options) (s : Switch) : Except Refusal Options :=
  match s with
  | .help => .error .help
  | .version => .error .version
  | .trace => .ok { o with trace := true }
  | .json => .ok { o with json := true }
  | .verbose => .ok { o with verbose := true }
  | .quiet => .ok { o with quiet := true }
  | _ => .error (.usage (.missingValue s))

/-- The short options in a text that is joined to one: each character is the name of another. -/
def bundled (s : Switch) : List Char → Except Refusal (List Switch)
  | [] => .ok [s]
  | c :: cs =>
    match Switch.named? (String.ofList ['-', c]) with
    | some next => (bundled next cs).map (s :: ·)
    | none => .error (.usage (.ignoredValue s (String.ofList (c :: cs))))

/-- Carries out options that take no value. -/
def Options.withFlags (o : Options) : List Switch → Except Refusal Options
  | [] => .ok o
  | s :: rest =>
    match o.withFlag s with
    | .ok o => o.withFlags rest
    | .error e => .error e

/-- Carries out an option and the text that is joined to it: its value, or the letters of further
    options, with a `=` in front or without. -/
def Options.withJoined (o : Options) (s : Switch) (short : Bool) (joined : String) :
    Except Refusal Options :=
  if s.takesValue then
    if joined = "--" then .ok (o.withNothing s) else o.withValue s joined
  else if short ∧ joined ≠ "" then
    match bundled s joined.toList with
    | .ok switches => o.withFlags switches
    | .error e => .error e
  else .error (.usage (.ignoredValue s joined))

/-- Takes an operand: the first is the program, and the others have no place. -/
def Reading.withOperand (r : Reading) (text : String) : Reading :=
  if r.hasProgram then { r with extras := r.extras ++ [text] }
  else { r with options := { r.options with program := text }, hasProgram := true }

/-- Reads the arguments from left to right. The end of the options is left out next to the
    program, and has no place elsewhere. -/
def Reading.through (r : Reading) : List Token → Except Refusal Reading
  | [] => .ok r
  | .operand text :: .endOfOptions :: rest =>
    if r.hasProgram then through { r with extras := r.extras ++ [text, "--"] } rest
    else through (r.withOperand text) rest
  | .endOfOptions :: .operand text :: rest =>
    if r.hasProgram then through { r with extras := r.extras ++ ["--", text] } rest
    else through (r.withOperand text) rest
  | .operand text :: rest => through (r.withOperand text) rest
  | .endOfOptions :: rest => through { r with extras := r.extras ++ ["--"] } rest
  | .unknown text :: rest => through { r with extras := r.extras ++ [text] } rest
  | .option s short (some joined) :: rest =>
    match r.options.withJoined s short joined with
    | .ok options => through { r with options } rest
    | .error e => .error e
  | .option s _ none :: .operand text :: rest =>
    if s.takesValue then
      match r.options.withValue s text with
      | .ok options => through { r with options } rest
      | .error e => .error e
    else
      match r.options.withFlag s with
      | .ok options => through { r with options } (.operand text :: rest)
      | .error e => .error e
  | .option s _ none :: rest =>
    match r.options.withFlag s with
    | .ok options => through { r with options } rest
    | .error e => .error e

/-- The options that the arguments ask for. -/
def Options.parse (arguments : List String) : Except Refusal Options :=
  match tokens arguments with
  | .error e => .error (.usage e)
  | .ok tokens =>
    match Reading.through {} tokens with
    | .error e => .error e
    | .ok r =>
      if !r.hasProgram then .error (.usage .missingProgram)
      else if r.extras ≠ [] then .error (.usage (.unrecognized r.extras))
      else .ok r.options

end WordMachine.CommandLine
