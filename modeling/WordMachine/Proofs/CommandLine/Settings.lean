import WordMachine.Proofs.CommandLine.Arguments

set_option autoImplicit false

/-! # What arguments ask for

`Asks` says what is asked for by a list of arguments, one setting after the other. There is a rule
for each way to use an option or to give the program, and `Means` says which setting an option
stands for, with the value that it is given. All assignments and breakpoints count, in their order,
and of a setting that can be given once the last (`Options.ofSettings`).

Options are carried out on the options so far, so one setting is put in at a time (`Options.put`).
What all of them come to is known at the end (`foldl_put`), and each way to carry an option out puts
in what the option means (`withValue_eq_ok_iff`, `withFlag_eq_ok_iff`, `withJoined_eq_ok_iff`). -/

namespace WordMachine.CommandLine

/-! ## Settings -/

/-- One of the things that arguments can ask for. -/
inductive Setting where
  | program (path : String)
  /-- An address and the value it gets, or nothing if the option was given empty. -/
  | assignment (pair : Option (Int × Int))
  /-- The first and the last address to show, or nothing if the option was given empty. -/
  | dump (range : Option (Int × Int))
  | budget (count : Nat)
  /-- The size of the memory, or nothing if the option was given empty. -/
  | memorySize (size : Option Int)
  /-- The address of a breakpoint, or nothing if the option was given empty. -/
  | breakpoint (address : Option Int)
  | trace
  | json
  | verbose
  | quiet
  deriving DecidableEq, Repr

namespace Setting

/-- The program, if this is one. -/
def program? : Setting → Option String
  | program path => some path
  | _ => none

/-- The assignment, if this is one. -/
def assignment? : Setting → Option (Option (Int × Int))
  | assignment pair => some pair
  | _ => none

/-- The cells to show, if this is about them. -/
def dump? : Setting → Option (Option (Int × Int))
  | dump range => some range
  | _ => none

/-- The budget, if this is one. -/
def budget? : Setting → Option Nat
  | budget count => some count
  | _ => none

/-- The size of the memory, if this is about it. -/
def memorySize? : Setting → Option (Option Int)
  | memorySize size => some size
  | _ => none

/-- The breakpoint, if this is one. -/
def breakpoint? : Setting → Option (Option Int)
  | breakpoint address => some address
  | _ => none

end Setting

/-- The options for a program and for settings: every assignment and every breakpoint in its order,
    and of the rest the last that is given, or else the default. -/
def Options.ofSettings (program : String) (settings : List Setting) : Options where
  program
  pokes := settings.filterMap Setting.assignment?
  dump := (settings.filterMap Setting.dump?).getLastD none
  maxSteps := (settings.filterMap Setting.budget?).getLastD defaultMaxSteps
  memorySize := (settings.filterMap Setting.memorySize?).getLastD (some Memory.defaultSize)
  breakpoints := settings.filterMap Setting.breakpoint?
  trace := .trace ∈ settings
  json := .json ∈ settings
  verbose := .verbose ∈ settings
  quiet := .quiet ∈ settings

/-! ## What the arguments mean -/

/-- How an option is given. -/
inductive Given where
  | value (text : String)
  | empty
  | alone

/-- A decimal numeral, with any padding around it. -/
def IsDecimal (text : List Char) (n : Int) : Prop :=
  ∃ before numeral after, text = before ++ (numeral ++ after) ∧ Numeral.IsPadding before ∧
    Numeral.IsPadding after ∧ Numeral.Spells .ten numeral n

/-- The setting that an option stands for, as it is given. -/
inductive Means : Switch → Given → Setting → Prop where
  | set {text : String} {address value : Int} (h : Assigns text.toList address value) :
    Means .set (.value text) (.assignment (some (address, value)))
  | setEmpty : Means .set .empty (.assignment none)
  | dump {text : String} {first last : Int} (h : Spans text.toList first last)
    (hle : first ≤ last) : Means .dump (.value text) (.dump (some (first, last)))
  | dumpEmpty : Means .dump .empty (.dump none)
  | maxSteps {text : String} {count : Nat} (h : IsDecimal text.toList count) :
    Means .maxSteps (.value text) (.budget count)
  | maxStepsEmpty : Means .maxSteps .empty (.budget 0)
  | memorySize {text : String} {size : Int} (h : IsDecimal text.toList size) :
    Means .memorySize (.value text) (.memorySize (some size))
  | memorySizeEmpty : Means .memorySize .empty (.memorySize none)
  | breakAt {text : String} {address : Int} (h : Gives text.toList address) :
    Means .breakAt (.value text) (.breakpoint (some address))
  | breakAtEmpty : Means .breakAt .empty (.breakpoint none)
  | trace : Means .trace .alone .trace
  | json : Means .json .alone .json
  | verbose : Means .verbose .alone .verbose
  | quiet : Means .quiet .alone .quiet

/-- What the arguments ask for, one setting after the other. -/
inductive Asks : List String → List Setting → Prop where
  | nil : Asks [] []
  | program {text : String} {rest : List String} {settings : List Setting}
    (h : HasForm text (.operand text)) (later : Asks rest settings) :
    Asks (text :: rest) (.program text :: settings)
  /-- Behind the end of the options any text may be the program. -/
  | marked (text : String) : Asks ["--", text] [.program text]
  | ended {text : String} (h : HasForm text (.operand text)) : Asks [text, "--"] [.program text]
  | value {name text : String} {s : Switch} {short : Bool} {x : Setting} {rest : List String}
    {settings : List Setting} (hname : HasForm name (.option s short none))
    (htext : HasForm text (.operand text)) (h : Means s (.value text) x)
    (later : Asks rest settings) : Asks (name :: text :: rest) (x :: settings)
  | joined {argument text : String} {s : Switch} {short : Bool} {x : Setting} {rest : List String}
    {settings : List Setting} (hform : HasForm argument (.option s short (some text)))
    (htext : text ≠ "--") (h : Means s (.value text) x) (later : Asks rest settings) :
    Asks (argument :: rest) (x :: settings)
  | empty {argument : String} {s : Switch} {short : Bool} {x : Setting} {rest : List String}
    {settings : List Setting} (hform : HasForm argument (.option s short (some "--")))
    (h : Means s .empty x) (later : Asks rest settings) : Asks (argument :: rest) (x :: settings)
  | alone {argument : String} {s : Switch} {short : Bool} {x : Setting} {rest : List String}
    {settings : List Setting} (hform : HasForm argument (.option s short none))
    (h : Means s .alone x) (later : Asks rest settings) : Asks (argument :: rest) (x :: settings)
  /-- The letters of several short options behind one dash. -/
  | bundle {argument text : String} {s : Switch} {switches : List Switch} {xs : List Setting}
    {rest : List String} {settings : List Setting}
    (hform : HasForm argument (.option s true (some text))) (hne : text ≠ "")
    (hletters : List.Forall₂ (fun c t => String.ofList ['-', c] ∈ t.names) text.toList switches)
    (h : List.Forall₂ (fun t x => Means t .alone x) (s :: switches) xs)
    (later : Asks rest settings) : Asks (argument :: rest) (xs ++ settings)

/-- The options are those that the arguments ask for, with one program among them. -/
def Options.AskedBy (arguments : List String) (o : Options) : Prop :=
  ∃ settings, Asks arguments settings ∧ settings.filterMap Setting.program? = [o.program] ∧
    o = .ofSettings o.program settings

/-! ## One setting at a time -/

/-- Puts a setting into the options so far. -/
def Options.put (o : Options) : Setting → Options
  | .program program => { o with program }
  | .assignment pair => { o with pokes := o.pokes ++ [pair] }
  | .dump dump => { o with dump }
  | .budget maxSteps => { o with maxSteps }
  | .memorySize memorySize => { o with memorySize }
  | .breakpoint address => { o with breakpoints := o.breakpoints ++ [address] }
  | .trace => { o with trace := true }
  | .json => { o with json := true }
  | .verbose => { o with verbose := true }
  | .quiet => { o with quiet := true }

variable {o new : Options} {s : Switch} {x : Setting} {text : String}

/-- What the settings come to when they are put in from left to right. -/
theorem foldl_put (settings : List Setting) :
    settings.foldl Options.put { program := "" } =
      .ofSettings ((settings.filterMap Setting.program?).getLastD "") settings := by
  induction settings using List.reverseRecOn with
  | nil => rfl
  | append_singleton settings x ih =>
    rw [List.foldl_append, List.foldl_cons, List.foldl_nil, ih]
    cases x <;> simp [Options.put, Options.ofSettings, Setting.program?, Setting.assignment?,
      Setting.dump?, Setting.budget?, Setting.memorySize?, Setting.breakpoint?,
      List.filterMap_append]

/-! ## Carrying options out -/

theorem readCount_eq_ok_iff {count : Nat} :
    readCount text = .ok count ↔ IsDecimal text.toList count := by
  rw [IsDecimal, ← Numeral.read_eq_ok_iff]
  unfold readCount
  constructor
  · intro h
    split at h
    · cases h
    next n hread =>
    split at h
    · cases h
    next hn =>
    cases h
    rw [hread, Int.toNat_of_nonneg (Int.not_lt.1 hn)]
  · intro h
    simp [h]

theorem withValue_eq_ok_iff :
    o.withValue s text = .ok new ↔ ∃ x, Means s (.value text) x ∧ new = o.put x := by
  constructor
  · intro h
    cases s with
    | set =>
      obtain ⟨pair, hread, rfl⟩ := map_eq_ok_iff.1 h
      exact ⟨_, .set (readAssignment_eq_ok_iff.1 (mapError_eq_ok_iff.1 hread)), rfl⟩
    | dump =>
      obtain ⟨range, hread, rfl⟩ := map_eq_ok_iff.1 h
      obtain ⟨hspans, hle⟩ := readRange_eq_ok_iff.1 (mapError_eq_ok_iff.1 hread)
      exact ⟨_, .dump hspans hle, rfl⟩
    | maxSteps =>
      obtain ⟨count, hread, rfl⟩ := map_eq_ok_iff.1 h
      exact ⟨_, .maxSteps (readCount_eq_ok_iff.1 (mapError_eq_ok_iff.1 hread)), rfl⟩
    | memorySize =>
      obtain ⟨size, hread, rfl⟩ := map_eq_ok_iff.1 h
      exact ⟨_, .memorySize (Numeral.read_eq_ok_iff.1
        (mapError_eq_ok_iff.1 (mapError_eq_ok_iff.1 hread))), rfl⟩
    | breakAt =>
      obtain ⟨address, hread, rfl⟩ := map_eq_ok_iff.1 h
      exact ⟨_, .breakAt (readInteger_eq_ok_iff.1
        (mapError_eq_ok_iff.1 (mapError_eq_ok_iff.1 hread))), rfl⟩
    | _ => cases h
  · rintro ⟨x, hmeans, rfl⟩
    cases hmeans with
    | set h =>
      exact map_eq_ok_iff.2 ⟨_, mapError_eq_ok_iff.2 (readAssignment_eq_ok_iff.2 h), rfl⟩
    | dump h hle =>
      exact map_eq_ok_iff.2 ⟨_, mapError_eq_ok_iff.2 (readRange_eq_ok_iff.2 ⟨h, hle⟩), rfl⟩
    | maxSteps h =>
      exact map_eq_ok_iff.2 ⟨_, mapError_eq_ok_iff.2 (readCount_eq_ok_iff.2 h), rfl⟩
    | memorySize h =>
      exact map_eq_ok_iff.2 ⟨_, mapError_eq_ok_iff.2
        (mapError_eq_ok_iff.2 (Numeral.read_eq_ok_iff.2 h)), rfl⟩
    | breakAt h =>
      exact map_eq_ok_iff.2 ⟨_, mapError_eq_ok_iff.2
        (mapError_eq_ok_iff.2 (readInteger_eq_ok_iff.2 h)), rfl⟩

theorem withNothing_iff :
    s.takesValue = true ∧ new = o.withNothing s ↔ ∃ x, Means s .empty x ∧ new = o.put x := by
  constructor
  · rintro ⟨hvalue, rfl⟩
    cases s with
    | set => exact ⟨_, .setEmpty, rfl⟩
    | dump => exact ⟨_, .dumpEmpty, rfl⟩
    | maxSteps => exact ⟨_, .maxStepsEmpty, rfl⟩
    | memorySize => exact ⟨_, .memorySizeEmpty, rfl⟩
    | breakAt => exact ⟨_, .breakAtEmpty, rfl⟩
    | _ => cases hvalue
  · rintro ⟨x, hmeans, rfl⟩
    cases hmeans <;> exact ⟨rfl, rfl⟩

theorem withFlag_eq_ok_iff : o.withFlag s = .ok new ↔ ∃ x, Means s .alone x ∧ new = o.put x := by
  constructor
  · intro h
    cases s with
    | trace => exact ⟨_, .trace, (Except.ok.inj h).symm⟩
    | json => exact ⟨_, .json, (Except.ok.inj h).symm⟩
    | verbose => exact ⟨_, .verbose, (Except.ok.inj h).symm⟩
    | quiet => exact ⟨_, .quiet, (Except.ok.inj h).symm⟩
    | _ => cases h
  · rintro ⟨x, hmeans, rfl⟩
    cases hmeans <;> rfl

theorem Means.takesValue_eq {given : Given} (h : Means s given x) :
    s.takesValue = true ↔ given ≠ .alone := by
  cases h <;> simp [Switch.takesValue]

theorem bundled_eq_ok_iff {cs : List Char} {switches : List Switch} :
    bundled s cs = .ok switches ↔
      ∃ others, switches = s :: others ∧
        List.Forall₂ (fun c t => String.ofList ['-', c] ∈ t.names) cs others := by
  induction cs generalizing s switches with
  | nil => simp [bundled, eq_comm]
  | cons c cs ih =>
    rw [bundled]
    constructor
    · intro h
      split at h
      · next t hnamed =>
        obtain ⟨_, hothers, rfl⟩ := map_eq_ok_iff.1 h
        obtain ⟨others, rfl, hall⟩ := ih.1 hothers
        exact ⟨t :: others, rfl, .cons (named?_eq_some_iff.1 hnamed) hall⟩
      · cases h
    · rintro ⟨_, rfl, hall⟩
      cases hall with
      | @cons _ t _ others hname hrest =>
        rw [named?_eq_some_iff.2 hname]
        exact map_eq_ok_iff.2 ⟨t :: others, ih.2 ⟨others, rfl, hrest⟩, rfl⟩

theorem withFlags_eq_ok_iff {switches : List Switch} :
    o.withFlags switches = .ok new ↔
      ∃ xs, List.Forall₂ (fun t x => Means t .alone x) switches xs ∧
        new = xs.foldl Options.put o := by
  induction switches generalizing o with
  | nil => simp [Options.withFlags, eq_comm]
  | cons s switches ih =>
    rw [Options.withFlags]
    constructor
    · intro h
      split at h
      · next next hflag =>
        obtain ⟨x, hx, rfl⟩ := withFlag_eq_ok_iff.1 hflag
        obtain ⟨xs, hxs, rfl⟩ := ih.1 h
        exact ⟨x :: xs, .cons hx hxs, rfl⟩
      · cases h
    · rintro ⟨_, hall, rfl⟩
      cases hall with
      | @cons _ x _ xs hx hxs =>
        rw [withFlag_eq_ok_iff.2 ⟨x, hx, rfl⟩]
        exact ih.2 ⟨xs, hxs, rfl⟩

/-- A text that is joined to an option is its value or stands for none, or it is the letters of
    further options. -/
theorem withJoined_eq_ok_iff {short : Bool} :
    o.withJoined s short text = .ok new ↔
      (text ≠ "--" ∧ ∃ x, Means s (.value text) x ∧ new = o.put x) ∨
      (text = "--" ∧ ∃ x, Means s .empty x ∧ new = o.put x) ∨
      (short = true ∧ text ≠ "" ∧ ∃ switches xs,
        List.Forall₂ (fun c t => String.ofList ['-', c] ∈ t.names) text.toList switches ∧
        List.Forall₂ (fun t x => Means t .alone x) (s :: switches) xs ∧
        new = xs.foldl Options.put o) := by
  unfold Options.withJoined
  constructor
  · intro h
    split at h
    · next hvalue =>
      split at h
      · next hempty =>
        exact Or.inr (Or.inl ⟨hempty, withNothing_iff.1 ⟨hvalue, (Except.ok.inj h).symm⟩⟩)
      · next htext => exact Or.inl ⟨htext, withValue_eq_ok_iff.1 h⟩
    split at h
    · next hbundle =>
      split at h
      · next switches hswitches =>
        obtain ⟨others, rfl, hletters⟩ := bundled_eq_ok_iff.1 hswitches
        obtain ⟨xs, hxs, rfl⟩ := withFlags_eq_ok_iff.1 h
        exact Or.inr (Or.inr ⟨hbundle.1, hbundle.2, others, xs, hletters, hxs, rfl⟩)
      · cases h
    · cases h
  · rintro (⟨htext, x, hx, rfl⟩ | ⟨rfl, x, hx, rfl⟩ |
      ⟨hshort, hne, switches, xs, hletters, hxs, rfl⟩)
    · rw [if_pos (hx.takesValue_eq.2 nofun), if_neg htext]
      exact withValue_eq_ok_iff.2 ⟨x, hx, rfl⟩
    · rw [if_pos (hx.takesValue_eq.2 nofun), if_pos rfl]
      exact congrArg _ (withNothing_iff.2 ⟨x, hx, rfl⟩).2.symm
    · have halone : ¬s.takesValue = true := by
        cases hxs with
        | cons hx _ => exact fun hvalue => hx.takesValue_eq.1 hvalue rfl
      rw [if_neg halone, if_pos ⟨hshort, hne⟩, bundled_eq_ok_iff.2 ⟨switches, rfl, hletters⟩]
      exact withFlags_eq_ok_iff.2 ⟨xs, hxs, rfl⟩

end WordMachine.CommandLine
