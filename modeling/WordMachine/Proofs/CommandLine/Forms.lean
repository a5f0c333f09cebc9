import WordMachine.Proofs.CommandLine.PlainText
import WordMachine.Proofs.CommandLine.Preparation
import WordMachine.Proofs.Json.Reading
import WordMachine.Proofs.Run.Attempts
import WordMachine.Proofs.Trace.Numbers

set_option autoImplicit false

/-! # The two forms of a report show the same

A command reports the final state of its run as text or as JSON. Whether a run stopped or a fault
ended it, either form can be read back to the registers and to the cells of the range that was asked
for, and these are the same (`run_shows_final_state`).

The range is checked before the run, and the memory keeps its size up to the end
(`presentable_of_attempt`), so every cell that is shown is there. No number that is shown has too
many digits to be written: the registers and the cells hold words, the size of the memory and the
budget were read themselves, and no run counts more instructions than its budget
(`steps_le_of_attempt`). -/

namespace WordMachine

theorem Machine.Within.writeGiven {m : Machine} {size : Nat} (hm : m.Within size)
    (pokes : List (Option (Int × Int))) : (m.writeGiven pokes).2.Within size := by
  induction pokes generalizing m with
  | nil => exact hm
  | cons poke rest ih =>
    cases poke with
    | none => exact hm
    | some assignment =>
      rw [Machine.writeGiven]
      split
      · exact hm
      · next machine hwrite => exact ih (hm.write hwrite)

namespace CommandLine

open Decimal

namespace Options

variable {o : Options} {e : Emulator} {dump : Option (Nat × Nat)} {program : Program}
  {p : Progress} {first last size : Nat}

/-! ## Setting up -/

/-- The cells that are to be shown are those that were asked for, and lie in the memory. -/
theorem range_of_setUp (ho : o.Checked) (h : o.setUp = .ok (e, some (first, last))) :
    o.dump = some ((first : Int), (last : Int)) ∧ first ≤ last ∧
      ∃ size : Int, o.memorySize = some size ∧ last < size := by
  obtain ⟨size, breakpoints, hsize, hrange, -⟩ := setUp_cases h
  unfold shownRange at hrange
  split at hrange
  · cases hrange
  split at hrange
  · cases hrange
  next low high hdump =>
  have hle : low ≤ high := ho.dump (low, high) hdump
  split at hrange
  · next hin =>
    cases hrange
    have hlow : (low.toNat : Int) = low := Int.toNat_of_nonneg hin.1
    have hhigh : (high.toNat : Int) = high := Int.toNat_of_nonneg (Int.le_trans hin.1 hle)
    rw [hlow, hhigh]
    exact ⟨hdump, by omega, size, hsize, hin.2⟩
  · cases hrange

/-- A command begins with nothing executed. -/
theorem presentable_of_setUp (h : o.setUp = .ok (e, dump)) :
    ∃ size, o.memorySize = some size ∧ 0 < size ∧ e.Presentable size.toNat ∧
      e.control.steps = 0 := by
  obtain ⟨size, breakpoints, hsize, -, hemulator⟩ := setUp_cases h
  obtain ⟨hpos, hsound⟩ := emulator_sound hemulator
  obtain ⟨-, all, on, rfl⟩ := exists_of_emulator hemulator
  exact ⟨size, hsize, hpos, ⟨hsound, by simp⟩, rfl⟩

/-! ## Up to the end of a run -/

theorem within_prepare {m : Machine} (hm : m.Within size) :
    (o.prepare m program).2.Within size := by
  unfold prepare
  split
  · exact hm
  split
  · exact hm
  next machine hload => exact (hm.load hload).writeGiven o.pokes

/-- Up to its run a command changes nothing but the machine. -/
theorem exists_start_of_attempt (he : e.Sound size) (h : o.attempt e program = some p) :
    ∃ start : Emulator, start.control = e.control ∧ start.Sound size ∧
      (p.emulator = start ∨ ∃ outcome, start.run o.budget = some (outcome, p.emulator)) := by
  have hending := ending_attempt o e program
  have hwithin : (o.prepare e.machine program).2.Within size := within_prepare he.within
  rcases hprepare : o.prepare e.machine program with ⟨error | _, machine⟩ <;>
    simp only [h, hprepare, Option.map_some] at hending hwithin
  · obtain ⟨-, hemulator⟩ := Prod.mk.inj (Option.some.inj hending)
    exact ⟨{ e with machine }, rfl, ⟨hwithin, he.settled⟩, Or.inl hemulator⟩
  · obtain ⟨⟨outcome, last⟩, hrun, hpair⟩ := Option.map_eq_some_iff.1 hending.symm
    obtain ⟨-, hemulator⟩ := Prod.mk.inj hpair
    exact ⟨{ e with machine }, rfl, ⟨hwithin, he.settled⟩, Or.inr ⟨outcome, hemulator ▸ hrun⟩⟩

theorem presentable_of_attempt (he : e.Presentable size) (hsize : isWritable size = true)
    (h : o.attempt e program = some p) : p.emulator.Presentable size := by
  obtain ⟨start, hcontrol, hstart, hend⟩ := exists_start_of_attempt he.sound h
  have hpresentable : start.Presentable size := ⟨hstart, hcontrol ▸ he.trace⟩
  rcases hend with hend | ⟨outcome, hrun⟩
  · rwa [hend]
  · exact hpresentable.run hsize hrun

/-- The size that was asked for can be written, and it is that of the memory that is left. -/
theorem exists_presentable (ho : o.Checked) (hsetUp : o.setUp = .ok (e, dump))
    (h : o.attempt e program = some p) :
    ∃ size : Nat, o.memorySize = some (size : Int) ∧ isWritable size = true ∧
      p.emulator.Presentable size := by
  obtain ⟨size, hsize, hpos, hfresh, -⟩ := presentable_of_setUp hsetUp
  obtain ⟨cells, rfl⟩ := Int.eq_ofNat_of_zero_le (Int.le_of_lt hpos)
  have hwritable := ho.memorySize cells hsize
  exact ⟨cells, hsize, hwritable, presentable_of_attempt hfresh hwritable h⟩

/-- The range was checked against the size that the memory still has at the end. -/
theorem range_of_attempt (ho : o.Checked) (hsetUp : o.setUp = .ok (e, dump))
    (h : o.attempt e program = some p) :
    ∀ range ∈ dump, range.1 ≤ range.2 ∧ range.2 < p.emulator.machine.memory.size := by
  rintro ⟨first, last⟩ hmem
  cases hmem
  obtain ⟨size, hsize, -, hlast⟩ := exists_presentable ho hsetUp h
  obtain ⟨-, hle, asked, hasked, hlt⟩ := range_of_setUp ho hsetUp
  cases hsize.symm.trans hasked
  rw [hlast.sound.within.size_eq]
  exact ⟨hle, by omega⟩

/-- No run counts more instructions than its budget. -/
theorem steps_le_of_attempt (he : e.Sound size) (hsteps : e.control.steps = 0)
    (hbudget : o.maxSteps ≠ 0) (h : o.attempt e program = some p) :
    p.emulator.control.steps ≤ o.maxSteps := by
  obtain ⟨start, hcontrol, -, hend⟩ := exists_start_of_attempt he h
  rcases hend with hend | ⟨outcome, hrun⟩
  · rw [hend, hcontrol, hsteps]
    exact Nat.zero_le _
  · rw [budget, if_neg hbudget] at hrun
    have hlast : start.runFor o.maxSteps = (outcome, p.emulator) := Option.some.inj hrun
    have hcount := Emulator.steps_runFor o.maxSteps start
    rw [hlast, hcontrol, hsteps, Nat.zero_add] at hcount
    calc p.emulator.control.steps = start.executions o.maxSteps := hcount
      _ ≤ o.maxSteps := Emulator.executions_le o.maxSteps start

theorem isWritable_steps_or (ho : o.Checked) (hsetUp : o.setUp = .ok (e, dump))
    (h : o.attempt e program = some p) :
    isWritable p.emulator.control.steps = true ∨
      o.maxSteps = 0 ∧ 10 ^ digitLimit ≤ p.emulator.control.steps := by
  by_cases hbudget : o.maxSteps = 0
  · rw [isWritable_iff, Int.natAbs_natCast]
    rcases Nat.lt_or_ge p.emulator.control.steps (10 ^ digitLimit) with hlt | hge
    · exact Or.inl hlt
    · exact Or.inr ⟨hbudget, hge⟩
  · obtain ⟨_, -, -, hfresh, hsteps⟩ := presentable_of_setUp hsetUp
    have hle := steps_le_of_attempt hfresh.sound hsteps hbudget h
    exact Or.inl (isWritable_of_natAbs_le ho.maxSteps (by omega))

end Options

/-! ## What is shown of a run -/

/-- What is reported of an emulator. -/
def Report.of (stop : Option StopReason) (e : Emulator) (dump : Option (Nat × Nat)) : Report :=
  ⟨stop, e.control.steps, e.machine.registers.readings, e.machine.memory, dump⟩

/-- The integers in a stretch of cells, each with its address. -/
structure CellsOf (memory : Memory) (first last : Nat) (cells : List (Int × Int)) : Prop where
  addresses : cells.map Prod.fst = (List.range' first (last + 1 - first)).map Int.ofNat
  values : ∀ cell ∈ cells, ∃ word, memory.read cell.1 = .ok word ∧ word.toInt = cell.2

variable {first last : Nat}

theorem cellsOf_values (m : Memory) (hlast : last < m.size) :
    CellsOf m first last (Memory.addressed first (m.values first (last + 1))) where
  addresses := by rw [Memory.map_fst_addressed, Memory.length_values hlast]
  values cell hcell := by
    obtain ⟨word, hword, hvalue⟩ := Memory.cell?_of_mem_addressed hcell
    exact ⟨word, Memory.read_of_cell? hword, hvalue⟩

/-- No other integers are in the cells. -/
theorem CellsOf.unique {m : Memory} {cells others : List (Int × Int)}
    (h : CellsOf m first last cells) (hothers : CellsOf m first last others) : cells = others := by
  have hread : ∀ cells, CellsOf m first last cells → cells =
      (cells.map Prod.fst).map fun a => (a, ((m.read a).toOption.map Int32.toInt).getD 0) := by
    intro cells h
    rw [List.map_map]
    refine (List.map_id cells).symm.trans (List.map_congr_left fun cell hcell => ?_)
    obtain ⟨word, hword, hvalue⟩ := h.values cell hcell
    simp [hword, hvalue, Except.toOption]
  rw [hread cells h, hread others hothers, h.addresses, hothers.addresses]

/-- Words that are counted from a first address on, with their addresses. -/
theorem map_mapIdx_addressed (first : Nat) (words : List Word) :
    ((words.mapIdx fun i word => (first + i, word)).map fun cell =>
        (Decimal.text cell.1, Json.integer cell.2.toInt)) =
      (Memory.addressed first (words.map Int32.toInt)).map fun cell =>
        (Decimal.text cell.1, Json.integer cell.2) := by
  induction words generalizing first with
  | nil => rfl
  | cons word words ih =>
    have hshift : (fun (i : Nat) (word : Word) => (first + (i + 1), word)) =
        fun i word => (first + 1 + i, word) := by
      funext i word
      rw [Nat.add_assoc, Nat.add_comm 1 i]
    rw [List.mapIdx_cons, hshift, List.map_cons, ih, List.map_cons, Memory.addressed,
      List.map_cons]
    rfl

/-- What a JSON report shows of an emulator: why it stopped, or that it did not, how many
    instructions were executed, the registers, and cells if there are any to show. -/
def finalJson (stop : Option StopReason) (e : Emulator) (cells : Option (List (Int × Int))) :
    Json :=
  let registers := e.machine.registers.readings
  .object <|
    [("stop", .text (stop.elim "ERROR" StopReason.name)),
      ("steps", .integer e.control.steps),
      ("registers", .object
        [("A", .integer registers.accumulator), ("X", .integer registers.extension),
          ("I", .list (registers.index.toList.map .integer)),
          ("comparison", .integer registers.comparison),
          ("location", .integer registers.location)])] ++
    cells.elim [] fun cells =>
      [("memory", .object (cells.map fun cell => (Decimal.text cell.1, .integer cell.2)))]

/-- The cells of a JSON report are those of a plain one. -/
theorem toJson_of (stop : Option StopReason) (e : Emulator) (dump : Option (Nat × Nat)) :
    (Report.of stop e dump).toJson = finalJson stop e (dump.map fun range =>
      Memory.addressed range.1 (e.machine.memory.values range.1 (range.2 + 1))) := by
  cases dump with
  | none => rfl
  | some range =>
    obtain ⟨first, last⟩ := range
    simp only [finalJson, Option.map_some, Option.elim_some, Memory.values, ← map_mapIdx_addressed]
    rfl

theorem dump_shown (m : Memory) (hle : first ≤ last) (hlast : last < m.size) :
    m.dump first (some (last - first + 1)) = .ok (m.dumpText first (last + 1)) := by
  have hlength : min (first + ((last : Int) - first + 1).toNat) m.size = last + 1 := by omega
  refine Memory.dump_eq_ok_iff.2 ⟨first, rfl, by omega, ?_, ?_⟩
  · rw [Option.getD_some]
    omega
  · rw [Option.getD_some, hlength]

/-- The final state of a run as a JSON value: why the run stopped, how many instructions were
    executed, the registers, and the given cells. -/
def Progress.finalState (p : Progress) (cells : List (Int × Int)) : Json :=
  let registers := p.emulator.machine.registers.readings
  .object
    [("stop", .text (p.ended.toOption.elim "ERROR" StopReason.name)),
      ("steps", .integer p.emulator.control.steps),
      ("registers", .object
        [("A", .integer registers.accumulator), ("X", .integer registers.extension),
          ("I", .list (registers.index.toList.map .integer)),
          ("comparison", .integer registers.comparison),
          ("location", .integer registers.location)]),
      ("memory", .object (cells.map fun cell => (Decimal.text cell.1, .integer cell.2)))]

/-- The integers that a report shows of a run and of the given cells, apart from the count of
    executed instructions. -/
def Progress.numbers (p : Progress) (cells : List (Int × Int)) : List Int :=
  p.emulator.control.trace.toList.flatMap TraceEntry.numbers ++
    (p.emulator.machine.registers.readings.numbers ++ cells.flatMap fun cell => [cell.1, cell.2])

theorem isWritable_numbers {p : Progress} {size : Nat} {cells : List (Int × Int)}
    (hp : p.emulator.Presentable size) (hsize : isWritable size = true)
    (hcells : CellsOf p.emulator.machine.memory first last cells) (hlast : last ≤ size) {v : Int}
    (hv : v ∈ p.numbers cells) : isWritable v = true := by
  rcases List.mem_append.1 hv with htrace | hshown
  · obtain ⟨entry, hentry, hv⟩ := List.mem_flatMap.1 htrace
    exact hp.trace entry (Array.mem_toList_iff.1 hentry) v hv
  rcases List.mem_append.1 hshown with hregisters | hcell
  · exact hp.sound.within.isWritable_readings hsize hregisters
  obtain ⟨cell, hcell, hv⟩ := List.mem_flatMap.1 hcell
  have haddress : cell.1 ∈ cells.map Prod.fst := List.mem_map_of_mem hcell
  rw [hcells.addresses] at haddress
  obtain ⟨i, hi, haddress⟩ := List.mem_map.1 haddress
  obtain ⟨hlow, hhigh⟩ := List.mem_range'_1.1 hi
  obtain ⟨word, -, hvalue⟩ := hcells.values cell hcell
  rcases List.mem_pair.1 hv with rfl | rfl
  · rw [← haddress]
    exact isWritable_of_natAbs_le hsize (by simp only [Int.ofNat_eq_natCast]; omega)
  · rw [← hvalue]
    exact isWritable_toInt word

/-- The form of a report plays no part in anything but the report. -/
theorem execute_of_form {o : Options} {e : Emulator} {program : Program} {p : Progress}
    {dump : Option (Nat × Nat)} (hsetUp : o.setUp = .ok (e, dump))
    (hattempt : o.attempt e program = some p)
    (hended : (∃ reason, p.ended = .ok reason) ∨ ∃ f, p.ended = .error (.fault f)) (form : Bool) :
    ({ o with json := form } : Options).execute program =
      some ⟨(o.conclude p dump).exit, ({ o with json := form } : Options).report p dump,
        (o.conclude p dump).stderr⟩ := by
  have hform : ({ o with json := form } : Options).setUp = .ok (e, dump) := hsetUp
  have hrun : ({ o with json := form } : Options).attempt e program = some p := hattempt
  rw [Options.execute_of_setUp hform, hrun, Option.map_some]
  rcases hended with ⟨reason, hended⟩ | ⟨f, hended⟩
  · simp only [Options.conclude, hended]
    rfl
  · simp only [Options.conclude, hended]
    rfl

/-- The two forms of a report show the same final state, and either can always be printed. Let the
    arguments be accepted and ask to show cells, and let the run stop or a fault end it. Then the
    options print the same but for the form, with the same exit status and the same log, whether
    they ask for JSON or not, and after the same trace if they ask for one. The JSON report can be
    read back to why the run stopped, the count of executed instructions, the registers and the
    cells; the plain report to the same registers and the same cells. These are all the cells of the
    range in their order, with what the memory answers when it is asked for each, and the plain
    report lists them in the rows of a dump that the memory does not refuse. No number in the two
    reports or in the trace is too long to be written; for the count of executed instructions, a
    run without a budget would have to execute `10 ^ digitLimit` of them. -/
theorem run_shows_final_state (d : Directory) (arguments : List String) (o : Options)
    (e : Emulator) (first last : Nat) (p : Progress)
    (hparse : Options.parse arguments = .ok o)
    (hsetUp : o.setUp = .ok (e, some (first, last)))
    (hattempt : o.attempt e (d.program o.program) = some p)
    (hended : (∃ reason, p.ended = .ok reason) ∨ ∃ f, p.ended = .error (.fault f)) :
    let registers := p.emulator.machine.registers.readings
    let memory := p.emulator.machine.memory
    let trace := if o.trace then traceText p.emulator.control.trace ++ "\n" else ""
    ∃ (cells : List (Int × Int)) (exit : Nat) (json plain log rows : String),
      run d arguments = o.execute (d.program o.program) ∧
      (∀ form : Bool, ({ o with json := form } : Options).execute (d.program o.program) =
        some ⟨exit, trace ++ if form then json else plain, log⟩) ∧
      o.dump = some ((first : Int), (last : Int)) ∧ first ≤ last ∧
      CellsOf memory first last cells ∧
      Json.parse? json = some (p.finalState cells) ∧
      readPlain? plain = some (registers, cells) ∧
      memory.dump first (some (last - first + 1)) = .ok rows ∧
      plain = (p.ended.toOption.elim "" fun reason =>
        stoppedLine reason p.emulator.control.steps ++ "\n") ++
          (registers.display ++ ("\n" ++ ("Memory:\n" ++ (rows ++ "\n")))) ∧
      (∀ v ∈ p.numbers cells, isWritable v = true) ∧
      (isWritable p.emulator.control.steps = true ∨
        o.maxSteps = 0 ∧ 10 ^ digitLimit ≤ p.emulator.control.steps) := by
  intro registers memory trace
  have ho := Options.checked_of_parse hparse
  obtain ⟨hdump, -⟩ := Options.range_of_setUp ho hsetUp
  obtain ⟨size, -, hwritable, hlast⟩ := Options.exists_presentable ho hsetUp hattempt
  obtain ⟨hle, hmemory⟩ : first ≤ last ∧ last < memory.size :=
    Options.range_of_attempt ho hsetUp hattempt _ rfl
  have hsize : memory.size = size := hlast.sound.within.size_eq
  let r : Report := .of p.ended.toOption p.emulator (some (first, last))
  have hforms := execute_of_form hsetUp hattempt hended
  have hcells : CellsOf memory first last _ := cellsOf_values memory hmemory
  have hjson : Json.parse? (r.toJson.write 0 ++ "\n") =
      some (p.finalState (Memory.addressed first (memory.values first (last + 1)))) := by
    rw [Json.parse?_write _ (by decide), toJson_of]
    rfl
  have hcount := Options.isWritable_steps_or ho hsetUp hattempt
  exact ⟨_, _, _, r.text, _, _, run_of_parse hparse, hforms, hdump, hle, hcells, hjson,
    readPlain?_text rfl hle hmemory, dump_shown memory hle hmemory, text_of_dump rfl,
    fun v hv => isWritable_numbers hlast hwritable hcells (by omega) hv, hcount⟩

/-- `LDA 3` and `HLT` with a negative word behind them. Two of the four cells are shown. -/
theorem run_shows_final_state_halted :
    let d : Directory := ⟨[("p", ⟨#[0x31, 0x20, 0x33, 0x20, 0x30, 0x20, 0x2D, 0x37]⟩)]⟩
    ∃ exit json log,
      run d ["p", "--memory-size", "4", "--dump", "2:3", "--json"] = some ⟨exit, json, log⟩ ∧
      Json.parse? json = some (.object
        [("stop", .text "HALT"), ("steps", .integer 2),
          ("registers", .object
            [("A", .integer (-7)), ("X", .integer 0), ("I", .list (List.replicate 6 (.integer 0))),
              ("comparison", .integer 0), ("location", .integer 3)]),
          ("memory", .object [("2", .integer 0), ("3", .integer (-7))])]) := by
  intro d
  let o : Options :=
    { program := "p", memorySize := some 4, dump := some (2, 3), json := true }
  let fresh : Emulator := { machine := { memory := Memory.zeros 4 } }
  let loaded : Emulator := { machine := { memory := ⟨#[1, 3, 0, -7]⟩ } }
  let last := loaded.step.2.step.2
  let p : Progress :=
    ⟨last, [loadedLine [1, 3, 0, -7]] ++ instructionLines last.control.trace ++
      [stopLine o.maxSteps last .halt], .ok .halt⟩
  have hprogram : o.program = "p" := rfl
  have hread : d.read (Path.ofString o.program) =
      .ok ⟨#[0x31, 0x20, 0x33, 0x20, 0x30, 0x20, 0x2D, 0x37]⟩ := by
    rw [hprogram]
    rfl
  have hdecode := Text.Utf8.decode_utf8Encode ['1', ' ', '3', ' ', '0', ' ', '-', '7']
  have hwords : (d.program o.program).read = .ok [1, 3, 0, -7] :=
    (read_of_text hread hdecode).trans (by decide)
  have hload : fresh.load (.words [1, 3, 0, -7]) = .ok loaded := by decide
  have hwrite : loaded.machine.writeAll o.assignments = (.ok (), loaded.machine) := rfl
  have hnone : none ∉ o.pokes := List.not_mem_nil
  have hrun : loaded.run o.budget = some (.ok .halt, last) :=
    Emulator.run_of_proceedFor (k := 1) (by decide) (by decide)
  have hattempt : o.attempt fresh (d.program o.program) = some p := by
    simp only [Options.attempt, hwords, hload, hwrite, if_neg hnone]
    rw [hrun]
    rfl
  obtain ⟨cells, exit, json, plain, log, rows, hexecute, hforms, -, -, hcells, hjson, -⟩ :=
    run_shows_final_state d ["p", "--memory-size", "4", "--dump", "2:3", "--json"] o fresh 2 3 p
      (by decide) rfl hattempt (Or.inl ⟨_, rfl⟩)
  have hmemory : p.emulator.machine.memory = ⟨#[1, 3, 0, -7]⟩ := by decide +kernel
  rw [hmemory] at hcells
  have hshown : cells = [(2, 0), (3, -7)] := hcells.unique (cellsOf_values _ (by decide))
  have hreadings : p.emulator.machine.registers.readings =
      { accumulator := -7, location := 3 } := by decide +kernel
  have hsteps : p.emulator.control.steps = 2 := by decide +kernel
  have htwo : Decimal.text 2 = "2" := by decide
  have hthree : Decimal.text 3 = "3" := by decide
  refine ⟨exit, json, log, hexecute.trans ?_, hjson.trans ?_⟩
  · rw [← String.empty_append (s := json)]
    exact hforms true
  · simp only [Progress.finalState, hshown, hreadings, hsteps, List.map_cons, List.map_nil, htwo,
      hthree]
    rfl

end CommandLine

end WordMachine
