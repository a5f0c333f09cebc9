import WordMachine.Proofs.Job.Data
import WordMachine.Proofs.Machine.Wrapping
import WordMachine.Proofs.Run.Faults
import WordMachine.Proofs.Run.Stores

set_option autoImplicit false

/-! # Jobs modulo words

A value enters a machine as the word that it is congruent to. So two jobs that differ in multiples
of `2 ^ 32` only, in their programs and in their data (`Job.Congruent`), come to the same emulator
before the run, and the run ends in the same way (`Job.run_of_congruent`). In the data an address
may stand more than once, and the jobs write it once: `Job.settled` keeps the congruence. Whether
the run is begun has nothing to do with the values (`Job.exists_prepare_iff`).

That an instruction never meets anything but a word is said of the memory. It is recorded by the
values that its cells were given, before the run (`Job.recorded_of_prepare`) and in it
(`Emulator.recorded_run`), and of these values only the words are remembered. What is fetched is
read off them (`Memory.Recorded.of_fetch`), and so is an opcode that is reported
(`Memory.Recorded.of_plan_error`). -/

namespace WordMachine

open Memory (Event loadEvents remembered)

/-! ## Congruent values -/

theorem Word.map_wrap_of_congruent {values others : List Int}
    (h : List.Forall₂ (· ≡ · [ZMOD 2 ^ 32]) values others) :
    values.map wrap = others.map wrap := by
  induction h with
  | nil => rfl
  | cons hhead _ ih => rw [List.map_cons, List.map_cons, wrap_eq_wrap_iff_modEq.2 hhead, ih]

/-- The two give the same address values that are congruent. -/
def SameAssignment (p q : Int × Int) : Prop := p.1 = q.1 ∧ p.2 ≡ q.2 [ZMOD 2 ^ 32]

namespace Machine

variable {data others : List (Int × Int)}

theorem load_of_congruent (m : Machine) {words others : List Int}
    (h : List.Forall₂ (· ≡ · [ZMOD 2 ^ 32]) words others) : m.load words = m.load others := by
  rw [load, load, Memory.load, Memory.load, h.length_eq, Word.map_wrap_of_congruent h]

theorem write_of_congruent (m : Machine) (address : Int) {v w : Int} (h : v ≡ w [ZMOD 2 ^ 32]) :
    m.write address v = m.write address w := by
  rw [write, write, Word.wrap_eq_wrap_iff_modEq.2 h]

theorem writeAll_of_congruent (m : Machine) (h : List.Forall₂ SameAssignment data others) :
    m.writeAll data = m.writeAll others := by
  induction h generalizing m with
  | nil => rfl
  | @cons p q _ _ hhead _ ih =>
    obtain ⟨a, v⟩ := p
    obtain ⟨b, w⟩ := q
    obtain ⟨rfl, hvalue⟩ : a = b ∧ v ≡ w [ZMOD 2 ^ 32] := hhead
    rw [writeAll, writeAll, write_of_congruent m a hvalue]
    cases m.write a w with
    | ok machine => exact ih machine
    | error f => rfl

end Machine

/-! ## What is fetched from a recorded memory -/

namespace Memory.Recorded

variable {m : Machine} {events : List Event}

theorem word_eq {memory : Memory} (hm : memory.Recorded events) {address : Int} {word : Word}
    (h : memory.cell? address = some word) : word = remembered events address :=
  Option.some.inj (h.symm.trans (hm.cell?_eq (lt_size_of_cell? h)))

/-- An instruction that is fetched is encoded by the words that its cells were given last. -/
theorem of_fetch (hm : m.memory.Recorded events) {i : Instruction} (h : m.fetch = .ok i) :
    (i.opcode.number : Int) = (remembered events m.registers.location).toInt ∧
      ∀ a ∈ i.address, a = (remembered events (m.registers.location + 1)).toInt := by
  simp only [Machine.fetch] at h
  split at h
  · cases h
  · next word hword =>
    obtain rfl := hm.word_eq (read_eq_ok_iff.1 hword)
    split at h
    · cases h
    · next op hop =>
      have hnumber := Opcode.number_of_decode hop
      split at h
      · obtain ⟨operand, hoperand, rfl⟩ := map_eq_ok_iff.1 h
        obtain rfl := hm.word_eq (read_eq_ok_iff.1 hoperand)
        refine ⟨hnumber, fun a ha => ?_⟩
        exact (Option.some.inj ha).symm
      · cases h
        refine ⟨hnumber, fun a ha => ?_⟩
        cases ha

/-- An opcode that is reported is the word that the cell at fault was given last. -/
theorem of_plan_error (hm : m.memory.Recorded events) {f : Fault} (h : m.plan = .error f) :
    ∀ n ∈ f.opcode?, n = (remembered events m.registers.location).toInt ∧
      f.address? = some (m.registers.location : Int) := by
  intro n hn
  cases hfetch : m.memory.cell? m.registers.location with
  | none =>
    obtain rfl := Except.error.inj ((Machine.plan_of_no_cell hfetch).symm.trans h)
    cases hn
  | some word =>
    cases hword : Opcode.ofNumber? word.toInt with
    | none =>
      obtain rfl := Except.error.inj ((Machine.plan_of_unknown hfetch hword).symm.trans h)
      cases hn
      exact ⟨congrArg Int32.toInt (hm.word_eq hfetch), rfl⟩
    | some op =>
      by_cases hop : op = .hlt
      · subst hop
        cases (Machine.plan_of_hlt hfetch hword).symm.trans h
      · cases hnext : m.memory.cell? (m.registers.location + 1) with
        | none =>
          have hplan := Machine.plan_of_no_operand hfetch hword hop hnext
          obtain rfl := Except.error.inj (hplan.symm.trans h)
          cases hn
        | some operand =>
          rw [Machine.plan_of_operand hfetch hword hop hnext] at h
          obtain ⟨-, hopcode⟩ := Machine.numbers_of_effectOf (map_eq_error_iff.1 h)
          cases hopcode.symm.trans hn

end Memory.Recorded

namespace Machine

variable {m : Machine} {events : List Event} {data : List (Int × Int)}

/-- Values that are stored at addresses of cells are recorded in their order. -/
theorem recorded_foldl_store (hm : m.memory.Recorded events)
    (h : (data.map Prod.fst).find? (Memory.outside m.memory.size) = none) :
    (data.foldl store m).memory.Recorded (events ++ data.map fun p => .stored p.1 p.2) := by
  induction data generalizing m events with
  | nil => simpa using hm
  | cons p rest ih =>
    obtain ⟨a, v⟩ := p
    rw [List.map_cons, List.find?_cons] at h
    split at h
    · cases h
    · next hin =>
      have hcell := Decidable.of_not_not (of_decide_eq_false hin)
      have hput := hm.put (by omega : a.toNat < m.memory.size) v
      rw [Int.toNat_of_nonneg hcell.1] at hput
      have hrest := ih (m := m.store (a, v)) hput (by rwa [size_store])
      rwa [List.append_assoc] at hrest

end Machine

namespace Job

variable {job other : Job}

/-- The values that cells are given before the run, in order, if these are the program's words. -/
def given (job : Job) (words : List Int) : List Event :=
  loadEvents 0 words ++ job.data.map fun p => .stored p.1 p.2

/-- How the run ends: why it stopped, or the fault that struck, and the emulator then. It may be
    that the run is never begun, or that it never ends. -/
def ending (job : Job) : Except Error (Option (RunOutcome × Emulator)) :=
  job.prepare.map (·.run job.budget)

/-- The jobs differ in multiples of `2 ^ 32` only: in the words of their programs, and in the values
    that their data gives to the same addresses in the same order. -/
structure Congruent (job other : Job) : Prop where
  memorySize : job.memorySize = other.memorySize
  program : ∃ words others, job.program.read = .ok words ∧ other.program.read = .ok others ∧
    List.Forall₂ (· ≡ · [ZMOD 2 ^ 32]) words others
  data : List.Forall₂ SameAssignment job.data other.data
  budget : job.budget = other.budget

/-! ## Data with every address named once -/

theorem assign_congruent {address v w : Int} {data others : List (Int × Int)}
    (hvalue : v ≡ w [ZMOD 2 ^ 32]) (h : List.Forall₂ SameAssignment data others) :
    List.Forall₂ SameAssignment (assign address v data) (assign address w others) := by
  induction h with
  | nil => exact .cons ⟨rfl, hvalue⟩ .nil
  | @cons p q rest others hhead hrest ih =>
    obtain ⟨a, u⟩ := p
    obtain ⟨b, x⟩ := q
    obtain ⟨rfl, hu⟩ : a = b ∧ u ≡ x [ZMOD 2 ^ 32] := hhead
    rw [assign, assign]
    split
    · exact .cons ⟨rfl, hvalue⟩ hrest
    · exact .cons ⟨rfl, hu⟩ ih

theorem settled_congruent {data others : List (Int × Int)}
    (h : List.Forall₂ SameAssignment data others) :
    List.Forall₂ SameAssignment (settled data) (settled others) := by
  refine List.rel_foldl ?_ .nil h
  rintro _ _ hsettled ⟨a, v⟩ ⟨b, w⟩ ⟨rfl, hvalue⟩
  exact assign_congruent hvalue hsettled

/-! ## Before the run -/

theorem prepare_of_congruent (h : job.Congruent other) : job.prepare = other.prepare := by
  obtain ⟨words, others, hwords, hothers, hprogram⟩ := h.program
  have hload : ∀ e : Emulator, e.load job.program = e.load other.program := by
    intro e
    simp only [Emulator.load, hwords, hothers, e.machine.load_of_congruent hprogram]
  have hdata : ∀ m : Machine, m.writeAll (settled job.data) = m.writeAll (settled other.data) :=
    fun m => m.writeAll_of_congruent (settled_congruent h.data)
  simp only [prepare, h.memorySize, hload, hdata]

/-- The program is loaded and all addresses are those of cells, if the run is begun. -/
theorem exists_loaded_of_prepare {before : Emulator} (h : job.prepare = .ok before) :
    ∃ fresh loaded, Emulator.ofSize job.memorySize = .ok fresh ∧
      fresh.load job.program = .ok loaded ∧ job.firstOutside? = none := by
  cases hfresh : Emulator.ofSize job.memorySize with
  | error error =>
    simp only [prepare, hfresh] at h
    cases h
  | ok fresh =>
    cases hload : fresh.load job.program with
    | error error =>
      simp only [prepare, hfresh, hload] at h
      cases h
    | ok loaded =>
      cases hfirst : job.firstOutside? with
      | some address =>
        have hrefused := (exists_prepare_of_outside hfresh hload hfirst).1
        cases hrefused.symm.trans h
      | none => exact ⟨fresh, loaded, rfl, hload, rfl⟩

section

variable {words : List Int} {fresh loaded before : Emulator}

/-- A program is loaded if there is a cell for each of its words. -/
theorem load_eq_ok_iff (hfresh : Emulator.ofSize job.memorySize = .ok fresh)
    (hwords : job.program.read = .ok words) :
    fresh.load job.program = .ok loaded ↔
      (words.length : Int) ≤ job.memorySize ∧
        loaded = { machine := { memory :=
          (Memory.zeros job.memorySize.toNat).putAll 0 (words.map Word.wrap) } } := by
  obtain ⟨hpos, rfl⟩ := Emulator.ofSize_eq_ok_iff.1 hfresh
  rw [Emulator.load_of_read hwords, Memory.size_zeros]
  split
  · simp only [reduceCtorEq, false_iff]
    omega
  · rw [Except.ok.injEq, eq_comm, iff_and_self]
    omega

theorem firstOutside?_eq_none_iff (hpos : 0 < job.memorySize) :
    job.firstOutside? = none ↔ ∀ p ∈ job.data, 0 ≤ p.1 ∧ p.1 < job.memorySize := by
  have hsize : (job.memorySize.toNat : Int) = job.memorySize := Int.toNat_of_nonneg hpos.le
  simp only [firstOutside?, List.find?_eq_none, List.forall_mem_map, Memory.outside, hsize,
    decide_eq_true_eq, not_not]

/-- Whether the run is begun is decided by the addresses and the sizes. -/
theorem exists_prepare_iff (hwords : job.program.read = .ok words) :
    (∃ before, job.prepare = .ok before) ↔
      (0 < job.memorySize ∧ (words.length : Int) ≤ job.memorySize) ∧
        ∀ p ∈ job.data, 0 ≤ p.1 ∧ p.1 < job.memorySize := by
  constructor
  · rintro ⟨before, h⟩
    obtain ⟨fresh, loaded, hfresh, hload, hfirst⟩ := exists_loaded_of_prepare h
    have hpos := (Emulator.ofSize_eq_ok_iff.1 hfresh).1
    exact ⟨⟨hpos, ((load_eq_ok_iff hfresh hwords).1 hload).1⟩,
      (firstOutside?_eq_none_iff hpos).1 hfirst⟩
  · rintro ⟨⟨hpos, hfit⟩, hdata⟩
    have hfresh := Emulator.ofSize_eq_ok_iff.2 ⟨hpos, rfl⟩
    have hload := (load_eq_ok_iff hfresh hwords).2 ⟨hfit, rfl⟩
    obtain ⟨before, hprepare, -⟩ :=
      exists_prepare_of_inside hfresh hload ((firstOutside?_eq_none_iff hpos).2 hdata)
    exact ⟨before, hprepare⟩

/-- Before the run a cell holds what the program and then the data gave to it last. -/
theorem recorded_of_prepare (hwords : job.program.read = .ok words)
    (h : job.prepare = .ok before) : before.machine.memory.Recorded (job.given words) := by
  obtain ⟨fresh, loaded, hfresh, hload, hfirst⟩ := exists_loaded_of_prepare h
  have hloaded : loaded.machine.memory.Recorded (loadEvents 0 words) := by
    obtain ⟨hfit, rfl⟩ := (load_eq_ok_iff hfresh hwords).1 hload
    have hcells : 0 + words.length ≤ (Memory.zeros job.memorySize.toNat).size := by
      rw [Memory.size_zeros]
      omega
    exact (Memory.recorded_zeros _).putAll hcells
  obtain ⟨same, hsame, hcalls⟩ := exists_prepare_of_inside hfresh hload hfirst
  obtain rfl := Except.ok.inj (hsame.symm.trans h)
  rw [firstOutside?, ← size_of_load hfresh hload] at hfirst
  rw [performAll_loading hload, Machine.writeAll_of_inside hfirst] at hcalls
  cases hcalls
  exact Machine.recorded_foldl_store hloaded hfirst

end

/-! ## The run -/

theorem ending_of_congruent (h : job.Congruent other) : job.ending = other.ending := by
  rw [ending, ending, prepare_of_congruent h, h.budget]

theorem run_eq_ending (job : Job) :
    job.run = match job.ending with
      | .error error => some (.error error)
      | .ok stop =>
        stop.map fun (outcome, last) => (Operation.reported outcome).map fun _ => last := by
  rw [ending]
  cases hprepare : job.prepare with
  | error error => simp only [run, hprepare, Except.map]
  | ok before => exact run_of_prepare hprepare

/-- Values count modulo `2 ^ 32` only. Two jobs whose programs have congruent words, place by place,
    and whose data gives congruent values to the same addresses in the same order come to the same
    emulator, or to the same error. Their runs end for the same reason, or in the same fault, with
    the same emulator, which is registers, memory and number of steps.

    Whether such a run is begun is decided by the addresses and the number of the words, against the
    size of the memory, and by no value. Wherever it comes by, which is where one with a smaller
    budget ends, every cell holds the word of the value that it was given last, by the program, by
    the data or by an instruction. The opcode and the operand that are fetched there are these
    words, and so is an opcode that is reported as unknown. -/
theorem run_of_congruent (job other : Job) (h : job.Congruent other) :
    job.prepare = other.prepare ∧ job.ending = other.ending ∧ job.run = other.run ∧
      ∀ words, job.program.read = .ok words →
        ((∃ before, job.prepare = .ok before) ↔
          (0 < job.memorySize ∧ (words.length : Int) ≤ job.memorySize) ∧
            ∀ p ∈ job.data, 0 ≤ p.1 ∧ p.1 < job.memorySize) ∧
        ∀ before budget outcome last, job.prepare = .ok before →
          before.run budget = some (outcome, last) →
          let events := job.given words ++ before.runStores budget
          last.machine.memory.Recorded events ∧
            (∀ i, last.machine.fetch = .ok i →
              (i.opcode.number : Int) = (remembered events last.location).toInt ∧
                ∀ a ∈ i.address, a = (remembered events (last.location + 1)).toInt) ∧
            ∀ f, outcome = .error f → ∀ n ∈ f.opcode?,
              n = (remembered events last.location).toInt ∧
                f.address? = some (last.location : Int) := by
  have hending := ending_of_congruent h
  refine ⟨prepare_of_congruent h, hending, ?_, ?_⟩
  · rw [run_eq_ending, run_eq_ending, hending]
  · intro words hwords
    refine ⟨exists_prepare_iff hwords, ?_⟩
    intro before budget outcome last hprepare hrun events
    have hlast : last.machine.memory.Recorded events :=
      Emulator.recorded_run (recorded_of_prepare hwords hprepare) hrun
    refine ⟨hlast, fun i hi => hlast.of_fetch hi, ?_⟩
    rintro f rfl
    exact hlast.of_plan_error (Emulator.faulty_of_run hrun).plan_eq

/-- An opcode, an operand and a value beyond the greatest word, and an opcode below the least. The
    operand is the address of the cell that was given the value, and the last opcode is reported as
    the word that it is. -/
theorem run_of_congruent_past_the_words :
    let words := [4294967297, 4294967301, -4294967303]
    let job : Job :=
      { program := .words words, memorySize := 6, data := [(5, 4294967338)], budget := some 9 }
    let plain : Job := { job with program := .words [1, 5, -7], data := [(5, 42)] }
    let before : Emulator := { machine := { memory := ⟨#[1, 5, -7, 0, 0, 42]⟩ } }
    let last : Emulator :=
      { machine := { before.machine with registers := { accumulator := 42, location := 2 } }
        control := { steps := 1 } }
    job.Congruent plain ∧ job.ending = .ok (some (.error (.unknownOpcode (-7) 2), last)) ∧
      job.run = some (.error (.fault (.unknownOpcode (-7) 2))) ∧
      -7 = (remembered (job.given words ++ before.runStores (some 9)) 2).toInt := by
  intro words job plain before last
  have hcongruent : job.Congruent plain :=
    ⟨rfl, ⟨_, _, rfl, rfl, .cons rfl (.cons rfl (.cons rfl .nil))⟩, .cons ⟨rfl, rfl⟩ .nil, rfl⟩
  obtain ⟨hprepare, hending, hrun, hwords⟩ := run_of_congruent job plain hcongruent
  have hbefore : job.prepare = .ok before := hprepare.trans (by decide)
  obtain ⟨-, -, hopcode⟩ := (hwords words rfl).2 before (some 9) _ last hbefore rfl
  refine ⟨hcongruent, hending.trans (by decide), hrun.trans (by decide), ?_⟩
  exact (hopcode (.unknownOpcode (-7) 2) rfl (-7) rfl).1

end Job

end WordMachine
