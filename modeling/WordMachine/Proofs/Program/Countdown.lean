import Mathlib.Data.Nat.Find
import Mathlib.Order.Bounds.Basic
import WordMachine.Proofs.Machine.Wrapping
import WordMachine.Proofs.Run.Budgets
import WordMachine.Proofs.Session.Requests

set_option autoImplicit false

/-! # The countdown

`countdown` is a program that takes the word in cell 21 away from the one in cell 20 until nothing
is left. `run_countdown` says for all words in the two cells and for every budget how a run of it
ends.

There is one lemma for each instruction of the loop (`Reaches.lda` to `Reaches.jmp`), which says
where it leads and what it leaves in the accumulator and in cell 20. Four of them make a pass, and
the passes are counted by induction (`reaches_pass`): before pass `j` the accumulator and cell 20
hold `n - j * d`, wrapped. -/

namespace WordMachine

/-- The words of the countdown: the loop in the cells 0 to 10, what is counted down in cell 20 and
    by how much in cell 21. -/
def countdown : List Int :=
  [1, 20, 7, 10, 4, 21, 2, 20, 6, 2, 0, 0, 0, 0, 0, 0, 0, 0, 0, 0, 5, 1]

/-- The countdown as a word file. -/
def countdownText : String :=
  "# Count cell 20 down to zero, one per loop pass.
# Cell 21 holds the decrement.
1, 20       # 00  LDA 20
7, 10       # 02  JZ  10
4, 21       # 04  SUB 21
2, 20       # 06  STA 20
6, 2        # 08  JMP 2
0           # 10  HLT
0 0 0 0 0 0 0 0 0   # 11-19
5           # 20  counter
1           # 21  decrement
"

set_option maxRecDepth 2000 in
theorem exists_countdownText :
    ∃ chars, countdownText = String.ofList chars ∧ WordFile.parse chars = .ok countdown :=
  ⟨_, rfl, by decide +kernel⟩

theorem read_countdownText : (Program.text countdownText).read = .ok countdown := by
  obtain ⟨chars, htext, hparse⟩ := exists_countdownText
  rw [htext, Program.read, String.toList_ofList, hparse]

namespace Countdown

open Emulator

/-- The emulator has the loop in its cells, and `d` in cell 21. -/
structure Ready (d : Int) (e : Emulator) : Prop where
  code : ∀ i : Nat, i < 11 → e.machine.memory.cell? i = countdown[i]?.map Word.wrap
  decrement : e.machine.memory.cell? 21 = some (Word.wrap d)

/-- The emulator is at a location, with these words in the accumulator and in cell 20. The other
    cells are those of `start`. -/
structure Shows (start : Emulator) (location : Nat) (a counter : Word) (s : Emulator) : Prop where
  running : s.control.halted = false
  location_eq : s.location = location
  accumulator : s.machine.registers.accumulator = a
  counter_eq : s.machine.memory.cell? 20 = some counter
  others : ∀ address ≠ 20, s.machine.memory.cell? address = start.machine.memory.cell? address

/-- By `k` instructions one gets from `start` to this location, with these words in the accumulator
    and in cell 20. -/
def Reaches (start : Emulator) (k location : Nat) (a counter : Word) : Prop :=
  ∃ s, start.after k = some s ∧ Shows start location a counter s

variable {start s : Emulator} {n d : Int} {j k location N : Nat} {a counter : Word} {op : Opcode}
  {address : Int} {effect : Effect}

/-! ## What the effects lead to -/

theorem Shows.none (h : Shows start location a counter s) :
    Shows start (location + 2) a counter (s.executed ⟨op, some address⟩ .none) :=
  ⟨h.running, congrArg (· + 2) h.location_eq, h.accumulator, h.counter_eq, h.others⟩

theorem Shows.accumulate (h : Shows start location a counter s) (word : Word) :
    Shows start (location + 2) word counter (s.executed ⟨op, some address⟩ (.accumulate word)) :=
  ⟨h.running, congrArg (· + 2) h.location_eq, rfl, h.counter_eq, h.others⟩

theorem Shows.jump (h : Shows start location a counter s) (cell : Nat) :
    Shows start cell a counter (s.executed ⟨op, some address⟩ (.jump cell)) :=
  ⟨h.running, rfl, h.accumulator, h.counter_eq, h.others⟩

theorem Shows.store (h : Shows start location a counter s) (word : Word) :
    Shows start (location + 2) a word (s.executed ⟨op, some address⟩ (.store 20 word)) := by
  have hsize : 20 < s.machine.memory.size := by
    have hlt := (Memory.lt_size_of_cell? h.counter_eq).2
    omega
  have hput : ∀ address, (s.executed ⟨op, some address⟩ (.store 20 word)).machine.memory.cell?
      address = if address = 20 then some word else s.machine.memory.cell? address := by
    intro address
    refine (Memory.cell?_put ..).trans ?_
    simp only [Nat.cast_ofNat, hsize, and_true]
  refine ⟨h.running, congrArg (· + 2) h.location_eq, h.accumulator, ?_, fun address hne => ?_⟩
  · exact (hput 20).trans (if_pos rfl)
  · exact (hput address).trans ((if_neg hne).trans (h.others address hne))

/-! ## The instructions of the loop -/

/-- The cells of the loop are never changed. -/
theorem Shows.code (h : Shows start location a counter s) (hready : Ready d start) {i : Nat}
    (hi : i < 11) : s.machine.memory.cell? i = countdown[i]?.map Word.wrap :=
  (h.others i (by omega)).trans (hready.code i hi)

theorem toInt_wrap_number (op : Opcode) : (Word.wrap op.number).toInt = op.number := by
  cases op <;> rfl

/-- The instruction that stands at the location is executed. -/
theorem Shows.step (h : Shows start location a counter s) (hready : Ready d start)
    (hlocation : location + 1 < 11) (hop : op ≠ .hlt)
    (hcode : countdown[location]? = some (op.number : Int) ∧ countdown[location + 1]? = some address)
    (haddress : (Word.wrap address).toInt = address)
    (heffect : s.machine.effectOf op address = .ok effect) :
    s.step = (.ok .ran, s.executed ⟨op, some address⟩ effect) := by
  have hfetch : s.machine.memory.cell? s.machine.registers.location =
      some (Word.wrap op.number) := by
    rw [show s.machine.registers.location = location from h.location_eq,
      h.code hready (Nat.lt_of_succ_lt hlocation), hcode.1, Option.map_some]
  have hnext : s.machine.memory.cell? (s.machine.registers.location + 1) =
      some (Word.wrap address) := by
    have hcell := h.code hready hlocation
    rw [hcode.2, Option.map_some] at hcell
    rw [show s.machine.registers.location = location from h.location_eq]
    exact hcell
  have hword : Opcode.ofNumber? (Word.wrap op.number).toInt = some op := by
    rw [toInt_wrap_number, Opcode.ofNumber?_number]
  refine step_of_ran h.running ?_ hop
  rw [Machine.plan_of_operand hfetch hword hop hnext, haddress, heffect]
  rfl

/-- The loop is in the first cells of the memory, so one may jump to any of its instructions. -/
theorem Shows.checkCounter (h : Shows start location a counter s) {cell : Nat} (hcell : cell < 11) :
    s.machine.checkCounter cell = .ok cell := by
  have hlt := (Memory.lt_size_of_cell? h.counter_eq).2
  exact Machine.checkCounter_eq_ok_iff.2 ⟨rfl, by omega⟩

theorem Reaches.lda (hready : Ready d start) (h : Reaches start k 0 a counter) :
    Reaches start (k + 1) 2 counter counter := by
  obtain ⟨s, hafter, hs⟩ := h
  have heffect : s.machine.effectOf .lda 20 = .ok (.accumulate counter) := by
    simp only [Machine.effectOf, Memory.read_of_cell? hs.counter_eq, Except.map]
  have hstep := hs.step hready (by decide) (by decide) ⟨rfl, rfl⟩ rfl heffect
  exact ⟨_, after_succ_iff.2 ⟨s, hafter, hstep⟩, hs.accumulate counter⟩

theorem Reaches.jz_taken (hready : Ready d start) (h : Reaches start k 2 0 counter) :
    Reaches start (k + 1) 10 0 counter := by
  obtain ⟨s, hafter, hs⟩ := h
  have heffect : s.machine.effectOf .jz 10 = .ok (.jump 10) := by
    have hcounter : s.machine.checkCounter 10 = .ok 10 := hs.checkCounter (by decide)
    simp only [Machine.effectOf, Machine.jumpEffect, hs.accumulator, decide_true, if_true,
      hcounter, Except.map]
  have hstep := hs.step hready (by decide) (by decide) ⟨rfl, rfl⟩ rfl heffect
  exact ⟨_, after_succ_iff.2 ⟨s, hafter, hstep⟩, hs.jump 10⟩

theorem Reaches.jz_not_taken (hready : Ready d start) (h : Reaches start k 2 a counter)
    (ha : a ≠ 0) : Reaches start (k + 1) 4 a counter := by
  obtain ⟨s, hafter, hs⟩ := h
  have heffect : s.machine.effectOf .jz 10 = .ok .none := by
    simp only [Machine.effectOf, Machine.jumpEffect, hs.accumulator, ha, decide_false,
      Bool.false_eq_true, if_false]
  have hstep := hs.step hready (by decide) (by decide) ⟨rfl, rfl⟩ rfl heffect
  exact ⟨_, after_succ_iff.2 ⟨s, hafter, hstep⟩, hs.none⟩

theorem Reaches.sub (hready : Ready d start) (h : Reaches start k 4 a counter) :
    Reaches start (k + 1) 6 (a - Word.wrap d) counter := by
  obtain ⟨s, hafter, hs⟩ := h
  have hread : s.machine.memory.read 21 = .ok (Word.wrap d) :=
    Memory.read_of_cell? ((hs.others 21 (by decide)).trans hready.decrement)
  have heffect : s.machine.effectOf .sub 21 = .ok (.accumulate (a - Word.wrap d)) := by
    simp only [Machine.effectOf, hread, hs.accumulator, Except.map]
  have hstep := hs.step hready (by decide) (by decide) ⟨rfl, rfl⟩ rfl heffect
  exact ⟨_, after_succ_iff.2 ⟨s, hafter, hstep⟩, hs.accumulate _⟩

theorem Reaches.sta (hready : Ready d start) (h : Reaches start k 6 a counter) :
    Reaches start (k + 1) 8 a a := by
  obtain ⟨s, hafter, hs⟩ := h
  have heffect : s.machine.effectOf .sta 20 = .ok (.store 20 a) := by
    simp only [Machine.effectOf, Memory.checkAddress_of_cell? hs.counter_eq, hs.accumulator,
      Except.map]
    rfl
  have hstep := hs.step hready (by decide) (by decide) ⟨rfl, rfl⟩ rfl heffect
  exact ⟨_, after_succ_iff.2 ⟨s, hafter, hstep⟩, hs.store a⟩

theorem Reaches.jmp (hready : Ready d start) (h : Reaches start k 8 a counter) :
    Reaches start (k + 1) 2 a counter := by
  obtain ⟨s, hafter, hs⟩ := h
  have heffect : s.machine.effectOf .jmp 2 = .ok (.jump 2) := by
    have hcounter : s.machine.checkCounter 2 = .ok 2 := hs.checkCounter (by decide)
    simp only [Machine.effectOf, Machine.jumpEffect, if_true, hcounter, Except.map]
  have hstep := hs.step hready (by decide) (by decide) ⟨rfl, rfl⟩ rfl heffect
  exact ⟨_, after_succ_iff.2 ⟨s, hafter, hstep⟩, hs.jump 2⟩

theorem Shows.hlt (hready : Ready d start) (h : Shows start 10 a counter s) :
    ∃ t, s.step = (.ok .halted, t.halt) ∧ Shows start 11 a counter t ∧
      t.control.steps = s.control.steps + 1 := by
  have hfetch : s.machine.memory.cell? s.machine.registers.location = some (Word.wrap 0) := by
    rw [show s.machine.registers.location = 10 from h.location_eq]
    exact h.code hready (by decide)
  have hstep := step_of_hlt h.running (Machine.plan_of_hlt hfetch rfl) rfl
  refine ⟨_, hstep, ⟨h.running, ?_, h.accumulator, h.counter_eq, h.others⟩, rfl⟩
  exact congrArg (· + 1) h.location_eq

/-! ## Passes -/

/-- Before pass `j` so much is left, wrapped. -/
def left (n d : Int) (j : Nat) : Word := Word.wrap (n - j * d)

theorem left_succ : left n d (j + 1) = left n d j - Word.wrap d := by
  rw [left, left, ← Word.wrap_sub]
  congr 1
  rw [Nat.cast_succ, Int.add_mul, Int.one_mul, Int.sub_sub]

theorem left_eq_zero_iff : left n d j = 0 ↔ (2 ^ 32 : Int) ∣ n - j * d :=
  Word.wrap_eq_zero_iff

/-- A pass takes four instructions. -/
theorem Reaches.pass (hready : Ready d start)
    (h : Reaches start k 2 (left n d j) (left n d j)) (hne : left n d j ≠ 0) :
    Reaches start (k + 4) 2 (left n d (j + 1)) (left n d (j + 1)) := by
  have hsub := (h.jz_not_taken hready hne).sub hready
  rw [← left_succ] at hsub
  exact (hsub.sta hready).jmp hready

/-- As long as something is left, pass follows pass. -/
theorem reaches_pass (hready : Ready d start)
    (hstart : Reaches start 0 0 0 (left n d 0)) (hleft : ∀ i < j, left n d i ≠ 0) :
    Reaches start (4 * j + 1) 2 (left n d j) (left n d j) := by
  induction j with
  | zero => exact hstart.lda hready
  | succ j ih =>
    have hbefore := ih fun i hi => hleft i (Nat.lt_succ_of_lt hi)
    exact hbefore.pass hready (hleft j (Nat.lt_succ_self j))

/-- A run that has not come to the end of the countdown is somewhere in the loop. -/
theorem exists_reaches (hready : Ready d start)
    (hstart : Reaches start 0 0 0 (left n d 0)) (hleft : ∀ i, 4 * i + 3 ≤ N → left n d i ≠ 0) :
    ∃ location a counter, Reaches start N location a counter := by
  cases N with
  | zero => exact ⟨0, _, _, hstart⟩
  | succ m =>
    obtain ⟨j, r, hr, rfl⟩ : ∃ j r, r < 4 ∧ m = 4 * j + r :=
      ⟨m / 4, m % 4, Nat.mod_lt m (by decide), (Nat.div_add_mod m 4).symm⟩
    have hpass := reaches_pass hready hstart (j := j) fun i hi => hleft i (by omega)
    -- The pass is cut short behind one of its instructions.
    rcases (by omega : r = 0 ∨ r = 1 ∨ r = 2 ∨ r = 3) with rfl | rfl | rfl | rfl
    · exact ⟨_, _, _, hpass⟩
    · by_cases hzero : left n d j = 0
      · rw [hzero] at hpass
        exact ⟨_, _, _, hpass.jz_taken hready⟩
      · exact ⟨_, _, _, hpass.jz_not_taken hready hzero⟩
    · exact ⟨_, _, _, (hpass.jz_not_taken hready (hleft j (by omega))).sub hready⟩
    · exact ⟨_, _, _, ((hpass.jz_not_taken hready (hleft j (by omega))).sub hready).sta hready⟩

/-! ## Runs -/

/-- A budget that ends in the loop is used up. -/
theorem Reaches.run_eq_timeout (h : Reaches start N location a counter)
    (hbreakpoints : start.control.breakpoints = []) :
    ∃ s, start.run (some N) = some (.ok .timeout, s) ∧ Shows start location a counter s ∧
      s.control.steps = start.control.steps + N := by
  obtain ⟨s, hafter, hs⟩ := h
  refine ⟨s, run_of_spent_after hafter fun j _ t ht => ?_, hs, (control_of_after hafter).1⟩
  exact not_breaksAfter_of_after hbreakpoints ht j

/-- At the end of the countdown any greater budget makes the emulator halt, and so does none. -/
theorem Reaches.run_eq_halt (hready : Ready d start) (h : Reaches start k 10 a counter)
    (hbreakpoints : start.control.breakpoints = []) :
    ∃ t, Shows start 11 a counter t ∧ t.control.steps = start.control.steps + (k + 1) ∧
      start.run none = some (.ok .halt, t.halt) ∧
      ∀ N, k + 1 ≤ N → start.run (some N) = some (.ok .halt, t.halt) := by
  obtain ⟨s, hafter, hs⟩ := h
  obtain ⟨t, hstep, ht, hsteps⟩ := hs.hlt hready
  have hexact : start.run (some (k + 1 : Nat)) = some (.ok .halt, t.halt) :=
    run_of_halted_after hafter (fun j _ _ hu => not_breaksAfter_of_after hbreakpoints hu j) hstep
  have hmore := run_of_run_of_ne_timeout hexact nofun
  refine ⟨t, ht, ?_, (hmore 0).2, fun N hN => ?_⟩
  · rw [hsteps, (control_of_after hafter).1, Nat.add_assoc]
  · obtain ⟨rest, rfl⟩ := Nat.exists_eq_add_of_le hN
    rw [Nat.cast_add]
    exact (hmore rest).1

/-- The numbers of passes after which nothing is left. -/
def clearing (n d : Int) : Set Nat := {k | (2 ^ 32 : Int) ∣ n - k * d}

/-- If the countdown clears the counter at all, it halts in the first pass that finds it clear. -/
theorem run_of_isLeast (hready : Ready d start) (hstart : Reaches start 0 0 0 (left n d 0))
    (hbreakpoints : start.control.breakpoints = []) (hk : IsLeast (clearing n d) k) :
    ∃ t, Shows start 11 0 0 t ∧ t.control.steps = start.control.steps + (4 * k + 3) ∧
      start.run none = some (.ok .halt, t.halt) ∧
      ∀ N, 4 * k + 3 ≤ N → start.run (some N) = some (.ok .halt, t.halt) := by
  have hleft : ∀ i < k, left n d i ≠ 0 :=
    fun i hi hzero => Nat.not_le_of_lt hi (hk.2 (left_eq_zero_iff.1 hzero))
  have hpass := reaches_pass hready hstart hleft
  rw [left_eq_zero_iff.2 hk.1] at hpass
  exact (hpass.jz_taken hready).run_eq_halt hready hbreakpoints

/-- If not, or not within the budget, the budget is used up. -/
theorem run_of_not_cleared (hready : Ready d start) (hstart : Reaches start 0 0 0 (left n d 0))
    (hbreakpoints : start.control.breakpoints = [])
    (hlong : ∀ k, IsLeast (clearing n d) k → N < 4 * k + 3) :
    ∃ location a counter s, start.run (some N) = some (.ok .timeout, s) ∧
      Shows start location a counter s ∧ s.control.steps = start.control.steps + N := by
  have hleft : ∀ i, 4 * i + 3 ≤ N → left n d i ≠ 0 := by
    intro i hi hzero
    have hclear : ∃ k, k ∈ clearing n d := ⟨i, left_eq_zero_iff.1 hzero⟩
    classical
    have hleast : IsLeast (clearing n d) (Nat.find hclear) :=
      ⟨Nat.find_spec hclear, fun _ => Nat.find_min' hclear⟩
    have hshort := hlong _ hleast
    have hle := Nat.find_min' hclear (left_eq_zero_iff.1 hzero)
    omega
  obtain ⟨location, a, counter, hreaches⟩ := exists_reaches hready hstart hleft
  exact ⟨location, a, counter, hreaches.run_eq_timeout hbreakpoints⟩

theorem isLeast_clearing_one (n : Int) : IsLeast (clearing n 1) (n % 2 ^ 32).toNat := by
  refine ⟨show (2 ^ 32 : Int) ∣ n - (n % 2 ^ 32).toNat * 1 by omega, fun k hk => ?_⟩
  have hdvd : (2 ^ 32 : Int) ∣ n - k * 1 := hk
  omega

/-! ## The preparation -/

theorem perform_write_of_lt {e : Emulator} {cell : Nat} (h : cell < e.machine.memory.size)
    (value : Int) :
    (Operation.write cell value).perform e = some (.ok .done, { e with machine :=
      { e.machine with memory := e.machine.memory.put cell (Word.wrap value) } }) := by
  simp only [Operation.perform, Machine.write_eq_ok_iff.2 ⟨cell, rfl, h, rfl⟩]
  rfl

/-- The memory with the two words of the countdown in their cells. -/
def given (n d : Int) (memory : Memory) : Memory :=
  (memory.put 20 (Word.wrap n)).put 21 (Word.wrap d)

theorem cell?_given {memory : Memory} (h : 22 ≤ memory.size) (n d address : Int) :
    (given n d memory).cell? address =
      if address = 21 then some (Word.wrap d) else if address = 20 then some (Word.wrap n)
      else memory.cell? address := by
  have hlow : 20 < memory.size := by omega
  have hhigh : 21 < memory.size := by omega
  rw [given, Memory.cell?_put, Memory.cell?_put, Memory.size_put]
  simp only [Nat.cast_ofNat, hlow, hhigh, and_true]

theorem serve_preparation {e : Emulator} {program : Program} {memory : Memory}
    (hload : e.load program = .ok { e with machine := { e.machine with memory } })
    (h : 22 ≤ memory.size) (n d : Int) :
    e.serve [.load program, .write 20 n, .write 21 d] =
      some ([.ok .done, .ok .done, .ok .done],
        { e with machine := { e.machine with memory := given n d memory } }) := by
  have hperform : (Operation.load program).perform e =
      some (.ok .done, { e with machine := { e.machine with memory } }) := by
    simp only [Operation.perform, hload]
  have hhigh : 21 < (memory.put 20 (Word.wrap n)).size := by rw [Memory.size_put]; omega
  exact serve_cons_iff.2 ⟨_, _, _, hperform,
    serve_cons_iff.2 ⟨_, _, _, perform_write_of_lt (by omega : 20 < memory.size) n,
      serve_cons_iff.2 ⟨_, _, _, perform_write_of_lt hhigh d, rfl, rfl⟩, rfl⟩, rfl⟩

theorem load_countdown {program : Program} (hprogram : program.read = .ok countdown) {e : Emulator}
    (h : 22 ≤ e.machine.memory.size) :
    e.load program = .ok { e with machine := { e.machine with
      memory := e.machine.memory.putAll 0 (countdown.map Word.wrap) } } := by
  rw [load_of_read hprogram]
  exact if_neg (Nat.not_lt.2 h)

/-- With the countdown loaded and the two words written, a new emulator is ready to run. -/
theorem exists_ready {program : Program} (hprogram : program.read = .ok countdown) {size : Nat}
    (hsize : 22 ≤ size) (n d : Int) :
    ∃ fresh start, Emulator.ofSize size = .ok fresh ∧
      fresh.serve [.load program, .write 20 n, .write 21 d] =
        some ([.ok .done, .ok .done, .ok .done], start) ∧
      start.control = {} ∧ Ready d start ∧ Reaches start 0 0 0 (left n d 0) := by
  obtain ⟨loaded, hloaded⟩ : ∃ loaded, loaded = (Memory.zeros size).putAll 0
    (countdown.map Word.wrap) := ⟨_, rfl⟩
  have hloadedSize : 22 ≤ loaded.size := by rwa [hloaded, Memory.size_putAll, Memory.size_zeros]
  have hload : ({ machine := { memory := Memory.zeros size } } : Emulator).load program =
      .ok { machine := { memory := loaded } } := by
    rw [load_countdown hprogram (by rwa [Memory.size_zeros]), hloaded]
  have hcells := cell?_given hloadedSize n d
  have hcounter : (given n d loaded).cell? 20 = some (left n d 0) := by
    rw [hcells, if_neg (by decide), if_pos rfl, left, Nat.cast_zero, Int.zero_mul, Int.sub_zero]
  refine ⟨_, _, ofSize_of_pos (by omega), serve_preparation hload hloadedSize n d, rfl,
    ⟨fun i hi => ?_, ?_⟩, _, rfl, ⟨rfl, rfl, rfl, hcounter, fun _ _ => rfl⟩⟩
  · have hcode : loaded.cell? i = countdown[i]?.map Word.wrap := by
      have hlength : (countdown.map Word.wrap).length = 22 := rfl
      rw [hloaded, Memory.cell?_putAll, hlength, Memory.size_zeros, if_pos (by omega),
        List.getElem?_map]
      rfl
    rw [hcells, if_neg (by omega), if_neg (by omega), hcode]
  · exact (hcells 21).trans (if_pos rfl)

/-! ## The countdown as a whole -/

/-- How the countdown ends. Let a new emulator of 22 cells or more load it, let `n` be written into
    cell 20 and `d` into cell 21, and let it run with a budget of `N`. If `n - k * d` is divisible
    by `2 ^ 32` for some number of passes `k`, and the budget is enough for the `4 * k + 3`
    instructions that the least such `k` takes, then it halts after exactly these, with nothing left
    in cell 20 and in the accumulator. In every other case it uses up the budget. Either way no cell
    but cell 20 changes. A decrement of one takes `n % 2 ^ 32` passes. -/
theorem run_countdown (program : Program) (hprogram : program.read = .ok countdown) (size : Nat)
    (hsize : 22 ≤ size) (n d : Int) (N : Nat) :
    ∃ fresh start reason s, Emulator.ofSize size = .ok fresh ∧
      fresh.serve [.load program, .write 20 n, .write 21 d] =
        some ([.ok .done, .ok .done, .ok .done], start) ∧
      start.run (some N) = some (.ok reason, s) ∧
      (∀ k, IsLeast {k : Nat | (2 ^ 32 : Int) ∣ n - k * d} k → 4 * k + 3 ≤ N →
        reason = .halt ∧ s.machine.memory.cell? 20 = some 0 ∧ s.machine.registers.accumulator = 0 ∧
          s.location = 11 ∧ s.control.steps = 4 * k + 3) ∧
      ((∀ k, IsLeast {k : Nat | (2 ^ 32 : Int) ∣ n - k * d} k → N < 4 * k + 3) →
        reason = .timeout ∧ s.control.steps = N) ∧
      (∀ address ≠ 20, s.machine.memory.cell? address = start.machine.memory.cell? address) ∧
      (d = 1 → (reason = .halt ↔ 4 * (n % 2 ^ 32) + 3 ≤ N) ∧
        (reason = .halt → s.control.steps = 4 * (n % 2 ^ 32) + 3) ∧
        ∃ t, start.run none = some (.ok .halt, t) ∧ t.control.steps = 4 * (n % 2 ^ 32) + 3) := by
  obtain ⟨fresh, start, hfresh, hserve, hcontrol, hready, hstart⟩ := exists_ready hprogram hsize n d
  have hbreakpoints : start.control.breakpoints = [] := by rw [hcontrol]
  have hsteps : start.control.steps = 0 := by rw [hcontrol]
  by_cases hcleared : ∃ k, IsLeast (clearing n d) k ∧ 4 * k + 3 ≤ N
  · obtain ⟨k, hk, hN⟩ := hcleared
    obtain ⟨t, ht, hcount, hnone, hrun⟩ := run_of_isLeast hready hstart hbreakpoints hk
    rw [hsteps, Nat.zero_add] at hcount
    refine ⟨fresh, start, .halt, t.halt, hfresh, hserve, hrun N hN, fun i hi _ => ?_,
      fun hlong => ?_, ht.others, fun hd => ?_⟩
    · rw [hi.unique hk]
      exact ⟨rfl, ht.counter_eq, ht.accumulator, ht.location_eq, hcount⟩
    · exact absurd hN (Nat.not_le.2 (hlong k hk))
    · subst hd
      have hpasses := hk.unique (isLeast_clearing_one n)
      have htotal : (t.halt.control.steps : Int) = 4 * (n % 2 ^ 32) + 3 := by
        rw [halt_steps, hcount]
        omega
      exact ⟨⟨fun _ => by omega, fun _ => rfl⟩, fun _ => htotal, t.halt, hnone, htotal⟩
  · have hlong : ∀ k, IsLeast (clearing n d) k → N < 4 * k + 3 :=
      fun k hk => Nat.not_le.1 fun hN => hcleared ⟨k, hk, hN⟩
    obtain ⟨location, a, counter, s, hrun, hs, hcount⟩ :=
      run_of_not_cleared hready hstart hbreakpoints hlong
    rw [hsteps, Nat.zero_add] at hcount
    refine ⟨fresh, start, .timeout, s, hfresh, hserve, hrun, fun k hk hN => ?_,
      fun _ => ⟨rfl, hcount⟩, hs.others, fun hd => ?_⟩
    · exact absurd ⟨k, hk, hN⟩ hcleared
    · subst hd
      have hleast := isLeast_clearing_one n
      have hshort := hlong _ hleast
      obtain ⟨t, -, htotal, hnone, -⟩ := run_of_isLeast hready hstart hbreakpoints hleast
      refine ⟨⟨nofun, fun _ => by omega⟩, nofun, t.halt, hnone, ?_⟩
      rw [halt_steps, htotal, hsteps]
      omega

/-- From 6 down by 2 it takes three passes, for which a budget of 15 is just enough. -/
theorem run_countdown_in_three_passes :
    (Program.text countdownText).read = .ok countdown ∧
      ∃ fresh start s, Emulator.ofSize 22 = .ok fresh ∧
        fresh.serve [.load (.text countdownText), .write 20 6, .write 21 2] =
          some ([.ok .done, .ok .done, .ok .done], start) ∧
        start.run (some 15) = some (.ok .halt, s) ∧ s.control.steps = 15 := by
  obtain ⟨fresh, start, reason, s, hfresh, hserve, hrun, hhalt, -⟩ :=
    run_countdown (.text countdownText) read_countdownText 22 (by decide) 6 2 15
  have hleast : IsLeast {k : Nat | (2 ^ 32 : Int) ∣ 6 - k * 2} 3 := by
    refine ⟨show (2 ^ 32 : Int) ∣ 6 - 3 * 2 by decide, fun k hk => ?_⟩
    have hdvd : (2 ^ 32 : Int) ∣ 6 - k * 2 := hk
    omega
  obtain ⟨rfl, -, -, -, hsteps⟩ := hhalt 3 hleast (by decide)
  exact ⟨read_countdownText, fresh, start, s, hfresh, hserve, hrun, hsteps⟩

end Countdown

end WordMachine
