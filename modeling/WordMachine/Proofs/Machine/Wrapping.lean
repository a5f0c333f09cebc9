import Mathlib.Data.Int.ModEq
import WordMachine.Proofs.Machine.InstructionSet

set_option autoImplicit false

/-! # Wrapping once

`LDA`, `STA`, `ADD`, `SUB` and `CMP` only move, add and subtract. So it makes no difference when
the results are wrapped: a machine that wraps every one of them holds at the end what a machine
without any limit would hold, wrapped once (`executeAll_wraps_once`).

The machine without a limit is `IntegerMachine.calculate`. `IntegerMachine.wrapOnce` wraps all that
it holds, and every opcode keeps the equation between the two machines (`execute_of_wrapOnce`),
since wrapping goes through sums and differences of integers of any size. -/

namespace WordMachine

/-- The opcodes that only move, add and subtract. -/
def Opcode.linear : List Opcode := [.lda, .sta, .add, .sub, .cmp]

namespace IntegerMachine

/-- What a linear opcode does where nothing is wrapped. -/
def calculate (m : IntegerMachine) (op : Opcode) (a : Int) : IntegerMachine :=
  let A := m.registers.accumulator
  match op with
  | .lda => m.accumulate (m.cell a)
  | .sta => m.store a A
  | .add => m.accumulate (A + m.cell a)
  | .sub => m.accumulate (A - m.cell a)
  | .cmp => m.compare (A - m.cell a)
  | .hlt | .div | .jmp | .jz | .jl => m

/-- What opcodes with their addresses do one after the other, where nothing is wrapped. -/
def calculateAll (m : IntegerMachine) (program : List (Opcode × Int)) : IntegerMachine :=
  program.foldl (fun m i => m.calculate i.1 i.2) m

/-- The machine with the accumulator, the comparison flag and every cell wrapped. -/
def wrapOnce (m : IntegerMachine) : IntegerMachine :=
  { m with
    registers :=
      { m.registers with
        accumulator := (Word.wrap m.registers.accumulator).toInt
        comparison := (Word.wrap m.registers.comparison).toInt }
    cell := fun a => (Word.wrap (m.cell a)).toInt }

theorem wrapOnce_accumulate (m : IntegerMachine) (v : Int) :
    (m.accumulate v).wrapOnce = m.wrapOnce.accumulate (Word.wrap v).toInt := rfl

theorem wrapOnce_compare (m : IntegerMachine) (v : Int) :
    (m.compare v).wrapOnce = m.wrapOnce.compare (Word.wrap v).toInt := rfl

theorem wrapOnce_store (m : IntegerMachine) (a v : Int) :
    (m.store a v).wrapOnce = m.wrapOnce.store a (Word.wrap v).toInt := by
  have hcell : ∀ b, (Word.wrap (if b = a then v else m.cell b)).toInt =
      if b = a then (Word.wrap v).toInt else (Word.wrap (m.cell b)).toInt :=
    fun b => apply_ite (fun u => (Word.wrap u).toInt) (b = a) v (m.cell b)
  simp only [wrapOnce, store, hcell]

end IntegerMachine

/-! ## The word of an integer -/

/-- Wrapping an integer gives the only integer from `-2 ^ 31` to `2 ^ 31 - 1` that is congruent to
    it modulo `2 ^ 32`. -/
theorem Word.toInt_wrap_eq_iff {v w : Int} :
    (wrap v).toInt = w ↔ -2 ^ 31 ≤ w ∧ w ≤ 2 ^ 31 - 1 ∧ w ≡ v [ZMOD 2 ^ 32] := by
  have hmod : ((Int32.size : Nat) : Int) = 2 ^ 32 := rfl
  have hlow := Int32.le_toInt (wrap v)
  have hhigh := Int32.toInt_lt (wrap v)
  have hcongr : (wrap v).toInt ≡ v [ZMOD 2 ^ 32] := by
    rw [toInt_wrap, Int.ModEq, ← hmod, Int.bmod_emod]
  constructor
  · rintro rfl
    exact ⟨hlow, by omega, hcongr⟩
  · rintro ⟨hlow', hhigh', hcongr'⟩
    -- Both are less than `2 ^ 32` apart and congruent.
    have hdvd : (2 ^ 32 : Int) ∣ w - (wrap v).toInt := (hcongr.trans hcongr'.symm).dvd
    omega

theorem Word.wrap_eq_wrap_iff_modEq {v w : Int} : wrap v = wrap w ↔ v ≡ w [ZMOD 2 ^ 32] := by
  obtain ⟨hlow, hhigh, hw⟩ := toInt_wrap_eq_iff.1 (rfl : (wrap w).toInt = _)
  rw [← Int32.toInt_inj, toInt_wrap_eq_iff]
  exact ⟨fun h => h.2.2.symm.trans hw, fun h => ⟨hlow, hhigh, hw.trans h.symm⟩⟩

theorem Word.wrap_eq_zero_iff {v : Int} : wrap v = 0 ↔ (2 ^ 32 : Int) ∣ v := by
  rw [← toInt_eq_zero_iff, toInt_wrap_eq_iff, Int.modEq_comm, Int.modEq_zero_iff_dvd]
  exact ⟨fun h => h.2.2, fun h => ⟨by decide, by decide, h⟩⟩

namespace Machine

variable {m : Machine} {exact : IntegerMachine}

/-- Executes opcodes with their addresses one after the other, up to the first that is refused. -/
def executeAll (m : Machine) : List (Opcode × Int) → Except Fault Machine
  | [] => .ok m
  | (op, address) :: rest =>
    match m.execute op address with
    | .error f => .error f
    | .ok (_, m) => m.executeAll rest

/-! ## The two machines side by side -/

/-- What a machine holds are words already. -/
theorem wrapOnce_integers (m : Machine) : m.integers.wrapOnce = m.integers := by
  have hcell : ∀ a, (Word.wrap ((m.memory.cell? a).elim 0 Int32.toInt)).toInt =
      (m.memory.cell? a).elim 0 Int32.toInt := by
    intro a
    cases m.memory.cell? a with
    | none => rfl
    | some word => exact congrArg Int32.toInt (Word.wrap_toInt word)
  simp only [IntegerMachine.wrapOnce, integers, Registers.readings, Word.wrap_toInt, hcell]

theorem accumulator_of_wrapOnce (h : m.integers = exact.wrapOnce) :
    m.registers.accumulator = Word.wrap exact.registers.accumulator :=
  Int32.toInt_inj.1 (congrArg (fun n => n.registers.accumulator) h)

theorem comparison_of_wrapOnce (h : m.integers = exact.wrapOnce) :
    m.registers.comparison = Word.wrap exact.registers.comparison :=
  Int32.toInt_inj.1 (congrArg (fun n => n.registers.comparison) h)

theorem cell_of_wrapOnce (h : m.integers = exact.wrapOnce) {a : Int} {word : Word}
    (hcell : m.memory.cell? a = some word) : word = Word.wrap (exact.cell a) := by
  have hvalue : m.integers.cell a = (Word.wrap (exact.cell a)).toInt :=
    congrArg (fun n => n.cell a) h
  rw [cell_integers hcell] at hvalue
  exact Int32.toInt_inj.1 hvalue

theorem execute_of_effect {op : Opcode} {a : Int} {effect : Effect}
    (h : m.effectOf op a = .ok effect) :
    m.execute op a = .ok (effect.redirects, m.apply effect) := by
  simp only [execute, h, Except.map]

/-- The accumulator may be set to a word on the one side and to its integer on the other. -/
theorem execute_of_accumulate (h : m.integers = exact.wrapOnce) {op : Opcode} {a v : Int}
    {word : Word} (heffect : m.effectOf op a = .ok (.accumulate word)) (hword : word = Word.wrap v) :
    ∃ new, m.execute op a = .ok (false, new) ∧ new.memory.size = m.memory.size ∧
      new.integers = (exact.accumulate v).wrapOnce := by
  refine ⟨_, execute_of_effect heffect, size_apply .., ?_⟩
  show m.integers.accumulate word.toInt = _
  rw [h, hword, IntegerMachine.wrapOnce_accumulate]

/-- A linear opcode keeps a machine equal to the machine without a limit, wrapped. -/
theorem execute_of_wrapOnce (h : m.integers = exact.wrapOnce) {op : Opcode}
    (hop : op ∈ Opcode.linear) {a : Int} {word : Word} (hcell : m.memory.cell? a = some word) :
    ∃ new, m.execute op a = .ok (false, new) ∧ new.memory.size = m.memory.size ∧
      new.integers = (exact.calculate op a).wrapOnce := by
  have hread := Memory.read_of_cell? hcell
  have hcheck := Memory.checkAddress_of_cell? hcell
  have hword := cell_of_wrapOnce h hcell
  have haccumulator := accumulator_of_wrapOnce h
  cases op with
  | lda =>
    have heffect : m.effectOf .lda a = .ok (.accumulate word) := by
      simp only [effectOf, hread, Except.map]
    exact execute_of_accumulate h heffect hword
  | add =>
    have heffect : m.effectOf .add a = .ok (.accumulate (m.registers.accumulator + word)) := by
      simp only [effectOf, hread, Except.map]
    exact execute_of_accumulate h heffect (by rw [haccumulator, hword, Word.wrap_add])
  | sub =>
    have heffect : m.effectOf .sub a = .ok (.accumulate (m.registers.accumulator - word)) := by
      simp only [effectOf, hread, Except.map]
    exact execute_of_accumulate h heffect (by rw [haccumulator, hword, Word.wrap_sub])
  | cmp =>
    have heffect : m.effectOf .cmp a = .ok (.compare (m.registers.accumulator - word)) := by
      simp only [effectOf, hread, Except.map]
    refine ⟨_, execute_of_effect heffect, size_apply .., ?_⟩
    show m.integers.compare (m.registers.accumulator - word).toInt = _
    rw [h, haccumulator, hword, ← Word.wrap_sub]
    exact (exact.wrapOnce_compare _).symm
  | sta =>
    have heffect : m.effectOf .sta a = .ok (.store a.toNat m.registers.accumulator) := by
      simp only [effectOf, hcheck, Except.map]
    have hmove : ((a.toNat : Nat) : Int) = a :=
      Int.toNat_of_nonneg (Memory.lt_size_of_cell? hcell).1
    refine ⟨_, execute_of_effect heffect, size_apply .., ?_⟩
    show ({ m with memory := m.memory.put a.toNat _ } : Machine).integers = _
    rw [integers_put _ (Memory.checkAddress_eq_ok_iff.1 hcheck).2, hmove, h, haccumulator]
    exact (exact.wrapOnce_store a _).symm
  | hlt | div | jmp | jz | jl => exact absurd hop (by decide)

/-- So do linear opcodes one after the other. -/
theorem executeAll_of_wrapOnce (h : m.integers = exact.wrapOnce) {program : List (Opcode × Int)}
    (hprogram : ∀ i ∈ program, i.1 ∈ Opcode.linear ∧ 0 ≤ i.2 ∧ i.2 < m.memory.size) :
    ∃ new, m.executeAll program = .ok new ∧ new.memory.size = m.memory.size ∧
      new.integers = (exact.calculateAll program).wrapOnce := by
  induction program generalizing m exact with
  | nil => exact ⟨m, rfl, rfl, h⟩
  | cons first rest ih =>
    obtain ⟨op, a⟩ := first
    obtain ⟨hop, hrange⟩ := hprogram (op, a) List.mem_cons_self
    obtain ⟨word, hcell⟩ := Option.isSome_iff_exists.1 ((m.memory.cell?_isSome_iff a).2 hrange)
    obtain ⟨mid, hexecute, hsize, hmid⟩ := execute_of_wrapOnce h hop hcell
    have hrest : ∀ i ∈ rest, i.1 ∈ Opcode.linear ∧ 0 ≤ i.2 ∧ i.2 < mid.memory.size :=
      fun i hi => hsize ▸ hprogram i (List.mem_cons_of_mem _ hi)
    obtain ⟨new, hnew, hsize', hintegers⟩ := ih hmid hrest
    refine ⟨new, ?_, hsize'.trans hsize, hintegers⟩
    simp only [executeAll, hexecute, hnew]

/-- Wrapping every result is wrapping once at the end. Let opcodes that only move, add and subtract
    be executed one after the other, all on addresses of cells. Then none is refused, and the
    accumulator, the comparison flag and every cell hold the word of the integer that is there at
    the end if nothing is wrapped: the only integer from `-2 ^ 31` to `2 ^ 31 - 1` that is congruent
    to it modulo `2 ^ 32`. -/
theorem executeAll_wraps_once (m : Machine) (program : List (Opcode × Int))
    (hprogram : ∀ i ∈ program, i.1 ∈ Opcode.linear ∧ 0 ≤ i.2 ∧ i.2 < m.memory.size) :
    (∃ new, m.executeAll program = .ok new ∧
      let exact := m.integers.calculateAll program
      new.registers.accumulator = Word.wrap exact.registers.accumulator ∧
        new.registers.comparison = Word.wrap exact.registers.comparison ∧
        ∀ a : Int, 0 ≤ a → a < m.memory.size →
          new.memory.cell? a = some (Word.wrap (exact.cell a))) ∧
      ∀ v w : Int, (Word.wrap v).toInt = w ↔
        -2 ^ 31 ≤ w ∧ w ≤ 2 ^ 31 - 1 ∧ w ≡ v [ZMOD 2 ^ 32] := by
  obtain ⟨new, hnew, hsize, hintegers⟩ :=
    executeAll_of_wrapOnce (wrapOnce_integers m).symm hprogram
  refine ⟨⟨new, hnew, accumulator_of_wrapOnce hintegers, comparison_of_wrapOnce hintegers, ?_⟩,
    fun v w => Word.toInt_wrap_eq_iff⟩
  intro a hlow hhigh
  have hrange : 0 ≤ a ∧ a < new.memory.size := ⟨hlow, hsize ▸ hhigh⟩
  obtain ⟨word, hcell⟩ := Option.isSome_iff_exists.1 ((new.memory.cell?_isSome_iff a).2 hrange)
  rw [hcell, cell_of_wrapOnce hintegers hcell]

/-- The greatest word is doubled and the least taken away. Both results are wrapped on the way, and
    what is stored is the word of the integer that is found without any wrap. -/
theorem executeAll_wraps_once_beyond_the_greatest :
    let m : Machine := { memory := ⟨#[2147483647, -2147483648, 0]⟩ }
    let program := [(Opcode.lda, 0), (.add, 0), (.sub, 1), (.sta, 2), (.cmp, 0)]
    (m.integers.calculateAll program).cell 2 = 6442450942 ∧
      ∃ new, m.executeAll program = .ok new ∧ new.memory.cell? 2 = some (Word.wrap 6442450942) := by
  intro m program
  have hexact : (m.integers.calculateAll program).cell 2 = 6442450942 := by decide
  obtain ⟨⟨new, hnew, -, -, hcells⟩, -⟩ := executeAll_wraps_once m program (by decide)
  refine ⟨hexact, new, hnew, ?_⟩
  rw [hcells 2 (by decide) (by decide), hexact]

end Machine

end WordMachine
