import WordMachine.Proofs.Machine.Plan

set_option autoImplicit false

/-! # What every operation of a machine keeps

A machine never changes the number of its cells, and its location counter never goes further than
just past the last of them. Only the move past a fetched instruction needs an argument: if there
is an operand behind the location counter, there is room for it to pass two cells. -/

namespace WordMachine

/-- Whether the cell that the effect changes or goes to is one of so many. -/
def Effect.Fits (size : Nat) : Effect → Prop
  | .store cell _ => cell < size
  | .jump cell => cell < size
  | _ => True

namespace Machine

/-- The machine has so many cells, and its location counter is at one of them or just past the
    last. -/
structure Within (size : Nat) (m : Machine) : Prop where
  size_eq : m.memory.size = size
  location_le : m.registers.location ≤ size

variable {m new : Machine} {size : Nat}

theorem ofSize_eq_ok_iff {asked : Int} :
    ofSize asked = .ok m ↔ 0 < asked ∧ m = { memory := Memory.zeros asked.toNat } := by
  unfold ofSize Memory.ofSize
  split
  · simp only [Except.map, reduceCtorEq, false_iff]
    omega
  · simp only [Except.map, Except.ok.injEq]
    constructor
    · rintro rfl
      exact ⟨by omega, rfl⟩
    · rintro ⟨-, rfl⟩
      rfl

/-! ## Writing from outside -/

theorem write_eq_ok_iff {address value : Int} :
    m.write address value = .ok new ↔
      ∃ cell : Nat, address = cell ∧ cell < m.memory.size ∧
        new = { m with memory := m.memory.put cell (Word.wrap value) } := by
  unfold write
  constructor
  · intro h
    obtain ⟨memory, hwrite, rfl⟩ := map_eq_ok_iff.1 h
    obtain ⟨cell, haddress, hlt, rfl⟩ := Memory.write_eq_ok_iff.1 hwrite
    exact ⟨cell, haddress, hlt, rfl⟩
  · rintro ⟨cell, haddress, hlt, rfl⟩
    exact map_eq_ok_iff.2 ⟨_, Memory.write_eq_ok_iff.2 ⟨cell, haddress, hlt, rfl⟩, rfl⟩

theorem Within.write (hm : m.Within size) {address value : Int}
    (h : m.write address value = .ok new) : new.Within size := by
  obtain ⟨cell, -, -, rfl⟩ := write_eq_ok_iff.1 h
  exact ⟨(Memory.size_put ..).trans hm.size_eq, hm.location_le⟩

theorem Within.load (hm : m.Within size) {words : List Int} (h : m.load words = .ok new) :
    new.Within size := by
  obtain ⟨memory, hload, rfl⟩ := map_eq_ok_iff.1 h
  obtain ⟨-, rfl⟩ := Memory.load_eq_ok_iff.1 hload
  exact ⟨(Memory.size_putAll ..).trans hm.size_eq, hm.location_le⟩

theorem checkCounter_eq_ok_iff {address : Int} {cell : Nat} :
    m.checkCounter address = .ok cell ↔ address = cell ∧ cell < m.memory.size := by
  unfold checkCounter
  split
  · rw [Except.ok.injEq]
    omega
  · simp only [reduceCtorEq, false_iff]
    omega

theorem Within.moveTo (hm : m.Within size) {location : Nat} (h : location ≤ size) :
    (m.moveTo location).Within size :=
  ⟨hm.size_eq, h⟩

theorem Within.setLocation (hm : m.Within size) {address : Int}
    (h : m.setLocation address = .ok new) : new.Within size := by
  obtain ⟨cell, hcheck, rfl⟩ := map_eq_ok_iff.1 h
  have hlt := (checkCounter_eq_ok_iff.1 hcheck).2
  have hsize := hm.size_eq
  exact hm.moveTo (by omega)

theorem Within.setComparison (hm : m.Within size) (value : Int) :
    (m.setComparison value).Within size :=
  ⟨hm.size_eq, hm.location_le⟩

theorem location_writeIndex {r after : Registers} {selector : Int} {word : Word}
    (h : r.writeIndex selector word = .ok after) : after.location = r.location := by
  obtain ⟨i, -, rfl⟩ := map_eq_ok_iff.1 h
  rfl

theorem Within.writeIndex (hm : m.Within size) {selector value : Int}
    (h : m.writeIndex selector value = .ok new) : new.Within size := by
  obtain ⟨registers, hwrite, rfl⟩ := map_eq_ok_iff.1 h
  exact ⟨hm.size_eq, Nat.le_trans (Nat.le_of_eq (location_writeIndex hwrite)) hm.location_le⟩

theorem location_writeNamed {r after : Registers} {name : RegisterName} {word : Word}
    (h : r.writeNamed name word = .ok after) : after.location = r.location := by
  cases name with
  | accumulator => cases h; rfl
  | extension => cases h; rfl
  | index selector => exact location_writeIndex h

theorem Within.writeRegister (hm : m.Within size) {name : String} {value : Int}
    (h : m.writeRegister name value = .ok new) : new.Within size := by
  unfold Machine.writeRegister at h
  cases hname : RegisterName.parse name with
  | error e => rw [hname] at h; cases h
  | ok register =>
    rw [hname] at h
    obtain ⟨registers, hwrite, rfl⟩ := map_eq_ok_iff.1 (mapError_eq_ok_iff.1 h)
    exact ⟨hm.size_eq, Nat.le_trans (Nat.le_of_eq (location_writeNamed hwrite)) hm.location_le⟩

theorem Within.clearRegisters (hm : m.Within size) : m.clearRegisters.Within size :=
  ⟨hm.size_eq, Nat.zero_le size⟩

theorem Within.clearMemory (hm : m.Within size) : m.clearMemory.Within size :=
  ⟨(Memory.size_clear m.memory).trans hm.size_eq, hm.location_le⟩

theorem Within.reset (hm : m.Within size) : m.reset.Within size :=
  hm.clearRegisters.clearMemory

/-! ## Executing -/

theorem fits_jumpEffect {taken : Bool} {address : Int} {effect : Effect}
    (h : m.jumpEffect taken address = .ok effect) : effect.Fits m.memory.size := by
  cases taken with
  | false => cases h; trivial
  | true =>
    obtain ⟨cell, hcheck, rfl⟩ := map_eq_ok_iff.1 h
    exact (checkCounter_eq_ok_iff.1 hcheck).2

/-- An effect that was found stays inside the memory. -/
theorem fits_effectOf {op : Opcode} {address : Int} {effect : Effect}
    (h : m.effectOf op address = .ok effect) : effect.Fits m.memory.size := by
  cases op with
  | hlt => cases h; trivial
  | jmp | jz | jl => exact fits_jumpEffect h
  | sta =>
    obtain ⟨cell, hcheck, rfl⟩ := map_eq_ok_iff.1 h
    exact (Memory.checkAddress_eq_ok_iff.1 hcheck).2
  | lda | add | sub | cmp =>
    obtain ⟨word, -, rfl⟩ := map_eq_ok_iff.1 h
    trivial
  | div =>
    simp only [effectOf] at h
    split at h
    · split at h <;> cases h
      trivial
    · cases h

theorem fits_of_plan {i : Instruction} {effect : Effect} (h : m.plan = .ok (i, effect)) :
    effect.Fits m.memory.size := by
  rcases plan_cases h with ⟨-, rfl, -⟩ | ⟨op, operand, -, -, heffect, -⟩
  · trivial
  · exact fits_effectOf heffect

theorem Within.apply (hm : m.Within size) {effect : Effect} (h : effect.Fits size) :
    (m.apply effect).Within size := by
  cases effect with
  | none => exact hm
  | accumulate word => exact ⟨hm.size_eq, hm.location_le⟩
  | store cell word => exact ⟨(Memory.size_put ..).trans hm.size_eq, hm.location_le⟩
  | compare word => exact ⟨hm.size_eq, hm.location_le⟩
  | jump cell => exact hm.moveTo (Nat.le_of_lt h)

theorem Within.execute (hm : m.Within size) {op : Opcode} {address : Int} {redirected : Bool}
    (h : m.execute op address = .ok (redirected, new)) : new.Within size := by
  obtain ⟨effect, heffect, hnew⟩ := map_eq_ok_iff.1 h
  cases hnew
  exact hm.apply (hm.size_eq ▸ fits_effectOf heffect)

/-- The move past a planned instruction ends at a cell or just past the last one. -/
theorem Within.complete (hm : m.Within size) {i : Instruction} {effect : Effect}
    (h : m.plan = .ok (i, effect)) : (m.complete i effect).Within size := by
  have hsize := hm.size_eq
  have hfits : effect.Fits size := hsize ▸ fits_of_plan h
  -- The room for the move is that of the cells which were fetched.
  have hnext : m.registers.location + i.length ≤ size := by
    rcases plan_cases h with ⟨rfl, rfl, hlt⟩ | ⟨op, operand, -, rfl, -, hlt⟩
    · rw [Instruction.length_none]
      omega
    · rw [Instruction.length_some]
      omega
  unfold Machine.complete
  by_cases hredirects : effect.redirects = true
  · rw [if_pos hredirects]
    exact hm.apply hfits
  · rw [if_neg hredirects]
    exact (hm.apply hfits).moveTo hnext

theorem size_apply (m : Machine) (effect : Effect) :
    (m.apply effect).memory.size = m.memory.size := by
  cases effect with
  | store cell word => exact Memory.size_put ..
  | none | accumulate word | compare word | jump cell => rfl

@[simp] theorem size_complete (m : Machine) (i : Instruction) (effect : Effect) :
    (m.complete i effect).memory.size = m.memory.size := by
  unfold Machine.complete
  split
  · exact size_apply m effect
  · exact size_apply m effect

end Machine

end WordMachine
