import WordMachine.Proofs.Machine.Bounds
import WordMachine.Proofs.Memory.Ranges

set_option autoImplicit false

/-! # Accesses to cells and index registers

Whatever an operation reads or changes, it does so at a place that exists: an operation that
succeeds was given an address from zero up to the last cell, and a selector from zero up to the
last index register. An address below zero never counts from the end of the memory. -/

namespace WordMachine.Machine

/-- Every access of an operation that succeeds is to a cell or an index register that exists. -/
structure AccessesInside (m : Machine) : Prop where
  read : ∀ address word, m.memory.read address = .ok word →
    ∃ i : Fin m.memory.cells.size, address = i.val ∧ word = m.memory.cells[i]
  write : ∀ address value new, m.write address value = .ok new →
    ∃ i : Fin m.memory.cells.size, address = i.val ∧
      new.memory.cells = m.memory.cells.set i (Word.wrap value)
  load : ∀ words new, m.load words = .ok new →
    ∀ i value, words[i]? = some value →
      i < m.memory.cells.size ∧ new.memory.cells[i]? = some (Word.wrap value)
  snapshot : ∀ first last words, m.memory.snapshot first last = .ok words →
    ∃ i j : Fin m.memory.cells.size, first = i.val ∧
      last.getD (m.memory.cells.size - 1) = j.val ∧ i ≤ j ∧
      words = (m.memory.cells.extract i (j + 1)).toList
  dump : ∀ start length text, m.memory.dump start length = .ok text →
    ∃ (i : Fin m.memory.cells.size) (stop : Nat), start = i.val ∧ stop ≤ m.memory.cells.size ∧
      text = m.memory.dumpText i stop ∧
      ∀ row ∈ m.memory.dumpRows i stop, ∃ high, row.label ≤ high ∧ high ≤ stop ∧
        row.cells = (m.memory.cells.extract row.label high).toList
  readIndex : ∀ selector word, m.registers.readIndex selector = .ok word →
    ∃ i : Fin indexCount, selector = i.val ∧ word = m.registers.index.get i
  writeIndex : ∀ selector value new, m.writeIndex selector value = .ok new →
    ∃ i : Fin indexCount, selector = i.val ∧
      new.registers.index = m.registers.index.set i.val (Word.wrap value) i.isLt
  /-- An opcode with an operand that is no address changes nothing. -/
  execute : ∀ op (address : Int) redirected new,
    ¬ (0 ≤ address ∧ address < m.memory.cells.size) →
      m.execute op address = .ok (redirected, new) → new = m

variable {m : Machine}

theorem checkSelector_eq_ok_iff {selector : Int} {i : Fin indexCount} :
    Registers.checkSelector selector = .ok i ↔ selector = i.val := by
  have hi := i.isLt
  unfold Registers.checkSelector
  split
  · rw [Except.ok.injEq, Fin.ext_iff]
    simp only
    omega
  · simp only [reduceCtorEq, false_iff]
    omega

theorem jumpEffect_of_no_cell {address : Int} (hcell : m.memory.cell? address = none)
    {taken : Bool} {effect : Effect} (h : m.jumpEffect taken address = .ok effect) :
    effect = .none := by
  cases taken with
  | false => cases h; rfl
  | true =>
    obtain ⟨cell, hcheck, -⟩ := map_eq_ok_iff.1 h
    have hno := Memory.cell?_eq_none_iff.1 hcell
    have hyes := checkCounter_eq_ok_iff.1 hcheck
    omega

/-- Without a cell for its operand an opcode has no effect, if it is not refused. -/
theorem effectOf_of_no_cell {op : Opcode} {address : Int} (hcell : m.memory.cell? address = none)
    {effect : Effect} (h : m.effectOf op address = .ok effect) : effect = .none := by
  cases op with
  | hlt => cases h; rfl
  | jmp | jz | jl => exact jumpEffect_of_no_cell hcell h
  | sta =>
    simp only [effectOf, Memory.checkAddress_of_no_cell hcell] at h
    cases h
  | lda | add | sub | cmp | div =>
    simp only [effectOf, Memory.read_of_no_cell hcell] at h
    cases h

theorem exists_fin_of_cell? {address : Int} {word : Word}
    (h : m.memory.cell? address = some word) :
    ∃ i : Fin m.memory.cells.size, address = i.val ∧ word = m.memory.cells[i] := by
  obtain ⟨h0, hlt⟩ := Memory.lt_size_of_cell? h
  have hi : address.toNat < m.memory.cells.size := by
    have hsize : m.memory.size = m.memory.cells.size := rfl
    omega
  refine ⟨⟨address.toNat, hi⟩, (Int.toNat_of_nonneg h0).symm, ?_⟩
  rw [Memory.cell?, if_neg (by omega), Array.getElem?_eq_getElem hi] at h
  exact (Option.some.inj h).symm

theorem cell?_of_load {words : List Int} {new : Machine} (h : m.load words = .ok new) {i : Nat}
    {value : Int} (hi : words[i]? = some value) :
    i < m.memory.size ∧ new.memory.cell? i = some (Word.wrap value) := by
  obtain ⟨memory, hload, rfl⟩ := map_eq_ok_iff.1 h
  obtain ⟨hfit, rfl⟩ := Memory.load_eq_ok_iff.1 hload
  obtain ⟨hlt, -⟩ := List.getElem?_eq_some_iff.1 hi
  have hsize : i < m.memory.size := by omega
  refine ⟨hsize, ?_⟩
  simp only [Memory.cell?_putAll, List.length_map]
  rw [if_pos ⟨Nat.zero_le i, by omega, hsize⟩, Nat.sub_zero, List.getElem?_map, hi]
  rfl

theorem accessesInside (m : Machine) : m.AccessesInside where
  read address word h := exists_fin_of_cell? (Memory.read_eq_ok_iff.1 h)
  write address value new h := by
    obtain ⟨cell, haddress, hlt, rfl⟩ := write_eq_ok_iff.1 h
    refine ⟨⟨cell, hlt⟩, haddress, ?_⟩
    simp only [Memory.put]
    exact Array.setIfInBounds_def .. |>.trans (dif_pos hlt)
  load words new h i value hi := by
    obtain ⟨hlt, hcell⟩ := cell?_of_load h hi
    exact ⟨hlt, by rw [← Memory.cell?_ofNat, hcell]⟩
  snapshot first last words h := by
    obtain ⟨i, j, hfirst, hlast, hle, hlt, hwords⟩ := Memory.snapshot_eq_ok_iff.1 h
    exact ⟨⟨i, Nat.lt_of_le_of_lt hle hlt⟩, ⟨j, hlt⟩, hfirst, hlast, hle, hwords⟩
  dump start length text h := by
    obtain ⟨i, hstart, hlt, -, htext⟩ := Memory.dump_eq_ok_iff.1 h
    refine ⟨⟨i, hlt⟩, _, hstart, Nat.min_le_right .., htext, ?_⟩
    intro row hrow
    have hends : ∀ n, i ≤ min (i + n) m.memory.cells.size :=
      fun n => Nat.le_min.2 ⟨Nat.le_add_right i n, Nat.le_of_lt hlt⟩
    obtain ⟨high, -, hlow, hhigh, hcells⟩ := Memory.exists_slice_of_mem_dumpRows (hends _) hrow
    exact ⟨high, hlow, hhigh, hcells⟩
  readIndex selector word h := by
    obtain ⟨i, hselector, rfl⟩ := map_eq_ok_iff.1 h
    exact ⟨i, checkSelector_eq_ok_iff.1 hselector, rfl⟩
  writeIndex selector value new h := by
    obtain ⟨registers, hwrite, rfl⟩ := map_eq_ok_iff.1 h
    obtain ⟨i, hselector, rfl⟩ := map_eq_ok_iff.1 hwrite
    exact ⟨i, checkSelector_eq_ok_iff.1 hselector, rfl⟩
  execute op address redirected new hno h := by
    obtain ⟨effect, heffect, hnew⟩ := map_eq_ok_iff.1 h
    cases effectOf_of_no_cell (Memory.cell?_eq_none_iff.2 hno) heffect
    cases hnew
    rfl

end WordMachine.Machine
