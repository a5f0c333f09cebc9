import Mathlib.Data.Set.Card
import Mathlib.Order.Interval.Finset.Nat
import WordMachine.Proofs.Memory.Ranges

set_option autoImplicit false

/-! # The rows of a dump, block by block

The addresses fall into blocks of ten. A dump has one row for each block from that of its first
address up to that of its last (`mem_dumpRows_iff`), and the row shows what the range has of the
block. So no row crosses a multiple of ten, every label but the first is one, and a range that is
not empty has as many rows as it meets blocks, none of them empty (`length_dumpRows`,
`length_pos_of_mem_dumpRows`). A range that is empty meets no block, but it has a row without
cells if it begins inside one (`dumpRows_self`). -/

namespace WordMachine.Memory

/-- The numbers of the blocks of ten addresses that have an address of the range in them. -/
def blocks (start stop : Nat) : Set Nat :=
  {q | ∃ a, start ≤ a ∧ a < stop ∧ 10 * q ≤ a ∧ a ≤ 10 * q + 9}

/-- The row of a block in the dump of a range. -/
def blockRow (m : Memory) (start stop q : Nat) : DumpRow :=
  ⟨max (10 * q) start, (m.cells.extract (max (10 * q) start) (min (10 * q + 10) stop)).toList⟩

variable {m : Memory} {start stop q : Nat} {row : DumpRow}

theorem dumpRows_eq (m : Memory) (start stop : Nat) :
    m.dumpRows start stop =
      (List.range' (start / 10) ((stop + 9) / 10 - start / 10)).map (m.blockRow start stop) := by
  have hcount : (stop - (start - start % 10) + (10 - 1)) / 10 = (stop + 9) / 10 - start / 10 := by
    omega
  have hrow : ∀ k, start - start % 10 + k * 10 = 10 * (start / 10 + k) := by
    intro k
    omega
  simp only [dumpRows, dumpWidth, hcount, hrow, List.range'_eq_map_range, List.map_map]
  rfl

/-- There is a row for each block from that of the first address on, up to the end of the range. -/
theorem mem_dumpRows_iff :
    row ∈ m.dumpRows start stop ↔
      ∃ q, start / 10 ≤ q ∧ 10 * q < stop ∧ m.blockRow start stop q = row := by
  simp only [dumpRows_eq, List.mem_map, List.mem_range'_1]
  refine exists_congr fun q => ?_
  rw [← and_assoc]
  refine and_congr_left fun _ => ?_
  omega

theorem length_dumpRows_eq (m : Memory) (start stop : Nat) :
    (m.dumpRows start stop).length = (stop + 9) / 10 - start / 10 := by
  rw [dumpRows_eq, List.length_map, List.length_range']

/-! ## The cells of a row -/

theorem length_blockRow (h : stop ≤ m.size) :
    (m.blockRow start stop q).cells.length = min (10 * q + 10) stop - max (10 * q) start := by
  have hsize : min (10 * q + 10) stop ≤ m.cells.size := Nat.le_trans (Nat.min_le_right _ _) h
  rw [blockRow, Array.length_toList, Array.size_extract, Nat.min_eq_left hsize]

theorem length_le_of_mem_dumpRows (h : stop ≤ m.size) (hrow : row ∈ m.dumpRows start stop) :
    row.cells.length ≤ 10 := by
  obtain ⟨q, -, -, rfl⟩ := mem_dumpRows_iff.1 hrow
  rw [length_blockRow h]
  omega

/-- A range that is not empty has an address in each of its blocks. -/
theorem length_pos_of_mem_dumpRows (hlt : start < stop) (h : stop ≤ m.size)
    (hrow : row ∈ m.dumpRows start stop) : 1 ≤ row.cells.length := by
  obtain ⟨q, hfirst, hlast, rfl⟩ := mem_dumpRows_iff.1 hrow
  rw [length_blockRow h]
  omega

/-- No address of a row but the first is a multiple of ten. -/
theorem not_dvd_of_mem_dumpRows (h : stop ≤ m.size) (hrow : row ∈ m.dumpRows start stop) {a : Nat}
    (hlabel : row.label < a) (hend : a < row.label + row.cells.length) : ¬10 ∣ a := by
  obtain ⟨q, -, -, rfl⟩ := mem_dumpRows_iff.1 hrow
  rw [length_blockRow h] at hend
  simp only [blockRow] at hlabel hend
  omega

/-! ## The labels -/

theorem label_head?_dumpRows (hlt : start < stop) :
    (m.dumpRows start stop).head?.map DumpRow.label = some start := by
  have hcount : (stop + 9) / 10 - start / 10 ≠ 0 := by omega
  obtain ⟨count, hcount⟩ := Nat.exists_eq_succ_of_ne_zero hcount
  have hlabel : max (10 * (start / 10)) start = start := by omega
  rw [dumpRows_eq, hcount, List.range'_succ, List.map_cons, List.head?_cons, Option.map_some,
    blockRow, hlabel]

theorem dvd_label_of_mem_tail_dumpRows (hrow : row ∈ (m.dumpRows start stop).tail) :
    10 ∣ row.label := by
  rw [dumpRows_eq, ← List.map_tail, List.tail_range'] at hrow
  obtain ⟨q, hq, rfl⟩ := List.mem_map.1 hrow
  have hlater := (List.mem_range'_1.1 hq).1
  have hlabel : max (10 * q) start = 10 * q := by omega
  rw [blockRow, hlabel]
  exact Nat.dvd_mul_right 10 q

/-! ## The number of rows -/

theorem blocks_eq_Ico (hlt : start < stop) :
    blocks start stop = Set.Ico (start / 10) ((stop + 9) / 10) := by
  ext q
  simp only [blocks, Set.mem_ofPred_eq, Set.mem_Ico]
  constructor
  · rintro ⟨a, hstart, hstop, hlow, hhigh⟩
    omega
  · rintro ⟨hfirst, hlast⟩
    exact ⟨max (10 * q) start, by omega⟩

theorem blocks_self (start : Nat) : blocks start start = ∅ := by
  ext q
  simp only [blocks, Set.mem_ofPred_eq, Set.mem_empty_iff_false, iff_false]
  rintro ⟨a, hstart, hstop, -⟩
  omega

/-- A range that is not empty has a row for each of the blocks that it meets. -/
theorem length_dumpRows (hlt : start < stop) :
    (m.dumpRows start stop).length = (blocks start stop).ncard := by
  rw [length_dumpRows_eq, blocks_eq_Ico hlt, ← Finset.coe_Ico, Set.ncard_coe_finset, Nat.card_Ico]

/-- A range that is empty has no row if it begins with a block, and one without cells if not. -/
theorem dumpRows_self (m : Memory) (start : Nat) :
    m.dumpRows start start = if start % 10 = 0 then [] else [⟨start, []⟩] := by
  rw [dumpRows_eq]
  split
  · have hcount : (start + 9) / 10 - start / 10 = 0 := by omega
    rw [hcount]
    rfl
  · have hcount : (start + 9) / 10 - start / 10 = 1 := by omega
    have hlow : max (10 * (start / 10)) start = start := by omega
    have hhigh : min (10 * (start / 10) + 10) start = start := by omega
    have hnone : m.cells.extract start start = #[] := by simp
    rw [hcount, List.range'_one, List.map_singleton, blockRow, hlow, hhigh, hnone]

end WordMachine.Memory
