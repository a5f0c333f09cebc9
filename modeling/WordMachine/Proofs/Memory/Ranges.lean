import WordMachine.Memory.Dump
import WordMachine.Proofs.Memory.Cells

set_option autoImplicit false

/-! # Snapshots and dumps as slices

A snapshot is one slice of the cells and a dump is a slice for each of its rows. The checks before
them make both ends of every slice lie in the memory, so `Array.extract` never cuts one short. The
slices of the rows follow each other without a gap, so a dump lists every cell of its range once, in
the order of their addresses (`flatMap_dumpRows`). -/

namespace WordMachine.Memory

variable {m : Memory}

theorem snapshot_eq_ok_iff {first : Int} {last : Option Int} {words : List Word} :
    m.snapshot first last = .ok words ↔
      ∃ i j : Nat, first = i ∧ last.getD (m.size - 1) = j ∧ i ≤ j ∧ j < m.size ∧
        words = (m.cells.extract i (j + 1)).toList := by
  unfold snapshot
  constructor
  · intro h
    cases hfirst : m.checkAddress first with
    | error f => simp only [hfirst] at h; cases h
    | ok i =>
      cases hlast : m.checkAddress (last.getD (m.size - 1)) with
      | error f => simp only [hfirst, hlast] at h; cases h
      | ok j =>
        simp only [hfirst, hlast] at h
        split at h
        · cases h
        · next hle =>
          cases h
          obtain ⟨hi, -⟩ := checkAddress_eq_ok_iff.1 hfirst
          obtain ⟨hj, hlt⟩ := checkAddress_eq_ok_iff.1 hlast
          exact ⟨i, j, hi, hj, by omega, hlt, rfl⟩
  · rintro ⟨i, j, hi, hj, hle, hlt, rfl⟩
    have hfirst : m.checkAddress first = .ok i :=
      checkAddress_eq_ok_iff.2 ⟨hi, by omega⟩
    have hlast : m.checkAddress (last.getD (m.size - 1)) = .ok j :=
      checkAddress_eq_ok_iff.2 ⟨hj, hlt⟩
    simp only [hfirst, hlast]
    rw [if_neg (by omega)]

theorem dump_eq_ok_iff {start : Int} {length : Option Int} {text : String} :
    m.dump start length = .ok text ↔
      ∃ i : Nat, start = i ∧ i < m.size ∧ 0 ≤ length.getD (m.size - start) ∧
        text = m.dumpText i (min (i + (length.getD (m.size - start)).toNat) m.size) := by
  unfold dump
  constructor
  · intro h
    cases hstart : m.checkAddress start with
    | error f => simp only [hstart] at h; cases h
    | ok i =>
      simp only [hstart] at h
      split at h
      · cases h
      · next hlength =>
        cases h
        obtain ⟨hi, hlt⟩ := checkAddress_eq_ok_iff.1 hstart
        exact ⟨i, hi, hlt, by omega, rfl⟩
  · rintro ⟨i, hi, hlt, hlength, rfl⟩
    simp only [checkAddress_eq_ok_iff.2 ⟨hi, hlt⟩]
    rw [if_neg (by omega)]

/-- A row of a dump is a slice that lies between the ends of the dump. -/
theorem exists_slice_of_mem_dumpRows {start stop : Nat} {row : DumpRow} (hle : start ≤ stop)
    (h : row ∈ m.dumpRows start stop) :
    ∃ high, start ≤ row.label ∧ row.label ≤ high ∧ high ≤ stop ∧
      row.cells = (m.cells.extract row.label high).toList := by
  simp only [dumpRows, List.mem_map, List.mem_range] at h
  obtain ⟨k, hk, rfl⟩ := h
  simp only [dumpWidth] at hk ⊢
  exact ⟨min (start - start % 10 + k * 10 + 10) stop, by omega, by omega, by omega, rfl⟩

/-! ## Values with their addresses -/

/-- Values with the addresses of the cells that hold them, from a first one on. -/
def addressed (first : Int) : List Int → List (Int × Int)
  | [] => []
  | value :: values => (first, value) :: addressed (first + 1) values

/-- The integers in the cells from `start` up to but not including `stop`. -/
def values (m : Memory) (start stop : Nat) : List Int :=
  (m.cells.extract start stop).toList.map Int32.toInt

theorem addressed_append (first : Int) (xs ys : List Int) :
    addressed first (xs ++ ys) = addressed first xs ++ addressed (first + xs.length) ys := by
  induction xs generalizing first with
  | nil => rw [List.length_nil, Int.natCast_zero, Int.add_zero]; rfl
  | cons x xs ih =>
    have hshift : first + 1 + (xs.length : Int) = first + (x :: xs).length := by
      rw [List.length_cons, Int.natCast_succ]
      omega
    rw [List.cons_append, addressed, ih, hshift, addressed, List.cons_append]

theorem map_fst_addressed (first : Nat) (values : List Int) :
    (addressed first values).map Prod.fst = (List.range' first values.length).map Int.ofNat := by
  induction values generalizing first with
  | nil => rfl
  | cons value values ih => exact congrArg (Int.ofNat first :: ·) (ih (first + 1))

theorem map_snd_addressed (first : Int) (values : List Int) :
    (addressed first values).map Prod.snd = values := by
  induction values generalizing first with
  | nil => rfl
  | cons value values ih => exact congrArg (value :: ·) (ih (first + 1))

theorem getElem?_of_mem_addressed {first address value : Int} {values : List Int}
    (h : (address, value) ∈ addressed first values) :
    ∃ i : Nat, address = first + i ∧ values[i]? = some value := by
  induction values generalizing first with
  | nil => cases h
  | cons head values ih =>
    rcases List.mem_cons.1 h with hhead | htail
    · cases hhead
      exact ⟨0, (Int.add_zero address).symm, rfl⟩
    · obtain ⟨i, rfl, hi⟩ := ih htail
      exact ⟨i + 1, by omega, hi⟩

theorem length_values {start stop : Nat} (h : stop ≤ m.size) :
    (m.values start stop).length = stop - start := by
  have hmin : min stop m.cells.size = stop := Nat.min_eq_left h
  rw [values, List.length_map, Array.length_toList, Array.size_extract, hmin]

theorem values_append {i j k : Nat} (hij : i ≤ j) (hjk : j ≤ k) :
    m.values i j ++ m.values j k = m.values i k := by
  rw [values, values, values, ← List.map_append, ← Array.toList_append,
    Array.extract_append_extract, Nat.min_eq_left hij, Nat.max_eq_right hjk]

/-- What is listed at an address is in the cell there. -/
theorem cell?_of_mem_addressed {start stop : Nat} {address value : Int}
    (h : (address, value) ∈ addressed start (m.values start stop)) :
    ∃ word, m.cell? address = some word ∧ word.toInt = value := by
  obtain ⟨i, rfl, hi⟩ := getElem?_of_mem_addressed h
  rw [values, List.getElem?_map, Array.getElem?_toList, Array.getElem?_extract] at hi
  split at hi
  · obtain ⟨word, hword, hvalue⟩ := Option.map_eq_some_iff.1 hi
    exact ⟨word, (cell?_ofNat m (start + i)).trans hword, hvalue⟩
  · cases hi

/-! ## The rows of a dump -/

/-- Rows list the cells from the first of them up to where the next row would begin. -/
theorem flatMap_rows {first start stop : Nat} (hfirst : first ≤ start) (hwidth : start < first + 10)
    (hlt : start < stop) (hstop : stop ≤ m.size) {k : Nat} (hk : ∀ i < k, first + i * 10 < stop) :
    ((List.range k).flatMap fun i =>
        let low := max (first + i * 10) start
        addressed low (m.values low (min (first + i * 10 + 10) stop))) =
      addressed start (m.values start (max start (min (first + k * 10) stop))) := by
  induction k with
  | zero =>
    have hcut : max start (min (first + 0 * 10) stop) = start := by omega
    have hnone : m.values start start = [] := by
      rw [← List.length_eq_zero_iff, length_values (by omega), Nat.sub_self]
    rw [hcut, hnone]
    rfl
  | succ k ih =>
    have hcut : max start (min (first + k * 10) stop) = max (first + k * 10) start := by
      have hlast := hk k (Nat.lt_succ_self k)
      omega
    have hnext : max start (min (first + (k + 1) * 10) stop) = min (first + k * 10 + 10) stop := by
      omega
    have hlast := hk k (Nat.lt_succ_self k)
    have haddress : (start : Int) + (m.values start (max (first + k * 10) start)).length =
        max (first + k * 10) start := by
      rw [length_values (by omega)]
      omega
    have hsplit : m.values start (max (first + k * 10) start) ++
        m.values (max (first + k * 10) start) (min (first + k * 10 + 10) stop) =
        m.values start (min (first + k * 10 + 10) stop) := values_append (by omega) (by omega)
    rw [List.range_succ, List.flatMap_append, List.flatMap_singleton,
      ih fun i hi => hk i (Nat.lt_succ_of_lt hi), hcut, hnext, ← hsplit, addressed_append,
      haddress]

/-- A dump lists the cells of its range. -/
theorem flatMap_dumpRows {start stop : Nat} (hlt : start < stop) (hstop : stop ≤ m.size) :
    (m.dumpRows start stop).flatMap
        (fun row => addressed row.label (row.cells.map Int32.toInt)) =
      addressed start (m.values start stop) := by
  have hcut : max start (min (start - start % 10 +
      (stop - (start - start % 10) + 9) / 10 * 10) stop) = stop := by omega
  have hrows : _ = addressed start (m.values start _) := flatMap_rows
    (by omega : start - start % 10 ≤ start) (by omega) hlt hstop
    (fun i hi => by omega : ∀ i < (stop - (start - start % 10) + 9) / 10, _)
  rw [hcut] at hrows
  rw [dumpRows, List.flatMap_map]
  exact hrows

end WordMachine.Memory
