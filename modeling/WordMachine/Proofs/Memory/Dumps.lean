import WordMachine.Proofs.CommandLine.PlainText
import WordMachine.Proofs.Memory.Rows

set_option autoImplicit false

/-! # Dumps can be read back

`readDump?` takes the text of a dump apart into rows, each a label and integers, and knows nothing
of how it was printed. A dump is read back as the rows it was printed from (`readDump?_dumpText`).
So it shows each cell of its range once, in the order of the addresses, with the words of a snapshot
of the range (`dump_shows_snapshot`), and it has a row for each block of ten addresses that the
range meets (`dump_by_blocks`). An empty range is the exception: its dump has a row without cells if
it begins off a multiple of ten (`not_dump_without_empty_rows`). -/

namespace WordMachine

/-- The label and the integers of a row. -/
def DumpRow.reading (row : DumpRow) : Int × List Int := (row.label, row.cells.map Int32.toInt)

namespace Memory

open CommandLine Decimal

/-! ## The reader -/

/-- Reads a row of a dump: the label in front of the colon, and the integers behind it. -/
def readDumpRow? (line : List Char) : Option (Int × List Int) :=
  (readLine line).bind fun row => (read? row.1.toList).map fun label => (label, row.2)

/-- Reads a dump, which has its rows on a line each. A dump without rows has no text. -/
def readDump? (text : String) : Option (List (Int × List Int)) :=
  if text = "" then some [] else (text.toList.splitOn '\n').mapM readDumpRow?

/-- The cells that rows list, with their addresses: a row lists cells from its label on. -/
def listed (rows : List (Int × List Int)) : List (Int × Int) :=
  rows.flatMap fun row => addressed row.1 row.2

variable {m : Memory} {start stop : Nat}

theorem readDumpRow?_text (row : DumpRow) : readDumpRow? row.text.toList = some row.reading := by
  rw [readDumpRow?, readLine_rowText, Option.bind_some, toList_padded, read?_paddedChars,
    Option.map_some, DumpRow.reading]

/-- A dump is read back as its rows. -/
theorem readDump?_dumpText (m : Memory) (start stop : Nat) :
    readDump? (m.dumpText start stop) = some ((m.dumpRows start stop).map DumpRow.reading) := by
  cases hrows : m.dumpRows start stop with
  | nil =>
    rw [dumpText, hrows]
    rfl
  | cons first rows =>
    have hlines : (m.dumpText start stop).toList.splitOn '\n' =
        (first :: rows).map fun row => row.text.toList := by
      have hsplit := List.splitOn_intercalate '\n' (newline_not_mem_of_mem_dump m start stop)
      rw [toList_dumpText, hsplit (by simp [hrows]), hrows]
    have hne : m.dumpText start stop ≠ "" := by
      intro hempty
      have hnone : ([] : List Char) = first.text.toList := by
        rw [hempty] at hlines
        exact (List.cons.inj hlines).1
      rw [toList_rowText] at hnone
      simp at hnone
    rw [readDump?, if_neg hne, hlines]
    exact mapM_of_read fun row _ => readDumpRow?_text row

/-! ## What a dump shows -/

/-- Rows that list the words of a range, which begins at `start` and ends before `stop`: each address
    once, in ascending order, with its word; the rows are labelled with the addresses of their first
    cells, and a new row begins with each multiple of ten and nowhere else. -/
structure Tabulates (start stop : Nat) (words : List Word) (rows : List (Int × List Int)) :
    Prop where
  addresses_eq : (listed rows).map Prod.fst = (List.range' start (stop - start)).map Int.ofNat
  words_eq : (listed rows).map Prod.snd = words.map Int32.toInt
  first_label : rows.head?.map Prod.fst = some (start : Int)
  later_labels : ∀ row ∈ rows.tail, 10 ∣ row.1
  nonempty : ∀ row ∈ rows, row.2 ≠ []
  unbroken : ∀ row ∈ rows, ∀ a, row.1 < a → a < row.1 + row.2.length → ¬10 ∣ a

theorem listed_reading (hlt : start < stop) (hstop : stop ≤ m.size) :
    listed ((m.dumpRows start stop).map DumpRow.reading) =
      addressed start (m.values start stop) := by
  rw [listed, List.flatMap_map, ← flatMap_dumpRows hlt hstop]
  rfl

theorem tabulates_dumpRows (hlt : start < stop) (hstop : stop ≤ m.size) :
    Tabulates start stop (m.cells.extract start stop).toList
      ((m.dumpRows start stop).map DumpRow.reading) where
  addresses_eq := by
    rw [listed_reading hlt hstop, map_fst_addressed, length_values hstop]
  words_eq := by
    rw [listed_reading hlt hstop, map_snd_addressed, values]
  first_label := by
    have hlabel := label_head?_dumpRows (m := m) hlt
    obtain ⟨first, hfirst, hstart⟩ := Option.map_eq_some_iff.1 hlabel
    rw [List.head?_map, hfirst, Option.map_some, Option.map_some, DumpRow.reading, hstart]
  later_labels := by
    intro row hrow
    rw [← List.map_tail] at hrow
    obtain ⟨row, hmem, rfl⟩ := List.mem_map.1 hrow
    exact Int.natCast_dvd_natCast.2 (dvd_label_of_mem_tail_dumpRows hmem)
  nonempty := by
    intro row hrow
    obtain ⟨row, hmem, rfl⟩ := List.mem_map.1 hrow
    have hpos := length_pos_of_mem_dumpRows hlt hstop hmem
    rw [DumpRow.reading, ne_eq, List.map_eq_nil_iff, ← List.length_eq_zero_iff]
    omega
  unbroken := by
    intro row hrow a hlabel hend
    obtain ⟨row, hmem, rfl⟩ := List.mem_map.1 hrow
    simp only [DumpRow.reading, List.length_map] at hlabel hend
    obtain ⟨a, rfl⟩ := Int.eq_ofNat_of_zero_le (by omega : 0 ≤ a)
    rw [← Nat.cast_ofNat, Int.natCast_dvd_natCast]
    exact not_dvd_of_mem_dumpRows hstop hmem (by omega) (by omega)

theorem dump_of_lt (hstart : start < m.size) (length : Option Nat) :
    m.dump start (length.map Int.ofNat) =
      .ok (m.dumpText start (length.elim m.size fun n => min (start + n) m.size)) := by
  refine dump_eq_ok_iff.2 ⟨start, rfl, hstart, ?_, ?_⟩
  · cases length with
    | none => simp only [Option.map_none, Option.getD_none]; omega
    | some n => exact Int.natCast_nonneg n
  · cases length with
    | none =>
      simp only [Option.map_none, Option.getD_none, Option.elim_none]
      congr 1
      omega
    | some n => rfl

theorem snapshot_of_lt (hlt : start < stop) (hstop : stop ≤ m.size) :
    m.snapshot start (some (stop - 1)) = .ok (m.cells.extract start stop).toList := by
  obtain ⟨last, rfl⟩ := Nat.exists_eq_succ_of_ne_zero (Nat.ne_zero_of_lt hlt)
  refine snapshot_eq_ok_iff.2 ⟨start, last, rfl, ?_, by omega, by omega, rfl⟩
  simp only [Option.getD_some]
  omega

/-- A dump shows the memory. Any address in the memory and any length but zero can be asked for; the
    range that is meant ends with the memory at the latest, and without a length it does end there.
    The dump can be read back, and its rows list the words that a snapshot of the range has. -/
theorem dump_shows_snapshot (m : Memory) (start : Nat) (hstart : start < m.size)
    (length : Option Nat) (hlength : ∀ n ∈ length, 1 ≤ n) :
    let stop := length.elim m.size fun n => min (start + n) m.size
    ∃ text rows words, m.dump start (length.map Int.ofNat) = .ok text ∧
      readDump? text = some rows ∧ m.snapshot start (some (stop - 1)) = .ok words ∧
      Tabulates start stop words rows := by
  intro stop
  have hrange : start < stop ∧ stop ≤ m.size := by
    cases length with
    | none => exact ⟨hstart, Nat.le_refl _⟩
    | some n =>
      have hn := hlength n rfl
      simp only [stop, Option.elim_some]
      omega
  exact ⟨_, _, _, dump_of_lt hstart length, readDump?_dumpText m start stop,
    snapshot_of_lt hrange.1 hrange.2, tabulates_dumpRows hrange.1 hrange.2⟩

/-- A dump from inside a block that is cut off at the end of memory inside the next block, with words
    of either sign and any width. -/
theorem dump_shows_snapshot_clipped :
    let m : Memory := ⟨#[0, 0, 0, 0, 0, 0, 0, 0, -2147483648, 9, -1, 0, 2147483647]⟩
    8 < m.size ∧ ∃ text rows, m.dump 8 (some 100) = .ok text ∧ readDump? text = some rows ∧
      Tabulates 8 13 [-2147483648, 9, -1, 0, 2147483647] rows := by
  intro m
  have hstart : 8 < m.size := by decide
  obtain ⟨text, rows, words, hdump, hread, hsnapshot, hrows⟩ :=
    dump_shows_snapshot m 8 hstart (some 100) (by simp)
  have hwords : m.snapshot 8 (some 12) = .ok [-2147483648, 9, -1, 0, 2147483647] := by decide
  cases hwords.symm.trans hsnapshot
  exact ⟨hstart, text, rows, hdump, hread, hrows⟩

/-! ## How many rows a dump has -/

/-- A dump has no empty rows, and a row for each block of ten addresses that its range meets, unless
    the range is empty and begins off a multiple of ten: then it has one row, which is empty. -/
theorem dump_by_blocks (m : Memory) (start : Nat) (hstart : start < m.size) (length : Nat) :
    let stop := min (start + length) m.size
    ∃ text rows, m.dump start (some length) = .ok text ∧ readDump? text = some rows ∧
      (length ≠ 0 ∨ start % 10 = 0 →
        (∀ row ∈ rows, 1 ≤ row.2.length ∧ row.2.length ≤ 10) ∧
          rows.length = (blocks start stop).ncard) ∧
      (length = 0 → start % 10 ≠ 0 → rows = [((start : Int), [])]) := by
  intro stop
  have hdump : m.dump start (some length) = .ok (m.dumpText start stop) :=
    dump_of_lt hstart (some length)
  refine ⟨_, _, hdump, readDump?_dumpText m start stop, fun hrows => ?_, fun hempty hoff => ?_⟩
  · by_cases hlength : length = 0
    · -- An empty range from a multiple of ten on.
      have hstop : stop = start := by omega
      have haligned : start % 10 = 0 := by omega
      rw [hstop, dumpRows_self, if_pos haligned, blocks_self, Set.ncard_empty]
      exact ⟨nofun, rfl⟩
    · have hlt : start < stop := by omega
      have hle : stop ≤ m.size := Nat.min_le_right _ _
      refine ⟨fun row hrow => ?_, ?_⟩
      · obtain ⟨row, hmem, rfl⟩ := List.mem_map.1 hrow
        rw [DumpRow.reading, List.length_map]
        exact ⟨length_pos_of_mem_dumpRows hlt hle hmem, length_le_of_mem_dumpRows hle hmem⟩
      · rw [List.length_map, length_dumpRows hlt]
  · have hstop : stop = start := by omega
    rw [hstop, dumpRows_self, if_neg hoff]
    rfl

/-- Thirty cells from inside a block on are in four blocks. -/
theorem dump_by_blocks_off_a_multiple :
    3 < (zeros 40).size ∧ ∃ text rows, (zeros 40).dump 3 (some 30) = .ok text ∧
      readDump? text = some rows ∧ (∀ row ∈ rows, 1 ≤ row.2.length ∧ row.2.length ≤ 10) ∧
      rows.length = (blocks 3 33).ncard := by
  have hstart : 3 < (zeros 40).size := by decide
  obtain ⟨text, rows, hdump, hread, hrows, -⟩ := dump_by_blocks (zeros 40) 3 hstart 30
  exact ⟨hstart, text, rows, hdump, hread, hrows (Or.inl (by decide))⟩

/-- So it does not hold of every dump that it has no empty row and a row for each block: the dump of
    no cells from address three on has a row. -/
theorem not_dump_without_empty_rows :
    ¬ ∀ (m : Memory) (start length : Nat), start < m.size →
      ∃ text rows, m.dump start (some length) = .ok text ∧ readDump? text = some rows ∧
        (∀ row ∈ rows, 1 ≤ row.2.length ∧ row.2.length ≤ 10) ∧
        rows.length = (blocks start (min (start + length) m.size)).ncard := by
  intro hclaim
  obtain ⟨text, rows, hdump, hread, hrows, -⟩ := hclaim (zeros 4) 3 0 (by decide)
  have htext : (zeros 4).dump 3 (some 0) = .ok ((zeros 4).dumpText 3 3) :=
    dump_of_lt (by decide) (some 0)
  cases htext.symm.trans hdump
  rw [readDump?_dumpText, dumpRows_self, if_neg (by decide)] at hread
  cases hread
  exact absurd (hrows _ List.mem_cons_self).1 (by decide)

end Memory

end WordMachine
