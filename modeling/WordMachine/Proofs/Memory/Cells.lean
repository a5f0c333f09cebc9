import WordMachine.Memory
import WordMachine.Proofs.Outcome

set_option autoImplicit false

/-! # Memory operations through the view of the cells

Each operation of a memory is described by `cell?`: when it succeeds, what it answers and which
cells it leaves behind. Later proofs use these descriptions and do not open the operations. -/

namespace WordMachine.Memory

/-! ## Single cells -/

theorem lt_size_of_cell? {m : Memory} {address : Int} {word : Word}
    (h : m.cell? address = some word) : 0 ≤ address ∧ address < m.size :=
  (m.cell?_isSome_iff address).1 (by rw [h]; rfl)

theorem cell?_eq_none_iff {m : Memory} {address : Int} :
    m.cell? address = none ↔ ¬ (0 ≤ address ∧ address < m.size) := by
  rw [← m.cell?_isSome_iff address, Option.not_isSome_iff_eq_none]

theorem read_of_cell? {m : Memory} {address : Int} {word : Word}
    (h : m.cell? address = some word) : m.read address = .ok word := by
  rw [read, h]

theorem read_of_no_cell {m : Memory} {address : Int} (h : m.cell? address = none) :
    m.read address = .error (.badAddress address m.size) := by
  rw [read, h]

theorem read_eq_ok_iff {m : Memory} {address : Int} {word : Word} :
    m.read address = .ok word ↔ m.cell? address = some word := by
  cases h : m.cell? address with
  | none => simp [read_of_no_cell h]
  | some w => simp [read_of_cell? h]

theorem read_eq_error {m : Memory} {address : Int} {f : Fault} (h : m.read address = .error f) :
    f = .badAddress address m.size := by
  cases hcell : m.cell? address with
  | some word =>
    rw [read_of_cell? hcell] at h
    cases h
  | none =>
    rw [read_of_no_cell hcell] at h
    exact (Except.error.inj h).symm

theorem checkAddress_eq_ok_iff {m : Memory} {address : Int} {cell : Nat} :
    m.checkAddress address = .ok cell ↔ address = cell ∧ cell < m.size := by
  unfold checkAddress
  split
  · rw [Except.ok.injEq]
    omega
  · simp only [reduceCtorEq, false_iff]
    omega

theorem checkAddress_of_cell? {m : Memory} {address : Int} {word : Word}
    (h : m.cell? address = some word) : m.checkAddress address = .ok address.toNat := by
  obtain ⟨h0, hlt⟩ := lt_size_of_cell? h
  exact checkAddress_eq_ok_iff.2 ⟨by omega, by omega⟩

theorem checkAddress_of_no_cell {m : Memory} {address : Int} (h : m.cell? address = none) :
    m.checkAddress address = .error (.badAddress address m.size) := by
  rw [checkAddress, if_neg (cell?_eq_none_iff.1 h)]

theorem checkAddress_eq_error {m : Memory} {address : Int} {f : Fault}
    (h : m.checkAddress address = .error f) : f = .badAddress address m.size := by
  unfold checkAddress at h
  split at h
  · cases h
  · exact (Except.error.inj h).symm

theorem write_eq_ok_iff {m new : Memory} {address : Int} {word : Word} :
    m.write address word = .ok new ↔
      ∃ cell : Nat, address = cell ∧ cell < m.size ∧ new = m.put cell word := by
  unfold write
  constructor
  · intro h
    obtain ⟨cell, hcheck, rfl⟩ := map_eq_ok_iff.1 h
    obtain ⟨haddress, hlt⟩ := checkAddress_eq_ok_iff.1 hcheck
    exact ⟨cell, haddress, hlt, rfl⟩
  · rintro ⟨cell, haddress, hlt, rfl⟩
    exact map_eq_ok_iff.2 ⟨cell, checkAddress_eq_ok_iff.2 ⟨haddress, hlt⟩, rfl⟩

/-! ## Loading -/

@[simp] theorem size_putAll (m : Memory) (cell : Nat) (words : List Word) :
    (m.putAll cell words).size = m.size := by
  induction words generalizing m cell with
  | nil => rfl
  | cons word rest ih => rw [putAll, ih, size_put]

/-- The words of a load stand in the cells from the first one on, as far as there are cells. -/
theorem cell?_putAll (m : Memory) (cell : Nat) (words : List Word) (i : Nat) :
    (m.putAll cell words).cell? i =
      if cell ≤ i ∧ i < cell + words.length ∧ i < m.size then words[i - cell]?
      else m.cell? i := by
  induction words generalizing m cell with
  | nil =>
    rw [putAll, if_neg]
    rintro ⟨hle, hlt, -⟩
    simp only [List.length_nil] at hlt
    omega
  | cons word rest ih =>
    rw [putAll, ih, size_put, cell?_put]
    simp only [List.length_cons]
    -- The first word stands in the first cell, the others are shifted by one.
    by_cases hi : i = cell
    · subst hi
      by_cases hsize : i < m.size
      · rw [if_neg (by omega), if_pos ⟨rfl, hsize⟩, if_pos (by omega), Nat.sub_self]
        rfl
      · rw [if_neg (by omega), if_neg (fun h => hsize h.2), if_neg (by omega)]
    · rw [if_neg (fun h : (i : Int) = cell ∧ cell < m.size => hi (Int.ofNat.inj h.1))]
      by_cases hrange : cell + 1 ≤ i ∧ i < cell + 1 + rest.length ∧ i < m.size
      · obtain ⟨hlow, hhigh, hsize⟩ := hrange
        have hshift : i - cell = i - (cell + 1) + 1 := by omega
        rw [if_pos ⟨hlow, hhigh, hsize⟩, if_pos ⟨by omega, by omega, hsize⟩, hshift,
          List.getElem?_cons_succ]
      · rw [if_neg hrange, if_neg (by omega)]

theorem load_eq_ok_iff {m new : Memory} {words : List Int} :
    m.load words = .ok new ↔
      words.length ≤ m.size ∧ new = m.putAll 0 (words.map Word.wrap) := by
  unfold load
  split
  · simp only [reduceCtorEq, false_iff]
    omega
  · rw [Except.ok.injEq]
    constructor
    · rintro rfl
      exact ⟨by omega, rfl⟩
    · rintro ⟨-, rfl⟩
      rfl

@[simp] theorem size_clear (m : Memory) : m.clear.size = m.size := size_zeros m.size

end WordMachine.Memory
