import WordMachine.Proofs.Machine.Bounds

set_option autoImplicit false

/-! # Values stored one after the other

Values that are written are stored one after the other (`Machine.writeAll_of_inside`), up to the
first address that no cell has (`Machine.exists_writeAll_of_outside`). Of two values for one address
the later counts, and those for different addresses may be stored in either order. -/

namespace WordMachine

/-- Whether no cell of a memory of this size has the address. -/
def Memory.outside (size : Nat) (address : Int) : Bool := ¬(0 ≤ address ∧ address < size)

theorem Memory.put_put (m : Memory) (cell : Nat) (v w : Word) :
    (m.put cell v).put cell w = m.put cell w := by
  simp [put]

theorem Memory.put_comm (m : Memory) {cell other : Nat} (h : cell ≠ other) (v w : Word) :
    (m.put cell v).put other w = (m.put other w).put cell v := by
  simp only [put]
  rw [Array.setIfInBounds_comm _ _ h]

namespace Machine

variable {m : Machine} {data : List (Int × Int)}

/-- The machine after a value, wrapped, is stored at an address. -/
def store (m : Machine) (assignment : Int × Int) : Machine :=
  { m with memory := m.memory.put assignment.1.toNat (Word.wrap assignment.2) }

@[simp] theorem size_store (m : Machine) (assignment : Int × Int) :
    (m.store assignment).memory.size = m.memory.size := Memory.size_put ..

theorem write_of_inside {address : Int} (h : Memory.outside m.memory.size address = false)
    (value : Int) : m.write address value = .ok (m.store (address, value)) := by
  have hin := Decidable.of_not_not (of_decide_eq_false h)
  exact write_eq_ok_iff.2 ⟨address.toNat, by omega, by omega, rfl⟩

theorem write_of_outside {address : Int} (h : Memory.outside m.memory.size address = true)
    (value : Int) : m.write address value = .error (.badAddress address m.memory.size) := by
  rw [write, Memory.write, Memory.checkAddress, if_neg (of_decide_eq_true h)]
  rfl

theorem store_store (m : Machine) (address v w : Int) :
    (m.store (address, v)).store (address, w) = m.store (address, w) := by
  simp only [store, Memory.put_put]

theorem store_comm (m : Machine) {p q : Int × Int} (hp : 0 ≤ p.1) (hq : 0 ≤ q.1)
    (hne : p.1 ≠ q.1) : (m.store p).store q = (m.store q).store p := by
  simp only [store]
  rw [Memory.put_comm _ (by omega)]

/-- A value may be stored before others, if they go to other addresses. -/
theorem foldl_store_comm (m : Machine) {p : Int × Int} (hp : 0 ≤ p.1)
    (hdata : ∀ a ∈ data.map Prod.fst, 0 ≤ a) (hnot : p.1 ∉ data.map Prod.fst) :
    (data.foldl store m).store p = data.foldl store (m.store p) := by
  induction data generalizing m with
  | nil => rfl
  | cons q rest ih =>
    obtain ⟨hq, hdata⟩ := List.forall_mem_cons.1 hdata
    obtain ⟨hne, hnot⟩ := not_or.1 (fun h => hnot (List.mem_cons.2 h))
    rw [List.foldl_cons, List.foldl_cons, ih _ hdata hnot, store_comm m hp hq hne]

/-- Values are stored at addresses of cells. -/
theorem writeAll_of_inside
    (h : (data.map Prod.fst).find? (Memory.outside m.memory.size) = none) :
    m.writeAll data = (.ok (), data.foldl store m) := by
  induction data generalizing m with
  | nil => rfl
  | cons assignment rest ih =>
    obtain ⟨address, value⟩ := assignment
    rw [List.map_cons, List.find?_cons] at h
    split at h
    · cases h
    · next hin =>
      rw [writeAll, write_of_inside hin]
      exact ih (by rwa [size_store])

/-- The first address of no cell is reported. -/
theorem exists_writeAll_of_outside {address : Int}
    (h : (data.map Prod.fst).find? (Memory.outside m.memory.size) = some address) :
    ∃ written, m.writeAll data = (.error (.badAddress address m.memory.size), written) := by
  induction data generalizing m with
  | nil => cases h
  | cons assignment rest ih =>
    obtain ⟨first, value⟩ := assignment
    rw [List.map_cons, List.find?_cons] at h
    split at h
    · next hout =>
      cases h
      rw [writeAll, write_of_outside hout]
      exact ⟨m, rfl⟩
    · next hin =>
      rw [writeAll, write_of_inside hin]
      rw [← size_store m (first, value)] at h ⊢
      exact ih h

end Machine

end WordMachine
