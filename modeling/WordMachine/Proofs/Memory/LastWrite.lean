import WordMachine.Proofs.Memory.Ranges

set_option autoImplicit false

/-! # Memory as the last values that were stored

Of all that happened to it a memory remembers one value for each address: the one that was stored
there last since all cells were made zero. `remembered` reads that off a list of events, without a
memory, and a memory is `Recorded` by events if it holds just these values and nothing was ever
stored outside it. Each way to change a memory goes with its events: one value (`Recorded.put`), a
program (`Recorded.putAll`), and all cells zero (`Recorded.clear`). What is read of a recorded
memory is then known from its events alone (`Recorded.read_eq`, `Recorded.snapshot_eq`). -/

namespace WordMachine.Memory

/-- What can happen to a memory. -/
inductive Event where
  /-- A value was stored at an address. -/
  | stored (address value : Int)
  /-- All cells were made zero. -/
  | cleared
  deriving DecidableEq, Repr

/-- The value that the event stores at the address, if it does. -/
def Event.value? (address : Int) : Event → Option Int
  | .stored a value => if a = address then some value else none
  | .cleared => none

/-- The value that was stored last at the address since the memory was last cleared, if there is
    one. The events are given in the order in which they happened. -/
def latest (events : List Event) (address : Int) : Option Int :=
  (events.reverse.takeWhile (· ≠ .cleared)).findSome? (Event.value? address)

/-- The word at an address after the events. -/
def remembered (events : List Event) (address : Int) : Word :=
  Word.wrap ((latest events address).getD 0)

/-- Storing the words of a program, the first of them at the given address. -/
def loadEvents (first : Nat) (words : List Int) : List Event :=
  words.mapIdx fun i value => .stored ((first + i : Nat) : Int) value

/-- The memory holds what the events say, and nothing was stored outside it. -/
structure Recorded (events : List Event) (m : Memory) : Prop where
  inside : ∀ address value : Int, .stored address value ∈ events → 0 ≤ address ∧ address < m.size
  cell : ∀ i : Nat, i < m.size → m.cell? i = some (remembered events i)

variable {m : Memory} {events : List Event} {address : Int}

/-! ## Events at the end -/

theorem latest_cleared (events : List Event) : latest (events ++ [.cleared]) address = none := by
  simp [latest]

theorem latest_stored (events : List Event) (a value : Int) :
    latest (events ++ [.stored a value]) address =
      if a = address then some value else latest events address := by
  have hkept : decide (Event.stored a value ≠ .cleared) = true := by simp
  rw [latest, List.reverse_append, List.reverse_singleton, List.singleton_append,
    List.takeWhile_cons, if_pos hkept, List.findSome?_cons, Event.value?]
  by_cases ha : a = address
  · rw [if_pos ha, if_pos ha]
  · rw [if_neg ha, if_neg ha, latest]

theorem remembered_nil : remembered [] address = 0 := rfl

theorem remembered_cleared (events : List Event) :
    remembered (events ++ [.cleared]) address = 0 := by
  rw [remembered, latest_cleared]
  rfl

theorem remembered_stored (events : List Event) (a value : Int) :
    remembered (events ++ [.stored a value]) address =
      if a = address then Word.wrap value else remembered events address := by
  rw [remembered, latest_stored]
  by_cases ha : a = address
  · rw [if_pos ha, if_pos ha, Option.getD_some]
  · rw [if_neg ha, if_neg ha, remembered]

theorem loadEvents_cons (first : Nat) (word : Int) (rest : List Int) :
    loadEvents first (word :: rest) = .stored first word :: loadEvents (first + 1) rest := by
  simp only [loadEvents, List.mapIdx_cons, Nat.add_zero, Nat.add_assoc, Nat.add_comm 1]

/-! ## Changes of a memory -/

theorem cell?_zeros {size i : Nat} (h : i < size) : (zeros size).cell? i = some 0 := by
  rw [cell?_ofNat, zeros, Array.getElem?_replicate, if_pos h]

theorem recorded_zeros (size : Nat) : (zeros size).Recorded [] where
  inside address value h := nomatch h
  cell i hi := by
    rw [size_zeros] at hi
    rw [cell?_zeros hi, remembered_nil]

namespace Recorded

theorem put (h : m.Recorded events) {cell : Nat} (hcell : cell < m.size) (value : Int) :
    (m.put cell (Word.wrap value)).Recorded (events ++ [.stored cell value]) where
  inside address v hmem := by
    rw [size_put]
    rcases List.mem_append.1 hmem with hmem | hmem
    · exact h.inside address v hmem
    · cases List.mem_singleton.1 hmem
      omega
  cell i hi := by
    rw [size_put] at hi
    rw [cell?_put, remembered_stored, h.cell i hi]
    by_cases heq : (i : Int) = cell
    · rw [if_pos ⟨heq, hcell⟩, if_pos heq.symm]
    · rw [if_neg fun hboth => heq hboth.1, if_neg (Ne.symm heq)]

/-- A program is stored word by word. -/
theorem putAll (h : m.Recorded events) {first : Nat} {words : List Int}
    (hfit : first + words.length ≤ m.size) :
    (m.putAll first (words.map Word.wrap)).Recorded (events ++ loadEvents first words) := by
  induction words generalizing m first events with
  | nil => simpa [putAll, loadEvents] using h
  | cons word rest ih =>
    rw [List.length_cons] at hfit
    have hfirst := h.put (by omega : first < m.size) word
    have hrest := ih hfirst (by rw [size_put]; omega : first + 1 + rest.length ≤ _)
    rw [List.append_assoc, List.singleton_append, ← loadEvents_cons] at hrest
    exact hrest

theorem clear (h : m.Recorded events) : m.clear.Recorded (events ++ [.cleared]) where
  inside address value hmem := by
    rw [size_clear]
    exact h.inside address value (by simpa using hmem)
  cell i hi := by
    rw [size_clear] at hi
    rw [remembered_cleared]
    exact cell?_zeros hi

/-! ## What is read -/

theorem cell?_eq (h : m.Recorded events) {address : Int}
    (hin : 0 ≤ address ∧ address < m.size) :
    m.cell? address = some (remembered events address) := by
  obtain ⟨i, rfl⟩ := Int.eq_ofNat_of_zero_le hin.1
  exact h.cell i (by omega)

theorem read_eq (h : m.Recorded events) (address : Int) :
    m.read address =
      if 0 ≤ address ∧ address < m.size then .ok (remembered events address)
      else .error (.badAddress address m.size) := by
  split
  · next hin => exact read_of_cell? (h.cell?_eq hin)
  · next hout => exact read_of_no_cell (cell?_eq_none_iff.2 hout)

/-- A slice of the cells is a list of what would be read, one address after the other. -/
theorem extract_eq (h : m.Recorded events) {i j : Nat} (hle : i ≤ j) (hlt : j < m.size) :
    (m.cells.extract i (j + 1)).toList =
      (List.range (j - i + 1)).map fun k => remembered events ((i + k : Nat) : Int) := by
  have hsize : j < m.cells.size := hlt
  refine List.ext_getElem (by simp; omega) fun k hk _ => ?_
  have hcell := h.cell (i + k) (by simp at hk; omega)
  rw [cell?_ofNat, Array.getElem?_eq_some_iff] at hcell
  obtain ⟨_, hcell⟩ := hcell
  simp [hcell]

/-- What a snapshot answers: the first address is judged first, then the last, then their order. -/
theorem snapshot_eq (h : m.Recorded events) (first : Int) (last : Option Int) :
    m.snapshot first last =
      let final := last.getD (m.size - 1)
      if ¬(0 ≤ first ∧ first < m.size) then .error (.ofFault (.badAddress first m.size))
      else if ¬(0 ≤ final ∧ final < m.size) then .error (.ofFault (.badAddress final m.size))
      else if final < first then .error (.snapshotReversed first final)
      else .ok ((List.range (final - first + 1).toNat).map fun i : Nat =>
        remembered events (first + i)) := by
  simp only [snapshot]
  generalize last.getD (m.size - 1) = final
  by_cases hfirst : 0 ≤ first ∧ first < m.size
  · have hstart : m.checkAddress first = .ok first.toNat := if_pos hfirst
    by_cases hfinal : 0 ≤ final ∧ final < m.size
    · have hstop : m.checkAddress final = .ok final.toNat := if_pos hfinal
      rw [hstart, hstop, if_neg (not_not_intro hfirst), if_neg (not_not_intro hfinal)]
      by_cases hle : final < first
      · rw [if_pos hle]
        exact if_pos (by omega)
      · have hlast : final.toNat < m.size := by omega
        have hcount : (final - first + 1).toNat = final.toNat - first.toNat + 1 := by omega
        have hcells := h.extract_eq (by omega : first.toNat ≤ final.toNat) hlast
        rw [if_neg hle, hcount]
        refine (if_neg (by omega)).trans (congrArg Except.ok (hcells.trans ?_))
        refine List.map_congr_left fun k _ => ?_
        rw [Int.natCast_add, Int.toNat_of_nonneg hfirst.1]
    · have hstop : m.checkAddress final = .error (.badAddress final m.size) := if_neg hfinal
      rw [hstart, hstop, if_neg (not_not_intro hfirst), if_pos hfinal]
  · have hstart : m.checkAddress first = .error (.badAddress first m.size) := if_neg hfirst
    rw [hstart, if_pos hfirst]

end Recorded

end WordMachine.Memory
