import WordMachine.Error
import WordMachine.Word

set_option autoImplicit false

/-! # Memory

A memory is a fixed number of cells that hold words. Addresses count from zero and are checked,
never masked: an access outside the memory is a fault and touches nothing. `cell?` is the view in
which the other operations are described. -/

namespace WordMachine

/-- A memory, as its cells in the order of their addresses. -/
structure Memory where
  cells : Array Word
  deriving DecidableEq, Repr

namespace Memory

/-- The number of cells of a memory for which no size is asked. -/
def defaultSize : Nat := 4000

/-- The number of cells. -/
def size (m : Memory) : Nat := m.cells.size

/-- A memory of `size` cells that are all zero. -/
def zeros (size : Nat) : Memory := ⟨Array.replicate size 0⟩

/-- A memory of `size` cells that are all zero, if a memory can have that size. -/
def ofSize (size : Int) : Except Error Memory :=
  if size ≤ 0 then .error (.memorySize size) else .ok (zeros size.toNat)

/-- The word at an address, if there is such a cell. -/
def cell? (m : Memory) (address : Int) : Option Word :=
  if address < 0 then none else m.cells[address.toNat]?

/-! ## Single cells -/

/-- The cell number that an address stands for. -/
def checkAddress (m : Memory) (address : Int) : Except Fault Nat :=
  if 0 ≤ address ∧ address < m.size then .ok address.toNat
  else .error (.badAddress address m.size)

/-- Reads the cell at an address. -/
def read (m : Memory) (address : Int) : Except Fault Word :=
  match m.cell? address with
  | some word => .ok word
  | none => .error (.badAddress address m.size)

/-- The memory after `word` is stored in a cell. Storing outside the memory changes nothing. -/
def put (m : Memory) (cell : Nat) (word : Word) : Memory := ⟨m.cells.setIfInBounds cell word⟩

/-- Stores a word at an address. -/
def write (m : Memory) (address : Int) (word : Word) : Except Fault Memory :=
  (m.checkAddress address).map (m.put · word)

/-! ## The view of the single-cell operations -/

@[simp] theorem size_zeros (n : Nat) : (zeros n).size = n := Array.size_replicate

@[simp] theorem size_put (m : Memory) (cell : Nat) (word : Word) :
    (m.put cell word).size = m.size := by
  simp [put, size]

theorem cell?_ofNat (m : Memory) (cell : Nat) : m.cell? cell = m.cells[cell]? := by
  rw [cell?, if_neg (by omega), Int.toNat_natCast]

theorem cell?_isSome_iff (m : Memory) (address : Int) :
    (m.cell? address).isSome ↔ 0 ≤ address ∧ address < m.size := by
  unfold cell? size
  split
  · simp only [Option.isSome_none, Bool.false_eq_true, false_iff]
    omega
  · rw [getElem?_def]
    split
    · simp only [Option.isSome_some, true_iff]
      omega
    · simp only [Option.isSome_none, Bool.false_eq_true, false_iff]
      omega

theorem cell?_put (m : Memory) (cell : Nat) (word : Word) (address : Int) :
    (m.put cell word).cell? address =
      if address = cell ∧ cell < m.size then some word else m.cell? address := by
  unfold cell? put size
  by_cases hneg : address < 0
  · rw [if_pos hneg, if_neg (by omega), if_pos hneg]
  · rw [if_neg hneg, if_neg hneg, Array.getElem?_setIfInBounds]
    by_cases heq : cell = address.toNat
    · by_cases hlt : cell < m.cells.size
      · rw [if_pos heq, if_pos (heq ▸ hlt), if_pos ⟨by omega, hlt⟩]
      · rw [if_pos heq, if_neg (heq ▸ hlt), if_neg (fun h => hlt h.2),
          Array.getElem?_eq_none (by omega)]
    · rw [if_neg heq, if_neg (fun h => heq (by omega))]

/-! ## The whole memory -/

/-- Stores words in the cells from a cell on. -/
def putAll (m : Memory) (cell : Nat) : List Word → Memory
  | [] => m
  | word :: words => (m.put cell word).putAll (cell + 1) words

/-- Stores a program from address zero on. The other cells keep their words. -/
def load (m : Memory) (words : List Int) : Except Fault Memory :=
  if m.size < words.length then .error (.programTooLarge words.length m.size)
  else .ok (m.putAll 0 (words.map Word.wrap))

/-- The memory with all cells zero. -/
def clear (m : Memory) : Memory := zeros m.size

/-- The words from a first to a last address, which is the last cell if none is given. The first
    address is checked before the last, and their order after both. -/
def snapshot (m : Memory) (first : Int) (last : Option Int) : Except Error (List Word) :=
  let last := last.getD (m.size - 1)
  match m.checkAddress first, m.checkAddress last with
  | .error f, _ => .error (.ofFault f)
  | .ok _, .error f => .error (.ofFault f)
  | .ok start, .ok stop =>
    if stop < start then .error (.snapshotReversed first last)
    else .ok (m.cells.extract start (stop + 1)).toList

/-- The cells in which `new` differs from `old`, with their new words, in the order of their
    addresses. -/
def changes (old new : Memory) : List (Nat × Word) :=
  new.cells.toList.zipIdx.filterMap fun (word, i) =>
    if old.cells[i]? = some word then none else some (i, word)

/-- The cells that are not zero, with their words, in the order of their addresses. -/
def nonZero (m : Memory) : List (Nat × Word) := changes m.clear m

end Memory

end WordMachine
