import WordMachine.Proofs.Machine.Bounds

set_option autoImplicit false

/-! # Machines with more memory

Cells behind the last one of a machine make no difference as long as nothing goes there. Whatever
reads or checks an address is out of range in the smaller machine or gives the same in both
(`SameInside`); fetching, finding an effect and planning are put together from that
(`sameInside_plan`). An effect that fits the smaller memory changes the larger one in the same way
and leaves the further cells alone (`complete_enlarge`). -/

namespace WordMachine

/-- The first result is out of range, or it is that of the second. -/
def SameInside {α : Type} (x y : Except Fault α) : Prop :=
  (∃ f, x = .error f ∧ f.kind = .outOfRange) ∨ x = y

theorem SameInside.map {α β : Type} {x y : Except Fault α} (h : SameInside x y) (g : α → β) :
    SameInside (x.map g) (y.map g) := by
  rcases h with ⟨f, rfl, hf⟩ | rfl
  · exact Or.inl ⟨f, rfl, hf⟩
  · exact Or.inr rfl

/-! ## Memories -/

namespace Memory

/-- The memory with further cells behind its last one. -/
def enlarge (m : Memory) (further : Array Word) : Memory := ⟨m.cells ++ further⟩

variable {m : Memory} {further : Array Word} {address : Int}

theorem size_enlarge (m : Memory) (further : Array Word) :
    (m.enlarge further).size = m.size + further.size :=
  Array.size_append

theorem cell?_enlarge (h : address < m.size) :
    (m.enlarge further).cell? address = m.cell? address := by
  unfold cell? enlarge size at *
  by_cases hneg : address < 0
  · rw [if_pos hneg, if_pos hneg]
  · rw [if_neg hneg, if_neg hneg, Array.getElem?_append_left (by omega)]

/-- The further cells are the same, whatever they are added to. -/
theorem cell?_enlarge_of_le {n : Memory} (hsize : m.size = n.size) (h : m.size ≤ address) :
    (m.enlarge further).cell? address = (n.enlarge further).cell? address := by
  unfold cell? enlarge size at *
  by_cases hneg : address < 0
  · rw [if_pos hneg, if_pos hneg]
  · rw [if_neg hneg, if_neg hneg, Array.getElem?_append_right (by omega),
      Array.getElem?_append_right (by omega), hsize]

theorem put_enlarge {cell : Nat} (h : cell < m.size) (word : Word) :
    (m.enlarge further).put cell word = (m.put cell word).enlarge further := by
  simp only [put, enlarge]
  rw [Array.setIfInBounds_append_left h]

theorem sameInside_read (m : Memory) (further : Array Word) (address : Int) :
    SameInside (m.read address) ((m.enlarge further).read address) := by
  cases h : m.cell? address with
  | none => exact Or.inl ⟨_, read_of_no_cell h, rfl⟩
  | some word =>
    have hlarge : (m.enlarge further).cell? address = some word :=
      (cell?_enlarge (lt_size_of_cell? h).2).trans h
    exact Or.inr ((read_of_cell? h).trans (read_of_cell? hlarge).symm)

theorem sameInside_checkAddress (m : Memory) (further : Array Word) (address : Int) :
    SameInside (m.checkAddress address) ((m.enlarge further).checkAddress address) := by
  unfold checkAddress
  rw [size_enlarge]
  by_cases h : 0 ≤ address ∧ address < m.size
  · rw [if_pos h, if_pos ⟨h.1, by omega⟩]
    exact Or.inr rfl
  · rw [if_neg h]
    exact Or.inl ⟨_, rfl, rfl⟩

/-- A memory that begins with the cells of another one is that one, enlarged. -/
theorem exists_enlarge {n : Memory} (hsize : m.size ≤ n.size)
    (hcells : ∀ address : Int, address < m.size → m.cell? address = n.cell? address) :
    ∃ further, n = m.enlarge further := by
  have happend : n.cells = m.cells ++ n.cells.extract m.cells.size n.cells.size := by
    unfold size at *
    refine Array.ext_getElem? fun i => ?_
    by_cases hi : i < m.cells.size
    · have hcell := hcells i (by omega)
      rw [cell?_ofNat, cell?_ofNat] at hcell
      rw [Array.getElem?_append_left hi, hcell]
    · rw [Array.getElem?_append_right (by omega), Array.getElem?_extract, Nat.min_self]
      by_cases hin : i < n.cells.size
      · rw [if_pos (by omega), Nat.add_sub_cancel' (by omega)]
      · rw [if_neg (by omega), Array.getElem?_eq_none (by omega)]
  exact ⟨_, congrArg Memory.mk happend⟩

end Memory

/-! ## Machines -/

namespace Machine

/-- The machine with further cells behind its last one. -/
def enlarge (m : Machine) (further : Array Word) : Machine :=
  { m with memory := m.memory.enlarge further }

variable {m : Machine} {further : Array Word} {i : Instruction} {effect : Effect}

theorem sameInside_checkCounter (m : Machine) (further : Array Word) (address : Int) :
    SameInside (m.checkCounter address) ((m.enlarge further).checkCounter address) := by
  unfold checkCounter enlarge
  simp only [Memory.size_enlarge]
  by_cases h : 0 ≤ address ∧ address < m.memory.size
  · rw [if_pos h, if_pos ⟨h.1, by omega⟩]
    exact Or.inr rfl
  · rw [if_neg h]
    exact Or.inl ⟨_, rfl, rfl⟩

theorem sameInside_jumpEffect (m : Machine) (further : Array Word) (taken : Bool) (address : Int) :
    SameInside (m.jumpEffect taken address) ((m.enlarge further).jumpEffect taken address) := by
  cases taken with
  | false => exact Or.inr rfl
  | true => exact (m.sameInside_checkCounter further address).map Effect.jump

theorem sameInside_effectOf (m : Machine) (further : Array Word) (op : Opcode) (address : Int) :
    SameInside (m.effectOf op address) ((m.enlarge further).effectOf op address) := by
  have hread := m.memory.sameInside_read further address
  cases op with
  | hlt => exact Or.inr rfl
  | lda | add | sub | cmp => exact hread.map _
  | sta => exact (m.memory.sameInside_checkAddress further address).map _
  | jmp | jz | jl => exact m.sameInside_jumpEffect further _ address
  | div =>
    rcases hread with ⟨f, hread, hf⟩ | hread
    · refine Or.inl ⟨f, ?_, hf⟩
      simp only [effectOf, hread]
    · refine Or.inr ?_
      simp only [effectOf, enlarge, hread]

theorem sameInside_fetch (m : Machine) (further : Array Word) :
    SameInside m.fetch (m.enlarge further).fetch := by
  rcases m.memory.sameInside_read further m.registers.location with ⟨f, hread, hf⟩ | hread
  · refine Or.inl ⟨f, ?_, hf⟩
    simp only [fetch, hread]
  · simp only [fetch, enlarge, ← hread]
    split
    · exact Or.inr rfl
    · split
      · exact Or.inr rfl
      · split
        · exact (m.memory.sameInside_read further _).map _
        · exact Or.inr rfl

/-- A larger machine plans the same, unless the smaller one is out of range. -/
theorem sameInside_plan (m : Machine) (further : Array Word) :
    SameInside m.plan (m.enlarge further).plan := by
  rcases m.sameInside_fetch further with ⟨f, hfetch, hf⟩ | hfetch
  · refine Or.inl ⟨f, ?_, hf⟩
    simp only [plan, hfetch]
  · simp only [plan, ← hfetch]
    split
    · exact Or.inr rfl
    · exact Or.inr rfl
    · exact (m.sameInside_effectOf further _ _).map _

theorem complete_enlarge (h : effect.Fits m.memory.size) :
    (m.enlarge further).complete i effect = (m.complete i effect).enlarge further := by
  cases effect with
  | none | accumulate word | compare word | jump cell => rfl
  | store cell word =>
    simp only [complete, apply, enlarge, Effect.redirects, moveTo, Memory.put_enlarge h,
      Bool.false_eq_true, if_false]

end Machine

end WordMachine
