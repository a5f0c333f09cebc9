import WordMachine.Proofs.Machine.Bounds
import WordMachine.Proofs.Numeral

set_option autoImplicit false

/-! # The numbers of a fault

The faults that a machine comes to on its own have small numbers in them: the words that it met and
the addresses of its cells, or the one just past the last (`small_of_plan`). If the size of the
memory can be written in decimal, so can all of these, and the fault is reported as itself. A value
that is assigned from outside can be refused for an address of any length
(`exists_of_writeAll_error`). -/

namespace WordMachine

/-- The numbers of the fault are words, or addresses of so many cells or just past the last. -/
structure Fault.Small (size : Nat) (f : Fault) : Prop where
  address : ∀ a ∈ f.address?, (∃ word : Word, word.toInt = a) ∨ 0 ≤ a ∧ a ≤ size
  opcode : ∀ n ∈ f.opcode?, ∃ word : Word, word.toInt = n

theorem Fault.Small.isWritable {size : Nat} {f : Fault} (h : f.Small size)
    (hsize : Decimal.isWritable size = true) : f.isWritable = true := by
  have haddress : ∀ a ∈ f.address?, Decimal.isWritable a = true := by
    intro a ha
    rcases h.address a ha with ⟨word, rfl⟩ | ⟨hlow, hhigh⟩
    · exact Decimal.isWritable_toInt word
    · exact Decimal.isWritable_of_natAbs_le hsize (by omega)
  have hopcode : ∀ n ∈ f.opcode?, Decimal.isWritable n = true := by
    intro n hn
    obtain ⟨word, rfl⟩ := h.opcode n hn
    exact Decimal.isWritable_toInt word
  simp [Fault.isWritable, Option.all_eq_true_iff_get, haddress, hopcode]

theorem Fault.Small.of_address {size : Nat} {f : Fault} {address : Int}
    (haddress : f.address? = some address) (hopcode : f.opcode? = none)
    (h : (∃ word : Word, word.toInt = address) ∨ 0 ≤ address ∧ address ≤ size) :
    f.Small size where
  address a ha := by
    obtain rfl : address = a := Option.some.inj (haddress.symm.trans ha)
    exact h
  opcode n hn := by
    cases hopcode.symm.trans hn

/-- An address of no cell is named if it can be written in decimal. -/
theorem ofFault_badAddress (address : Int) (size : Nat) :
    Error.ofFault (.badAddress address size) =
      if Decimal.isWritable address then .fault (.badAddress address size)
      else .numeral .unwritable := by
  simp only [Error.ofFault, Fault.isWritable, Fault.address?, Fault.opcode?, Option.all_some,
    Option.all_none, Bool.and_true]

namespace Machine

variable {m new : Machine} {size : Nat} {f : Fault}

/-! ## Assigned values -/

section

variable {assignments : List (Int × Int)}

theorem Within.writeAll (hm : m.Within size) {result : Except Fault Unit}
    (h : m.writeAll assignments = (result, new)) : new.Within size := by
  induction assignments generalizing m with
  | nil =>
    cases h
    exact hm
  | cons assignment rest ih =>
    obtain ⟨address, value⟩ := assignment
    rw [Machine.writeAll] at h
    split at h
    · next next hwrite => exact ih (hm.write hwrite) h
    · cases h
      exact hm

/-- Assignments are refused for an address that is no cell. -/
theorem exists_of_writeAll_error (h : m.writeAll assignments = (.error f, new)) :
    ∃ address value size, (address, value) ∈ assignments ∧ f = .badAddress address size := by
  induction assignments generalizing m with
  | nil => cases h
  | cons assignment rest ih =>
    obtain ⟨address, value⟩ := assignment
    rw [Machine.writeAll] at h
    split at h
    · obtain ⟨a, v, size, hmem, hf⟩ := ih h
      exact ⟨a, v, size, List.mem_cons_of_mem _ hmem, hf⟩
    · next g hwrite =>
      cases h
      have hcheck := map_eq_error_iff.1 (map_eq_error_iff.1 hwrite)
      exact ⟨address, value, _, List.mem_cons_self, Memory.checkAddress_eq_error hcheck⟩

end

/-! ## Instructions -/

theorem checkCounter_eq_error {address : Int} (h : m.checkCounter address = .error f) :
    f = .badCounter address m.memory.size := by
  unfold checkCounter at h
  split at h
  · cases h
  · cases h
    rfl

theorem jumpEffect_eq_error {taken : Bool} {address : Int}
    (h : m.jumpEffect taken address = .error f) : f = .badCounter address m.memory.size := by
  cases taken with
  | false => cases h
  | true => exact checkCounter_eq_error (map_eq_error_iff.1 h)

/-- An instruction that is refused for its operand has no other number in its fault. -/
theorem numbers_of_effectOf {op : Opcode} {address : Int} (h : m.effectOf op address = .error f) :
    f.address? = some address ∧ f.opcode? = none := by
  cases op with
  | hlt => cases h
  | lda | add | sub | cmp =>
    obtain rfl := Memory.read_eq_error (map_eq_error_iff.1 h)
    exact ⟨rfl, rfl⟩
  | sta =>
    obtain rfl := Memory.checkAddress_eq_error (map_eq_error_iff.1 h)
    exact ⟨rfl, rfl⟩
  | jmp | jz | jl =>
    obtain rfl := jumpEffect_eq_error h
    exact ⟨rfl, rfl⟩
  | div =>
    simp only [effectOf] at h
    split at h
    · split at h
      · cases h
        exact ⟨rfl, rfl⟩
      · cases h
    · next hread =>
      cases h
      obtain rfl := Memory.read_eq_error hread
      exact ⟨rfl, rfl⟩

/-- The fault of a plan. -/
theorem small_of_plan (hm : m.Within size) (h : m.plan = .error f) : f.Small size := by
  have hlocation := hm.location_le
  have hsize := hm.size_eq
  cases hfetch : m.memory.cell? m.registers.location with
  | none =>
    obtain rfl := Except.error.inj ((plan_of_no_cell hfetch).symm.trans h)
    exact .of_address rfl rfl (Or.inr (by omega))
  | some word =>
    have hlt := (Memory.lt_size_of_cell? hfetch).2
    cases hword : Opcode.ofNumber? word.toInt with
    | none =>
      obtain rfl := Except.error.inj ((plan_of_unknown hfetch hword).symm.trans h)
      refine ⟨fun a ha => ?_, fun n hn => ?_⟩
      · cases ha
        exact Or.inr (by omega)
      · cases hn
        exact ⟨word, rfl⟩
    | some op =>
      by_cases hop : op = .hlt
      · subst hop
        cases (plan_of_hlt hfetch hword).symm.trans h
      · cases hnext : m.memory.cell? (m.registers.location + 1) with
        | none =>
          have hplan := plan_of_no_operand hfetch hword hop hnext
          obtain rfl := Except.error.inj (hplan.symm.trans h)
          exact .of_address rfl rfl (Or.inr (by omega))
        | some operand =>
          rw [plan_of_operand hfetch hword hop hnext] at h
          obtain ⟨haddress, hopcode⟩ := numbers_of_effectOf (map_eq_error_iff.1 h)
          exact .of_address haddress hopcode (Or.inl ⟨operand, rfl⟩)

end Machine

end WordMachine
