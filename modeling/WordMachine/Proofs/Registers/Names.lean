import WordMachine.Operation
import WordMachine.Proofs.Machine.Accesses
import WordMachine.Proofs.Numeral.Reading
import WordMachine.Proofs.Text.UpperCase

set_option autoImplicit false

/-! # The names of registers

A name denotes a register by what it is in upper case and without blanks around it (`Denotes`):
`A`, `X`, or `I` with the decimal digits of a number, in any script. Several names may denote one
register, and reading and writing go by the register, not by the name (`namedRegisters`): what is
written by one name is read by all names of that register, and by no name of another. -/

namespace WordMachine

namespace RegisterName

/-- The name in upper case, without blanks around it. -/
def key (name : String) : List Char := Text.upper (Text.trim name.toList)

/-- What a name denotes. The number of an index register counts from one. -/
inductive Denotes (name : String) : RegisterName → Prop where
  | accumulator (h : key name = ['A']) : Denotes name .accumulator
  | extension (h : key name = ['X']) : Denotes name .extension
  | index {digits : List Char} {values : List Nat} (h : key name = 'I' :: digits)
    (hdigits : List.Forall₂ WordFile.IsDecimalDigit digits values) (hne : values ≠ [])
    (hshort : values.length ≤ Decimal.digitLimit) :
    Denotes name (.index ((Nat.ofDigits 10 values.reverse : Nat) - 1))

/-- A key that is an `I` with digits of any kind behind it. -/
def IsIndexKey (key digits : List Char) : Prop :=
  key = 'I' :: digits ∧ digits ≠ [] ∧ ∀ d ∈ digits, Text.isDigit d = true

variable {name : String} {register : RegisterName}

theorem isIndexLetter_iff {c : Char} : isIndexLetter c = true ↔ Text.upperCase c = ['I'] := by
  rw [Text.upperCase_eq_letter_iff (by decide), isIndexLetter]
  simp [or_assoc]

/-- What becomes of a name, by its key. -/
theorem parse_cases (name : String) :
    (key name = ['A'] ∧ parse name = .ok .accumulator) ∨
    (key name = ['X'] ∧ parse name = .ok .extension) ∨
    (∃ digits, IsIndexKey (key name) digits ∧
      parse name = ((Numeral.read .ten digits).map fun n => .index (n - 1)).mapError .numeral) ∨
    (key name ≠ ['A'] ∧ key name ≠ ['X'] ∧ (∀ digits, ¬IsIndexKey (key name) digits) ∧
      parse name = .error (.noSuchRegister name)) := by
  unfold key parse
  cases Text.trim name.toList with
  | nil =>
    have hempty : ∀ digits, ¬IsIndexKey (Text.upper []) digits := by
      rintro digits ⟨h, -⟩
      cases h
    exact Or.inr (Or.inr (Or.inr ⟨nofun, nofun, hempty, rfl⟩))
  | cons c rest =>
    have hA : Text.upper (c :: rest) = ['A'] ↔ rest = [] ∧ (c = 'A' ∨ c = 'a') := by
      rw [Text.upper_eq_singleton_iff, Text.upperCase_eq_letter_iff (by decide)]
      simp
    have hX : Text.upper (c :: rest) = ['X'] ↔ rest = [] ∧ (c = 'X' ∨ c = 'x') := by
      rw [Text.upper_eq_singleton_iff, Text.upperCase_eq_letter_iff (by decide)]
      simp
    have hI : ∀ digits, IsIndexKey (Text.upper (c :: rest)) digits ↔
        rest = digits ∧ isIndexLetter c = true ∧ rest ≠ [] ∧ rest.all Text.isDigit = true := by
      intro digits
      rw [isIndexLetter_iff, List.all_eq_true]
      constructor
      · rintro ⟨h, hne, hdigits⟩
        obtain ⟨hfirst, rfl⟩ := (Text.upper_eq_index_iff hdigits).1 h
        exact ⟨rfl, hfirst, hne, hdigits⟩
      · rintro ⟨rfl, hfirst, hne, hdigits⟩
        exact ⟨(Text.upper_eq_index_iff hdigits).2 ⟨hfirst, rfl⟩, hne, hdigits⟩
    simp only [ne_eq, hA, hX, hI]
    split
    · next h => exact Or.inl ⟨h, rfl⟩
    split
    · next h => exact Or.inr (Or.inl ⟨h, rfl⟩)
    split
    · next h =>
      refine Or.inr (Or.inr (Or.inl ⟨rest, ⟨rfl, h⟩, ?_⟩))
      cases Numeral.read .ten rest <;> rfl
    · next hA hX hI => exact Or.inr (Or.inr (Or.inr ⟨hA, hX, fun _ h => hI h.2, rfl⟩))

theorem parse_of_denotes (h : Denotes name register) : parse name = .ok register := by
  have hcases := parse_cases name
  cases h with
  | accumulator h => simpa [h, IsIndexKey] using hcases
  | extension h => simpa [h, IsIndexKey] using hcases
  | @index digits values h hdigits hne hshort =>
    have hsome : digits ≠ [] := by
      rintro rfl
      exact hne (List.forall₂_nil_left_iff.1 hdigits)
    rcases hcases with ⟨hkey, -⟩ | ⟨hkey, -⟩ | ⟨others, ⟨hkey, -⟩, hparse⟩ | ⟨-, -, hno, -⟩
    · cases h.symm.trans hkey
    · cases h.symm.trans hkey
    · cases h.symm.trans hkey
      rw [hparse, Numeral.read_ten_of_forall₂ hdigits hne hshort]
      rfl
    · exact absurd ⟨h, hsome, Numeral.isDigit_of_forall₂ hdigits⟩ (hno digits)

theorem denotes_of_parse (h : parse name = .ok register) : Denotes name register := by
  rcases parse_cases name with ⟨hkey, hparse⟩ | ⟨hkey, hparse⟩ |
    ⟨digits, ⟨hkey, -, hdigits⟩, hparse⟩ | ⟨-, -, -, hparse⟩
  · cases hparse.symm.trans h
    exact .accumulator hkey
  · cases hparse.symm.trans h
    exact .extension hkey
  · obtain ⟨n, hn, rfl⟩ := map_eq_ok_iff.1 (mapError_eq_ok_iff.1 (hparse.symm.trans h))
    obtain ⟨values, hvalues, hne, hshort, rfl⟩ := (Numeral.read_ten_eq_ok_iff hdigits).1 hn
    exact .index hkey hvalues hne hshort
  · cases hparse.symm.trans h

/-- A name is resolved to what it denotes. -/
theorem parse_eq_ok_iff : parse name = .ok register ↔ Denotes name register :=
  ⟨denotes_of_parse, parse_of_denotes⟩

theorem Denotes.unique {other : RegisterName} (h : Denotes name register)
    (hother : Denotes name other) : register = other :=
  Except.ok.inj ((parse_eq_ok_iff.2 h).symm.trans (parse_eq_ok_iff.2 hother))

/-- A name is refused because there is no register of that name, or for the number in it. -/
theorem parse_eq_error {e : Error} (h : parse name = .error e) :
    e = .noSuchRegister name ∨ ∃ reason, e = .numeral reason := by
  rcases parse_cases name with ⟨-, hparse⟩ | ⟨-, hparse⟩ | ⟨digits, -, hparse⟩ | ⟨-, -, -, hparse⟩
  · cases hparse.symm.trans h
  · cases hparse.symm.trans h
  · have hread := hparse.symm.trans h
    cases hnumber : Numeral.read .ten digits with
    | ok n => rw [hnumber] at hread; cases hread
    | error reason => rw [hnumber] at hread; cases hread; exact Or.inr ⟨reason, rfl⟩
  · cases hparse.symm.trans h
    exact Or.inl rfl

end RegisterName

/-! ## Reading and writing by what a name denotes -/

namespace Registers

variable {r new : Registers} {register other : RegisterName} {word : Word}

theorem readIndex_of_lt (r : Registers) (i : Fin indexCount) :
    r.readIndex i = .ok (r.index.get i) := by
  rw [readIndex, Machine.checkSelector_eq_ok_iff.2 rfl]
  rfl

theorem checkSelector_of_not {selector : Int} (h : ¬(0 ≤ selector ∧ selector < indexCount)) :
    checkSelector selector = .error (.badSelector selector) := dif_neg h

theorem readIndex_writeIndex {selector other : Int} (h : r.writeIndex selector word = .ok new) :
    new.readIndex other = if other = selector then .ok word else r.readIndex other := by
  obtain ⟨i, hi, rfl⟩ := map_eq_ok_iff.1 h
  obtain rfl := Machine.checkSelector_eq_ok_iff.1 hi
  cases hother : checkSelector other with
  | error f =>
    have hne : other ≠ i.val := by
      rintro rfl
      rw [Machine.checkSelector_eq_ok_iff.2 rfl] at hother
      cases hother
    rw [if_neg hne, readIndex, readIndex, hother]
    rfl
  | ok j =>
    obtain rfl := Machine.checkSelector_eq_ok_iff.1 hother
    have hget : (r.index.set i word).get j = if i.val = j.val then word else r.index.get j :=
      Vector.getElem_set i.isLt j.isLt
    rw [readIndex_of_lt, readIndex_of_lt, hget]
    simp only [Int.natCast_inj, eq_comm (a := i.val)]
    split <;> rfl

/-- What is read after a register was written. -/
theorem readNamed_writeNamed (h : r.writeNamed register word = .ok new) :
    new.readNamed other = if other = register then .ok word else r.readNamed other := by
  cases register with
  | accumulator => cases h; cases other <;> rfl
  | extension => cases h; cases other <;> rfl
  | index selector =>
    cases other with
    | accumulator | extension =>
      obtain ⟨i, -, rfl⟩ := map_eq_ok_iff.1 h
      rfl
    | index other =>
      simp only [RegisterName.index.injEq]
      exact readIndex_writeIndex h

/-- Writing is refused when reading is, and for the same reason. -/
theorem writeNamed_eq_error_iff {f : Fault} :
    r.writeNamed register word = .error f ↔ r.readNamed register = .error f := by
  cases register with
  | accumulator | extension => exact ⟨nofun, nofun⟩
  | index selector => exact map_eq_error_iff.trans map_eq_error_iff.symm

theorem writeNamed_kept (h : r.writeNamed register word = .ok new) :
    new.location = r.location ∧ new.comparison = r.comparison := by
  cases register with
  | accumulator | extension => cases h; exact ⟨rfl, rfl⟩
  | index selector =>
    obtain ⟨i, -, rfl⟩ := map_eq_ok_iff.1 h
    exact ⟨rfl, rfl⟩

end Registers

/-! ## Reading and writing by name -/

namespace Emulator

open Operation (perform)
open RegisterName (Denotes)

/-- What the emulator is like after a value was written to the register by a name. -/
structure WrittenBy (e : Emulator) (name : String) (value : Int) (new : Emulator) : Prop where
  /-- Every name of the register reads the value, wrapped. -/
  same : ∀ other register, Denotes name register → Denotes other register →
    perform new (.readRegister other) = some (.ok (.integer (Word.wrap value).toInt), new)
  /-- Every other name is answered as before. -/
  others : ∀ other, (∀ register, Denotes name register → ¬Denotes other register) →
    (perform new (.readRegister other)).map Prod.fst =
      (perform e (.readRegister other)).map Prod.fst
  location : new.location = e.location
  comparison : new.machine.registers.comparison = e.machine.registers.comparison
  memory : new.machine.memory = e.machine.memory
  control : new.control = e.control

/-- Reading and writing by name go by what the name denotes. -/
structure NamedRegisters (e : Emulator) : Prop where
  /-- Reading and writing are both refused, with the same error and without a change, or neither
      is. -/
  together : ∀ name value,
    (∃ error, perform e (.readRegister name) = some (.error error, e) ∧
      perform e (.writeRegister name value) = some (.error error, e)) ∨
    ∃ word new, perform e (.readRegister name) = some (.ok (.integer word), e) ∧
      perform e (.writeRegister name value) = some (.ok .done, new)
  written : ∀ name value new, perform e (.writeRegister name value) = some (.ok .done, new) →
    e.WrittenBy name value new
  accumulator : ∀ name, Denotes name .accumulator →
    perform e (.readRegister name) =
      some (.ok (.integer e.machine.registers.accumulator.toInt), e)
  extension : ∀ name, Denotes name .extension →
    perform e (.readRegister name) = some (.ok (.integer e.machine.registers.extension.toInt), e)
  /-- A selector is served as by the operations that take it as a number. -/
  selector : ∀ name selector, Denotes name (.index selector) →
    perform e (.readRegister name) = perform e (.readIndex selector) ∧
      ∀ value, perform e (.writeRegister name value) = perform e (.writeIndex selector value)
  index : ∀ name (i : Fin indexCount), Denotes name (.index i) →
    perform e (.readRegister name) =
      some (.ok (.integer (e.machine.registers.index.get i).toInt), e)
  /-- A selector of no register is reported as it is, also when it is below zero. -/
  noSelector : ∀ name selector, Denotes name (.index selector) →
    ¬(0 ≤ selector ∧ selector < indexCount) →
    perform e (.readRegister name) = some (.error (.fault (.badSelector selector)), e)
  /-- A name that denotes nothing is refused as such, or for the number in it. -/
  unknown : ∀ name, (∀ register, ¬Denotes name register) →
    ∃ error, perform e (.readRegister name) = some (.error error, e) ∧
      (error = .noSuchRegister name ∨ ∃ reason, error = .numeral reason)

variable {e new : Emulator} {name other : String} {value : Int} {register : RegisterName}

theorem perform_readRegister (e : Emulator) (h : Denotes name register) :
    perform e (.readRegister name) =
      some (Operation.reported
        ((e.machine.registers.readNamed register).map (.integer ·.toInt)), e) := by
  simp only [perform, Operation.observe, Machine.readRegister, RegisterName.parse_eq_ok_iff.2 h]
  cases e.machine.registers.readNamed register <;> rfl

theorem perform_writeRegister (e : Emulator) (value : Int) (h : Denotes name register) :
    perform e (.writeRegister name value) =
      Operation.change e (Operation.reported
        ((e.machine.registers.writeNamed register (Word.wrap value)).map fun registers =>
          { e.machine with registers })) := by
  simp only [perform, Machine.writeRegister, RegisterName.parse_eq_ok_iff.2 h]
  rfl

/-- A name that denotes nothing is refused in the same way by every emulator. -/
theorem perform_of_not_denotes (h : ∀ register, ¬Denotes name register) :
    ∃ error, (error = .noSuchRegister name ∨ ∃ reason, error = .numeral reason) ∧
      ∀ e, perform e (.readRegister name) = some (.error error, e) ∧
        ∀ value, perform e (.writeRegister name value) = some (.error error, e) := by
  cases hparse : RegisterName.parse name with
  | ok register => exact absurd (RegisterName.parse_eq_ok_iff.1 hparse) (h register)
  | error error =>
    refine ⟨error, RegisterName.parse_eq_error hparse, fun e => ⟨?_, fun value => ?_⟩⟩
    · simp only [perform, Operation.observe, Machine.readRegister, hparse]
      rfl
    · simp only [perform, Machine.writeRegister, hparse]
      rfl

theorem perform_registers_together (e : Emulator) (name : String) (value : Int) :
    (∃ error, perform e (.readRegister name) = some (.error error, e) ∧
      perform e (.writeRegister name value) = some (.error error, e)) ∨
    ∃ word new, perform e (.readRegister name) = some (.ok (.integer word), e) ∧
      perform e (.writeRegister name value) = some (.ok .done, new) := by
  by_cases h : ∃ register, Denotes name register
  · obtain ⟨register, h⟩ := h
    rw [perform_readRegister e h, perform_writeRegister e value h]
    cases hwrite : e.machine.registers.writeNamed register (Word.wrap value) with
    | error f =>
      rw [Registers.writeNamed_eq_error_iff.1 hwrite]
      exact Or.inl ⟨.ofFault f, rfl, rfl⟩
    | ok registers =>
      cases hread : e.machine.registers.readNamed register with
      | error f =>
        rw [Registers.writeNamed_eq_error_iff.2 hread] at hwrite
        cases hwrite
      | ok word => exact Or.inr ⟨word.toInt, _, rfl, rfl⟩
  · obtain ⟨error, -, hall⟩ := perform_of_not_denotes fun register hr => h ⟨register, hr⟩
    exact Or.inl ⟨error, (hall e).1, (hall e).2 value⟩

/-- A write that succeeds is one to the register that the name denotes. -/
theorem exists_of_perform_writeRegister
    (h : perform e (.writeRegister name value) = some (.ok .done, new)) :
    ∃ register registers, Denotes name register ∧
      e.machine.registers.writeNamed register (Word.wrap value) = .ok registers ∧
      new = { e with machine := { e.machine with registers } } := by
  by_cases hname : ∃ register, Denotes name register
  · obtain ⟨register, hname⟩ := hname
    rw [perform_writeRegister e value hname] at h
    cases hwrite : e.machine.registers.writeNamed register (Word.wrap value) with
    | error f => rw [hwrite] at h; cases h
    | ok registers =>
      rw [hwrite] at h
      cases h
      exact ⟨register, registers, hname, hwrite, rfl⟩
  · obtain ⟨error, -, hall⟩ := perform_of_not_denotes fun register hr => hname ⟨register, hr⟩
    cases h.symm.trans ((hall e).2 value)

theorem writtenBy (h : perform e (.writeRegister name value) = some (.ok .done, new)) :
    e.WrittenBy name value new := by
  obtain ⟨written, registers, hname, hwrite, rfl⟩ := exists_of_perform_writeRegister h
  obtain ⟨hlocation, hcomparison⟩ := Registers.writeNamed_kept hwrite
  refine ⟨fun other register hn ho => ?_, fun other hother => ?_, hlocation, hcomparison, rfl, rfl⟩
  · obtain rfl := hname.unique hn
    rw [perform_readRegister _ ho, Registers.readNamed_writeNamed hwrite, if_pos rfl]
    rfl
  · by_cases ho : ∃ register, Denotes other register
    · obtain ⟨register, ho⟩ := ho
      have hne : register ≠ written := by
        rintro rfl
        exact hother register hname ho
      rw [perform_readRegister _ ho, perform_readRegister _ ho,
        Registers.readNamed_writeNamed hwrite, if_neg hne]
      rfl
    · obtain ⟨error, -, hall⟩ := perform_of_not_denotes fun register hr => ho ⟨register, hr⟩
      rw [(hall _).1, (hall _).1]
      rfl

/-- A selector that a name denotes can be written in an error. -/
theorem ofFault_of_denotes {selector : Int} (h : Denotes name (.index selector)) :
    Error.ofFault (.badSelector selector) = .fault (.badSelector selector) := by
  have hwritable : Decimal.isWritable selector = true := by
    cases h with
    | @index digits values h hdigits hne hshort =>
      have hnumber := Numeral.isWritable_of_read (Numeral.read_ten_of_forall₂ hdigits hne hshort)
      -- The selector of number zero is below zero, and the others are smaller than the number.
      cases hvalue : Nat.ofDigits 10 values.reverse with
      | zero => decide
      | succ n =>
        rw [hvalue] at hnumber
        exact Decimal.isWritable_of_natAbs_le hnumber (by omega)
  exact if_pos (Bool.and_eq_true_iff.2 ⟨hwritable, rfl⟩)

/-- Every emulator reads and writes its registers by what their names denote: a name is refused for
    reading and for writing alike, all names of a register read what was written by one of them, no
    other name is affected, and names that denote nothing, or a selector of no register, are told
    apart by the error. -/
theorem namedRegisters (e : Emulator) : e.NamedRegisters where
  together := e.perform_registers_together
  written name value new h := writtenBy h
  accumulator name h := perform_readRegister e h
  extension name h := perform_readRegister e h
  selector name selector h :=
    ⟨perform_readRegister e h, fun value => perform_writeRegister e value h⟩
  index name i h := by
    rw [perform_readRegister e h, Registers.readNamed, Registers.readIndex_of_lt]
    rfl
  noSelector name selector h hno := by
    rw [perform_readRegister e h, Registers.readNamed, Registers.readIndex,
      Registers.checkSelector_of_not hno, ← ofFault_of_denotes h]
    rfl
  unknown name h := by
    obtain ⟨error, herror, hall⟩ := perform_of_not_denotes h
    exact ⟨error, (hall e).1, herror⟩

/-- The third index register by two of its names, beside a name that counts from below one. -/
theorem namedRegisters_in_other_digits :
    let e : Emulator := { machine := { memory := Memory.zeros 1 } }
    ∃ new, perform e (.writeRegister " ı٠٣ " 4294967303) = some (.ok .done, new) ∧
      perform new (.readRegister "I3") = some (.ok (.integer 7), new) ∧
      perform new (.readIndex 2) = some (.ok (.integer 7), new) ∧
      (perform new (.readRegister "x")).map Prod.fst =
        (perform e (.readRegister "x")).map Prod.fst ∧
      perform new (.readRegister "i0") = some (.error (.fault (.badSelector (-1))), new) := by
  intro e
  have hthird : Denotes " ı٠٣ " (.index 2) := RegisterName.parse_eq_ok_iff.1 (by decide +kernel)
  have hplain : Denotes "I3" (.index 2) := RegisterName.parse_eq_ok_iff.1 (by decide +kernel)
  have hextension : Denotes "x" .extension := RegisterName.parse_eq_ok_iff.1 (by decide +kernel)
  have hzero : Denotes "i0" (.index (-1)) := RegisterName.parse_eq_ok_iff.1 (by decide +kernel)
  rcases (namedRegisters e).together " ı٠٣ " 4294967303 with ⟨error, hread, -⟩ | ⟨_, new, -, hwrite⟩
  · rw [(namedRegisters e).index _ ⟨2, by decide⟩ hthird] at hread
    cases hread
  have hnew := (namedRegisters e).written _ _ _ hwrite
  have hsame := hnew.same _ _ hthird hplain
  refine ⟨new, hwrite, hsame, ?_, ?_, ?_⟩
  · rw [← ((namedRegisters new).selector _ _ hplain).1]
    exact hsame
  · refine hnew.others _ fun register hn ho => ?_
    cases hn.unique hthird
    cases ho.unique hextension
  · exact (namedRegisters new).noSelector _ _ hzero (by decide)

end Emulator

end WordMachine
