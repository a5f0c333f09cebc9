import WordMachine.Proofs.Numeral
import WordMachine.Proofs.Session.Invariant

set_option autoImplicit false

/-! # What is shown of an emulator can be written

No number with too many digits can be written in decimal. The registers and the operands are words,
and a location counter is never far past the memory, so the numbers that are shown of an emulator
can be written if the size of its memory can. `Emulator.Presentable` says this of the trace too, and
is kept by every step and every run. -/

namespace WordMachine

/-- The integers that are shown of the registers. -/
def Readings.numbers (r : Readings) : List Int :=
  r.accumulator :: r.extension :: r.comparison :: r.location :: r.index.toList

/-- The integers that are shown of an executed instruction. -/
def TraceEntry.numbers (entry : TraceEntry) : List Int :=
  entry.location :: (entry.instruction.address.toList ++ entry.after.numbers)

/-- What every step keeps of an emulator whose machine has so many cells: it is sound, and the
    numbers in its trace can be written. -/
structure Emulator.Presentable (size : Nat) (e : Emulator) : Prop where
  sound : e.Sound size
  trace : ∀ entry ∈ e.control.trace, ∀ v ∈ entry.numbers, Decimal.isWritable v = true

namespace Machine

variable {m : Machine} {size : Nat}

/-- The operand of an instruction is a word. -/
theorem exists_word_of_plan {i : Instruction} {effect : Effect} (h : m.plan = .ok (i, effect))
    {address : Int} (haddress : address ∈ i.address) : ∃ word : Word, word.toInt = address := by
  have hfetch := fetch_of_plan h
  unfold fetch at hfetch
  dsimp only at hfetch
  split at hfetch
  · cases hfetch
  split at hfetch
  · cases hfetch
  split at hfetch
  · obtain ⟨word, -, rfl⟩ := map_eq_ok_iff.1 hfetch
    exact ⟨word, Option.some.inj haddress⟩
  · cases hfetch
    cases haddress

variable (hm : m.Within size) (hsize : Decimal.isWritable size = true)
include hm hsize

theorem Within.isWritable_location : Decimal.isWritable m.registers.location = true :=
  Decimal.isWritable_of_natAbs_le hsize (by have := hm.location_le; omega)

theorem Within.isWritable_readings {v : Int} (hv : v ∈ m.registers.readings.numbers) :
    Decimal.isWritable v = true := by
  simp only [Readings.numbers, Registers.readings, List.mem_cons, Vector.toList_map,
    List.mem_map] at hv
  rcases hv with rfl | rfl | rfl | rfl | ⟨word, -, rfl⟩
  · exact Decimal.isWritable_toInt _
  · exact Decimal.isWritable_toInt _
  · exact Decimal.isWritable_toInt _
  · exact hm.isWritable_location hsize
  · exact Decimal.isWritable_toInt word

end Machine

namespace Emulator.Presentable

variable {size : Nat} {e s : Emulator} (he : e.Presentable size)
  (hsize : Decimal.isWritable size = true)
include he hsize

theorem executed {i : Instruction} {effect : Effect} (hplan : e.machine.plan = .ok (i, effect)) :
    ∀ entry ∈ (e.executed i effect).control.trace, ∀ v ∈ entry.numbers,
      Decimal.isWritable v = true := by
  intro entry hentry v hv
  have hnew : entry ∈ e.control.trace ∨
      entry = ⟨e.location, i, (e.machine.complete i effect).registers.readings⟩ := by
    simp only [Emulator.executed, Control.record] at hentry
    split at hentry
    · exact Array.mem_push.1 hentry
    · exact Or.inl hentry
  rcases hnew with hold | rfl
  · exact he.trace entry hold v hv
  rcases List.mem_cons.1 hv with rfl | hv
  · exact he.sound.within.isWritable_location hsize
  rcases List.mem_append.1 hv with haddress | hafter
  · obtain ⟨word, rfl⟩ := Machine.exists_word_of_plan hplan (Option.mem_toList.1 haddress)
    exact Decimal.isWritable_toInt word
  · exact (he.sound.within.complete hplan).isWritable_readings hsize hafter

theorem step : e.step.2.Presentable size where
  sound := he.sound.step
  trace := step_induction (P := fun s => ∀ entry ∈ s.control.trace, ∀ v ∈ entry.numbers,
    Decimal.isWritable v = true) he.trace he.trace fun _ _ hplan =>
      ⟨he.executed hsize hplan, he.executed hsize hplan⟩

theorem run {budget : Option Int} {outcome : RunOutcome} (h : e.run budget = some (outcome, s)) :
    s.Presentable size :=
  run_induction (fun _ hs => hs.step hsize)
    (fun _ hb hs => ⟨hs.sound.markBreakpoint hb, hs.trace⟩) he h

end Emulator.Presentable

end WordMachine
