import WordMachine.Proofs.Emulator.Step
import WordMachine.Proofs.Machine.Accesses
import WordMachine.Proofs.Run.Rounds
import WordMachine.Session

set_option autoImplicit false

/-! # The invariant of a session

In every session that is played from the empty one, each machine has the cells that it was created
with and its location counter is at one of them or just past the last, and no halted emulator has
a place to go on from. `Emulator.Sound` says this of one emulator; every operation keeps it
(`perform_sound`), with a lemma for a step and, through `run_induction`, for a run. Commands act on
one emulator of a session each (`apply_sound`), and `play_sound` follows by induction over them.

That registers and cells are words is in their types. -/

namespace WordMachine

/-- A halted emulator has no place to go on from. -/
def Control.Settled (c : Control) : Prop := c.halted = true → c.resumeFrom = none

namespace Emulator

/-- What every operation keeps of an emulator whose machine has so many cells. -/
structure Sound (size : Nat) (e : Emulator) : Prop where
  within : e.machine.Within size
  settled : e.control.Settled

variable {size : Nat} {e : Emulator}

theorem Sound.step (he : e.Sound size) : e.step.2.Sound size := by
  refine step_induction he ⟨he.within, fun _ => rfl⟩ fun i effect hplan => ?_
  have hwithin := he.within.complete hplan
  exact ⟨⟨hwithin, fun _ => rfl⟩, ⟨hwithin, fun _ => rfl⟩⟩

theorem Sound.markBreakpoint (he : e.Sound size) (h : e.atBreakpoint = true) :
    e.markBreakpoint.Sound size := by
  have hrunning := halted_of_atBreakpoint h
  exact ⟨he.within, fun hhalted => absurd (hrunning.symm.trans hhalted) Bool.noConfusion⟩

theorem Sound.run (he : e.Sound size) {s : Emulator} {budget : Option Int} {outcome : RunOutcome}
    (h : e.run budget = some (outcome, s)) : s.Sound size :=
  run_induction (fun _ hs => hs.step) (fun _ hb hs => hs.markBreakpoint hb) he h

theorem Sound.load (he : e.Sound size) {s : Emulator} {program : Program}
    (h : e.load program = .ok s) : s.Sound size := by
  unfold Emulator.load at h
  split at h
  · cases h
  · split at h
    · next machine hload =>
      cases h
      exact ⟨he.within.load hload, he.settled⟩
    · cases h

theorem Sound.reset (he : e.Sound size) : e.reset.Sound size :=
  ⟨he.within.reset, fun _ => rfl⟩

end Emulator

/-! ## Operations -/

namespace Operation

variable {size : Nat} {e s : Emulator} {answer : Except Error Answer}

theorem change_sound (he : e.Sound size) {result : Except Error Machine}
    (hresult : ∀ m, result = .ok m → m.Within size)
    (h : change e result = some (answer, s)) : s.Sound size := by
  cases result with
  | ok m => cases h; exact ⟨hresult m rfl, he.settled⟩
  | error error => cases h; exact he

theorem adjust_sound (he : e.Sound size) {control : Control}
    (h : adjust e control = some (answer, s)) (hcontrol : control.Settled) : s.Sound size := by
  cases h
  exact ⟨he.within, hcontrol⟩

theorem observe_sound (he : e.Sound size) {seen : Except Error Answer}
    (h : observe e seen = some (answer, s)) : s.Sound size := by
  cases h
  exact he

/-- Every operation keeps an emulator sound, whatever it answers. -/
theorem perform_sound (he : e.Sound size) {operation : Operation}
    (h : operation.perform e = some (answer, s)) : s.Sound size := by
  have hw := he.within
  cases operation with
  | write address value =>
    exact change_sound he (fun m hm => hw.write (mapError_eq_ok_iff.1 hm)) h
  | writeRegister name value => exact change_sound he (fun m hm => hw.writeRegister hm) h
  | writeIndex selector value =>
    exact change_sound he (fun m hm => hw.writeIndex (mapError_eq_ok_iff.1 hm)) h
  | setLocation address =>
    exact change_sound he (fun m hm => hw.setLocation (mapError_eq_ok_iff.1 hm)) h
  | setComparison value =>
    exact change_sound he (fun m hm => Except.ok.inj hm ▸ hw.setComparison value) h
  | resetMachine => exact change_sound he (fun m hm => Except.ok.inj hm ▸ hw.reset) h
  | clearRegisters => exact change_sound he (fun m hm => Except.ok.inj hm ▸ hw.clearRegisters) h
  | clearMemory => exact change_sound he (fun m hm => Except.ok.inj hm ▸ hw.clearMemory) h
  | load program =>
    simp only [perform] at h
    split at h
    · next loaded hload => cases h; exact he.load hload
    · cases h; exact he
  | step =>
    have hs := he.step
    simp only [perform] at h
    split at h <;> (next heq => cases h; rw [heq] at hs; exact hs)
  | run budget =>
    obtain ⟨⟨outcome, after⟩, hrun, hafter⟩ := Option.map_eq_some_iff.1 h
    cases hafter
    exact he.run hrun
  | execute opcode address =>
    simp only [perform] at h
    split at h
    · cases h; exact he
    · split at h
      · next redirected machine hexecute => cases h; exact ⟨hw.execute hexecute, he.settled⟩
      · cases h; exact he
  | reset => cases h; exact he.reset
  -- The operations below leave the machine alone, and the last of them the control too.
  | addBreakpoint address | removeBreakpoint address | clearBreakpoints | setTracing on
    | clearTrace => exact adjust_sound he h he.settled
  | read address | readRegister name | readIndex selector | showTrace | snapshot first last
    | dump start length | display | summary | inspect => exact observe_sound he h

end Operation

/-! ## Sessions -/

/-- The number of cells of the machine that the command creates, if it creates one. -/
def Command.memorySize? : Command → Option Nat
  | .create memorySize => if 0 < memorySize then some memorySize.toNat else none
  | _ => none

/-- The numbers of cells of the machines that the commands create, in their order. -/
def createdSizes (commands : List Command) : List Nat := commands.filterMap Command.memorySize?

namespace Session

/-- What every command keeps of a session whose machines have so many cells each. -/
structure Sound (sizes : List Nat) (s : Session) : Prop where
  count_eq : s.machines.size = sizes.length
  within : ∀ (k : Nat) (machine : Machine), s.machines[k]? = some machine →
    ∃ size, sizes[k]? = some size ∧ 0 < size ∧ machine.Within size
  seats_lt : ∀ (k : Nat) (seat : Seat), s.seats[k]? = some seat → seat.machine < s.machines.size
  settled : ∀ (k : Nat) (seat : Seat), s.seats[k]? = some seat → seat.control.Settled

theorem sound_empty : ({} : Session).Sound [] where
  count_eq := rfl
  within k machine h := by simp at h
  seats_lt k seat h := by simp at h
  settled k seat h := by simp at h

variable {s : Session} {sizes : List Nat}

theorem Sound.addSeat (hs : s.Sound sizes) {machine : Nat} (h : machine < s.machines.size) :
    (s.addSeat machine).Sound sizes where
  count_eq := hs.count_eq
  within := hs.within
  seats_lt k seat hk := by
    simp only [Session.addSeat, Array.getElem?_push] at hk
    split at hk
    · cases hk; exact h
    · exact hs.seats_lt k seat hk
  settled k seat hk := by
    simp only [Session.addSeat, Array.getElem?_push] at hk
    split at hk
    · cases hk; exact fun _ => rfl
    · exact hs.settled k seat hk

theorem Sound.pushMachine (hs : s.Sound sizes) {machine : Machine} {size : Nat} (hpos : 0 < size)
    (hm : machine.Within size) :
    { s with machines := s.machines.push machine }.Sound (sizes ++ [size]) where
  count_eq := by
    simp only [Array.size_push, List.length_append, List.length_singleton]
    rw [hs.count_eq]
  within k found hk := by
    simp only [Array.getElem?_push] at hk
    split at hk
    · next hlast =>
      cases hk
      refine ⟨size, ?_, hpos, hm⟩
      rw [hlast, hs.count_eq, List.getElem?_concat_length]
    · obtain ⟨old, hold, hrest⟩ := hs.within k found hk
      refine ⟨old, ?_, hrest⟩
      rw [List.getElem?_append_left (List.getElem?_eq_some_iff.1 hold).1, hold]
  seats_lt k seat hk := by
    have hlt := hs.seats_lt k seat hk
    simp only [Array.size_push]
    omega
  settled := hs.settled

/-- The emulator with a number is sound, with the number of cells of its machine. -/
theorem Sound.emulator? (hs : s.Sound sizes) {number : Nat} {e : Emulator}
    (h : s.emulator? number = some e) :
    ∃ seat size, s.seats[number]? = some seat ∧ sizes[seat.machine]? = some size ∧ 0 < size ∧
      e.Sound size := by
  unfold Session.emulator? at h
  split at h
  · cases h
  · next seat hseat =>
    obtain ⟨machine, hmachine, rfl⟩ := Option.map_eq_some_iff.1 h
    obtain ⟨size, hsize, hpos, hm⟩ := hs.within seat.machine machine hmachine
    exact ⟨seat, size, hseat, hsize, hpos, hm, hs.settled number seat hseat⟩

theorem Sound.update (hs : s.Sound sizes) {number size : Nat} {seat : Seat} {e : Emulator}
    (hseat : s.seats[number]? = some seat) (hsize : sizes[seat.machine]? = some size)
    (hpos : 0 < size) (he : e.Sound size) : (s.update number e).Sound sizes := by
  unfold Session.update
  rw [hseat]
  exact
    { count_eq := by rw [Array.size_setIfInBounds, hs.count_eq]
      within := by
        intro k machine hk
        rw [Array.getElem?_setIfInBounds] at hk
        split at hk
        · next heq =>
          subst heq
          split at hk
          · cases hk; exact ⟨size, hsize, hpos, he.within⟩
          · cases hk
        · exact hs.within k machine hk
      seats_lt := by
        intro k found hk
        rw [Array.size_setIfInBounds]
        rw [Array.getElem?_setIfInBounds] at hk
        split at hk
        · split at hk
          · cases hk; exact hs.seats_lt number seat hseat
          · cases hk
        · exact hs.seats_lt k found hk
      settled := by
        intro k found hk
        rw [Array.getElem?_setIfInBounds] at hk
        split at hk
        · split at hk
          · cases hk; exact he.settled
          · cases hk
        · exact hs.settled k found hk }

/-- A command keeps a session sound; a new machine comes last. -/
theorem apply_sound (hs : s.Sound sizes) {command : Command} {answer : Except Error Answer}
    {after : Session} (h : s.apply command = some (answer, after)) :
    after.Sound (sizes ++ command.memorySize?.toList) := by
  cases command with
  | create memorySize =>
    simp only [Session.apply] at h
    split at h
    · next error hsize =>
      cases h
      have hno : ¬ 0 < memorySize := by
        intro hpos
        rw [Machine.ofSize_eq_ok_iff.2 ⟨hpos, rfl⟩] at hsize
        cases hsize
      simpa only [Command.memorySize?, if_neg hno, Option.toList_none, List.append_nil] using hs
    · next machine hsize =>
      cases h
      obtain ⟨hpos, rfl⟩ := Machine.ofSize_eq_ok_iff.1 hsize
      simp only [Command.memorySize?, if_pos hpos, Option.toList_some]
      have hnew : ({ memory := Memory.zeros memorySize.toNat } : Machine).Within
          memorySize.toNat := ⟨Memory.size_zeros _, Nat.zero_le _⟩
      exact (hs.pushMachine (by omega) hnew).addSeat (by simp)
  | share number =>
    simp only [Command.memorySize?, Option.toList_none, List.append_nil]
    simp only [Session.apply] at h
    split at h
    · cases h; exact hs
    · next seat hseat => cases h; exact hs.addSeat (hs.seats_lt number seat hseat)
  | perform number operation =>
    simp only [Command.memorySize?, Option.toList_none, List.append_nil]
    simp only [Session.apply] at h
    split at h
    · cases h; exact hs
    · next e he =>
      obtain ⟨⟨outcome, e'⟩, hperform, hafter⟩ := Option.map_eq_some_iff.1 h
      cases hafter
      obtain ⟨seat, size, hseat, hsize, hpos, hsound⟩ := hs.emulator? he
      exact hs.update hseat hsize hpos (Operation.perform_sound hsound hperform)

/-- Commands one after the other keep a session sound. -/
theorem play_sound (hs : s.Sound sizes) {commands : List Command}
    {answers : List (Except Error Answer)} {after : Session}
    (h : s.play commands = some (answers, after)) :
    after.Sound (sizes ++ createdSizes commands) := by
  induction commands generalizing s sizes answers with
  | nil =>
    cases h
    simpa only [createdSizes, List.filterMap_nil, List.append_nil] using hs
  | cons command rest ih =>
    simp only [play] at h
    split at h
    · cases h
    · next answer next happly =>
      obtain ⟨⟨later, final⟩, hplay, hafter⟩ := Option.map_eq_some_iff.1 h
      cases hafter
      -- The sizes that the first command adds are the first of those that all of them add.
      have hall := ih (apply_sound hs happly) hplay
      rw [List.append_assoc] at hall
      cases hsize : command.memorySize? with
      | none => simpa [createdSizes, List.filterMap_cons, hsize] using hall
      | some size => simpa [createdSizes, List.filterMap_cons, hsize] using hall

/-- The machines of a sound session have the numbers of cells that they should have. -/
theorem Sound.sizes_eq (hs : s.Sound sizes) :
    s.machines.toList.map (·.memory.cells.size) = sizes := by
  apply List.ext_getElem?
  intro k
  rw [List.getElem?_map, Array.getElem?_toList]
  cases hk : s.machines[k]? with
  | none =>
    have hle := Array.getElem?_eq_none_iff.1 hk
    rw [List.getElem?_eq_none (hs.count_eq ▸ hle)]
    rfl
  | some machine =>
    obtain ⟨size, hsize, -, hm⟩ := hs.within k machine hk
    rw [hsize]
    exact congrArg some hm.size_eq

end Session

/-! ## The invariant in integers -/

/-- The integers in the registers that hold words, and in the cells. -/
def Machine.contents (m : Machine) : List Int :=
  let r := m.registers.readings
  r.accumulator :: r.extension :: r.comparison :: r.index.toList ++
    m.memory.cells.toList.map Int32.toInt

theorem Machine.exists_word_of_mem_contents {m : Machine} {v : Int} (h : v ∈ m.contents) :
    ∃ w : Word, w.toInt = v := by
  simp only [contents, Registers.readings, List.mem_cons, List.mem_append, List.mem_map,
    Vector.toList_map, List.cons_append] at h
  rcases h with rfl | rfl | rfl | ⟨w, -, rfl⟩ | ⟨w, -, rfl⟩
  · exact ⟨_, rfl⟩
  · exact ⟨_, rfl⟩
  · exact ⟨_, rfl⟩
  · exact ⟨w, rfl⟩
  · exact ⟨w, rfl⟩

theorem Word.toInt_mem_range (w : Word) : Word.least ≤ w.toInt ∧ w.toInt ≤ Word.greatest := by
  have hlow : -2147483648 ≤ w.toInt := Int32.le_toInt w
  have hhigh : w.toInt < 2147483648 := Int32.toInt_lt w
  exact ⟨hlow, Int.le_of_lt_add_one hhigh⟩

namespace Session

/-- Whatever commands a session is played with: each machine has as many cells as were asked for
    when it was created, and keeps them under any further commands; its registers and cells hold
    integers of a word; its location counter is at a cell or just past the last one; every access
    to its cells and index registers is to one that exists; and a halted emulator has no place to
    go on from. -/
theorem play_invariant (commands : List Command) (answers : List (Except Error Answer))
    (s : Session) (h : ({} : Session).play commands = some (answers, s)) :
    s.machines.toList.map (·.memory.cells.size) = createdSizes commands ∧
      (∀ more later after, s.play more = some (later, after) →
        s.machines.toList.map (·.memory.cells.size) <+:
          after.machines.toList.map (·.memory.cells.size)) ∧
      (∀ m ∈ s.machines, 0 < m.memory.cells.size ∧
        (∀ v ∈ m.contents, Word.least ≤ v ∧ v ≤ Word.greatest) ∧
        m.registers.index.size = 6 ∧ m.registers.location ≤ m.memory.cells.size ∧
        m.AccessesInside) ∧
      ∀ seat ∈ s.seats, seat.machine < s.machines.size ∧
        (seat.control.halted = true → seat.control.resumeFrom = none) := by
  have hs : s.Sound (createdSizes commands) := play_sound sound_empty h
  refine ⟨hs.sizes_eq, ?_, ?_, ?_⟩
  · intro more later after hmore
    rw [hs.sizes_eq, (play_sound hs hmore).sizes_eq]
    exact List.prefix_append ..
  · intro m hm
    obtain ⟨k, hk⟩ := Array.getElem?_of_mem hm
    obtain ⟨size, -, hpos, hsize, hlocation⟩ := hs.within k m hk
    have hcells : m.memory.cells.size = size := hsize
    refine ⟨hcells ▸ hpos, ?_, rfl, hcells ▸ hlocation, m.accessesInside⟩
    intro v hv
    obtain ⟨w, rfl⟩ := Machine.exists_word_of_mem_contents hv
    exact w.toInt_mem_range
  · intro seat hseat
    obtain ⟨k, hk⟩ := Array.getElem?_of_mem hseat
    exact ⟨hs.seats_lt k seat hk, hs.settled k seat hk⟩

/-- Two emulators drive one machine off the end of its two cells, where the next step is refused,
    and the counter stays just past the last cell. -/
theorem play_invariant_off_the_end :
    let commands : List Command := [.create 2, .share 0, .perform 0 (.load (.words [1, 0])),
      .perform 1 .step, .perform 0 .step, .perform 1 (.write (-1) 5)]
    ∃ answers s, ({} : Session).play commands = some (answers, s) ∧
      s.machines.toList.map (·.memory.cells.size) = [2] ∧
      ∀ m ∈ s.machines, m.registers.location ≤ m.memory.cells.size := by
  intro commands
  obtain ⟨⟨answers, s⟩, h⟩ :=
    Option.isSome_iff_exists.1 (by rfl : (({} : Session).play commands).isSome = true)
  obtain ⟨hsizes, -, hmachines, -⟩ := play_invariant commands answers s h
  exact ⟨answers, s, h, hsizes, fun m hm => (hmachines m hm).2.2.2.1⟩

end Session

end WordMachine
