import WordMachine.Proofs.Machine.Faults
import WordMachine.Proofs.Run.Stores
import WordMachine.Proofs.Session.Invariant
import WordMachine.Proofs.Session.Operations
import WordMachine.Proofs.Session.Seats

set_option autoImplicit false

/-! # The last value that was stored

Each machine of a session holds what its events say, whichever emulators they came through and
whatever was refused in between. `Operation.events` lists what an operation does to the memory of
its machine, judged by its answer alone, or by the instructions that it attempts; `Session.events`
lists it for the commands of a session, for one of its machines. An operation keeps a machine
recorded (`Operation.recorded_perform`), a command all machines of a session (`recorded_apply`),
and by induction over the commands so does a session (`recorded_play`). What any emulator reads is
then the last value that was stored (`play_last_write`).

An address outside the memory is refused by an error that words it, and to word an address with too
many digits is an error of its own (`Memory.refusal`, `not_read_outOfRange`). -/

namespace WordMachine

open Memory (Event remembered)

/-! ## Addresses of no cell -/

/-- The error for an address that no cell of a memory of this size has: out of range, unless the
    address has too many digits to be written. -/
def Memory.refusal (size : Nat) (address : Int) : Error :=
  if address.natAbs < 10 ^ Decimal.digitLimit then .fault (.badAddress address size)
  else .numeral .unwritable

theorem Memory.ofFault_eq_refusal (address : Int) (size : Nat) :
    Error.ofFault (.badAddress address size) = refusal size address := by
  simp only [ofFault_badAddress, refusal, Decimal.isWritable_iff]

theorem Operation.perform_read_of_outside {e : Emulator} {address : Int}
    (h : ¬(0 ≤ address ∧ address < e.machine.memory.size)) :
    (Operation.read address).perform e =
      some (.error (Memory.refusal e.machine.memory.size address), e) := by
  rw [perform, Memory.read_of_no_cell (Memory.cell?_eq_none_iff.2 h), ← Memory.ofFault_eq_refusal]
  rfl

/-! ## Operations -/

namespace Operation

/-- What an operation with this answer does to the memory of its machine. -/
def events (e : Emulator) (answer : Except Error Answer) : Operation → List Event
  | .write address value => if answer.isOk then [.stored address value] else []
  | .load program =>
    match answer, program.read with
    | .ok _, .ok words => Memory.loadEvents 0 words
    | _, _ => []
  | .execute opcode address =>
    match answer, Opcode.ofNumber? opcode with
    | .ok _, some op => e.machine.stores op address
    | _, _ => []
  | .step => e.stores
  | .run budget => e.runStores budget
  | .reset | .resetMachine | .clearMemory => [.cleared]
  | _ => []

variable {e s : Emulator} {answer : Except Error Answer} {operation : Operation}
  {before : List Event}

theorem recorded_load {program : Program} (he : e.machine.memory.Recorded before)
    (h : (Operation.load program).perform e = some (answer, s)) :
    s.machine.memory.Recorded (before ++ (Operation.load program).events e answer) := by
  cases hread : program.read with
  | error error =>
    rw [perform, Emulator.load_of_unread hread] at h
    cases h
    simpa [events] using he
  | ok words =>
    rw [perform, Emulator.load_of_read hread] at h
    by_cases hlong : e.machine.memory.size < words.length
    · rw [if_pos hlong] at h
      cases h
      simpa [events] using he
    · rw [if_neg hlong] at h
      cases h
      simp only [events, hread]
      exact he.putAll (by omega)

theorem recorded_execute {opcode address : Int} (he : e.machine.memory.Recorded before)
    (h : (Operation.execute opcode address).perform e = some (answer, s)) :
    s.machine.memory.Recorded (before ++ (Operation.execute opcode address).events e answer) := by
  cases hop : Opcode.ofNumber? opcode with
  | none =>
    simp only [perform, Opcode.ofNumber, hop] at h
    cases h
    simpa [events] using he
  | some op =>
    simp only [perform, Opcode.ofNumber, hop] at h
    split at h
    · next redirected machine hexecute =>
      cases h
      obtain ⟨effect, heffect, hmachine⟩ := map_eq_ok_iff.1 hexecute
      cases hmachine
      simp only [events, hop]
      exact Machine.recorded_apply he heffect
    · cases h
      simpa [events] using he

theorem recorded_write {address value : Int} (he : e.machine.memory.Recorded before)
    (h : (Operation.write address value).perform e = some (answer, s)) :
    s.machine.memory.Recorded (before ++ (Operation.write address value).events e answer) := by
  rw [perform] at h
  cases hwrite : e.machine.write address value with
  | ok machine =>
    rw [hwrite] at h
    cases h
    obtain ⟨cell, rfl, hlt, rfl⟩ := Machine.write_eq_ok_iff.1 hwrite
    exact he.put hlt value
  | error f =>
    rw [hwrite] at h
    cases h
    simpa [events, Except.isOk, Except.toBool] using he

/-- A change of registers leaves the memory recorded as it is. -/
theorem recorded_change {result : Except Error Machine} (he : e.machine.memory.Recorded before)
    (hresult : ∀ m, result = .ok m → m.memory = e.machine.memory)
    (h : change e result = some (answer, s)) : s.machine.memory.Recorded (before ++ []) := by
  rw [List.append_nil]
  cases result with
  | ok m =>
    cases h
    rw [hresult m rfl]
    exact he
  | error error =>
    cases h
    exact he

theorem memory_writeRegister {m new : Machine} {name : String} {value : Int}
    (h : m.writeRegister name value = .ok new) : new.memory = m.memory := by
  unfold Machine.writeRegister at h
  split at h
  · obtain ⟨registers, -, rfl⟩ := map_eq_ok_iff.1 (mapError_eq_ok_iff.1 h)
    rfl
  · cases h

/-- An operation leaves the machine recorded, with its own events at the end. -/
theorem recorded_perform (he : e.machine.memory.Recorded before)
    (h : operation.perform e = some (answer, s)) :
    s.machine.memory.Recorded (before ++ operation.events e answer) := by
  cases operation with
  | load program => exact recorded_load he h
  | execute opcode address => exact recorded_execute he h
  | step =>
    rw [perform_step] at h
    cases h
    exact Emulator.recorded_step he
  | run budget =>
    obtain ⟨⟨outcome, after⟩, hrun, hafter⟩ := Option.map_eq_some_iff.1 h
    cases hafter
    exact Emulator.recorded_run he hrun
  | write address value => exact recorded_write he h
  | reset | resetMachine | clearMemory =>
    cases h
    exact he.clear
  | writeRegister name value => exact recorded_change he (fun m => memory_writeRegister) h
  | writeIndex selector value | setLocation address =>
    refine recorded_change he (fun m hm => ?_) h
    obtain ⟨_, -, rfl⟩ := map_eq_ok_iff.1 (mapError_eq_ok_iff.1 hm)
    rfl
  | setComparison value | clearRegisters =>
    cases h
    simpa [events, Machine.setComparison, Machine.clearRegisters] using he
  -- The operations below do not touch the machine.
  | addBreakpoint address | removeBreakpoint address | clearBreakpoints | setTracing on
    | clearTrace | read address | readRegister name | readIndex selector | showTrace
    | snapshot first last | dump start length | display | summary | inspect =>
    cases h
    simpa [events] using he

end Operation

/-! ## Commands -/

/-- What a command with this answer does to the memory of the machine with the number `k`. -/
def Command.events (k : Nat) (s : Session) (answer : Except Error Answer) : Command → List Event
  | .perform number operation =>
    match s.emulator? number, s.seats[number]? with
    | some e, some seat => if seat.machine = k then operation.events e answer else []
    | _, _ => []
  | _ => []

namespace Session

/-- What happens to the memory of the machine with the number `k` while the commands are carried
    out. -/
def events (k : Nat) (s : Session) : List Command → List Event
  | [] => []
  | command :: rest =>
    match s.apply command with
    | some (answer, after) => command.events k s answer ++ after.events k rest
    | none => []

/-- Each machine of the session holds what its history says, and nothing has happened to machines
    that are not there yet. -/
structure Recorded (history : Nat → List Event) (s : Session) : Prop where
  memory : ∀ (k : Nat) (machine : Machine), s.machines[k]? = some machine →
    machine.memory.Recorded (history k)
  fresh : ∀ k, s.machines.size ≤ k → history k = []

variable {s after : Session} {history : Nat → List Event} {number : Nat} {command : Command}
  {answer : Except Error Answer}

theorem recorded_empty : ({} : Session).Recorded fun _ => [] where
  memory k machine h := by simp at h
  fresh _ _ := rfl

theorem Recorded.pushMachine (hs : s.Recorded history) (size : Nat) :
    { s with machines := s.machines.push { memory := Memory.zeros size } }.Recorded history where
  memory k machine hk := by
    simp only [Array.getElem?_push] at hk
    split at hk
    · next heq =>
      cases hk
      rw [hs.fresh k (Nat.le_of_eq heq.symm)]
      exact Memory.recorded_zeros size
    · exact hs.memory k machine hk
  fresh k hk := by
    rw [Array.size_push] at hk
    exact hs.fresh k (Nat.le_of_succ_le hk)

/-- Putting back an emulator adds to the history of the machine that it drives, and to no other. -/
theorem Recorded.update (hs : s.Recorded history) {new : Emulator} {seat : Seat}
    (hseat : s.seats[number]? = some seat) (hlt : seat.machine < s.machines.size)
    {later : List Event} (hnew : new.machine.memory.Recorded (history seat.machine ++ later)) :
    (s.update number new).Recorded fun k =>
      history k ++ if seat.machine = k then later else [] where
  memory k machine hk := by
    rw [machines_update hseat hlt] at hk
    by_cases heq : k = seat.machine
    · subst heq
      rw [if_pos rfl] at hk
      cases hk
      rwa [if_pos rfl]
    · rw [if_neg heq] at hk
      rw [if_neg (Ne.symm heq), List.append_nil]
      exact hs.memory k machine hk
  fresh k hk := by
    have hsize : s.machines.size ≤ k := by
      simpa only [Session.update, hseat, Array.size_setIfInBounds] using hk
    have hne : seat.machine ≠ k := by omega
    rw [hs.fresh k hsize, if_neg hne, List.append_nil]

/-- A command keeps the machines of a session recorded. -/
theorem recorded_apply (hs : s.Recorded history) (h : s.apply command = some (answer, after)) :
    after.Recorded fun k => history k ++ command.events k s answer := by
  cases command with
  | create memorySize =>
    simp only [Command.events, List.append_nil]
    simp only [apply] at h
    split at h
    · cases h
      exact hs
    · next machine hsize =>
      cases h
      obtain ⟨-, rfl⟩ := Machine.ofSize_eq_ok_iff.1 hsize
      have hpushed := hs.pushMachine memorySize.toNat
      exact ⟨hpushed.memory, hpushed.fresh⟩
  | share number =>
    simp only [Command.events, List.append_nil]
    simp only [apply] at h
    split at h
    · cases h
      exact hs
    · cases h
      exact ⟨hs.memory, hs.fresh⟩
  | perform number operation =>
    cases he : s.emulator? number with
    | none =>
      simp only [apply, he] at h
      cases h
      simpa only [Command.events, he, List.append_nil] using hs
    | some e =>
      obtain ⟨new, hperform, rfl⟩ := (apply_perform_iff he).1 h
      obtain ⟨seat, hseat, hmachine, -⟩ := emulator?_eq_some_iff.1 he
      obtain ⟨hlt, -⟩ := Array.getElem?_eq_some_iff.1 hmachine
      have hnew := Operation.recorded_perform (hs.memory _ _ hmachine) hperform
      simp only [Command.events, hseat, he]
      exact hs.update hseat hlt hnew

/-- Commands one after the other keep the machines of a session recorded. -/
theorem recorded_play (hs : s.Recorded history) {commands : List Command}
    {answers : List (Except Error Answer)} (h : s.play commands = some (answers, after)) :
    after.Recorded fun k => history k ++ s.events k commands := by
  induction commands generalizing s history answers with
  | nil =>
    cases h
    simpa only [events, List.append_nil] using hs
  | cons command rest ih =>
    obtain ⟨answer, mid, later, happly, hplay, -⟩ := play_cons_iff.1 h
    have hrest := ih (recorded_apply hs happly) hplay
    simpa only [events, happly, List.append_assoc] using hrest

/-! ## What is read -/

/-- The machine of an emulator has the size that it was created with, and holds what happened to it
    since. -/
theorem exists_recorded_of_play {commands : List Command} {answers : List (Except Error Answer)}
    (h : ({} : Session).play commands = some (answers, s)) {e : Emulator}
    (he : s.emulator? number = some e) :
    ∃ seat, s.seats[number]? = some seat ∧
      (createdSizes commands)[seat.machine]? = some e.machine.memory.size ∧
      e.machine.memory.Recorded (({} : Session).events seat.machine commands) := by
  obtain ⟨seat, size, hseat, hsize, -, hsound⟩ := (play_sound sound_empty h).emulator? he
  obtain ⟨other, hother, hmachine, -⟩ := emulator?_eq_some_iff.1 he
  obtain rfl : seat = other := Option.some.inj (hseat.symm.trans hother)
  refine ⟨seat, hseat, ?_, ?_⟩
  · rw [hsound.within.size_eq]
    exact hsize
  · exact (recorded_play recorded_empty h).memory seat.machine e.machine hmachine

/-- A memory is a bounded store of the values that were stored last. Let an emulator be given after
    any commands to any emulators, refused ones among them, and let its machine be one of `size`
    cells. What the emulator reads at one of its addresses is the value that was stored there last
    since the memory was cleared, wrapped to a word, or zero if there is none. At any other address
    nothing was ever stored, and to read there is refused: the address is out of range, and the
    error names it if it has few enough digits to be written. A snapshot is refused in this way for
    its first address, then for its last, or if they are reversed, and answers otherwise what would
    be read from the one to the other. -/
theorem play_last_write (commands : List Command) (answers : List (Except Error Answer))
    (s : Session) (h : ({} : Session).play commands = some (answers, s)) (number : Nat)
    (e : Emulator) (he : s.emulator? number = some e) :
    ∃ (seat : Seat) (size : Nat), s.seats[number]? = some seat ∧
      (createdSizes commands)[seat.machine]? = some size ∧
      let happened := ({} : Session).events seat.machine commands
      (∀ a : Int, 0 ≤ a ∧ a < size →
        e.machine.memory.read a = .ok (remembered happened a) ∧
        s.apply (.perform number (.read a)) =
          some (.ok (.integer (remembered happened a).toInt), s)) ∧
      (∀ a : Int, ¬(0 ≤ a ∧ a < size) →
        e.machine.memory.read a = .error (.badAddress a size) ∧
        s.apply (.perform number (.read a)) = some (.error (Memory.refusal size a), s) ∧
        ∀ value, Event.stored a value ∉ happened) ∧
      ∀ (first : Int) (last : Option Int),
        let final := last.getD (size - 1)
        s.apply (.perform number (.snapshot first last)) =
          some
            (if ¬(0 ≤ first ∧ first < size) then .error (Memory.refusal size first)
            else if ¬(0 ≤ final ∧ final < size) then .error (Memory.refusal size final)
            else if final < first then .error (.snapshotReversed first final)
            else .ok (.integers ((List.range (final - first + 1).toNat).map fun i : Nat =>
              (remembered happened (first + i)).toInt)), s) := by
  obtain ⟨seat, hseat, hsize, hmemory⟩ := exists_recorded_of_play h he
  refine ⟨seat, _, hseat, hsize, fun a hin => ?_, fun a hout => ?_, fun first last => ?_⟩
  · have hread := hmemory.read_eq a
    rw [if_pos hin] at hread
    refine ⟨hread, apply_of_perform he ?_⟩
    rw [Operation.perform, hread]
    rfl
  · have hread := hmemory.read_eq a
    rw [if_neg hout] at hread
    exact ⟨hread, apply_of_perform he (Operation.perform_read_of_outside hout),
      fun value hmem => hout (hmemory.inside a value hmem)⟩
  · refine apply_of_perform he ?_
    rw [Operation.perform, hmemory.snapshot_eq]
    simp only [Operation.observe, map_ite, Memory.ofFault_eq_refusal]
    simp only [Except.map, List.map_map, Function.comp_def]

/-- Two emulators of a machine with eight cells. The first loads a program and writes a value that
    is no word; the other executes an `LDA` and an `STA` of it, and is refused a write. -/
theorem play_last_write_shared :
    let commands : List Command :=
      [.create 8, .perform 0 (.load (.words [1, 6, 2, 7, 0])), .perform 0 (.write 6 4294967301),
        .share 0, .perform 1 (.run (some 2)), .perform 1 (.write 8 1)]
    ∃ answers s, ({} : Session).play commands = some (answers, s) ∧
      s.apply (.perform 0 (.read 7)) = some (.ok (.integer 5), s) ∧
      s.apply (.perform 0 (.read 8)) = some (.error (.fault (.badAddress 8 8)), s) ∧
      s.apply (.perform 0 (.snapshot 5 none)) = some (.ok (.integers [0, 5, 5]), s) := by
  intro commands
  let machine : Machine :=
    { registers := { accumulator := 5, location := 4 }, memory := ⟨#[1, 6, 2, 7, 0, 0, 5, 5]⟩ }
  let s : Session := ⟨#[machine], #[⟨0, {}⟩, ⟨0, { steps := 2 }⟩]⟩
  have hplay : ({} : Session).play commands =
      some ([.ok .done, .ok .done, .ok .done, .ok .done, .ok (.stopped .timeout),
        .error (.fault (.badAddress 8 8))], s) := by rfl
  have hevents : ({} : Session).events 0 commands =
      [.stored 0 1, .stored 1 6, .stored 2 2, .stored 3 7, .stored 4 0, .stored 6 4294967301,
        .stored 7 5] := by rfl
  obtain ⟨seat, size, hseat, hsize, hin, hout, hsnapshot⟩ :=
    play_last_write commands _ s hplay 0 ⟨{}, machine⟩ rfl
  obtain rfl : (⟨0, {}⟩ : Seat) = seat := Option.some.inj hseat
  obtain rfl : 8 = size := Option.some.inj hsize
  have hread := (hin 7 (by decide)).2
  have hrefused := (hout 8 (by decide)).2.1
  have hall := hsnapshot 5 none
  rw [hevents] at hread hall
  rw [← Memory.ofFault_eq_refusal] at hrefused
  exact ⟨_, s, hplay, hread, hrefused, hall⟩

/-- The smallest address with too many digits lies far outside the memory, and to read there is not
    reported as out of range. -/
theorem not_read_outOfRange :
    8 ≤ 10 ^ Decimal.digitLimit ∧
      ∃ answers s, ({} : Session).play [.create 8] = some (answers, s) ∧
        ¬∃ f after, s.apply (.perform 0 (.read (10 ^ Decimal.digitLimit : Nat))) =
          some (.error (.fault f), after) := by
  let machine : Machine := { memory := Memory.zeros 8 }
  let s : Session := ⟨#[machine], #[⟨0, {}⟩]⟩
  have hplay : ({} : Session).play [.create 8] = some ([.ok .done], s) := rfl
  have hemulator : s.emulator? 0 = some ⟨{}, machine⟩ := rfl
  have hlarge : 8 ≤ 10 ^ Decimal.digitLimit :=
    Nat.le_trans (by decide : 8 ≤ 10 ^ 1) (Nat.pow_le_pow_right (by decide) (by decide))
  have houtside : ¬((0 : Int) ≤ (10 ^ Decimal.digitLimit : Nat) ∧
      ((10 ^ Decimal.digitLimit : Nat) : Int) < machine.memory.size) :=
    fun hin => Nat.not_lt.2 hlarge (Int.ofNat_lt.1 hin.2)
  have hread := apply_of_perform hemulator (Operation.perform_read_of_outside houtside)
  rw [Memory.refusal, Int.natAbs_natCast, if_neg (Nat.lt_irrefl _)] at hread
  refine ⟨hlarge, _, s, hplay, ?_⟩
  rintro ⟨f, after, hfault⟩
  cases hread.symm.trans hfault

end Session

end WordMachine
