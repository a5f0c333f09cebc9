import WordMachine.Job
import WordMachine.Proofs.CommandLine.Preparation
import WordMachine.Proofs.Machine.Stores

set_option autoImplicit false

/-! # The data of a job in its own order

A job writes its data with every address named once (`Job.settled`): in the place where the address
came first, with the value that it got last. A command writes the same data value by value. The two
come to the same memory, since a value that is stored twice at an address may be stored there the
first time already, past all the other addresses (`Job.foldl_store_settled`). They are also refused
alike: the first address of no cell is the same in both orders (`Job.find?_settled`). -/

namespace WordMachine

namespace Job

variable {data : List (Int × Int)} {address value : Int}

/-! ## Data with every address named once -/

theorem settled_append (data : List (Int × Int)) (address value : Int) :
    settled (data ++ [(address, value)]) = assign address value (settled data) := by
  rw [settled, List.foldl_append]
  rfl

theorem map_fst_assign (address value : Int) (data : List (Int × Int)) :
    (assign address value data).map Prod.fst =
      if address ∈ data.map Prod.fst then data.map Prod.fst
      else data.map Prod.fst ++ [address] := by
  induction data with
  | nil => rfl
  | cons assignment rest ih =>
    obtain ⟨a, v⟩ := assignment
    rw [assign]
    split
    · next h => simp [h]
    · next h =>
      simp only [List.map_cons, ih, List.mem_cons, Ne.symm h, false_or]
      split <;> rfl

theorem nodup_settled (data : List (Int × Int)) : ((settled data).map Prod.fst).Nodup := by
  induction data using List.reverseRecOn with
  | nil => exact List.nodup_nil
  | append_singleton data assignment ih =>
    rw [settled_append, map_fst_assign]
    split
    · exact ih
    · next h => exact List.nodup_append.2 ⟨ih, List.nodup_singleton _, by grind⟩

theorem mem_settled_iff : address ∈ (settled data).map Prod.fst ↔ address ∈ data.map Prod.fst := by
  induction data using List.reverseRecOn with
  | nil => rfl
  | append_singleton data assignment ih =>
    rw [settled_append, map_fst_assign]
    grind

/-- The first address of a kind is the same, although the later ones may stand elsewhere. -/
theorem find?_settled (bad : Int → Bool) (data : List (Int × Int)) :
    ((settled data).map Prod.fst).find? bad = (data.map Prod.fst).find? bad := by
  induction data using List.reverseRecOn with
  | nil => rfl
  | append_singleton data assignment ih =>
    rw [settled_append, map_fst_assign, List.map_append, List.find?_append, ← ih]
    split
    · next hmem =>
      -- An address that is there already is found where it is, or is not looked for.
      cases hfind : ((settled data).map Prod.fst).find? bad with
      | some found => rfl
      | none =>
        have hgood := List.find?_eq_none.1 hfind _ hmem
        simp [hgood]
    · rw [List.find?_append]
      rfl

/-- Giving an address a value stores that value last. -/
theorem foldl_store_assign (m : Machine) (hnodup : (data.map Prod.fst).Nodup)
    (hdata : ∀ a ∈ data.map Prod.fst, 0 ≤ a) (haddress : 0 ≤ address) (value : Int) :
    (assign address value data).foldl Machine.store m =
      (data.foldl Machine.store m).store (address, value) := by
  induction data generalizing m with
  | nil => rfl
  | cons assignment rest ih =>
    obtain ⟨a, v⟩ := assignment
    obtain ⟨hnot, hnodup⟩ := List.nodup_cons.1 hnodup
    obtain ⟨ha, hdata⟩ := List.forall_mem_cons.1 hdata
    rw [assign]
    split
    · next heq =>
      subst heq
      have hlast := Machine.foldl_store_comm (m.store (a, v)) (p := (a, value)) haddress hdata hnot
      rw [List.foldl_cons, List.foldl_cons, hlast, Machine.store_store]
    · exact ih _ hnodup hdata

theorem foldl_store_settled (m : Machine) (hdata : ∀ a ∈ data.map Prod.fst, 0 ≤ a) :
    (settled data).foldl Machine.store m = data.foldl Machine.store m := by
  induction data using List.reverseRecOn with
  | nil => rfl
  | append_singleton data assignment ih =>
    rw [List.map_append, List.forall_mem_append] at hdata
    have hsettled : ∀ a ∈ (settled data).map Prod.fst, 0 ≤ a :=
      fun a ha => hdata.1 a (mem_settled_iff.1 ha)
    rw [settled_append, foldl_store_assign m (nodup_settled data) hsettled (hdata.2 _ (by simp)),
      ih hdata.1, List.foldl_append]
    rfl

/-! ## Two ways to do a job -/

/-- The operations before the run, with the data in its own order. -/
def loading (job : Job) : List (Option Operation) :=
  some (.load job.program) :: job.data.map fun assignment =>
    some (.write assignment.1 assignment.2)

/-- Performs the operations that a job stands for, with the data in its own order. -/
def calls (job : Job) (fresh : Emulator) : Performance :=
  match fresh.performAll job.loading with
  | some (.ok _, before) => (Operation.run job.budget).perform before
  | stopped => stopped

/-- The first address in the data that no cell of the memory has. -/
def firstOutside? (job : Job) : Option Int :=
  (job.data.map Prod.fst).find? (Memory.outside job.memorySize.toNat)

/-- The error for an address that no cell has. An address with too many digits is not named. -/
def refusal (job : Job) (address : Int) : Error :=
  if Decimal.isWritable address then .fault (.badAddress address job.memorySize.toNat)
  else .numeral .unwritable

variable {job : Job} {fresh loaded : Emulator}

theorem refusal_eq (job : Job) (address : Int) :
    job.refusal address = .ofFault (.badAddress address job.memorySize.toNat) :=
  (ofFault_badAddress address _).symm

/-- The data in its own order is what the options of a command assign. -/
theorem writeGiven_map_some (m : Machine) (data : List (Int × Int)) :
    m.writeGiven (data.map some) =
      ((m.writeAll data).1.mapError .ofFault, (m.writeAll data).2) := by
  induction data generalizing m with
  | nil => rfl
  | cons assignment rest ih =>
    rw [List.map_cons, Machine.writeGiven, Machine.writeAll]
    cases m.write assignment.1 assignment.2 with
    | ok machine => exact ih machine
    | error f => rfl

theorem size_of_load (hfresh : Emulator.ofSize job.memorySize = .ok fresh)
    (hload : fresh.load job.program = .ok loaded) :
    loaded.machine.memory.size = job.memorySize.toNat := by
  obtain ⟨machine, hmachine, rfl⟩ := map_eq_ok_iff.1 hfresh
  obtain ⟨-, rfl⟩ := Machine.ofSize_eq_ok_iff.1 hmachine
  cases hread : job.program.read with
  | error error => rw [Emulator.load_of_unread hread] at hload; cases hload
  | ok words =>
    rw [Emulator.load_of_read hread] at hload
    split at hload
    · cases hload
    · cases hload
      simp

theorem prepare_eq (hfresh : Emulator.ofSize job.memorySize = .ok fresh)
    (hload : fresh.load job.program = .ok loaded) :
    job.prepare = ((loaded.machine.writeAll (settled job.data)).1.mapError .ofFault).map fun _ =>
      { loaded with machine := (loaded.machine.writeAll (settled job.data)).2 } := by
  simp only [prepare, hfresh, hload]
  rcases loaded.machine.writeAll (settled job.data) with ⟨_ | _, machine⟩ <;> rfl

theorem performAll_loading (hload : fresh.load job.program = .ok loaded) :
    fresh.performAll job.loading =
      some (((loaded.machine.writeAll job.data).1.mapError .ofFault).map fun _ => .done,
        { loaded with machine := (loaded.machine.writeAll job.data).2 }) := by
  have hwrites := CommandLine.performAll_writes (job.data.map some) loaded
  rw [List.map_map, writeGiven_map_some] at hwrites
  rw [loading, Emulator.performAll, Operation.perform, hload]
  exact hwrites

/-- With addresses of cells only, both ways come to the same emulator. -/
theorem exists_prepare_of_inside (hfresh : Emulator.ofSize job.memorySize = .ok fresh)
    (hload : fresh.load job.program = .ok loaded) (hinside : job.firstOutside? = none) :
    ∃ before, job.prepare = .ok before ∧
      fresh.performAll job.loading = some (.ok .done, before) := by
  rw [firstOutside?, ← size_of_load hfresh hload] at hinside
  have hsettled := (find?_settled _ job.data).trans hinside
  have hnonneg : ∀ a ∈ job.data.map Prod.fst, 0 ≤ a := by
    intro a ha
    have := List.find?_eq_none.1 hinside a ha
    simp only [Memory.outside, decide_eq_true_eq, not_not] at this
    exact this.1
  rw [prepare_eq hfresh hload, performAll_loading hload, Machine.writeAll_of_inside hsettled,
    Machine.writeAll_of_inside hinside, foldl_store_settled _ hnonneg]
  exact ⟨_, rfl, rfl⟩

/-- Both ways are refused for the first address of no cell. -/
theorem exists_prepare_of_outside (hfresh : Emulator.ofSize job.memorySize = .ok fresh)
    (hload : fresh.load job.program = .ok loaded) {address : Int}
    (houtside : job.firstOutside? = some address) :
    job.prepare = .error (job.refusal address) ∧
      ∃ written, fresh.performAll job.loading = some (.error (job.refusal address), written) ∧
        written.control = fresh.control := by
  rw [refusal_eq, ← size_of_load hfresh hload]
  rw [firstOutside?, ← size_of_load hfresh hload] at houtside
  have hsettled := (find?_settled _ job.data).trans houtside
  obtain ⟨written, hwritten⟩ := Machine.exists_writeAll_of_outside houtside
  obtain ⟨_, hrefused⟩ := Machine.exists_writeAll_of_outside hsettled
  rw [prepare_eq hfresh hload, performAll_loading hload, hwritten, hrefused]
  have hcontrol := Emulator.control_of_load hload
  exact ⟨rfl, _, rfl, hcontrol⟩

theorem run_of_prepare {before : Emulator} (h : job.prepare = .ok before) :
    job.run = (before.run job.budget).map fun (outcome, last) =>
      (Operation.reported outcome).map fun _ => last := by
  simp only [run, h]
  rcases before.run job.budget with _ | ⟨_ | _, last⟩ <;> rfl

/-- The order in which the data is written makes no difference. -/
theorem run_eq_calls (hfresh : Emulator.ofSize job.memorySize = .ok fresh) :
    job.run = (job.calls fresh).map fun (result, last) => result.map fun _ => last := by
  rw [calls]
  cases hload : fresh.load job.program with
  | error error =>
    have hprepare : job.prepare = .error error := by simp only [prepare, hfresh, hload]
    have hcalls : fresh.performAll job.loading = some (.error error, fresh) := by
      simp only [loading, Emulator.performAll, Operation.perform, hload]
    rw [run, hprepare, hcalls]
    rfl
  | ok loaded =>
    cases hfirst : job.firstOutside? with
    | none =>
      obtain ⟨before, hprepare, hcalls⟩ := exists_prepare_of_inside hfresh hload hfirst
      rw [run_of_prepare hprepare, hcalls]
      show _ = (Option.map _ (before.run job.budget)).map _
      rcases before.run job.budget with _ | ⟨_ | _, last⟩ <;> rfl
    | some address =>
      obtain ⟨hprepare, written, hcalls, -⟩ := exists_prepare_of_outside hfresh hload hfirst
      rw [run, hprepare, hcalls]
      rfl

/-- A command that assigns the same data does the same with a new emulator. -/
theorem run_eq_attempt (hfresh : Emulator.ofSize job.memorySize = .ok fresh)
    {o : CommandLine.Options} (hpokes : o.pokes = job.data.map some)
    (hbudget : o.budget = job.budget) :
    job.run = (o.attempt fresh job.program).map fun p => p.ended.map fun _ => p.emulator := by
  have hloading : job.loading = o.loading job.program := by
    simp only [loading, CommandLine.Options.loading, hpokes, List.map_map]
    rfl
  have hattempt := congrArg (Option.map fun p => p.1.map fun _ => p.2)
    (CommandLine.ending_attempt o fresh job.program)
  rw [Option.map_map] at hattempt
  rw [run_eq_calls hfresh, calls, hloading, CommandLine.performAll_loading]
  refine Eq.trans ?_ hattempt.symm
  rcases o.prepare fresh.machine job.program with ⟨_ | _, machine⟩
  · rfl
  · simp only [Except.map, Operation.perform, ← hbudget, Option.map_map]
    rcases Emulator.run ⟨fresh.control, machine⟩ o.budget with _ | ⟨_ | _, last⟩ <;> rfl

/-- A job does the same as a new emulator that loads the program, writes the data value by value in
    the order in which it is given, and runs, although the job writes every address once, where it
    came first and with the value that it got last. So does a command that assigns the same data.
    With addresses of cells only, the two come to the same emulator before the run. Otherwise both
    are refused for the address of no cell that comes first in the data, and no instruction is
    executed; it is out of range, but is named only if it has few enough digits to be written. -/
theorem run_in_given_order (job : Job) :
    (∀ error, Emulator.ofSize job.memorySize = .error error → job.run = some (.error error)) ∧
    ∀ fresh, Emulator.ofSize job.memorySize = .ok fresh →
      job.run = ((job.calls fresh).map fun (result, last) => result.map fun _ => last) ∧
      (∀ o : CommandLine.Options, o.pokes = job.data.map some → o.budget = job.budget →
        job.run = (o.attempt fresh job.program).map fun p => p.ended.map fun _ => p.emulator) ∧
      ∀ loaded, fresh.load job.program = .ok loaded →
        (job.firstOutside? = none →
          ∃ before, job.prepare = .ok before ∧
            fresh.performAll job.loading = some (.ok .done, before)) ∧
        ∀ address, job.firstOutside? = some address →
          job.prepare = .error (job.refusal address) ∧
            job.run = some (.error (job.refusal address)) ∧
            ∃ written, fresh.performAll job.loading =
                some (.error (job.refusal address), written) ∧
              written.control = fresh.control := by
  refine ⟨fun error hsize => by simp only [run, prepare, hsize], fun fresh hfresh =>
    ⟨run_eq_calls hfresh, fun o hpokes hbudget => run_eq_attempt hfresh hpokes hbudget,
      fun loaded hload => ⟨exists_prepare_of_inside hfresh hload, fun address houtside => ?_⟩⟩⟩
  obtain ⟨hprepare, hwritten⟩ := exists_prepare_of_outside hfresh hload houtside
  exact ⟨hprepare, by rw [run, hprepare], hwritten⟩

/-- An address that is given twice, and one outside the memory between two of the same. -/
theorem run_in_given_order_repeated :
    let job : Job := { program := .words [0], memorySize := 8, data := [(3, 1), (4, 2), (3, 5)] }
    let refused : Job := { job with data := [(3, 1), (9, 2), (3, 5), (-1, 4)] }
    let fresh : Emulator := { machine := { memory := Memory.zeros 8 } }
    (∃ before, job.prepare = .ok before ∧
      fresh.performAll job.loading = some (.ok .done, before)) ∧
      refused.run = some (.error (.fault (.badAddress 9 8))) := by
  intro job refused fresh
  have hload : fresh.load (.words [0]) = .ok fresh := by decide
  exact ⟨(((run_in_given_order job).2 fresh rfl).2.2 fresh hload).1 (by decide),
    (((run_in_given_order refused).2 fresh rfl).2.2 fresh hload).2 9 (by decide) |>.2.1⟩

/-- A job of one cell that is to give a value to an address. -/
def poking (address : Int) : Job :=
  { program := .words [0], memorySize := 1, data := [(address, 1)] }

theorem firstOutside?_poking {address : Int} (h : 1 ≤ address) :
    (poking address).firstOutside? = some address :=
  List.find?_cons_of_pos (decide_eq_true fun hin => absurd hin.2 (Int.not_lt.2 h))

/-- An address that cannot be written is not reported. -/
theorem run_poking_ne {address : Int} (h : 1 ≤ address)
    (hunwritable : Decimal.isWritable address = false) (f : Fault) :
    (poking address).run ≠ some (.error (.fault f)) := by
  let fresh : Emulator := { machine := { memory := Memory.zeros 1 } }
  have hfresh : Emulator.ofSize (poking address).memorySize = .ok fresh := rfl
  have hload : fresh.load (poking address).program = .ok fresh := rfl
  obtain ⟨hprepare, -⟩ := exists_prepare_of_outside hfresh hload (firstOutside?_poking h)
  rw [run, hprepare, refusal, hunwritable]
  intro hrun
  cases hrun

/-- An address with one digit too many is not reported as out of range. -/
theorem not_run_outOfRange :
    (poking (10 ^ Decimal.digitLimit : Nat)).firstOutside? = some (10 ^ Decimal.digitLimit : Nat) ∧
      ¬∃ f : Fault, (poking (10 ^ Decimal.digitLimit : Nat)).run = some (.error (.fault f)) := by
  have hlarge : (1 : Int) ≤ (10 ^ Decimal.digitLimit : Nat) :=
    Int.ofNat_le.2 (Nat.one_le_pow _ _ (by decide))
  have hunwritable : Decimal.isWritable (10 ^ Decimal.digitLimit : Nat) = false := by
    rw [← Bool.not_eq_true, Decimal.isWritable_iff, Int.natAbs_natCast]
    exact Nat.lt_irrefl _
  refine ⟨firstOutside?_poking hlarge, ?_⟩
  rintro ⟨f, hrun⟩
  exact run_poking_ne hlarge hunwritable f hrun

end Job

end WordMachine
