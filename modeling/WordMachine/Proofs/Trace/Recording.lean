import WordMachine.Proofs.Run.Instructions
import WordMachine.Proofs.Trace.Line
import WordMachine.Proofs.Trace.Untraced

set_option autoImplicit false

/-! # The trace is a faithful record

What operations execute is told without looking at any trace: `Emulator.executedBy` lists the
instructions, each where it was found and as it was fetched, with the registers after it. While
tracing is on, each step adds to the trace exactly what it executes (`Emulator.traced_step`), and
so does each run, by induction over its attempts (`Emulator.traced_run`); no other operation
touches the trace, but for those that are there to do so. As the lines of a trace can be read back,
they tell all this (`Emulator.serve_trace`).

Within a step or a run each instruction is found where the one before it left the location counter
(`Continues`). Between two lines the counter can only have been moved by an operation that executes
nothing (`Emulator.MovedAfter`). -/

namespace WordMachine

/-! ## What is executed -/

namespace Emulator

/-- What a step executes: the instruction as it was fetched, if there is one, where that was, and
    the registers after it. -/
def entries (e : Emulator) : List TraceEntry :=
  e.instructions.map fun i => ⟨e.location, i, e.step.2.machine.registers.readings⟩

/-- What a run with this budget executes, in order. -/
def runEntries (e : Emulator) (budget : Option Int) : List TraceEntry :=
  (e.attemptsOf budget).flatMap entries

end Emulator

/-- What the operation executes of the emulator's instructions, in order. -/
def Operation.executed (e : Emulator) : Operation → List TraceEntry
  | .step => e.entries
  | .run budget => e.runEntries budget
  | _ => []

/-- What operations execute one after the other, in order. -/
def Emulator.executedBy (e : Emulator) : List Operation → List TraceEntry
  | [] => []
  | operation :: rest =>
    match operation.perform e with
    | none => []
    | some (_, s) => operation.executed e ++ s.executedBy rest

/-- After so many instructions, and before the next, one of the operations moves the location
    counter without executing anything. -/
def Emulator.MovedAfter (count : Nat) (e : Emulator) (calls : List Operation) : Prop :=
  ∃ before operation after answers mid answer s,
    calls = before ++ operation :: after ∧ e.serve before = some (answers, mid) ∧
    (e.executedBy before).length = count ∧ operation.IsPlain ∧
    operation.perform mid = some (answer, s) ∧ s.location ≠ mid.location

namespace Emulator

variable {e s : Emulator} {i : Instruction} {effect : Effect}

theorem entries_of_halted (h : e.control.halted = true) : e.entries = [] := by
  rw [entries, instructions_of_halted h, List.map_nil]

theorem entries_of_fault {f : Fault} (h : e.control.halted = false)
    (hplan : e.machine.plan = .error f) : e.entries = [] := by
  rw [entries, instructions_of_fault h hplan, List.map_nil]

theorem entries_of_plan (h : e.control.halted = false) (hplan : e.machine.plan = .ok (i, effect)) :
    e.entries = [⟨e.location, i, e.step.2.machine.registers.readings⟩] := by
  rw [entries, instructions_of_plan h hplan, List.map_singleton]

end Emulator

/-! ## What is recorded -/

/-- The trace is this history, tracing is on, and as many instructions were counted since the count
    was at the start. -/
structure Control.Traced (start : Nat) (history : List TraceEntry) (c : Control) : Prop where
  tracing : c.tracing = true
  trace : c.trace.toList = history
  steps : c.steps = start + history.length

namespace Control

variable {start : Nat} {history : List TraceEntry} {c d : Control}

theorem Traced.congr (h : c.Traced start history) (htracing : d.tracing = c.tracing)
    (htrace : d.trace = c.trace) (hsteps : d.steps = c.steps) : d.Traced start history :=
  ⟨htracing.trans h.tracing, htrace ▸ h.trace, hsteps.trans h.steps⟩

theorem Traced.record (h : c.Traced start history) (entry : TraceEntry) :
    (c.record entry).Traced start (history ++ [entry]) where
  tracing := h.tracing
  trace := by simp [Control.record, h.tracing, h.trace]
  steps := by simp [Control.record, h.steps, Nat.add_assoc]

end Control

namespace Emulator

variable {e s : Emulator} {start : Nat} {history : List TraceEntry} {budget : Option Int}
  {outcome : RunOutcome}

theorem traced_step (h : e.control.Traced start history) :
    e.step.2.control.Traced start (history ++ e.entries) := by
  rcases step_cases e with ⟨hhalted, hs⟩ | ⟨hrunning, ⟨f, hplan, hs⟩ | ⟨i, effect, hplan, hs⟩⟩
  · rw [hs, entries_of_halted hhalted, List.append_nil]
    exact h
  · rw [hs, entries_of_fault hrunning hplan, List.append_nil]
    exact h.congr rfl rfl rfl
  · have hunmarked : { e.control with resumeFrom := none }.Traced start history :=
      h.congr rfl rfl rfl
    rw [entries_of_plan hrunning hplan]
    rcases hs with ⟨-, hs⟩ | ⟨-, hs⟩
    · rw [hs]
      exact hunmarked.record _
    · rw [hs]
      exact (hunmarked.record _).congr rfl rfl rfl

theorem traced_run (h : e.control.Traced start history)
    (hrun : e.run budget = some (outcome, s)) :
    s.control.Traced start (history ++ e.runEntries budget) :=
  history_run (P := fun history s => s.control.Traced start history)
    (fun _ _ _ => traced_step) (fun _ _ hs => hs.congr rfl rfl rfl) h hrun

end Emulator

namespace Operation

variable {e s : Emulator} {operation : Operation} {answer : Except Error Answer}
  {start : Nat} {history : List TraceEntry}

theorem executed_of_isPlain (h : operation.IsPlain) : operation.executed e = [] := by
  cases operation with
  | step | run budget | reset => exact h.elim
  | _ => rfl

/-- An operation records what it executes, unless it is one that is there to change the trace. -/
theorem traced_perform (hleaves : operation.LeavesTrace) (h : e.control.Traced start history)
    (hperform : operation.perform e = some (answer, s)) :
    s.control.Traced start (history ++ operation.executed e) := by
  rcases perform_cases hperform with
    ⟨hplain, -⟩ | ⟨rfl, -, rfl⟩ | ⟨budget, outcome, rfl, -, hrun⟩ | ⟨rfl, -, rfl⟩
  · rw [executed_of_isPlain hplain, List.append_nil, (control_perform hplain hperform).1]
    cases operation with
    | setTracing on | clearTrace => exact hleaves.elim
    | _ => exact h.congr rfl rfl rfl
  · exact Emulator.traced_step h
  · exact Emulator.traced_run h hrun
  · exact hleaves.elim

end Operation

theorem Emulator.traced_serve {calls : List Operation} {e s : Emulator}
    {answers : List (Except Error Answer)} {start : Nat} {history : List TraceEntry}
    (hleaves : ∀ operation ∈ calls, operation.LeavesTrace)
    (h : e.control.Traced start history) (hserve : e.serve calls = some (answers, s)) :
    s.control.Traced start (history ++ e.executedBy calls) := by
  induction calls generalizing e history answers with
  | nil =>
    cases hserve
    rw [executedBy, List.append_nil]
    exact h
  | cons operation rest ih =>
    obtain ⟨answer, mid, later, hperform, hrest, -⟩ := serve_cons_iff.1 hserve
    simp only [executedBy, hperform, ← List.append_assoc]
    exact ih (fun other hother => hleaves other (List.mem_cons_of_mem _ hother))
      (Operation.traced_perform (hleaves operation List.mem_cons_self) h hperform) hrest

/-! ## Where instructions are found -/

/-- From the one location to the other the entries were executed one after the other: each was found
    where the one before it left the location counter. -/
def Continues (first : Int) : List TraceEntry → Int → Prop
  | [], last => last = first
  | entry :: rest, last => entry.location = first ∧ Continues entry.after.location rest last

/-- The locations where entries leave the location counter, and the first of all. -/
def places (first : Int) (entries : List TraceEntry) : List Int :=
  first :: entries.map (·.after.location)

variable {first mid last : Int} {xs ys : List TraceEntry}

theorem Continues.append (hx : Continues first xs mid) (hy : Continues mid ys last) :
    Continues first (xs ++ ys) last := by
  induction xs generalizing first with
  | nil => cases hx; exact hy
  | cons x xs ih => exact ⟨hx.1, ih hx.2⟩

/-- Each entry was found at its place. -/
theorem Continues.location_eq {k : Nat} {y : TraceEntry} (h : Continues first xs mid)
    (hk : k < xs.length) (hy : (xs ++ ys)[k]? = some y) :
    (places first (xs ++ ys))[k]? = some (y.location : Int) := by
  induction xs generalizing first k with
  | nil => cases hk
  | cons x xs ih =>
    cases k with
    | zero => cases hy; exact congrArg some h.1.symm
    | succ k => exact ih h.2 (Nat.lt_of_succ_lt_succ hk) hy

/-- The places of further entries come behind those of the first. -/
theorem Continues.getElem?_places_append (h : Continues first xs mid) (k : Nat) :
    (places first (xs ++ ys))[xs.length + k]? = (places mid ys)[k]? := by
  induction xs generalizing first with
  | nil => cases h; rw [List.length_nil, Nat.zero_add, List.nil_append]
  | cons x xs ih =>
    rw [List.length_cons, Nat.add_right_comm]
    exact ih h.2

namespace Emulator

variable {e s : Emulator} {budget : Option Int} {outcome : RunOutcome} {operation : Operation}
  {rest : List Operation} {answer : Except Error Answer} {count : Nat}

theorem continues_entries (e : Emulator) : Continues e.location e.entries e.step.2.location := by
  rcases step_cases e with ⟨hhalted, hs⟩ | ⟨hrunning, ⟨f, hplan, hs⟩ | ⟨i, effect, hplan, -⟩⟩
  · rw [hs, entries_of_halted hhalted]
    rfl
  · rw [hs, entries_of_fault hrunning hplan]
    rfl
  · rw [entries_of_plan hrunning hplan]
    exact ⟨rfl, rfl⟩

theorem continues_runEntries (hrun : e.run budget = some (outcome, s)) :
    Continues e.location (e.runEntries budget) s.location := by
  have hstart : Continues e.location [] e.location := rfl
  exact history_run (P := fun entries s => Continues e.location entries s.location)
    (fun _ s _ hs => hs.append s.continues_entries) (fun _ _ hs => hs) hstart hrun

theorem continues_executed (hleaves : operation.LeavesTrace) (hplain : ¬operation.IsPlain)
    (hperform : operation.perform e = some (answer, s)) :
    Continues e.location (operation.executed e) s.location := by
  rcases Operation.perform_cases hperform with
    ⟨hyes, -⟩ | ⟨rfl, -, rfl⟩ | ⟨budget, outcome, rfl, -, hrun⟩ | ⟨rfl, -, rfl⟩
  · exact absurd hyes hplain
  · exact e.continues_entries
  · exact continues_runEntries hrun
  · exact hleaves.elim

theorem movedAfter_cons (hperform : operation.perform e = some (answer, s))
    (h : s.MovedAfter count rest) :
    e.MovedAfter ((operation.executed e).length + count) (operation :: rest) := by
  obtain ⟨before, moving, after, answers, mid, answer', t, rfl, hserve, hcount, hmoves⟩ := h
  refine ⟨operation :: before, moving, after, answer :: answers, mid, answer', t, rfl,
    serve_cons_iff.2 ⟨answer, s, answers, hperform, hserve, rfl⟩, ?_, hmoves⟩
  simp only [executedBy, hperform, List.length_append, hcount]

/-- Where nothing else moves the location counter, each instruction is found where the one before it
    left the counter, and the first where the counter was. -/
theorem location_of_not_movedAfter {calls : List Operation} {k : Nat} {y : TraceEntry}
    (hleaves : ∀ operation ∈ calls, operation.LeavesTrace)
    (hy : (e.executedBy calls)[k]? = some y) (hstill : ¬e.MovedAfter k calls) :
    (places e.location (e.executedBy calls))[k]? = some (y.location : Int) := by
  induction calls generalizing e k with
  | nil => cases hy
  | cons operation rest ih =>
    have hrest : ∀ later ∈ rest, later.LeavesTrace := fun later hlater =>
      hleaves later (List.mem_cons_of_mem _ hlater)
    cases hperform : operation.perform e with
    | none => simp [executedBy, hperform] at hy
    | some result =>
      obtain ⟨answer, s⟩ := result
      simp only [executedBy, hperform] at hy ⊢
      by_cases hplain : operation.IsPlain
      · rw [Operation.executed_of_isPlain hplain, List.nil_append] at hy ⊢
        have hlater := ih hrest hy fun hmoved => hstill (by
          have h := movedAfter_cons hperform hmoved
          rwa [Operation.executed_of_isPlain hplain, List.length_nil, Nat.zero_add] at h)
        cases k with
        | succ k => exact hlater
        | zero =>
          have hsame : s.location = e.location := by
            by_contra hne
            exact hstill ⟨[], operation, rest, [], e, answer, s, rfl, rfl, rfl, hplain, hperform,
              hne⟩
          rw [← hsame]
          exact hlater
      · have hcontinues := continues_executed (hleaves operation List.mem_cons_self) hplain hperform
        by_cases hk : k < (operation.executed e).length
        · exact hcontinues.location_eq hk hy
        · obtain ⟨j, rfl⟩ := Nat.exists_eq_add_of_le (Nat.not_lt.1 hk)
          rw [List.getElem?_append_right (Nat.le_add_right ..), Nat.add_sub_cancel_left] at hy
          rw [hcontinues.getElem?_places_append]
          exact ih hrest hy fun hmoved => hstill (movedAfter_cons hperform hmoved)

/-- An instruction has an operand unless it is `HLT`. -/
theorem address_eq_none_iff_of_mem_entries {x : TraceEntry} (h : x ∈ e.entries) :
    x.instruction.address = none ↔ x.instruction.opcode = .hlt := by
  rcases step_cases e with ⟨hhalted, -⟩ | ⟨hrunning, ⟨f, hplan, -⟩ | ⟨i, effect, hplan, -⟩⟩
  · rw [entries_of_halted hhalted] at h
    cases h
  · rw [entries_of_fault hrunning hplan] at h
    cases h
  · rw [entries_of_plan hrunning hplan, List.mem_singleton] at h
    rw [h]
    rcases Machine.plan_cases hplan with ⟨rfl, -, -⟩ | ⟨op, operand, hop, rfl, -, -⟩
    · simp
    · simpa using hop

/-- All that is executed is executed in steps. -/
theorem exists_entries_of_mem_executedBy {calls : List Operation} {x : TraceEntry}
    (h : x ∈ e.executedBy calls) : ∃ t : Emulator, x ∈ t.entries := by
  induction calls generalizing e with
  | nil => cases h
  | cons operation rest ih =>
    simp only [executedBy] at h
    split at h
    · cases h
    · rcases List.mem_append.1 h with hfirst | hrest
      · cases operation with
        | step => exact ⟨e, hfirst⟩
        | run budget =>
          obtain ⟨t, -, ht⟩ := List.mem_flatMap.1 hfirst
          exact ⟨t, ht⟩
        | _ => cases hfirst
      · exact ih hrest

/-- The trace is a faithful and decodable record. Let tracing be on and the trace be empty, and let
    an emulator perform any operations but those that are there for the trace itself: steps and runs
    that are refused, stopped or halted among them, and whatever else. Had tracing been off, it
    would have answered the same, and be the same at the end but for the trace. If all of them end,
    then as many instructions were counted as were executed, and the trace shows an empty text if
    these are none. If there are any, then the text comes apart at its newlines into one line for
    each, and such a line can only be that of an entry with the location of the instruction, the
    instruction with its operand as it was fetched (none for `HLT`, and only for that), and the
    registers after it but for the index registers, whatever numbers these are. Where nothing but
    instructions moved the location counter in between, each instruction was found where the one
    before it left the counter. -/
theorem serve_trace (e : Emulator) (calls : List Operation) (htracing : e.control.tracing = true)
    (htrace : e.control.trace = #[]) (hleaves : ∀ operation ∈ calls, operation.LeavesTrace) :
    let executed := e.executedBy calls
    (∃ off, (Operation.setTracing false).perform e = some (.ok .done, off) ∧
      off.serve calls = (e.serve calls).map fun (answers, s) => (answers, s.untraced)) ∧
    ∀ answers s, e.serve calls = some (answers, s) →
      s.control.steps = e.control.steps + executed.length ∧
      (∃ text, Operation.showTrace.perform s = some (.ok (.text text), s) ∧
        (executed = [] → text = "") ∧
        (executed ≠ [] →
          let lines := text.toList.splitOn '\n'
          lines.length = executed.length ∧
          ∀ (k : Nat) (x : TraceEntry) (line : List Char), executed[k]? = some x →
            lines[k]? = some line → ∀ d : TraceEntry, d.text.toList = line ↔ d.ShownAlike x)) ∧
      (∀ x ∈ executed, x.instruction.address = none ↔ x.instruction.opcode = .hlt) ∧
      ∀ (k : Nat) (x y : TraceEntry), executed[k]? = some x → executed[k + 1]? = some y →
        ¬e.MovedAfter (k + 1) calls → x.after.location = y.location := by
  intro executed
  have hoff : (Operation.setTracing false).perform e = some (.ok .done, e.untraced) := by
    obtain ⟨⟨halted, steps, breakpoints, resumeFrom, tracing, trace⟩, machine⟩ := e
    obtain rfl : trace = #[] := htrace
    rfl
  refine ⟨⟨e.untraced, hoff, serve_untraced hleaves e⟩, fun answers s hserve => ?_⟩
  have hstart : e.control.Traced e.control.steps [] := ⟨htracing, by rw [htrace], rfl⟩
  have htraced : s.control.Traced e.control.steps executed :=
    traced_serve hleaves hstart hserve
  refine ⟨htraced.steps, ⟨traceText s.control.trace, rfl, fun hnone => ?_, fun hsome => ?_⟩,
    fun x hx => ?_, fun k x y hx hy hstill => ?_⟩
  · rw [traceText, htraced.trace, hnone]
    rfl
  · intro lines
    have hne : s.control.trace ≠ #[] := by
      intro hempty
      exact hsome (htraced.trace.symm.trans (congrArg Array.toList hempty))
    have hlines : lines = executed.map fun x => x.text.toList := by
      rw [← htraced.trace]
      exact splitOn_traceText hne
    refine ⟨by rw [hlines, List.length_map], fun k x line hx hline d => ?_⟩
    rw [hlines, List.getElem?_map, hx] at hline
    obtain rfl : x.text.toList = line := Option.some.inj hline
    rw [String.toList_inj, TraceEntry.text_eq_text_iff]
  · obtain ⟨t, ht⟩ := exists_entries_of_mem_executedBy hx
    exact address_eq_none_iff_of_mem_entries ht
  · have hplace := location_of_not_movedAfter hleaves hy hstill
    rw [places, List.getElem?_cons_succ, List.getElem?_map, hx] at hplace
    exact Option.some.inj hplace

/-- An `STA` that overwrites its own operand, a breakpoint, a step that is refused for a word that
    is no opcode, `HLT`, and a run that finds the emulator halted: two lines, and the first says
    that the operand was 1. -/
theorem serve_trace_of_overwritten_operand :
    let e : Emulator :=
      ⟨{ breakpoints := [2], tracing := true },
        { registers := { accumulator := 7 }, memory := ⟨#[2, 1, 0]⟩ }⟩
    let calls : List Operation :=
      [.run (some 5), .write 2 99, .step, .write 2 0, .step, .run (some 2)]
    ∃ s text,
      e.serve calls = some ([.ok (.stopped .breakpoint), .ok .done,
        .error (.fault (.unknownOpcode 99 2)), .ok .done, .ok (.stopped .halt),
        .ok (.stopped .halt)], s) ∧
      s.control.steps = 2 ∧ Operation.showTrace.perform s = some (.ok (.text text), s) ∧
      (text.toList.splitOn '\n').length = 2 ∧
      ∀ d : TraceEntry, (text.toList.splitOn '\n')[0]? = some d.text.toList →
        d.location = 0 ∧ d.instruction = ⟨.sta, some 1⟩ ∧ d.after.location = 2 := by
  intro e calls
  let first : TraceEntry :=
    ⟨0, ⟨.sta, some 1⟩, Registers.readings { accumulator := 7, location := 2 }⟩
  let second : TraceEntry :=
    ⟨2, ⟨.hlt, none⟩, Registers.readings { accumulator := 7, location := 3 }⟩
  have hexecuted : e.executedBy calls = [first, second] := by
    simp only [e, calls, first, second]
    rfl
  have hserve : e.serve calls = some ([.ok (.stopped .breakpoint), .ok .done,
      .error (.fault (.unknownOpcode 99 2)), .ok .done, .ok (.stopped .halt),
      .ok (.stopped .halt)],
      ⟨{ halted := true, steps := 2, breakpoints := [2], tracing := true,
         trace := #[first, second] },
        { registers := { accumulator := 7, location := 3 }, memory := ⟨#[2, 7, 0]⟩ }⟩) := by
    simp only [e, calls, first, second]
    rfl
  have hleaves : ∀ operation ∈ calls, operation.LeavesTrace := by
    simp [calls, Operation.LeavesTrace]
  obtain ⟨-, hrecord⟩ := serve_trace e calls rfl rfl hleaves
  rw [hexecuted] at hrecord
  obtain ⟨hsteps, ⟨text, htext, -, hlines⟩, -, -⟩ := hrecord _ _ hserve
  obtain ⟨hlength, hshown⟩ := hlines (by simp)
  refine ⟨_, text, hserve, hsteps, htext, hlength, fun d hd => ?_⟩
  have hfirst := (hshown 0 first _ rfl hd d).1 rfl
  exact ⟨hfirst.location, hfirst.instruction, hfirst.next⟩

end Emulator

end WordMachine
