import WordMachine.Proofs.Run.Simulation
import WordMachine.Proofs.Session.Requests

set_option autoImplicit false

/-! # Tracing changes nothing else

An emulator on which tracing is off takes the same steps as one on which it is on
(`Emulator.step_untraced`), so their runs go round by round in the same way
(`Emulator.run_untraced`), and so do all operations that have nothing to do with the trace
themselves (`Operation.perform_untraced`, `Emulator.serve_untraced`). -/

namespace WordMachine

/-- Whether the operation has nothing to do with the trace, but for the instructions that it
    executes. -/
def Operation.LeavesTrace : Operation → Prop
  | .setTracing _ | .showTrace | .clearTrace | .reset => False
  | _ => True

namespace Emulator

/-- The emulator with tracing off and an empty trace. -/
def untraced (e : Emulator) : Emulator :=
  { e with control := (e.control.setTracing false).clearTrace }

/-! ## Steps and runs -/

theorem step_untraced (e : Emulator) : e.untraced.step = (e.step.1, e.step.2.untraced) := by
  obtain ⟨houtcome, hafter⟩ := step_related (R := fun x y => y = x.untraced) (e := e)
    (s := e.untraced) rfl rfl rfl rfl fun _ _ _ => ⟨rfl, rfl⟩
  exact Prod.ext houtcome.symm hafter

theorem proceedFor_untraced (e : Emulator) (n : Nat) :
    e.untraced.proceedFor n =
      match e.proceedFor n with
      | .ok s => .ok s.untraced
      | .error (outcome, s) => .error (outcome, s.untraced) := by
  have hround : ∀ x y : Emulator, y = x.untraced →
      Matched (fun x y => y = x.untraced) x.proceed y.proceed := by
    rintro x _ rfl
    exact .proceed rfl rfl (by rw [step_untraced]) (by rw [step_untraced])
  have hrounds := Matched.proceedFor hround n (e := e) rfl
  cases h : e.proceedFor n with
  | ok s =>
    rw [h] at hrounds
    obtain ⟨_, hs, rfl⟩ := hrounds.exists_of_ok
    exact hs
  | error stop =>
    rw [h] at hrounds
    obtain ⟨_, hs, rfl⟩ := hrounds.exists_of_error
    exact hs

theorem run_untraced (e : Emulator) (budget : Option Int) :
    e.untraced.run budget = (e.run budget).map fun (outcome, s) => (outcome, s.untraced) := by
  cases budget with
  | some n =>
    rw [run, run, runFor_eq, runFor_eq, proceedFor_untraced]
    cases e.proceedFor n.toNat <;> rfl
  | none =>
    have hlimit : e.untraced.roundLimit = e.roundLimit := rfl
    rw [run_none_eq, run_none_eq, hlimit, proceedFor_untraced]
    cases e.proceedFor e.roundLimit <;> rfl

theorem load_untraced (e : Emulator) (program : Program) :
    e.untraced.load program = (e.load program).map untraced := by
  rw [load, load]
  cases program.read with
  | error error => rfl
  | ok words =>
    have hmachine : e.untraced.machine = e.machine := rfl
    simp only [hmachine]
    cases e.machine.load words <;> rfl

end Emulator

/-! ## Operations -/

namespace Operation

theorem change_untraced (e : Emulator) (result : Except Error Machine) :
    change e.untraced result =
      (change e result).map fun (answer, s) => (answer, s.untraced) := by
  cases result <;> rfl

/-- Whether tracing is on changes no answer, and nothing but the trace. -/
theorem perform_untraced {operation : Operation} (h : operation.LeavesTrace) (e : Emulator) :
    operation.perform e.untraced =
      (operation.perform e).map fun (answer, s) => (answer, s.untraced) := by
  cases operation with
  | setTracing on | showTrace | clearTrace | reset => exact h.elim
  | write address value | writeRegister name value | writeIndex selector value
    | setLocation address => exact change_untraced e _
  | load program =>
    rw [perform, perform, Emulator.load_untraced]
    cases e.load program <;> rfl
  | step => simp only [perform_step, Emulator.step_untraced, Option.map_some]
  | run budget =>
    simp only [perform, Emulator.run_untraced, Option.map_map, Function.comp_def]
  | execute opcode address =>
    have hmachine : e.untraced.machine = e.machine := rfl
    rw [perform, perform]
    cases Opcode.ofNumber opcode with
    | error error => rfl
    | ok op =>
      simp only [hmachine]
      cases e.machine.execute op address <;> rfl
  | _ => rfl

end Operation

/-- Operations one after the other answer the same, and leave the same, whether tracing is on or
    not. -/
theorem Emulator.serve_untraced {calls : List Operation}
    (h : ∀ operation ∈ calls, operation.LeavesTrace) (e : Emulator) :
    e.untraced.serve calls =
      (e.serve calls).map fun (answers, s) => (answers, s.untraced) := by
  induction calls generalizing e with
  | nil => rfl
  | cons operation rest ih =>
    rw [serve, serve, Operation.perform_untraced (h operation List.mem_cons_self)]
    cases operation.perform e with
    | none => rfl
    | some result =>
      obtain ⟨answer, s⟩ := result
      have hrest := ih (fun later hlater => h later (List.mem_cons_of_mem _ hlater)) s
      simp only [Option.map_some, hrest, Option.map_map, Function.comp_def]

end WordMachine
