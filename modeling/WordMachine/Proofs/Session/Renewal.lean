import WordMachine.Proofs.Session.Invariant
import WordMachine.Proofs.Session.Separation

set_option autoImplicit false

/-! # Emulators that are made new

A reset makes an emulator what a newly created one is on which tracing was then turned on or off as
before (`Emulator.exists_ofSize_setTracing_eq_reset`). As an emulator is its control and its machine
and nothing else, no operation can tell them apart, and by `Session.ask_eq_serve` no operations one
after the other. If nobody else drives the machine, this is so for operations among any others
(`Session.exists_serve_of_ask`). Other emulators of the machine find it all zero and keep what is
their own (`Session.emulator?_update_of_ne`). -/

namespace WordMachine

namespace Emulator

variable {e : Emulator} {size : Nat}

theorem reset_eq (h : e.machine.memory.size = size) :
    e.reset = ⟨{ tracing := e.control.tracing }, { memory := Memory.zeros size }⟩ := by
  rw [← h]
  rfl

/-- A reset emulator is a new one, with tracing as it was. -/
theorem exists_ofSize_setTracing_eq_reset (hsize : e.machine.memory.size = size) (hpos : 0 < size) :
    ∃ fresh, ofSize size = .ok fresh ∧
      (Operation.setTracing e.control.tracing).perform fresh = some (.ok .done, e.reset) := by
  refine ⟨_, ofSize_of_pos hpos, ?_⟩
  rw [reset_eq hsize]
  rfl

end Emulator

namespace Session

variable {s t u : Session} {number : Nat} {seat : Seat} {e : Emulator} {requests : List Request}
  {answers : List (Except Error Answer)}

/-- The operations among the requests that are asked of one emulator. -/
def operationsOf (number : Nat) (requests : List Request) : List Operation :=
  (requestsTo (· = number) requests).map Prod.snd

theorem map_operationsOf (number : Nat) (requests : List Request) :
    (operationsOf number requests).map (number, ·) = requestsTo (· = number) requests := by
  rw [operationsOf, List.map_map]
  have hsame : ∀ request ∈ requestsTo (· = number) requests,
      ((number, ·) ∘ Prod.snd) request = request := by
    intro request hrequest
    have hnumber : request.1 = number := of_decide_eq_true (List.mem_filter.1 hrequest).2
    exact Prod.ext hnumber.symm rfl
  rw [List.map_congr_left hsame, List.map_id']

/-- The only emulator of a machine answers what is asked of it as if nothing were asked of
    others. -/
theorem exists_serve_of_ask (he : s.emulator? number = some e)
    (hseat : s.seats[number]? = some seat)
    (hsole : ∀ (k : Nat) (other : Seat), s.seats[k]? = some other →
      other.machine = seat.machine → k = number)
    (hask : s.ask requests = some (answers, t)) :
    ∃ last, e.serve (operationsOf number requests) =
        some (answersTo (· = number) requests answers, last) ∧
      t.emulator? number = some last := by
  have hself : s.drives seat.machine number = true := drives_iff.2 ⟨seat, hseat, rfl⟩
  have hdrives : s.drives seat.machine = (· = number) := by
    funext k
    rw [Bool.eq_iff_iff, decide_eq_true_iff]
    constructor
    · intro hk
      obtain ⟨other, hother, hmachine⟩ := drives_iff.1 hk
      exact hsole k other hother hmachine
    · rintro rfl
      exact hself
  obtain ⟨u, hu, hagree⟩ := (AgreeOn.refl seat.machine s).ask_requestsTo hask
  rw [hdrives, ← map_operationsOf, ask_eq_serve _ he] at hu
  obtain ⟨⟨own, last⟩, hserve, hown⟩ := Option.map_eq_some_iff.1 hu
  cases hown
  refine ⟨last, hserve, ?_⟩
  rw [hagree.emulator?_eq (by rw [drives_ask hask, hself]), emulator?_update_self he]

/-- A reset makes an emulator as good as new. Let an emulator be given after any commands to any
    emulators. A reset of it is done, and makes it an emulator of a new machine with as many cells
    as its machine was created with, on which tracing was turned on or off as it was. Whatever
    operations are then asked of it, it answers as that new one does, or refuses as that does, and
    is the same at the end; if nobody else drives its machine, this is so whatever is asked of other
    emulators in between. The others that drive its machine find the registers and the memory zero,
    and keep all that is their own; those of other machines are as they were. -/
theorem play_reset (commands : List Command) (answers : List (Except Error Answer)) (s : Session)
    (h : ({} : Session).play commands = some (answers, s)) (number : Nat) (e : Emulator)
    (he : s.emulator? number = some e) :
    ∃ (seat : Seat) (size : Nat) (t : Session) (fresh started : Emulator),
      s.seats[number]? = some seat ∧ (createdSizes commands)[seat.machine]? = some size ∧
      s.apply (.perform number .reset) = some (.ok .done, t) ∧
      Emulator.ofSize size = .ok fresh ∧
      (Operation.setTracing e.control.tracing).perform fresh = some (.ok .done, started) ∧
      t.emulator? number = some started ∧
      (∀ operations : List Operation,
        (t.ask (operations.map (number, ·))).map
            (fun (answers, last) => (answers, last.emulator? number)) =
          (started.serve operations).map fun (answers, last) => (answers, some last)) ∧
      ((∀ (k : Nat) (other : Seat), s.seats[k]? = some other → other.machine = seat.machine →
          k = number) →
        ∀ requests answers u, t.ask requests = some (answers, u) →
          ∃ last, started.serve (operationsOf number requests) =
              some (answersTo (· = number) requests answers, last) ∧
            u.emulator? number = some last) ∧
      ∀ (k : Nat) (other : Seat), k ≠ number → s.seats[k]? = some other →
        t.emulator? k =
          if other.machine = seat.machine then
            some ⟨other.control, { registers := {}, memory := Memory.zeros size }⟩
          else s.emulator? k := by
  obtain ⟨seat, size, hseat, hsize, hpos, hsound⟩ := (play_sound sound_empty h).emulator? he
  have hcells : e.machine.memory.size = size := hsound.within.size_eq
  obtain ⟨fresh, hfresh, hstarted⟩ := Emulator.exists_ofSize_setTracing_eq_reset hcells hpos
  have hreset : (s.update number e.reset).emulator? number = some e.reset :=
    emulator?_update_self he
  refine ⟨seat, size, s.update number e.reset, fresh, e.reset, hseat, hsize,
    (apply_perform_iff he).2 ⟨e.reset, rfl, rfl⟩, hfresh, hstarted, hreset,
    fun operations => ?_, fun hsole requests answers u hask => ?_, fun k other hne hother => ?_⟩
  · simp only [ask_eq_serve operations hreset, Option.map_map, Function.comp_def,
      emulator?_update_self hreset]
  · have hown : (s.update number e.reset).seats[number]? =
        some { seat with control := e.reset.control } := by
      rw [seats_update hseat, if_pos rfl]
    refine exists_serve_of_ask hreset hown (fun k other hother hmachine => ?_) hask
    by_cases hk : k = number
    · exact hk
    · rw [seats_update hseat, if_neg hk] at hother
      exact hsole k other hother hmachine
  · rw [emulator?_update_of_ne he hseat hother hne, Emulator.reset_eq hcells]

/-- Three emulators. The first is alone at its machine and stopped at a breakpoint after an `LDA`
    that it recorded; it is made new and then executes, with the others in between, what is loaded
    anew. The other two share a machine: when one of them is made new, the other finds its word gone
    and keeps its breakpoint and its count. -/
theorem play_reset_traced :
    let commands : List Command :=
      [.create 4, .perform 0 (.setTracing true), .perform 0 (.load (.words [1, 3, 0, 7])),
        .perform 0 (.addBreakpoint 2), .perform 0 (.run (some 5)), .create 2, .share 1,
        .perform 2 (.addBreakpoint 1), .perform 2 (.write 1 9), .perform 2 .step]
    let requests : List Request :=
      [(0, .load (.words [1, 3])), (1, .write 0 5), (0, .run (some 2)), (2, .reset),
        (0, .showTrace)]
    ∃ answers s t fresh started, ({} : Session).play commands = some (answers, s) ∧
      (s.control 0).resumeFrom = some 2 ∧
      s.apply (.perform 0 .reset) = some (.ok .done, t) ∧
      Emulator.ofSize 4 = .ok fresh ∧
      (Operation.setTracing true).perform fresh = some (.ok .done, started) ∧
      (∃ answers u last, t.ask requests = some (answers, u) ∧
        started.serve [.load (.words [1, 3]), .run (some 2), .showTrace] =
          some (answersTo (· = 0) requests answers, last) ∧
        u.emulator? 0 = some last) ∧
      ∃ u, s.apply (.perform 1 .reset) = some (.ok .done, u) ∧
        u.emulator? 2 = some
          ⟨{ breakpoints := [1], steps := 1, halted := true }, { memory := Memory.zeros 2 }⟩ := by
  intro commands requests
  let entry : TraceEntry :=
    ⟨0, ⟨.lda, some 3⟩, Registers.readings { accumulator := 7, location := 2 }⟩
  let first : Emulator :=
    ⟨{ steps := 1, breakpoints := [2], resumeFrom := some 2, tracing := true, trace := #[entry] },
      { registers := { accumulator := 7, location := 2 }, memory := ⟨#[1, 3, 0, 7]⟩ }⟩
  let s : Session :=
    ⟨#[first.machine, { registers := { location := 1 }, memory := ⟨#[0, 9]⟩ }],
      #[⟨0, first.control⟩, ⟨1, {}⟩, ⟨1, { breakpoints := [1], steps := 1, halted := true }⟩]⟩
  let renewed : Session :=
    ⟨#[{ memory := ⟨#[0, 0, 0, 0]⟩ }, { registers := { location := 1 }, memory := ⟨#[0, 9]⟩ }],
      #[⟨0, { tracing := true }⟩, ⟨1, {}⟩,
        ⟨1, { breakpoints := [1], steps := 1, halted := true }⟩]⟩
  have hplay : ({} : Session).play commands =
      some ([.ok .done, .ok .done, .ok .done, .ok .done, .ok (.stopped .breakpoint), .ok .done,
        .ok .done, .ok .done, .ok .done, .ok (.stopped .halt)], s) := by
    simp only [s, first, entry, commands]
    rfl
  have hothers : ∀ (k : Nat) (other : Seat), s.seats[k]? = some other → other.machine = 0 →
      k = 0 := by
    intro k other hother hmachine
    rcases k with _ | _ | _ | k
    · rfl
    · cases hother
      cases hmachine
    · cases hother
      cases hmachine
    · cases hother
  obtain ⟨seat, size, t, fresh, started, hseat, hsize, hreset, hfresh, hstarted, -, -, hsole, -⟩ :=
    play_reset commands _ s hplay 0 first rfl
  obtain rfl : ⟨0, first.control⟩ = seat := Option.some.inj hseat
  obtain rfl : 4 = size := Option.some.inj hsize
  obtain ⟨⟨later, u⟩, hask⟩ : ∃ result, t.ask requests = some result := by
    obtain rfl : t = renewed := by
      cases hreset
      rfl
    exact ⟨_, rfl⟩
  obtain ⟨last, hserve, hlast⟩ := hsole hothers requests later u hask
  obtain ⟨seat, size, v, -, -, hseat, hsize, hshared, -, -, -, -, -, hseen⟩ :=
    play_reset commands _ s hplay 1 ⟨{}, { registers := { location := 1 }, memory := ⟨#[0, 9]⟩ }⟩
      rfl
  obtain rfl : (⟨1, {}⟩ : Seat) = seat := Option.some.inj hseat
  obtain rfl : 2 = size := Option.some.inj hsize
  exact ⟨_, s, t, fresh, started, hplay, rfl, hreset, hfresh, hstarted,
    ⟨later, u, last, hask, hserve, hlast⟩, v, hshared, hseen 2 _ (by decide) rfl⟩

end Session

end WordMachine
