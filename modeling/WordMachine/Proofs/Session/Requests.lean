import WordMachine.Proofs.Session.Operations
import WordMachine.Proofs.Session.Seats

set_option autoImplicit false

/-! # Requests

A request is an operation that is asked of one emulator of a session. Requests add no emulators, so
which machine an emulator drives is the same before and after them (`drives_apply`).

What a single emulator makes of operations one after the other is `Emulator.serve`. If all requests
of a session are addressed to one emulator, the session answers what this emulator does
(`ask_eq_serve`). -/

namespace WordMachine

/-- An operation that is asked of the emulator with this number. -/
abbrev Request := Nat × Operation

/-- Performs operations one after the other, whatever they answer. Nothing is answered if one of
    them never ends. -/
def Emulator.serve (e : Emulator) : List Operation → Option (List (Except Error Answer) × Emulator)
  | [] => some ([], e)
  | operation :: rest =>
    match operation.perform e with
    | none => none
    | some (answer, s) => (s.serve rest).map fun (answers, s) => (answer :: answers, s)

/-- The requests to the emulators with such numbers. -/
def requestsTo (addressed : Nat → Bool) (requests : List Request) : List Request :=
  requests.filter (addressed ·.1)

/-- Of the answers to these requests, those to the emulators with such numbers. -/
def answersTo (addressed : Nat → Bool) (requests : List Request)
    (answers : List (Except Error Answer)) : List (Except Error Answer) :=
  ((requests.zip answers).filter (addressed ·.1.1)).map Prod.snd

namespace Session

/-- Carries out requests one after the other, whatever they answer. -/
def ask (s : Session) (requests : List Request) : Option (List (Except Error Answer) × Session) :=
  s.play (requests.map fun (number, operation) => .perform number operation)

/-- Whether the emulator with this number drives the machine with the number `k`. -/
def drives (s : Session) (k number : Nat) : Bool := s.seats[number]?.any (·.machine = k)

end Session

/-! ## Emulators -/

namespace Emulator

variable {e s : Emulator} {operation : Operation} {rest : List Operation}
  {answers : List (Except Error Answer)}

theorem serve_cons_iff :
    e.serve (operation :: rest) = some (answers, s) ↔
      ∃ answer mid later, operation.perform e = some (answer, mid) ∧
        mid.serve rest = some (later, s) ∧ answers = answer :: later := by
  rw [serve]
  cases operation.perform e with
  | none => simp
  | some result =>
    obtain ⟨answer, mid⟩ := result
    simp only [Option.map_eq_some_iff, Prod.exists, Prod.mk.injEq]
    constructor
    · rintro ⟨later, s, hrest, rfl, rfl⟩
      exact ⟨answer, mid, later, rfl, hrest, rfl⟩
    · rintro ⟨answer, mid, later, hfirst, hrest, rfl⟩
      cases hfirst
      exact ⟨later, s, hrest, rfl, rfl⟩

end Emulator

/-! ## Sessions -/

namespace Session

variable {s t : Session} {number k : Nat} {e : Emulator} {operation : Operation}
  {answer : Except Error Answer} {answers : List (Except Error Answer)} {request : Request}
  {requests : List Request}

theorem drives_iff : s.drives k number = true ↔ ∃ seat, s.seats[number]? = some seat ∧
    seat.machine = k := by
  rw [drives]
  cases s.seats[number]? with
  | none => simp
  | some seat => simp

theorem apply_perform_of_no_emulator (he : s.emulator? number = none) :
    s.apply (.perform number operation) = some (.error (.noSuchEmulator number), s) := by
  rw [apply, he]

/-- Requests leave every emulator at its machine. -/
theorem drives_apply (h : s.apply (.perform number operation) = some (answer, t)) :
    t.drives = s.drives := by
  cases he : s.emulator? number with
  | none => rw [apply_perform_of_no_emulator he] at h; cases h; rfl
  | some e =>
    obtain ⟨new, -, rfl⟩ := (apply_perform_iff he).1 h
    obtain ⟨seat, hseat, -⟩ := emulator?_eq_some_iff.1 he
    funext k other
    rw [drives, drives, seats_update hseat]
    split
    · next heq => rw [heq, hseat]; rfl
    · rfl

theorem ask_cons_iff :
    s.ask (request :: requests) = some (answers, t) ↔
      ∃ answer mid later, s.apply (.perform request.1 request.2) = some (answer, mid) ∧
        mid.ask requests = some (later, t) ∧ answers = answer :: later :=
  play_cons_iff

theorem ask_append_iff {earlier later : List Request} :
    s.ask (earlier ++ later) = some (answers, t) ↔
      ∃ first mid second, s.ask earlier = some (first, mid) ∧
        mid.ask later = some (second, t) ∧ answers = first ++ second := by
  rw [ask, List.map_append]
  exact play_append_iff

theorem length_of_ask (h : s.ask requests = some (answers, t)) :
    answers.length = requests.length :=
  (length_of_play h).trans (List.length_map ..)

theorem drives_ask (h : s.ask requests = some (answers, t)) : t.drives = s.drives := by
  induction requests generalizing s answers with
  | nil => cases h; rfl
  | cons request rest ih =>
    obtain ⟨answer, mid, later, happly, hrest, -⟩ := ask_cons_iff.1 h
    rw [ih hrest, drives_apply happly]

/-- A request leaves the emulators alone that it is not addressed to. -/
theorem seats_apply_of_ne (h : s.apply (.perform number operation) = some (answer, t))
    (hne : k ≠ number) : t.seats[k]? = s.seats[k]? := by
  cases he : s.emulator? number with
  | none => rw [apply_perform_of_no_emulator he] at h; cases h; rfl
  | some e =>
    obtain ⟨new, -, rfl⟩ := (apply_perform_iff he).1 h
    obtain ⟨seat, hseat, -⟩ := emulator?_eq_some_iff.1 he
    rw [seats_update hseat, if_neg hne]

theorem seats_ask_of_not_addressed (h : s.ask requests = some (answers, t))
    (hnone : ∀ request ∈ requests, request.1 ≠ number) : t.seats[number]? = s.seats[number]? := by
  induction requests generalizing s answers with
  | nil => cases h; rfl
  | cons request rest ih =>
    obtain ⟨answer, mid, later, happly, hrest, -⟩ := ask_cons_iff.1 h
    have hfirst := seats_apply_of_ne happly (hnone request List.mem_cons_self).symm
    rw [ih hrest fun other hother => hnone other (List.mem_cons_of_mem _ hother), hfirst]

/-- If all operations are asked of one emulator, the session answers as this one does, and nothing
    else in it changes. -/
theorem ask_eq_serve (operations : List Operation) (he : s.emulator? number = some e) :
    s.ask (operations.map (number, ·)) =
      (e.serve operations).map fun (answers, last) => (answers, s.update number last) := by
  induction operations generalizing s e with
  | nil =>
    simp only [Emulator.serve, Option.map_some, update_self he]
    rfl
  | cons operation rest ih =>
    cases hperform : operation.perform e with
    | none => simp only [ask, List.map_cons, play, apply, he, Emulator.serve, hperform,
        Option.map_none]
    | some result =>
      obtain ⟨answer, new⟩ := result
      have hnew : (s.update number new).emulator? number = some new := emulator?_update_self he
      have hrest := ih hnew
      simp only [ask, List.map_cons] at hrest ⊢
      simp only [play, apply, he, Emulator.serve, hperform, Option.map_some, hrest,
        Option.map_map, Function.comp_def, update_update]

end Session

end WordMachine
