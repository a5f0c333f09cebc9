import WordMachine.Session

set_option autoImplicit false

/-! # Seats

What the commands of a session leave of its seats and machines. Putting an emulator back changes
its own seat and the machine that it drives (`seats_update`, `emulator?_update_self`); if that
machine is as before, no other emulator sees a change (`emulator?_update_of_machine_eq`). The
control of an emulator is changed by the operations on it alone (`control_apply`). Commands played
one after the other are taken apart at their first (`play_cons_iff`), at their last
(`play_concat_iff`) and anywhere between (`play_append_iff`). -/

namespace WordMachine

/-- The operation that the command performs on the emulator with this number, if it does, with the
    emulator before. -/
def Command.performed (number : Nat) (s : Session) : Command → Option (Emulator × Operation)
  | .perform k operation => if k = number then (s.emulator? k).map (·, operation) else none
  | _ => none

namespace Session

/-- What the emulator with this number keeps beside its machine, or will begin with if it is not
    there yet. -/
def control (number : Nat) (s : Session) : Control := s.seats[number]?.elim {} Seat.control

variable {s t : Session} {number k : Nat} {seat : Seat} {e new : Emulator}
  {operation : Operation} {answer : Except Error Answer}

theorem emulator?_eq_some_iff :
    s.emulator? number = some e ↔
      ∃ seat, s.seats[number]? = some seat ∧ s.machines[seat.machine]? = some e.machine ∧
        seat.control = e.control := by
  unfold emulator?
  cases s.seats[number]? with
  | none => simp
  | some seat =>
    simp only [Option.map_eq_some_iff, Option.some.injEq, exists_eq_left']
    constructor
    · rintro ⟨machine, hmachine, rfl⟩
      exact ⟨hmachine, rfl⟩
    · rintro ⟨hmachine, hcontrol⟩
      exact ⟨e.machine, hmachine, by rw [hcontrol]⟩

theorem seats_addSeat (s : Session) (machine k : Nat) :
    (s.addSeat machine).seats[k]? = if k = s.seats.size then some { machine } else s.seats[k]? :=
  Array.getElem?_push

theorem seats_update (h : s.seats[number]? = some seat) (k : Nat) :
    (s.update number new).seats[k]? =
      if k = number then some { seat with control := new.control } else s.seats[k]? := by
  obtain ⟨hlt, -⟩ := Array.getElem?_eq_some_iff.1 h
  simp only [update, h, Array.getElem?_setIfInBounds]
  by_cases hk : k = number
  · rw [if_pos hk.symm, if_pos hlt, if_pos hk]
  · rw [if_neg (Ne.symm hk), if_neg hk]

theorem machines_update (h : s.seats[number]? = some seat) (hlt : seat.machine < s.machines.size)
    (k : Nat) :
    (s.update number new).machines[k]? =
      if k = seat.machine then some new.machine else s.machines[k]? := by
  simp only [update, h, Array.getElem?_setIfInBounds]
  by_cases hk : k = seat.machine
  · rw [if_pos hk.symm, if_pos hlt, if_pos hk]
  · rw [if_neg (Ne.symm hk), if_neg hk]

/-- An emulator that is put back is there. -/
theorem emulator?_update_self (h : s.emulator? number = some e) :
    (s.update number new).emulator? number = some new := by
  obtain ⟨seat, hseat, hmachine, -⟩ := emulator?_eq_some_iff.1 h
  obtain ⟨hlt, -⟩ := Array.getElem?_eq_some_iff.1 hmachine
  refine emulator?_eq_some_iff.2 ⟨{ seat with control := new.control }, ?_, ?_, rfl⟩
  · rw [seats_update hseat, if_pos rfl]
  · simp only [update, hseat, Array.getElem?_setIfInBounds, if_true, if_pos hlt]

/-- The machines are as before if the one that is put back is. -/
theorem machines_update_of_machine_eq (h : s.emulator? number = some e)
    (hmachine : new.machine = e.machine) : (s.update number new).machines = s.machines := by
  obtain ⟨seat, hseat, hfound, -⟩ := emulator?_eq_some_iff.1 h
  simp only [update, hseat, hmachine]
  refine Array.ext_getElem? fun k => ?_
  rw [Array.getElem?_setIfInBounds]
  split
  · next heq =>
    subst heq
    rw [if_pos (Array.getElem?_eq_some_iff.1 hfound).1, hfound]
  · rfl

theorem emulator?_update_of_machine_eq (h : s.emulator? number = some e)
    (hmachine : new.machine = e.machine) (hne : k ≠ number) :
    (s.update number new).emulator? k = s.emulator? k := by
  obtain ⟨seat, hseat, -⟩ := emulator?_eq_some_iff.1 h
  unfold emulator?
  rw [seats_update hseat, if_neg hne, machines_update_of_machine_eq h hmachine]

/-- The other emulators of its machine see the machine that is put back with an emulator, and each
    keeps its own control; those of other machines see nothing. -/
theorem emulator?_update_of_ne {other : Seat} (h : s.emulator? number = some e)
    (hseat : s.seats[number]? = some seat) (hother : s.seats[k]? = some other) (hne : k ≠ number) :
    (s.update number new).emulator? k =
      if other.machine = seat.machine then some ⟨other.control, new.machine⟩
      else s.emulator? k := by
  obtain ⟨found, hfound, hmachine, -⟩ := emulator?_eq_some_iff.1 h
  obtain rfl : found = seat := Option.some.inj (hfound.symm.trans hseat)
  obtain ⟨hlt, -⟩ := Array.getElem?_eq_some_iff.1 hmachine
  simp only [emulator?, seats_update hseat, if_neg hne, hother, machines_update hseat hlt]
  split <;> rfl

/-- Putting an emulator back as it was changes nothing. -/
theorem update_self (h : s.emulator? number = some e) : s.update number e = s := by
  obtain ⟨seat, hseat, -, hcontrol⟩ := emulator?_eq_some_iff.1 h
  have hmachines := machines_update_of_machine_eq h rfl
  have hseats : (s.update number e).seats = s.seats := by
    refine Array.ext_getElem? fun k => ?_
    rw [seats_update hseat]
    split
    · next heq => rw [heq, hseat, ← hcontrol]
    · rfl
  calc
    s.update number e = ⟨(s.update number e).machines, (s.update number e).seats⟩ := rfl
    _ = s := by rw [hmachines, hseats]

/-- An emulator that is put back twice is put back as it was last. -/
theorem update_update (s : Session) (number : Nat) (new last : Emulator) :
    (s.update number new).update number last = s.update number last := by
  cases hseat : s.seats[number]? with
  | none => simp only [update, hseat]
  | some seat =>
    have hnew : (s.update number new).seats[number]? =
        some { seat with control := new.control } := by
      rw [seats_update hseat, if_pos rfl]
    rw [update, hnew]
    simp only [update, hseat, Array.setIfInBounds_setIfInBounds]

/-! ## Commands -/

/-- A command to perform an operation performs it on the emulator and puts that back. -/
theorem apply_perform_iff (he : s.emulator? number = some e) :
    s.apply (.perform number operation) = some (answer, t) ↔
      ∃ new, operation.perform e = some (answer, new) ∧ s.update number new = t := by
  simp only [apply, he, Option.map_eq_some_iff, Prod.exists, Prod.mk.injEq]
  constructor
  · rintro ⟨_, new, hperform, rfl, hupdate⟩
    exact ⟨new, hperform, hupdate⟩
  · rintro ⟨new, hperform, hupdate⟩
    exact ⟨answer, new, hperform, rfl, hupdate⟩

/-- An operation that leaves the emulator as it was leaves the session as it was. -/
theorem apply_of_perform (he : s.emulator? number = some e)
    (h : operation.perform e = some (answer, e)) :
    s.apply (.perform number operation) = some (answer, s) :=
  (apply_perform_iff he).2 ⟨e, h, update_self he⟩

theorem control_of_emulator? (he : s.emulator? number = some e) : s.control number = e.control := by
  obtain ⟨seat, hseat, -, hcontrol⟩ := emulator?_eq_some_iff.1 he
  rw [control, hseat]
  exact hcontrol

theorem control_addSeat (s : Session) (machine number : Nat) :
    (s.addSeat machine).control number = s.control number := by
  rw [control, control, seats_addSeat]
  split
  · next heq =>
    rw [Array.getElem?_eq_none (Nat.le_of_eq heq.symm)]
    rfl
  · rfl

theorem control_update (he : s.emulator? k = some e) (hne : k ≠ number) :
    (s.update k new).control number = s.control number := by
  obtain ⟨seat, hseat, -⟩ := emulator?_eq_some_iff.1 he
  rw [control, control, seats_update hseat, if_neg (Ne.symm hne)]

/-- A command performs no operation on an emulator and leaves its control as it was, or performs one
    that decides the control. -/
theorem control_apply {command : Command} (h : s.apply command = some (answer, t)) (number : Nat) :
    (command.performed number s = none ∧ t.control number = s.control number) ∨
      ∃ e operation new, command.performed number s = some (e, operation) ∧
        command = .perform number operation ∧ operation.perform e = some (answer, new) ∧
        s.control number = e.control ∧ t.control number = new.control := by
  cases command with
  | create memorySize =>
    refine Or.inl ⟨rfl, ?_⟩
    simp only [apply] at h
    split at h
    · cases h; rfl
    · cases h; exact control_addSeat ..
  | share k =>
    refine Or.inl ⟨rfl, ?_⟩
    simp only [apply] at h
    split at h
    · cases h; rfl
    · cases h; exact control_addSeat ..
  | perform k operation =>
    cases he : s.emulator? k with
    | none =>
      simp only [apply, he] at h
      cases h
      exact Or.inl ⟨by simp [Command.performed, he], rfl⟩
    | some e =>
      obtain ⟨new, hperform, rfl⟩ := (apply_perform_iff he).1 h
      by_cases hk : k = number
      · subst hk
        exact Or.inr ⟨e, operation, new, by simp [Command.performed, he], rfl, hperform,
          control_of_emulator? he, control_of_emulator? (emulator?_update_self he)⟩
      · exact Or.inl ⟨if_neg hk, control_update he hk⟩

/-- No command takes an emulator away. -/
theorem size_seats_apply {command : Command} (h : s.apply command = some (answer, t)) :
    s.seats.size ≤ t.seats.size := by
  cases command with
  | create memorySize =>
    simp only [apply] at h
    split at h <;> cases h <;> simp [addSeat]
  | share k =>
    simp only [apply] at h
    split at h <;> cases h <;> simp [addSeat]
  | perform k operation =>
    simp only [apply] at h
    split at h
    · cases h; exact Nat.le_refl _
    · obtain ⟨⟨_, new⟩, -, hafter⟩ := Option.map_eq_some_iff.1 h
      cases hafter
      unfold update
      split <;> simp

/-! ## Playing -/

theorem play_cons_iff {command : Command} {rest : List Command}
    {answers : List (Except Error Answer)} :
    s.play (command :: rest) = some (answers, t) ↔
      ∃ answer mid later, s.apply command = some (answer, mid) ∧
        mid.play rest = some (later, t) ∧ answers = answer :: later := by
  rw [play]
  cases s.apply command with
  | none => simp
  | some result =>
    obtain ⟨answer, mid⟩ := result
    simp only [Option.map_eq_some_iff, Prod.exists, Prod.mk.injEq]
    constructor
    · rintro ⟨later, t, hplay, rfl, rfl⟩
      exact ⟨answer, mid, later, rfl, hplay, rfl⟩
    · rintro ⟨answer, mid, later, hfirst, hplay, rfl⟩
      cases hfirst
      exact ⟨later, t, hplay, rfl, rfl⟩

/-- Commands played after others go on where those led to. -/
theorem play_append_iff {earlier later : List Command} {answers : List (Except Error Answer)} :
    s.play (earlier ++ later) = some (answers, t) ↔
      ∃ first mid second, s.play earlier = some (first, mid) ∧
        mid.play later = some (second, t) ∧ answers = first ++ second := by
  induction earlier generalizing s answers with
  | nil =>
    constructor
    · intro h
      exact ⟨[], s, answers, rfl, h, rfl⟩
    · rintro ⟨first, mid, second, hfirst, hsecond, rfl⟩
      cases hfirst
      exact hsecond
  | cons command rest ih =>
    rw [List.cons_append, play_cons_iff]
    constructor
    · rintro ⟨answer, next, more, happly, hplay, rfl⟩
      obtain ⟨first, mid, second, hrest, hsecond, rfl⟩ := ih.1 hplay
      have hfirst := play_cons_iff.2 ⟨_, _, _, happly, hrest, rfl⟩
      exact ⟨answer :: first, mid, second, hfirst, hsecond, rfl⟩
    · rintro ⟨first, mid, second, hplay, hsecond, rfl⟩
      obtain ⟨answer, next, more, happly, hrest, rfl⟩ := play_cons_iff.1 hplay
      exact ⟨answer, next, more ++ second, happly, ih.2 ⟨_, _, _, hrest, hsecond, rfl⟩, rfl⟩

/-- The last of the commands taken apart. -/
theorem play_concat_iff {commands : List Command} {command : Command}
    {answers : List (Except Error Answer)} :
    s.play (commands ++ [command]) = some (answers, t) ↔
      ∃ earlier mid answer, s.play commands = some (earlier, mid) ∧
        mid.apply command = some (answer, t) ∧ answers = earlier ++ [answer] := by
  rw [play_append_iff]
  constructor
  · rintro ⟨earlier, mid, second, hplay, hlast, rfl⟩
    obtain ⟨answer, final, later, happly, hnil, rfl⟩ := play_cons_iff.1 hlast
    cases hnil
    exact ⟨earlier, mid, answer, hplay, happly, rfl⟩
  · rintro ⟨earlier, mid, answer, hplay, happly, rfl⟩
    exact ⟨earlier, mid, [answer], hplay, play_cons_iff.2 ⟨answer, t, [], happly, rfl, rfl⟩, rfl⟩

/-- Every command is answered. -/
theorem length_of_play {commands : List Command} {answers : List (Except Error Answer)}
    (h : s.play commands = some (answers, t)) : answers.length = commands.length := by
  induction commands generalizing s answers with
  | nil => cases h; rfl
  | cons command rest ih =>
    obtain ⟨answer, mid, later, -, hrest, rfl⟩ := play_cons_iff.1 h
    rw [List.length_cons, List.length_cons, ih hrest]

theorem size_seats_play {commands : List Command} {answers : List (Except Error Answer)}
    (h : s.play commands = some (answers, t)) : s.seats.size ≤ t.seats.size := by
  induction commands generalizing s answers with
  | nil => cases h; exact Nat.le_refl _
  | cons command rest ih =>
    obtain ⟨answer, mid, later, happly, hrest, -⟩ := play_cons_iff.1 h
    exact Nat.le_trans (size_seats_apply happly) (ih hrest)

end Session

end WordMachine
