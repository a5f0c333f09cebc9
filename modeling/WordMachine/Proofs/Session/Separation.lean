import WordMachine.Proofs.Session.Requests

set_option autoImplicit false

/-! # Machines are separate

A request touches the machine of the emulator that it is addressed to, and this emulator's own
control, and looks at nothing else. So of a session only the part around one machine matters to the
emulators that drive it: sessions that agree on this part (`Session.AgreeOn`) answer a request to
one of these emulators in the same way and agree again after it (`AgreeOn.apply`), and a request to
any other emulator leaves the part as it was (`agreeOn_of_not_drives`).

By induction over the requests, those to the emulators of one machine are answered as if they had
been all (`AgreeOn.ask_requestsTo`), and a session ends if each of its parts ends
(`isSome_ask_iff`). Neighbouring requests to emulators of different machines can be exchanged
(`apply_comm`). -/

namespace WordMachine.Session

/-- The sessions have the machine with this number in common, and the emulators that drive it. -/
structure AgreeOn (k : Nat) (s t : Session) : Prop where
  machine : s.machines[k]? = t.machines[k]?
  seats : ∀ (number : Nat) (seat : Seat), seat.machine = k →
    (s.seats[number]? = some seat ↔ t.seats[number]? = some seat)

variable {s s' t t' : Session} {k l number other : Nat} {operation : Operation}
  {answer : Except Error Answer} {answers : List (Except Error Answer)} {requests : List Request}

theorem AgreeOn.refl (k : Nat) (s : Session) : AgreeOn k s s := ⟨rfl, fun _ _ _ => Iff.rfl⟩

theorem AgreeOn.symm (h : AgreeOn k s t) : AgreeOn k t s :=
  ⟨h.machine.symm, fun number seat hseat => (h.seats number seat hseat).symm⟩

theorem AgreeOn.trans (h : AgreeOn k s t) (h' : AgreeOn k t t') : AgreeOn k s t' :=
  ⟨h.machine.trans h'.machine, fun number seat hseat =>
    (h.seats number seat hseat).trans (h'.seats number seat hseat)⟩

/-- Sessions that agree on every machine are the same. -/
theorem eq_of_agreeOn (h : ∀ k, AgreeOn k s t) : s = t := by
  obtain ⟨machines, seats⟩ := s
  obtain ⟨machines', seats'⟩ := t
  have hmachines : machines = machines' := Array.ext_getElem? fun k => (h k).machine
  have hseats : seats = seats' := by
    refine Array.ext_getElem? fun number => Option.ext fun seat => ?_
    exact (h seat.machine).seats number seat rfl
  rw [hmachines, hseats]

/-! ## One request -/

/-- An emulator drives one machine only. -/
theorem drives_eq_false (h : s.drives k number = true) (hne : l ≠ k) :
    s.drives l number = false := by
  obtain ⟨seat, hseat, rfl⟩ := drives_iff.1 h
  simp [drives, hseat, Ne.symm hne]

theorem AgreeOn.seats_eq (h : AgreeOn k s t) (hdrives : s.drives k number = true) :
    s.seats[number]? = t.seats[number]? := by
  obtain ⟨seat, hseat, hk⟩ := drives_iff.1 hdrives
  rw [hseat, (h.seats number seat hk).1 hseat]

theorem AgreeOn.emulator?_eq (h : AgreeOn k s t) (hdrives : s.drives k number = true) :
    s.emulator? number = t.emulator? number := by
  obtain ⟨seat, hseat, rfl⟩ := drives_iff.1 hdrives
  rw [emulator?, emulator?, ← h.seats_eq hdrives, hseat]
  simp only [h.machine]

/-- An emulator that is put back changes the part of its own machine alone. -/
theorem agreeOn_update {seat : Seat} {new : Emulator} (hseat : s.seats[number]? = some seat)
    (hne : seat.machine ≠ k) : AgreeOn k s (s.update number new) where
  machine := by
    simp only [update, hseat, Array.getElem?_setIfInBounds, if_neg hne]
  seats other found hfound := by
    rw [seats_update hseat]
    split
    · next heq =>
      subst heq
      constructor
      · intro h
        rw [hseat] at h
        cases h
        exact absurd hfound hne
      · intro h
        cases h
        exact absurd hfound hne
    · exact Iff.rfl

theorem AgreeOn.update {new : Emulator} (h : AgreeOn k s t) (hdrives : s.drives k number = true) :
    AgreeOn k (s.update number new) (t.update number new) := by
  obtain ⟨seat, hseat, rfl⟩ := drives_iff.1 hdrives
  have hother : t.seats[number]? = some seat := (h.seats number seat rfl).1 hseat
  refine ⟨?_, fun other found hfound => ?_⟩
  · have hsize : seat.machine < s.machines.size ↔ seat.machine < t.machines.size := by
      rw [← Nat.not_le, ← Nat.not_le, ← Array.getElem?_eq_none_iff, ← Array.getElem?_eq_none_iff,
        h.machine]
    simp only [Session.update, hseat, hother, Array.getElem?_setIfInBounds, if_true, hsize]
  · rw [seats_update hseat, seats_update hother]
    split
    · exact Iff.rfl
    · exact h.seats other found hfound

/-- A request to an emulator that does not drive the machine leaves its part as it was. -/
theorem agreeOn_of_not_drives (h : s.apply (.perform number operation) = some (answer, t))
    (hdrives : s.drives k number = false) : AgreeOn k s t := by
  cases he : s.emulator? number with
  | none => rw [apply_perform_of_no_emulator he] at h; cases h; exact .refl k s
  | some e =>
    obtain ⟨new, -, rfl⟩ := (apply_perform_iff he).1 h
    obtain ⟨seat, hseat, -⟩ := emulator?_eq_some_iff.1 he
    refine agreeOn_update hseat fun hk => ?_
    rw [drives_iff.2 ⟨seat, hseat, hk⟩] at hdrives
    cases hdrives

/-- Sessions that agree on a machine answer in the same way for the emulators that drive it. -/
theorem AgreeOn.apply (h : AgreeOn k s s') (hdrives : s.drives k number = true)
    (happly : s.apply (.perform number operation) = some (answer, t)) :
    ∃ t', s'.apply (.perform number operation) = some (answer, t') ∧ AgreeOn k t t' := by
  have hemulator := h.emulator?_eq hdrives
  cases he : s.emulator? number with
  | none =>
    rw [apply_perform_of_no_emulator he] at happly
    cases happly
    exact ⟨s', apply_perform_of_no_emulator (hemulator ▸ he), h⟩
  | some e =>
    obtain ⟨new, hperform, rfl⟩ := (apply_perform_iff he).1 happly
    exact ⟨_, (apply_perform_iff (hemulator ▸ he)).2 ⟨new, hperform, rfl⟩, h.update hdrives⟩

/-! ## The requests to the emulators of one machine -/

theorem requestsTo_cons_of_drives {addressed : Nat → Bool} {request : Request}
    (h : addressed request.1 = true) :
    requestsTo addressed (request :: requests) = request :: requestsTo addressed requests :=
  List.filter_cons_of_pos h

theorem requestsTo_cons_of_not_drives {addressed : Nat → Bool} {request : Request}
    (h : addressed request.1 = false) :
    requestsTo addressed (request :: requests) = requestsTo addressed requests :=
  List.filter_cons_of_neg (by simp [h])

/-- The requests to the emulators of one machine are answered as if there were no others, also in a
    session that agrees on this machine alone. -/
theorem AgreeOn.ask_requestsTo (h : AgreeOn k s s') (hask : s.ask requests = some (answers, t)) :
    ∃ t', s'.ask (requestsTo (s.drives k) requests) =
        some (answersTo (s.drives k) requests answers, t') ∧ AgreeOn k t t' := by
  induction requests generalizing s s' answers with
  | nil => cases hask; exact ⟨s', rfl, h⟩
  | cons request rest ih =>
    obtain ⟨answer, mid, later, happly, hrest, rfl⟩ := ask_cons_iff.1 hask
    have hsame : mid.drives = s.drives := drives_apply happly
    cases hdrives : s.drives k request.1 with
    | true =>
      obtain ⟨mid', happly', hmid⟩ := h.apply hdrives happly
      obtain ⟨t', hrest', ht⟩ := ih hmid hrest
      rw [hsame] at hrest'
      refine ⟨t', ?_, ht⟩
      rw [requestsTo_cons_of_drives hdrives]
      refine ask_cons_iff.2 ⟨answer, mid', _, happly', hrest', ?_⟩
      simp [answersTo, hdrives]
    | false =>
      obtain ⟨t', hrest', ht⟩ := ih ((agreeOn_of_not_drives happly hdrives).symm.trans h) hrest
      rw [hsame] at hrest'
      refine ⟨t', ?_, ht⟩
      rw [requestsTo_cons_of_not_drives hdrives, hrest']
      simp [answersTo, hdrives]

theorem AgreeOn.isSome_ask (h : AgreeOn k s s')
    (hask : (s.ask (requestsTo (s.drives k) requests)).isSome) :
    (s'.ask (requestsTo (s.drives k) requests)).isSome := by
  obtain ⟨⟨answers, t⟩, hsome⟩ := Option.isSome_iff_exists.1 hask
  obtain ⟨t', ht', -⟩ := h.ask_requestsTo hsome
  rw [requestsTo, requestsTo, List.filter_filter] at ht'
  simp only [Bool.and_self] at ht'
  rw [requestsTo, ht']
  rfl

/-- A session ends if for each machine the requests to its emulators would end. -/
theorem isSome_ask_iff (s : Session) (requests : List Request) :
    (s.ask requests).isSome ↔ ∀ k, (s.ask (requestsTo (s.drives k) requests)).isSome := by
  constructor
  · intro h k
    obtain ⟨⟨answers, t⟩, hask⟩ := Option.isSome_iff_exists.1 h
    obtain ⟨t', ht', -⟩ := (AgreeOn.refl k s).ask_requestsTo hask
    rw [ht']
    rfl
  · intro h
    induction requests generalizing s with
    | nil => rfl
    | cons request rest ih =>
      have hfirst : ∃ answer mid, s.apply (.perform request.1 request.2) = some (answer, mid) := by
        cases he : s.emulator? request.1 with
        | none => exact ⟨_, s, apply_perform_of_no_emulator he⟩
        | some e =>
          obtain ⟨seat, hseat, -⟩ := emulator?_eq_some_iff.1 he
          have hown := h seat.machine
          rw [requestsTo_cons_of_drives (drives_iff.2 ⟨seat, hseat, rfl⟩)] at hown
          obtain ⟨⟨answers, t⟩, hask⟩ := Option.isSome_iff_exists.1 hown
          obtain ⟨answer, mid, -, happly, -⟩ := ask_cons_iff.1 hask
          exact ⟨answer, mid, happly⟩
      obtain ⟨answer, mid, happly⟩ := hfirst
      have hrest : (mid.ask rest).isSome := by
        refine ih mid fun k => ?_
        have hk := h k
        rw [drives_apply happly]
        cases hdrives : s.drives k request.1 with
        | true =>
          rw [requestsTo_cons_of_drives hdrives] at hk
          obtain ⟨⟨answers, t⟩, hask⟩ := Option.isSome_iff_exists.1 hk
          obtain ⟨_, next, later, happly', hlater, -⟩ := ask_cons_iff.1 hask
          rw [happly] at happly'
          cases happly'
          rw [hlater]
          rfl
        | false =>
          rw [requestsTo_cons_of_not_drives hdrives] at hk
          exact (agreeOn_of_not_drives happly hdrives).isSome_ask hk
      obtain ⟨⟨later, t⟩, hlater⟩ := Option.isSome_iff_exists.1 hrest
      rw [ask_cons_iff.2 ⟨answer, mid, later, happly, hlater, rfl⟩]
      rfl

/-! ## Exchanging neighbours -/

/-- Two requests to emulators of different machines can be exchanged. -/
theorem apply_comm {first second : Operation} {x y : Except Error Answer} {mid : Session}
    (hk : s.drives k number = true) (hl : s.drives l other = true) (hne : k ≠ l)
    (hfirst : s.apply (.perform number first) = some (x, mid))
    (hsecond : mid.apply (.perform other second) = some (y, t)) :
    ∃ mid', s.apply (.perform other second) = some (y, mid') ∧
      mid'.apply (.perform number first) = some (x, t) := by
  have hmid : ∀ j, j ≠ k → AgreeOn j s mid := fun j hj =>
    agreeOn_of_not_drives hfirst (drives_eq_false hk hj)
  have ht : ∀ j, j ≠ l → AgreeOn j mid t := fun j hj =>
    agreeOn_of_not_drives hsecond (drives_eq_false (drives_apply hfirst ▸ hl) hj)
  -- Asked first, the second request finds its own part as it was, and so does the other after it.
  obtain ⟨mid', hsecond', hlast⟩ :=
    (hmid l hne.symm).symm.apply (drives_apply hfirst ▸ hl) hsecond
  have hmid' : ∀ j, j ≠ l → AgreeOn j s mid' := fun j hj =>
    agreeOn_of_not_drives hsecond' (drives_eq_false hl hj)
  obtain ⟨t', hfirst', hboth⟩ := (hmid' k hne).apply hk hfirst
  have ht' : ∀ j, j ≠ k → AgreeOn j mid' t' := fun j hj =>
    agreeOn_of_not_drives hfirst' (drives_eq_false (drives_apply hsecond' ▸ hk) hj)
  have heq : t = t' := by
    refine eq_of_agreeOn fun j => ?_
    by_cases hj : j = k
    · rw [hj]
      exact (ht k hne).symm.trans hboth
    · by_cases hj' : j = l
      · rw [hj']
        exact hlast.trans (ht' l hne.symm)
      · exact ((ht j hj').symm.trans (hmid j hj).symm).trans ((hmid' j hj').trans (ht' j hj))
  exact ⟨mid', hsecond', heq ▸ hfirst'⟩

/-- Neighbouring requests to emulators of different machines can be exchanged, and so are their
    answers, wherever they stand in a session. -/
theorem ask_exchange {before after : List Request} {first second : Request}
    (hk : s.drives k first.1 = true) (hl : s.drives l second.1 = true) (hne : k ≠ l)
    (hask : s.ask (before ++ first :: second :: after) = some (answers, t)) :
    ∃ xs x y zs, answers = xs ++ x :: y :: zs ∧ xs.length = before.length ∧
      s.ask (before ++ second :: first :: after) = some (xs ++ y :: x :: zs, t) := by
  obtain ⟨xs, start, later, hbefore, hboth, rfl⟩ := ask_append_iff.1 hask
  obtain ⟨x, mid, rest, hfirst, hrest, rfl⟩ := ask_cons_iff.1 hboth
  obtain ⟨y, next, zs, hsecond, hafter, rfl⟩ := ask_cons_iff.1 hrest
  have hstart : start.drives = s.drives := drives_ask hbefore
  obtain ⟨mid', hsecond', hfirst'⟩ :=
    apply_comm (hstart ▸ hk) (hstart ▸ hl) hne hfirst hsecond
  have hexchanged : start.ask (second :: first :: after) = some (y :: x :: zs, t) :=
    ask_cons_iff.2 ⟨y, mid', _, hsecond', ask_cons_iff.2 ⟨x, next, zs, hfirst', hafter, rfl⟩, rfl⟩
  exact ⟨xs, x, y, zs, rfl, length_of_ask hbefore,
    ask_append_iff.2 ⟨xs, start, _, hbefore, hexchanged, rfl⟩⟩

/-- Machines are independent of one another. In a session of any requests, refused ones among them,
    the requests to the emulators of one machine are answered as in the session of these requests
    alone, and at the end both have the same machine and the same emulators around it. The session
    ends if the sessions of its machines end, each by itself. So two neighbouring requests to
    emulators of different machines can be exchanged with their answers, and nothing at the end is
    different. -/
theorem ask_machine_by_machine (s : Session) (requests : List Request) :
    ((s.ask requests).isSome ↔ ∀ k, (s.ask (requestsTo (s.drives k) requests)).isSome) ∧
      ∀ answers t, s.ask requests = some (answers, t) →
        (∀ k, ∃ u,
          s.ask (requestsTo (s.drives k) requests) =
            some (answersTo (s.drives k) requests answers, u) ∧
          u.machines[k]? = t.machines[k]? ∧
          ∀ number, s.drives k number = true →
            u.seats[number]? = t.seats[number]? ∧ u.emulator? number = t.emulator? number) ∧
        ∀ before first second after k l, requests = before ++ first :: second :: after →
          s.drives k first.1 = true → s.drives l second.1 = true → k ≠ l →
          ∃ xs x y zs, answers = xs ++ x :: y :: zs ∧ xs.length = before.length ∧
            s.ask (before ++ second :: first :: after) = some (xs ++ y :: x :: zs, t) := by
  refine ⟨isSome_ask_iff s requests, fun answers t hask => ⟨fun k => ?_, ?_⟩⟩
  · obtain ⟨u, hu, hagree⟩ := (AgreeOn.refl k s).ask_requestsTo hask
    refine ⟨u, hu, hagree.machine.symm, fun number hdrives => ?_⟩
    have hlast : t.drives k number = true := by rw [drives_ask hask, hdrives]
    exact ⟨(hagree.seats_eq hlast).symm, (hagree.emulator?_eq hlast).symm⟩
  · rintro before first second after k l rfl hk hl hne
    exact ask_exchange hk hl hne hask

/-- Three emulators, the first and the last of one machine. Both execute an instruction of it, which
    is an `HLT` for the last, while the other machine is written to and comes to a word that is no
    opcode. -/
theorem ask_machine_by_machine_interleaved :
    let s : Session :=
      ⟨#[{ memory := ⟨#[1, 3, 0, 5]⟩ }, { memory := ⟨#[0, 0]⟩ }],
        #[⟨0, {}⟩, ⟨1, {}⟩, ⟨0, { breakpoints := [2] }⟩]⟩
    ∃ answers t u,
      s.ask [(0, .step), (1, .write 0 42), (2, .run (some 5)), (1, .step), (2, .run (some 1)),
        (0, .read 9)] = some (answers, t) ∧
      s.ask [(0, .step), (2, .run (some 5)), (2, .run (some 1)), (0, .read 9)] =
        some ([.ok .done, .ok (.stopped .breakpoint), .ok (.stopped .halt),
          .error (.fault (.badAddress 9 4))], u) ∧
      u.machines[0]? = t.machines[0]? ∧ u.emulator? 2 = t.emulator? 2 ∧
      s.ask [(1, .write 0 42), (0, .step), (2, .run (some 5)), (1, .step), (2, .run (some 1)),
        (0, .read 9)] =
        some ([.ok .done, .ok .done, .ok (.stopped .breakpoint),
          .error (.fault (.unknownOpcode 42 0)), .ok (.stopped .halt),
          .error (.fault (.badAddress 9 4))], t) := by
  intro s
  let requests : List Request :=
    [(0, .step), (1, .write 0 42), (2, .run (some 5)), (1, .step), (2, .run (some 1)), (0, .read 9)]
  let t : Session :=
    ⟨#[{ registers := { accumulator := 5, location := 3 }, memory := ⟨#[1, 3, 0, 5]⟩ },
        { memory := ⟨#[42, 0]⟩ }],
      #[⟨0, { steps := 1 }⟩, ⟨1, {}⟩, ⟨0, { breakpoints := [2], steps := 1, halted := true }⟩]⟩
  have hask : s.ask requests =
      some ([.ok .done, .ok .done, .ok (.stopped .breakpoint),
        .error (.fault (.unknownOpcode 42 0)), .ok (.stopped .halt),
        .error (.fault (.badAddress 9 4))], t) := by
    simp only [s, t, requests]
    rfl
  obtain ⟨-, hparts⟩ := ask_machine_by_machine s requests
  obtain ⟨hown, hexchange⟩ := hparts _ t hask
  obtain ⟨u, hu, hmachine, hseats⟩ := hown 0
  obtain ⟨xs, x, y, zs, hanswers, hxs, hother⟩ :=
    hexchange [] _ _ _ 0 1 rfl rfl rfl (by decide)
  obtain rfl : xs = [] := List.eq_nil_of_length_eq_zero hxs
  obtain ⟨rfl, rfl, rfl⟩ : x = .ok .done ∧ y = .ok .done ∧ _ = zs := by
    simpa [eq_comm] using hanswers
  exact ⟨_, t, u, hask, hu, hmachine, (hseats 2 rfl).2, hother⟩

end WordMachine.Session
