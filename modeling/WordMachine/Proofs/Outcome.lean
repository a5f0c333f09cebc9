set_option autoImplicit false

/-! # Results that are passed on

What an `Except` that is changed by a map tells about the one before. -/

namespace WordMachine

theorem map_eq_ok_iff {ε α β : Type} {f : α → β} {x : Except ε α} {b : β} :
    x.map f = .ok b ↔ ∃ a, x = .ok a ∧ f a = b := by
  cases x <;> simp [Except.map]

theorem map_eq_error_iff {ε α β : Type} {f : α → β} {x : Except ε α} {e : ε} :
    x.map f = .error e ↔ x = .error e := by
  cases x <;> simp [Except.map]

theorem map_ite {ε α β : Type} {f : α → β} {c : Prop} [Decidable c] {x y : Except ε α} :
    (if c then x else y).map f = if c then x.map f else y.map f := by
  split <;> rfl

theorem mapError_eq_ok_iff {ε ε' α : Type} {f : ε → ε'} {x : Except ε α} {a : α} :
    x.mapError f = .ok a ↔ x = .ok a := by
  cases x with
  | ok b =>
    show (Except.ok b : Except ε' α) = .ok a ↔ (Except.ok b : Except ε α) = .ok a
    rw [Except.ok.injEq, Except.ok.injEq]
  | error e =>
    show (Except.error (f e) : Except ε' α) = .ok a ↔ (Except.error e : Except ε α) = .ok a
    simp only [reduceCtorEq]

/-- A list is refused for the first of its elements that is. -/
theorem mapM_eq_error_iff {ε α β : Type} {f : α → Except ε β} {l : List α} {e : ε} :
    l.mapM f = .error e ↔
      ∃ before a after, l = before ++ a :: after ∧ (∀ b ∈ before, ∃ value, f b = .ok value) ∧
        f a = .error e := by
  induction l with
  | nil => simp [pure, Except.pure]
  | cons head rest ih =>
    rw [List.mapM_cons]
    constructor
    · intro h
      cases hhead : f head with
      | error e' =>
        rw [hhead] at h
        cases h
        exact ⟨[], head, rest, rfl, by simp, hhead⟩
      | ok value =>
        have hrest : rest.mapM f = .error e := by
          rw [hhead] at h
          cases hmap : rest.mapM f with
          | error e' => rw [hmap] at h; cases h; rfl
          | ok values => rw [hmap] at h; cases h
        obtain ⟨before, a, after, rfl, hbefore, ha⟩ := ih.1 hrest
        refine ⟨head :: before, a, after, rfl, ?_, ha⟩
        intro b hb
        rcases List.mem_cons.1 hb with rfl | hb
        · exact ⟨value, hhead⟩
        · exact hbefore b hb
    · rintro ⟨before, a, after, heq, hbefore, ha⟩
      cases before with
      | nil =>
        obtain ⟨rfl, rfl⟩ := List.cons.inj heq
        rw [ha]
        rfl
      | cons b before =>
        obtain ⟨rfl, rfl⟩ := List.cons.inj heq
        obtain ⟨value, hvalue⟩ := hbefore head (by simp)
        have hrest := ih.2 ⟨before, a, after, rfl, fun c hc => hbefore c (by simp [hc]), ha⟩
        rw [hvalue, hrest]
        rfl

end WordMachine
