import Mathlib.Data.List.DropRight
import WordMachine.Text.Blank

set_option autoImplicit false

/-! # A text and the blanks around it

A text is what `trim` leaves of it with blanks at both ends (`exists_trim`). A piece that has no
blank at either end is what is left, whatever blanks are put around it (`trim_append`). -/

namespace WordMachine.Text

/-- A text of blanks alone. -/
def IsBlanks (cs : List Char) : Prop := ∀ c ∈ cs, isBlank c = true

instance (cs : List Char) : Decidable (IsBlanks cs) := List.decidableBAll _ cs

/-- A text that has no blank at either end. -/
structure IsTrimmed (cs : List Char) : Prop where
  head : ∀ c ∈ cs.head?, isBlank c = false
  last : ∀ c ∈ cs.getLast?, isBlank c = false

variable {p : Char → Bool} {before cs after : List Char}

theorem IsBlanks.append (hbefore : IsBlanks before) (hafter : IsBlanks after) :
    IsBlanks (before ++ after) :=
  List.forall_mem_append.2 ⟨hbefore, hafter⟩

/-- A text without any blanks. -/
theorem isTrimmed_of_forall (h : ∀ c ∈ cs, isBlank c = false) : IsTrimmed cs where
  head c hc := h c (List.mem_of_mem_head? hc)
  last c hc := h c (List.mem_of_mem_getLast? hc)

theorem dropWhile_eq_self (h : ∀ c ∈ cs.head?, p c = false) : cs.dropWhile p = cs := by
  cases cs with
  | nil => rfl
  | cons c rest =>
    have hc : p c = false := h c rfl
    rw [List.dropWhile_cons, hc]
    rfl

theorem dropWhile_append_eq (hbefore : ∀ c ∈ before, p c = true) (h : ∀ c ∈ cs.head?, p c = false) :
    (before ++ cs).dropWhile p = cs := by
  rw [List.dropWhile_append_of_pos hbefore, dropWhile_eq_self h]

theorem takeWhile_append_eq (hbefore : ∀ c ∈ before, p c = true) (h : ∀ c ∈ cs.head?, p c = false) :
    (before ++ cs).takeWhile p = before := by
  rw [List.takeWhile_append_of_pos hbefore]
  cases cs with
  | nil => exact List.append_nil before
  | cons c rest =>
    have hc : p c = false := h c rfl
    rw [List.takeWhile_cons, hc]
    exact List.append_nil before

/-! ## Blanks at both ends -/

/-- Only blanks are taken away. -/
theorem exists_trim (cs : List Char) :
    ∃ before after, cs = before ++ (trim cs ++ after) ∧ IsBlanks before ∧ IsBlanks after := by
  refine ⟨cs.takeWhile isBlank, (cs.dropWhile isBlank).rtakeWhile isBlank, ?_,
    fun c hc => List.mem_takeWhile_imp hc, fun c hc => List.mem_rtakeWhile_imp hc⟩
  have hrest : trim cs ++ (cs.dropWhile isBlank).rtakeWhile isBlank = cs.dropWhile isBlank :=
    List.rdropWhile_append_rtakeWhile
  rw [hrest, List.takeWhile_append_dropWhile]

/-- All blanks around a piece are taken away. -/
theorem trim_append (hbefore : IsBlanks before) (hafter : IsBlanks after) (hne : cs ≠ [])
    (h : IsTrimmed cs) : trim (before ++ (cs ++ after)) = cs := by
  have hhead : ∀ c ∈ (cs ++ after).head?, isBlank c = false := by
    rw [List.head?_append_of_ne_nil _ hne]
    exact h.head
  have hlast : ∀ c ∈ cs.reverse.head?, isBlank c = false := by
    rw [List.head?_reverse]
    exact h.last
  have hafter' : ∀ c ∈ after.reverse, isBlank c = true :=
    fun c hc => hafter c (List.mem_reverse.1 hc)
  rw [trim, dropWhile_append_eq hbefore hhead, List.reverse_append,
    dropWhile_append_eq hafter' hlast, List.reverse_reverse]

theorem IsTrimmed.trim_eq (h : IsTrimmed cs) : trim cs = cs := by
  by_cases hne : cs = []
  · rw [hne]
    rfl
  · have htrim : trim ([] ++ (cs ++ [])) = cs := trim_append nofun nofun hne h
    rwa [List.append_nil] at htrim

end WordMachine.Text
