import WordMachine.Text.Line

set_option autoImplicit false

/-! # Lines one character at a time

`lines` takes a text apart at its breaks. Here each first character of a text has its equation: one
that ends no line is put in front of the first line (`lines_cons_of_not_break`), one that does
begins with an empty line (`lines_cons_of_break`), and a carriage return with a line feed counts
once (`lines_return_feed`). That newlines may be unified first (`lines_unifyNewlines`) is one of
their consequences, and that a line feed keeps two texts apart (`lines_append_feed`) is another. -/

namespace WordMachine.Text

variable {c : Char} {cs : List Char}

/-! ## The characters that end a line -/

theorem isLineBreak_iff :
    isLineBreak c = true ↔ c ∈ ['\n', '\r', '\x0b', '\x0c', '\x1c', '\x1d', '\x1e', '\u0085',
      '\u2028', '\u2029'] := by
  have hchar : ∀ d : Char, c = d ↔ c.toNat = d.toNat := fun d => Char.toNat_inj.symm
  simp only [isLineBreak, lineBreaks, Ranges.contains, List.any_cons, List.any_nil, Bool.or_false,
    Bool.or_eq_true, Bool.and_eq_true, decide_eq_true_eq, List.mem_cons, List.not_mem_nil, or_false,
    hchar, Char.reduceToNat]
  omega

/-! ## Lines -/

theorem lines_return_feed (cs : List Char) : lines ('\r' :: '\n' :: cs) = [] :: lines cs := by
  rw [lines]

/-- A character in front of a text is put in front of its first line, or ends an empty one. -/
theorem lines_cons (h : ¬(c = '\r' ∧ cs.head? = some '\n')) :
    lines (c :: cs) = if isLineBreak c then [] :: lines cs else consFirst c (lines cs) := by
  rw [lines]
  rintro rest rfl rfl
  exact h ⟨rfl, rfl⟩

theorem lines_cons_of_break (hc : isLineBreak c = true) (h : ¬(c = '\r' ∧ cs.head? = some '\n')) :
    lines (c :: cs) = [] :: lines cs := by
  rw [lines_cons h, if_pos hc]

theorem lines_cons_of_not_break (hc : isLineBreak c = false) :
    lines (c :: cs) = consFirst c (lines cs) := by
  have h : ¬(c = '\r' ∧ cs.head? = some '\n') := by
    rintro ⟨rfl, -⟩
    cases hc
  rw [lines_cons h, if_neg (by simp [hc])]

theorem lines_feed (cs : List Char) : lines ('\n' :: cs) = [] :: lines cs :=
  lines_cons_of_break (by decide) (by simp)

theorem lines_ne_nil (h : cs ≠ []) : lines cs ≠ [] := by
  cases cs with
  | nil => exact absurd rfl h
  | cons c cs =>
    by_cases hpair : c = '\r' ∧ cs.head? = some '\n'
    · obtain ⟨rfl, hfeed⟩ := hpair
      obtain ⟨rest, rfl⟩ := List.head?_eq_some_iff.1 hfeed
      rw [lines_return_feed]
      exact List.cons_ne_nil _ _
    · rw [lines_cons hpair]
      split
      · exact List.cons_ne_nil _ _
      · cases lines cs <;> exact List.cons_ne_nil _ _

/-- A character that the recursion of `lines` takes alone is no carriage return before a line
    feed. -/
theorem not_pair_of_alone (halone : ∀ rest, c = '\r' → cs = '\n' :: rest → False) :
    ¬(c = '\r' ∧ cs.head? = some '\n') := by
  rintro ⟨rfl, hfeed⟩
  obtain ⟨rest, rfl⟩ := List.head?_eq_some_iff.1 hfeed
  exact halone rest rfl rfl

/-! ## Unified newlines -/

theorem unifyNewlines_return_feed (cs : List Char) :
    unifyNewlines ('\r' :: '\n' :: cs) = '\n' :: unifyNewlines cs := by
  rw [unifyNewlines]

theorem unifyNewlines_cons (h : ¬(c = '\r' ∧ cs.head? = some '\n')) :
    unifyNewlines (c :: cs) = (if c = '\r' then '\n' else c) :: unifyNewlines cs := by
  rw [unifyNewlines]
  rintro rest rfl rfl
  exact h ⟨rfl, rfl⟩

/-- Unifying the newlines of a text leaves its lines as they are. -/
theorem lines_unifyNewlines (cs : List Char) : lines (unifyNewlines cs) = lines cs := by
  -- The induction is that of `unifyNewlines`, which takes a carriage return with its line feed.
  induction cs using unifyNewlines.induct with
  | case1 => rfl
  | case2 cs ih =>
    rw [unifyNewlines_return_feed, lines_return_feed, lines_feed, ih]
  | case3 c cs halone ih =>
    have h := not_pair_of_alone halone
    rw [unifyNewlines_cons h, lines_cons h]
    by_cases hc : c = '\r'
    · -- A lone carriage return and the line feed that it becomes both end a line.
      subst hc
      rw [if_pos rfl, if_pos (by decide), lines_feed, ih]
    · rw [if_neg hc, lines_cons (fun hreturn => hc hreturn.1), ih]

/-! ## A line feed behind a text -/

theorem consFirst_append {pieces : List (List Char)} (h : pieces ≠ []) (c : Char)
    (more : List (List Char)) : consFirst c (pieces ++ more) = consFirst c pieces ++ more := by
  cases pieces with
  | nil => exact absurd rfl h
  | cons piece pieces => rfl

/-- A line feed behind a text makes a pair with nothing but a carriage return at its very end. -/
theorem not_pair_append_feed (hreturn : ¬(c = '\r' ∧ cs = []))
    (halone : ∀ rest, c = '\r' → cs = '\n' :: rest → False) (ds : List Char) :
    ¬(c = '\r' ∧ (cs ++ '\n' :: ds).head? = some '\n') := by
  rintro ⟨rfl, hfeed⟩
  cases cs with
  | nil => exact hreturn ⟨rfl, rfl⟩
  | cons d cs =>
    cases hfeed
    exact halone cs rfl rfl

/-- A line feed keeps the lines of the text behind it apart from those before. -/
theorem lines_append_feed (cs ds : List Char) :
    lines (cs ++ '\n' :: ds) = lines (cs ++ ['\n']) ++ lines ds := by
  induction cs using unifyNewlines.induct with
  | case1 => exact lines_feed ds
  | case2 cs ih => simp only [List.cons_append, lines_return_feed, ih]
  | case3 c cs halone ih =>
    by_cases hreturn : c = '\r' ∧ cs = []
    · -- The carriage return and the line feed are one break, on both sides.
      obtain ⟨rfl, rfl⟩ := hreturn
      exact lines_return_feed ds
    · have h := not_pair_append_feed hreturn halone
      rw [List.cons_append, List.cons_append, lines_cons (h ds), lines_cons (h []), ih]
      split
      · rfl
      · exact consFirst_append (lines_ne_nil (by simp)) c _

/-- A line feed behind a text ends its last line, or an empty one if that had ended already. -/
theorem lines_concat_feed (cs : List Char) :
    lines (cs ++ ['\n']) = lines cs ∨ lines (cs ++ ['\n']) = lines cs ++ [[]] := by
  induction cs using unifyNewlines.induct with
  | case1 => exact Or.inr rfl
  | case2 cs ih =>
    simp only [List.cons_append, lines_return_feed, List.cons.injEq, true_and]
    exact ih
  | case3 c cs halone ih =>
    by_cases hreturn : c = '\r' ∧ cs = []
    · obtain ⟨rfl, rfl⟩ := hreturn
      exact Or.inl rfl
    · have h := not_pair_append_feed hreturn halone []
      rw [List.cons_append, lines_cons h, lines_cons (not_pair_of_alone halone)]
      split
      · simpa using ih
      · by_cases hcs : cs = []
        · subst hcs
          exact Or.inl rfl
        · rcases ih with ih | ih
          · exact Or.inl (by rw [ih])
          · exact Or.inr (by rw [ih, consFirst_append (lines_ne_nil hcs)])

end WordMachine.Text
