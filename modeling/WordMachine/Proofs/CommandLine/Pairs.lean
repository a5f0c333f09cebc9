import WordMachine.Proofs.CommandLine.Integers
import WordMachine.Proofs.CommandLine.PlainText

set_option autoImplicit false

/-! # Assignments and ranges

An assignment is two integers around an `=`, a range two around a `:` or a single one. No text that
gives an integer has one of these characters in it (`Gives.not_mem`), so the first one is the one
between the two integers, however they are spelled. `Assigns` and `Spans` say which texts are read,
and any other text is refused for what it is (`readAssignment_of_not_assigns`,
`readRange_of_not_spans`). -/

namespace WordMachine.CommandLine

/-- The text assigns a value to an address. -/
def Assigns (text : List Char) (address value : Int) : Prop :=
  ∃ first second, text = first ++ '=' :: second ∧ Gives first address ∧ Gives second value

/-- The text names the first and the last address of a range, or a single one for both. -/
def Spans (text : List Char) (first last : Int) : Prop :=
  (∃ start stop, text = start ++ ':' :: stop ∧ Gives start first ∧ Gives stop last) ∨
    Gives text first ∧ last = first

variable {text first second : List Char} {given : String} {a b : Int} {separator : Char}

/-! ## Characters -/

/-- What holds of blanks, digits and marks holds of all characters of a text that gives an
    integer. -/
theorem Gives.forall_mem {P : Char → Prop} (h : Gives text a)
    (hblank : ∀ c, Text.isBlank c = true → P c)
    (hdigit : ∀ c d, Numeral.digit? .sixteen c = some d → P c) (hmarks : ∀ c ∈ Numeral.marks, P c)
    (hdollar : P '$') : ∀ c ∈ text, P c := by
  obtain ⟨before, spelling, after, rfl, hbefore, hafter, hspelling⟩ := h
  refine List.forall_mem_append.2 ⟨fun c hc => hblank c (hbefore c hc),
    List.forall_mem_append.2 ⟨?_, fun c hc => hblank c (hafter c hc)⟩⟩
  cases hspelling with
  | decimal hspells => exact hspells.forall_mem hdigit hmarks
  | marked hletter hunderscore hdigits =>
    exact (spells_marked hletter hunderscore hdigits).forall_mem hdigit hmarks
  | dollar hpadding hspells =>
    exact List.forall_mem_cons.2 ⟨hdollar, List.forall_mem_append.2
      ⟨fun c hc => hblank c (hpadding.isBlanks c hc), hspells.forall_mem hdigit hmarks⟩⟩

theorem Gives.not_mem (h : Gives text a) (hseparator : separator = '=' ∨ separator = ':') :
    separator ∉ text := by
  have hno : Text.isBlank separator = false ∧ Numeral.digit? .sixteen separator = none ∧
      separator ∉ Numeral.marks ∧ separator ≠ '$' := by
    rcases hseparator with rfl | rfl <;> decide +kernel
  have hall : ∀ c ∈ text, c ≠ separator := by
    refine h.forall_mem (fun c hc => ?_) (fun c d hd => ?_) (fun c hc => ?_) hno.2.2.2.symm
    · rintro rfl
      cases hc.symm.trans hno.1
    · rintro rfl
      cases hd.symm.trans hno.2.1
    · rintro rfl
      exact hno.2.2.1 hc
  exact fun hmem => hall separator hmem rfl

/-! ## The two sides of a separator -/

theorem splitAtFirst_of_not_mem (h : separator ∉ text) :
    splitAtFirst separator text = (text, none) := by
  induction text with
  | nil => rfl
  | cons c rest ih =>
    rw [List.mem_cons, not_or] at h
    rw [splitAtFirst, if_neg (Ne.symm h.1), ih h.2]

/-- A text is split at the first separator, or has none. -/
theorem splitAtFirst_cases (separator : Char) (text : List Char) :
    (separator ∉ text ∧ splitAtFirst separator text = (text, none)) ∨
      ∃ first second, text = first ++ separator :: second ∧ separator ∉ first ∧
        splitAtFirst separator text = (first, some second) := by
  by_cases hmem : separator ∈ text
  · obtain ⟨first, second, rfl, hfirst⟩ := List.eq_append_cons_of_mem hmem
    exact Or.inr ⟨first, second, rfl, hfirst, splitAtFirst_append hfirst second⟩
  · exact Or.inl ⟨hmem, splitAtFirst_of_not_mem hmem⟩

/-- The separator between two integers is the first one. -/
theorem splitAtFirst_of_gives (h : Gives first a) (hseparator : separator = '=' ∨ separator = ':')
    (second : List Char) :
    splitAtFirst separator (first ++ separator :: second) = (first, some second) :=
  splitAtFirst_append (h.not_mem hseparator) second

/-! ## Assignments -/

theorem readAssignment_of_assigns (h : Assigns given.toList a b) :
    readAssignment given = .ok (a, b) := by
  obtain ⟨first, second, htext, hfirst, hsecond⟩ := h
  have hsplit := splitAtFirst_of_gives hfirst (Or.inl rfl) second
  rw [← htext] at hsplit
  simp only [readAssignment, hsplit, readInteger_eq_ok_iff.2 hfirst,
    readInteger_eq_ok_iff.2 hsecond]

/-- Any other text has no `=`, or a side of it that is no integer. -/
theorem readAssignment_of_not_assigns (h : ∀ address value, ¬Assigns given.toList address value) :
    readAssignment given =
      .error (if '=' ∈ given.toList then .badNumber given else .noAssignment given) := by
  rcases splitAtFirst_cases '=' given.toList with ⟨hno, hsplit⟩ | ⟨first, second, htext, -, hsplit⟩
  · simp only [readAssignment, hsplit, if_neg hno]
  · have hmem : '=' ∈ given.toList := by
      rw [htext]
      simp
    simp only [readAssignment, hsplit, if_pos hmem]
    split
    · next a v ha hv =>
      exact absurd ⟨first, second, htext, readInteger_eq_ok_iff.1 ha, readInteger_eq_ok_iff.1 hv⟩
        (h a v)
    · rfl

/-! ## Ranges -/

theorem readRange_of_spans (h : Spans given.toList a b) :
    readRange given = if b < a then .error (.reversedRange given) else .ok (a, b) := by
  rcases h with ⟨start, stop, htext, hstart, hstop⟩ | ⟨hsingle, rfl⟩
  · have hsplit := splitAtFirst_of_gives hstart (Or.inr rfl) stop
    rw [← htext] at hsplit
    simp only [readRange, hsplit, Option.getD_some, readInteger_eq_ok_iff.2 hstart,
      readInteger_eq_ok_iff.2 hstop]
  · have hsplit := splitAtFirst_of_not_mem (hsingle.not_mem (Or.inr rfl))
    simp only [readRange, hsplit, Option.getD_none, readInteger_eq_ok_iff.2 hsingle]

/-- In any other text an end is no integer. -/
theorem readRange_of_not_spans (h : ∀ first last, ¬Spans given.toList first last) :
    readRange given = .error (.badRange given) := by
  rcases splitAtFirst_cases ':' given.toList with ⟨-, hsplit⟩ | ⟨start, stop, htext, -, hsplit⟩
  · simp only [readRange, hsplit, Option.getD_none]
    split
    · next a b ha hb => exact absurd (Or.inr ⟨readInteger_eq_ok_iff.1 ha, rfl⟩) (h a a)
    · rfl
  · simp only [readRange, hsplit, Option.getD_some]
    split
    · next a b ha hb =>
      exact absurd (Or.inl ⟨start, stop, htext, readInteger_eq_ok_iff.1 ha,
        readInteger_eq_ok_iff.1 hb⟩) (h a b)
    · rfl

/-! ## What is read and what is refused -/

theorem readAssignment_eq_ok_iff {pair : Int × Int} :
    readAssignment given = .ok pair ↔ Assigns given.toList pair.1 pair.2 := by
  constructor
  · intro h
    by_cases hany : ∃ address value, Assigns given.toList address value
    · obtain ⟨address, value, hassigns⟩ := hany
      cases (readAssignment_of_assigns hassigns).symm.trans h
      exact hassigns
    · have hno : ∀ address value, ¬Assigns given.toList address value :=
        fun address value hassigns => hany ⟨address, value, hassigns⟩
      cases (readAssignment_of_not_assigns hno).symm.trans h
  · exact readAssignment_of_assigns

theorem readRange_eq_ok_iff {range : Int × Int} :
    readRange given = .ok range ↔ Spans given.toList range.1 range.2 ∧ range.1 ≤ range.2 := by
  constructor
  · intro h
    by_cases hany : ∃ first last, Spans given.toList first last
    · obtain ⟨first, last, hspans⟩ := hany
      have hread := (readRange_of_spans hspans).symm.trans h
      split at hread
      · cases hread
      · next hle =>
        cases hread
        exact ⟨hspans, Int.not_lt.1 hle⟩
    · have hno : ∀ first last, ¬Spans given.toList first last :=
        fun first last hspans => hany ⟨first, last, hspans⟩
      cases (readRange_of_not_spans hno).symm.trans h
  · rintro ⟨hspans, hle⟩
    rw [readRange_of_spans hspans, if_neg (Int.not_lt.2 hle)]

theorem le_of_readRange {range : Int × Int} (h : readRange given = .ok range) :
    range.1 ≤ range.2 :=
  (readRange_eq_ok_iff.1 h).2

theorem readAssignment_eq_error_iff {error : ArgumentError} :
    readAssignment given = .error error ↔
      (∀ address value, ¬Assigns given.toList address value) ∧
        error = if '=' ∈ given.toList then .badNumber given else .noAssignment given := by
  constructor
  · intro h
    have hno : ∀ address value, ¬Assigns given.toList address value := by
      intro address value hassigns
      rw [readAssignment_of_assigns hassigns] at h
      cases h
    exact ⟨hno, Except.error.inj (h.symm.trans (readAssignment_of_not_assigns hno))⟩
  · rintro ⟨hno, rfl⟩
    exact readAssignment_of_not_assigns hno

theorem readRange_eq_error_iff {error : ArgumentError} :
    readRange given = .error error ↔
      (∃ first last, Spans given.toList first last ∧ last < first ∧ error = .reversedRange given) ∨
        (∀ first last, ¬Spans given.toList first last) ∧ error = .badRange given := by
  constructor
  · intro h
    by_cases hspans : ∃ first last, Spans given.toList first last
    · obtain ⟨first, last, hspans⟩ := hspans
      rw [readRange_of_spans hspans] at h
      split at h
      · next hlt => exact Or.inl ⟨first, last, hspans, hlt, (Except.error.inj h).symm⟩
      · cases h
    · have hno : ∀ first last, ¬Spans given.toList first last :=
        fun first last hfound => hspans ⟨first, last, hfound⟩
      exact Or.inr ⟨hno, Except.error.inj (h.symm.trans (readRange_of_not_spans hno))⟩
  · rintro (⟨first, last, hspans, hlt, rfl⟩ | ⟨hno, rfl⟩)
    · rw [readRange_of_spans hspans, if_pos hlt]
    · exact readRange_of_not_spans hno

/-- Two integers are read back from an assignment and from a range, however each of them is spelled,
    unless the range ends before it starts; and a single integer is read as a range of one address.
    The decimal text of an integer is one of its spellings. Of all other texts none is read as an
    assignment or as a range that ends before it starts, and each is refused as a bad argument: for
    its missing `=`, for a side that is no integer, whatever is wrong with it, or for a range that
    is reversed. -/
theorem readAssignment_readRange :
    (∀ (s t : String) (a b : Int), Gives s.toList a → Gives t.toList b →
      readAssignment (s ++ "=" ++ t) = .ok (a, b) ∧
      (a ≤ b → readRange (s ++ ":" ++ t) = .ok (a, b)) ∧
      (b < a → readRange (s ++ ":" ++ t) = .error (.reversedRange (s ++ ":" ++ t))) ∧
      readRange s = .ok (a, a)) ∧
    (∀ a, Decimal.isWritable a = true → Gives (Decimal.text a).toList a) ∧
    ∀ text : String,
      (∀ first last, readRange text = .ok (first, last) → first ≤ last) ∧
      (∀ error, readAssignment text = .error error ↔
        (∀ address value, ¬Assigns text.toList address value) ∧
          error = if '=' ∈ text.toList then .badNumber text else .noAssignment text) ∧
      ∀ error, readRange text = .error error ↔
        (∃ first last, Spans text.toList first last ∧ last < first ∧ error = .reversedRange text) ∨
          (∀ first last, ¬Spans text.toList first last) ∧ error = .badRange text := by
  refine ⟨fun s t a b hs ht => ?_, fun a => gives_text, fun text =>
    ⟨fun first last => le_of_readRange, fun error => readAssignment_eq_error_iff,
      fun error => readRange_eq_error_iff⟩⟩
  have hassigns : Assigns (s ++ "=" ++ t).toList a b :=
    ⟨s.toList, t.toList, by simp, hs, ht⟩
  have hspans : Spans (s ++ ":" ++ t).toList a b :=
    Or.inl ⟨s.toList, t.toList, by simp, hs, ht⟩
  refine ⟨readAssignment_of_assigns hassigns, fun hle => ?_, fun hlt => ?_, ?_⟩
  · rw [readRange_of_spans hspans, if_neg (Int.not_lt.2 hle)]
  · rw [readRange_of_spans hspans, if_pos hlt]
  · rw [readRange_of_spans (Or.inr ⟨hs, rfl⟩), if_neg (Int.lt_irrefl a)]

/-- A decimal spelling with a digit of another script and a hexadecimal one, with blanks around
    them, and a range of the two in the wrong order. -/
theorem readAssignment_readRange_in_other_digits :
    readAssignment (" +1_٠ " ++ "=" ++ "$00fF\t") = .ok (10, 255) ∧
      readRange (" +1_٠ " ++ ":" ++ "$00fF\t") = .ok (10, 255) ∧
      readRange ("$00fF\t" ++ ":" ++ " +1_٠ ") =
        .error (.reversedRange ("$00fF\t" ++ ":" ++ " +1_٠ ")) := by
  have hten : Gives " +1_٠ ".toList 10 := readInteger_eq_ok_iff.1 (by decide +kernel)
  have hmany : Gives "$00fF\t".toList 255 := readInteger_eq_ok_iff.1 (by decide +kernel)
  obtain ⟨hassignment, hrange, -, -⟩ := readAssignment_readRange.1 _ _ _ _ hten hmany
  obtain ⟨-, -, hreversed, -⟩ := readAssignment_readRange.1 _ _ _ _ hmany hten
  exact ⟨hassignment, hrange (by decide), hreversed (by decide)⟩

end WordMachine.CommandLine
