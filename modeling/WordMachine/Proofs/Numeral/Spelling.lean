import Mathlib.Data.Bool.AllAny
import WordMachine.Proofs.Numeral.Reading
import WordMachine.Proofs.Text.Trimming

set_option autoImplicit false

/-! # The spelling of a numeral

`Spells` says how an integer is written as a numeral of a base: an optional sign, in base sixteen an
optional mark, and digits with single underscores between some of them. `read` reads just the
numerals, with any padding around them, by the integers that they stand for (`read_eq_ok_iff`). -/

namespace WordMachine.Numeral

/-! ## Spellings -/

/-- Digits of a base with single underscores between some of them, and the values of the digits. -/
inductive Grouped (base : Base) : List Char → List Nat → Prop where
  | last {c : Char} {d : Nat} (hd : digit? base c = some d) : Grouped base [c] [d]
  | digit {c : Char} {d : Nat} {cs : List Char} {values : List Nat}
    (hd : digit? base c = some d) (hrest : Grouped base cs values) :
    Grouped base (c :: cs) (d :: values)
  | underscore {c : Char} {d : Nat} {cs : List Char} {values : List Nat}
    (hd : digit? base c = some d) (hrest : Grouped base cs values) :
    Grouped base (c :: '_' :: cs) (d :: values)

/-- What may stand in front of the digits: in base sixteen a zero, the letter `x`, and one
    underscore after them, or nothing. -/
inductive IsMark : Base → List Char → Prop where
  | absent {base : Base} : IsMark base []
  | present {zero letter : Char} (hzero : Text.decimalDigit? zero = some 0)
    (hletter : letter = 'x' ∨ letter = 'X') : IsMark .sixteen [zero, letter]
  | underscore {zero letter : Char} (hzero : Text.decimalDigit? zero = some 0)
    (hletter : letter = 'x' ∨ letter = 'X') : IsMark .sixteen [zero, letter, '_']

/-- A numeral of the base, without padding, and the integer that it stands for. -/
inductive Spells (base : Base) : List Char → Int → Prop where
  | intro {sign mark digits : List Char} {factor : Int} {values : List Nat}
    (hsign : WordFile.IsSign sign factor) (hmark : IsMark base mark)
    (hdigits : Grouped base digits values)
    (hshort : base = .ten → values.length ≤ Decimal.digitLimit) :
    Spells base (sign ++ (mark ++ digits)) (factor * (Nat.ofDigits base.radix values.reverse : Nat))

/-! ## Characters -/

variable {base : Base} {c : Char} {d : Nat} {cs sign mark digits before after text : List Char}
  {factor value : Int} {values : List Nat}

/-- The characters of a numeral that are no digits. -/
def marks : List Char := ['+', '-', '_', 'x', 'X']

theorem not_isBlank_of_digit? (h : digit? base c = some d) : Text.isBlank c = false := by
  have hdecimal : ∀ e, Text.decimalDigit? c = some e → Text.isBlank c = false := fun e he =>
    Text.not_isBlank_of_isDigit (Bool.or_eq_true_iff.2 (Or.inl (by rw [he]; rfl)))
  cases base with
  | ten => exact hdecimal d h
  | sixteen =>
    rcases hd : Text.decimalDigit? c with _ | e
    · rw [digit?, hd] at h
      exact Text.not_isBlank_of_hexLetter? h
    · exact hdecimal e hd

theorem digit?_of_mem_marks (h : c ∈ marks) : digit? base c = none := by
  have hall : ∀ c ∈ marks, digit? .ten c = none ∧ digit? .sixteen c = none :=
    List.all_iff_forall_prop.1 (by decide +kernel)
  cases base with
  | ten => exact (hall c h).1
  | sixteen => exact (hall c h).2

/-- A decimal digit is a digit of both bases. -/
theorem digit?_of_decimalDigit? (h : Text.decimalDigit? c = some d) : digit? base c = some d := by
  cases base with
  | ten => exact h
  | sixteen =>
    rw [digit?, h]
    rfl

theorem digit?_sixteen (h : digit? base c = some d) : digit? .sixteen c = some d := by
  cases base with
  | ten => exact digit?_of_decimalDigit? h
  | sixteen => exact h

theorem isPadding_isBlank (h : isPadding c = true) : Text.isBlank c = true :=
  (Bool.and_eq_true_iff.1 h).1

theorem ne_underscore_of_digit? (h : digit? base c = some d) : c ≠ '_' := by
  rintro rfl
  rw [digit?_of_mem_marks (by decide)] at h
  cases h

/-! ## Digits in groups -/

theorem isGrouped_cons (hc : c ≠ '_') (hcs : cs.head? ≠ some '_') :
    isGrouped (c :: cs) = isGrouped cs := by
  cases cs with
  | nil => simp [isGrouped]
  | cons e rest =>
    have he : e ≠ '_' := fun h => hcs (congrArg some h)
    simp [isGrouped, he]

theorem isGrouped_cons_underscore (hc : c ≠ '_') (hcs : cs.head? ≠ some '_') :
    isGrouped (c :: '_' :: cs) = (cs ≠ [] && isGrouped cs) := by
  cases cs with
  | nil => simp [isGrouped]
  | cons e rest =>
    have he : e ≠ '_' := fun h => hcs (congrArg some h)
    simp [isGrouped, he]

namespace Grouped

variable (h : Grouped base digits values)
include h

theorem exists_cons : ∃ c d rest, digits = c :: rest ∧ digit? base c = some d := by
  cases h with
  | last hd | digit hd hrest | underscore hd hrest => exact ⟨_, _, _, rfl, hd⟩

theorem head?_ne_underscore : digits.head? ≠ some '_' := by
  obtain ⟨c, d, rest, rfl, hd⟩ := h.exists_cons
  exact fun heq => ne_underscore_of_digit? hd (Option.some.inj heq)

theorem isGrouped_eq : isGrouped digits = true := by
  induction h with
  | last hd => exact isGrouped_cons (ne_underscore_of_digit? hd) nofun
  | digit hd hrest ih =>
    rw [isGrouped_cons (ne_underscore_of_digit? hd) hrest.head?_ne_underscore]
    exact ih
  | underscore hd hrest ih =>
    obtain ⟨_, _, _, rfl, -⟩ := hrest.exists_cons
    rw [isGrouped_cons_underscore (ne_underscore_of_digit? hd) hrest.head?_ne_underscore, ih]
    rfl

theorem filterMap_eq : digits.filterMap (digit? base) = values := by
  have hnone : digit? base '_' = none := digit?_of_mem_marks (by decide)
  induction h with
  | last hd => rw [List.filterMap_cons_some hd, List.filterMap_nil]
  | digit hd hrest ih => rw [List.filterMap_cons_some hd, ih]
  | underscore hd hrest ih => rw [List.filterMap_cons_some hd, List.filterMap_cons_none hnone, ih]

theorem values_ne_nil : values ≠ [] := by
  cases h <;> exact List.cons_ne_nil _ _

/-- What holds of digits and of an underscore holds of all characters. -/
theorem forall_mem {P : Char → Prop} (hdigit : ∀ c d, digit? base c = some d → P c)
    (hunderscore : P '_') : ∀ c ∈ digits, P c := by
  induction h with
  | last hd => exact List.forall_mem_singleton.2 (hdigit _ _ hd)
  | digit hd hrest ih => exact List.forall_mem_cons.2 ⟨hdigit _ _ hd, ih⟩
  | underscore hd hrest ih =>
    exact List.forall_mem_cons.2 ⟨hdigit _ _ hd, List.forall_mem_cons.2 ⟨hunderscore, ih⟩⟩

theorem inRun_of_mem : ∀ c ∈ digits, inRun base c = true :=
  h.forall_mem (fun c d hd => Bool.or_eq_true_iff.2 (Or.inr (by rw [hd]; rfl))) rfl

end Grouped

/-- Characters of a run that are grouped, with a digit among them. -/
theorem grouped_of_isGrouped (hgrouped : isGrouped cs = true) (hrun : ∀ c ∈ cs, inRun base c = true)
    (hne : cs ≠ []) : Grouped base cs (cs.filterMap (digit? base)) := by
  have hdigit : ∀ c, inRun base c = true → c ≠ '_' → ∃ d, digit? base c = some d := by
    intro c hc hunderscore
    simp only [inRun, Bool.or_eq_true, decide_eq_true_eq] at hc
    exact Option.isSome_iff_exists.1 (hc.resolve_left hunderscore)
  have hnone : digit? base '_' = none := digit?_of_mem_marks (by decide)
  fun_induction isGrouped cs with
  | case1 => exact absurd rfl hne
  | case2 | case3 => cases hgrouped
  | case4 c cs hc _ ih =>
    simp only [ne_eq, Bool.and_eq_true, decide_eq_true_eq] at hgrouped
    rw [List.forall_mem_cons, List.forall_mem_cons] at hrun
    obtain ⟨d, hd⟩ := hdigit c hrun.1 hc
    rw [List.filterMap_cons_some hd, List.filterMap_cons_none hnone]
    exact .underscore hd (ih hgrouped.2 hrun.2.2 hgrouped.1)
  | case5 c cs hc _ _ ih =>
    rw [List.forall_mem_cons] at hrun
    obtain ⟨d, hd⟩ := hdigit c hrun.1 hc
    rw [List.filterMap_cons_some hd]
    cases cs with
    | nil => exact .last hd
    | cons e rest => exact .digit hd (ih hgrouped hrun.2 (List.cons_ne_nil e rest))

/-- Digits without underscores. -/
theorem grouped_of_forall₂ {R : Char → Nat → Prop} (hR : ∀ c d, R c d → digit? base c = some d)
    (h : List.Forall₂ R digits values) (hne : values ≠ []) : Grouped base digits values := by
  induction h with
  | nil => exact absurd rfl hne
  | @cons c d digits values hd hrest ih =>
    cases hrest with
    | nil => exact .last (hR c d hd)
    | cons => exact .digit (hR c d hd) (ih (List.cons_ne_nil _ _))

theorem grouped_of_decimal (h : List.Forall₂ WordFile.IsDecimalDigit digits values)
    (hne : values ≠ []) : Grouped .ten digits values :=
  grouped_of_forall₂ (fun _ _ hd => hd) h hne

/-! ## Signs and marks -/

theorem splitSign_append (hsign : WordFile.IsSign sign factor)
    (h : ∀ c ∈ cs.head?, c ≠ '-' ∧ c ≠ '+') :
    ∃ negative, splitSign (sign ++ cs) = (negative, cs) ∧
      factor = WordFile.signFactor negative := by
  cases hsign with
  | absent =>
    refine ⟨false, ?_, rfl⟩
    rw [List.nil_append]
    unfold splitSign
    split
    · exact absurd rfl (h _ rfl).1
    · exact absurd rfl (h _ rfl).2
    · rfl
  | plus => exact ⟨false, rfl, rfl⟩
  | minus => exact ⟨true, rfl, rfl⟩

theorem dropMark_of_tail (h : ∀ c ∈ cs.tail.head?, c ≠ 'x' ∧ c ≠ 'X') : dropMark base cs = cs := by
  cases base with
  | ten => cases cs <;> rfl
  | sixteen =>
    rcases cs with _ | ⟨zero, _ | ⟨letter, rest⟩⟩
    · rfl
    · rfl
    · obtain ⟨hx, hX⟩ := h letter rfl
      simp [dropMark, hx, hX]

theorem dropMark_append (hmark : IsMark base mark) (hhead : cs.head? ≠ some '_')
    (htail : ∀ c ∈ cs.tail.head?, c ≠ 'x' ∧ c ≠ 'X') : dropMark base (mark ++ cs) = cs := by
  cases hmark with
  | absent => exact dropMark_of_tail htail
  | present hzero hletter =>
    show (if _ then _ else _) = _
    rw [if_pos ⟨hzero, hletter⟩]
    split
    · next heq => exact absurd (congrArg List.head? heq) hhead
    · rfl
  | underscore hzero hletter =>
    show (if _ then _ else _) = _
    rw [if_pos ⟨hzero, hletter⟩]
    rfl

/-- Behind the letter of a mark at most an underscore is dropped. -/
theorem exists_underscore {zero letter : Char} (hzero : Text.decimalDigit? zero = some 0)
    (hletter : letter = 'x' ∨ letter = 'X') (rest : List Char) :
    ∃ underscore, rest = underscore ++ dropMark .sixteen (zero :: letter :: rest) ∧
      (underscore = [] ∨ underscore = ['_']) := by
  have hboth : Text.decimalDigit? zero = some 0 ∧ (letter = 'x' ∨ letter = 'X') := ⟨hzero, hletter⟩
  simp only [dropMark, if_pos hboth]
  split
  · exact ⟨['_'], rfl, Or.inr rfl⟩
  · exact ⟨[], rfl, Or.inl rfl⟩

/-- What is dropped is a mark. -/
theorem exists_isMark (base : Base) (cs : List Char) :
    ∃ mark, cs = mark ++ dropMark base cs ∧ IsMark base mark := by
  cases base with
  | ten => exact ⟨[], by cases cs <;> rfl, .absent⟩
  | sixteen =>
    rcases cs with _ | ⟨zero, _ | ⟨letter, rest⟩⟩
    · exact ⟨[], rfl, .absent⟩
    · exact ⟨[], rfl, .absent⟩
    · by_cases h : Text.decimalDigit? zero = some 0 ∧ (letter = 'x' ∨ letter = 'X')
      · obtain ⟨underscore, hrest, rfl | rfl⟩ := exists_underscore h.1 h.2 rest
        · exact ⟨[zero, letter], congrArg (zero :: letter :: ·) hrest, .present h.1 h.2⟩
        · exact ⟨[zero, letter, '_'], congrArg (zero :: letter :: ·) hrest, .underscore h.1 h.2⟩
      · exact ⟨[], (if_neg h).symm, .absent⟩

/-! ## Reading -/

theorem read_eq (base : Base) (text : List Char) :
    read base text = (readDigits base text
      (dropMark base (splitSign (text.dropWhile isPadding)).2)).map fun n : Nat =>
        WordFile.signFactor (splitSign (text.dropWhile isPadding)).1 * n := by
  rw [read]
  generalize splitSign (text.dropWhile isPadding) = signed
  obtain ⟨negative, unsigned⟩ := signed
  show Except.map _ (readDigits base text (dropMark base unsigned) >>= _) = _
  cases readDigits base text (dropMark base unsigned) with
  | error e => rfl
  | ok n =>
    refine congrArg Except.ok ?_
    cases negative <;> simp [WordFile.signFactor]

/-! ### The characters of a numeral -/

theorem IsMark.forall_mem {P : Char → Prop} (h : IsMark base mark)
    (hzero : ∀ c, Text.decimalDigit? c = some 0 → P c) (hmarks : ∀ c ∈ marks, P c) :
    ∀ c ∈ mark, P c := by
  have hletters : ∀ letter, letter = 'x' ∨ letter = 'X' → P letter := by
    rintro _ (rfl | rfl) <;> exact hmarks _ (by decide)
  cases h with
  | absent => exact nofun
  | present hz hletter =>
    exact List.forall_mem_cons.2 ⟨hzero _ hz, List.forall_mem_singleton.2 (hletters _ hletter)⟩
  | underscore hz hletter =>
    exact List.forall_mem_cons.2 ⟨hzero _ hz, List.forall_mem_cons.2 ⟨hletters _ hletter,
      List.forall_mem_singleton.2 (hmarks _ (by decide))⟩⟩

/-- What holds of digits and of the marks holds of all characters of a numeral. -/
theorem Spells.forall_mem {P : Char → Prop} (h : Spells base text value)
    (hdigit : ∀ c d, digit? .sixteen c = some d → P c) (hmarks : ∀ c ∈ marks, P c) :
    ∀ c ∈ text, P c := by
  obtain ⟨hsign, hmark, hdigits, -⟩ := h
  refine List.forall_mem_append.2 ⟨?_, List.forall_mem_append.2 ⟨?_, ?_⟩⟩
  · cases hsign with
    | absent => exact nofun
    | plus | minus => exact List.forall_mem_singleton.2 (hmarks _ (by decide))
  · exact hmark.forall_mem (fun c hc => hdigit c 0 (digit?_of_decimalDigit? hc)) hmarks
  · exact hdigits.forall_mem (fun c d hd => hdigit c d (digit?_sixteen hd)) (hmarks _ (by decide))

theorem Spells.not_isBlank (h : Spells base text value) : ∀ c ∈ text, Text.isBlank c = false :=
  h.forall_mem (fun _ _ hd => not_isBlank_of_digit? hd) (List.all_iff_forall_prop.1 (by decide))

/-- Behind the sign there is a digit, which may be the zero of the mark. -/
theorem exists_digit (hmark : IsMark base mark) (hdigits : Grouped base digits values) :
    ∃ c d rest, mark ++ digits = c :: rest ∧ digit? .sixteen c = some d := by
  cases hmark with
  | absent =>
    obtain ⟨c, d, rest, rfl, hd⟩ := hdigits.exists_cons
    exact ⟨c, d, rest, rfl, digit?_sixteen hd⟩
  | present hzero hletter | underscore hzero hletter =>
    exact ⟨_, 0, _, rfl, digit?_of_decimalDigit? hzero⟩

theorem Spells.ne_nil (h : Spells base text value) : text ≠ [] := by
  obtain ⟨hsign, hmark, hdigits, -⟩ := h
  obtain ⟨c, d, rest, heq, -⟩ := exists_digit hmark hdigits
  rw [heq]
  exact List.append_ne_nil_of_right_ne_nil _ (List.cons_ne_nil c rest)

/-! ### Numerals and the padding around them -/

/-- A text of padding alone. -/
def IsPadding (cs : List Char) : Prop := ∀ c ∈ cs, isPadding c = true

theorem IsPadding.isBlanks (h : IsPadding cs) : Text.IsBlanks cs :=
  fun c hc => isPadding_isBlank (h c hc)

theorem isPadding_eq_false (h : Text.isBlank c = false) : isPadding c = false := by
  rw [isPadding, h, Bool.false_and]

/-- No padding belongs to a run of digits and underscores. -/
theorem inRun_eq_false (h : isPadding c = true) : inRun base c = false := by
  have hblank := isPadding_isBlank h
  have hunderscore : c ≠ '_' := by
    rintro rfl
    cases hblank
  have hdigit : digit? base c = none := by
    refine Option.eq_none_iff_forall_not_mem.2 fun d hd => ?_
    cases hblank.symm.trans (not_isBlank_of_digit? hd)
  rw [inRun, hdigit, decide_eq_false hunderscore]
  rfl

/-- From the first digit on, which may be the zero of a mark, the sign and the padding before it
    play no further part. -/
theorem read_of_digit (hbefore : IsPadding before) (hsign : WordFile.IsSign sign factor)
    (hd : digit? .sixteen c = some d) (rest : List Char) :
    read base (before ++ (sign ++ c :: rest)) =
      (readDigits base (before ++ (sign ++ c :: rest)) (dropMark base (c :: rest))).map
        fun n : Nat => factor * n := by
  have hno : ∀ e ∈ marks, c ≠ e := by
    rintro e he rfl
    cases hd.symm.trans (digit?_of_mem_marks he)
  have hhead : ∀ e ∈ (sign ++ c :: rest).head?, isPadding e = false := by
    intro e he
    cases hsign with
    | absent =>
      cases he
      exact isPadding_eq_false (not_isBlank_of_digit? hd)
    | plus | minus =>
      cases he
      decide
  have hunsigned : ∀ e ∈ (c :: rest).head?, e ≠ '-' ∧ e ≠ '+' := by
    intro e he
    cases he
    exact ⟨hno '-' (by decide), hno '+' (by decide)⟩
  obtain ⟨negative, hsplit, rfl⟩ := splitSign_append hsign hunsigned
  rw [read_eq, Text.dropWhile_append_eq hbefore hhead, hsplit]

theorem dropMark_digits (hmark : IsMark base mark) (hdigits : Grouped base digits values)
    (hafter : IsPadding after) : dropMark base (mark ++ (digits ++ after)) = digits ++ after := by
  have hletter : ∀ c ∈ digits ++ after, c ≠ 'x' ∧ c ≠ 'X' := by
    refine List.forall_mem_append.2 ⟨hdigits.forall_mem (fun c d hd => ?_) (by decide), ?_⟩
    · constructor <;> rintro rfl <;> cases hd.symm.trans (digit?_of_mem_marks (by decide))
    · intro c hc
      have hpadding := hafter c hc
      constructor <;> rintro rfl <;> cases hpadding
  refine dropMark_append hmark ?_ fun c hc => ?_
  · obtain ⟨c, d, rest, rfl, hd⟩ := hdigits.exists_cons
    exact fun heq => ne_underscore_of_digit? hd (Option.some.inj heq)
  · exact hletter c (List.mem_of_mem_tail (List.mem_of_mem_head? hc))

/-- What is made of a run of digits and underscores, whatever other character follows it. -/
theorem readDigits_append {run : List Char} (text rest : List Char)
    (hrun : ∀ c ∈ run, inRun base c = true) (hrest : ∀ c ∈ rest.head?, inRun base c = false) :
    readDigits base text (run ++ rest) =
      if !isGrouped run then .error (.malformed base text)
      else if base = .ten ∧ Decimal.digitLimit < (run.filterMap (digit? base)).length then
        .error (.tooLong (run.filterMap (digit? base)).length)
      else if run.filterMap (digit? base) = [] ∨ !rest.all isPadding then
        .error (.malformed base text)
      else .ok (ofDigits base (run.filterMap (digit? base))) := by
  have htake : (run ++ rest).takeWhile (fun c => c = '_' || (digit? base c).isSome) = run :=
    Text.takeWhile_append_eq hrun hrest
  have hdrop : (run ++ rest).dropWhile (fun c => c = '_' || (digit? base c).isSome) = rest :=
    Text.dropWhile_append_eq hrun hrest
  simp only [readDigits, htake, hdrop]

theorem readDigits_digits (hdigits : Grouped base digits values) (hafter : IsPadding after)
    (hshort : base = .ten → values.length ≤ Decimal.digitLimit) :
    readDigits base text (digits ++ after) =
      .ok (Nat.ofDigits base.radix values.reverse) := by
  have hend : ∀ c ∈ after.head?, inRun base c = false :=
    fun c hc => inRun_eq_false (hafter c (List.mem_of_mem_head? hc))
  have hall : after.all isPadding = true := List.all_eq_true.2 hafter
  rw [readDigits_append text after hdigits.inRun_of_mem hend, hdigits.isGrouped_eq,
    hdigits.filterMap_eq, hall, ofDigits_eq]
  have hlong : ¬(base = .ten ∧ Decimal.digitLimit < values.length) :=
    fun h => Nat.not_lt.2 (hshort h.1) h.2
  simp [hlong, hdigits.values_ne_nil]

/-- A numeral is read whatever padding is around it. -/
theorem Spells.read_append (h : Spells base text value) (hbefore : IsPadding before)
    (hafter : IsPadding after) : read base (before ++ (text ++ after)) = .ok value := by
  cases h with
  | @intro sign mark digits factor values hsign hmark hdigits hshort =>
    obtain ⟨c, d, rest, hunsigned, hd⟩ := exists_digit hmark hdigits
    have hrest : mark ++ (digits ++ after) = c :: (rest ++ after) := by
      rw [← List.append_assoc, hunsigned, List.cons_append]
    rw [List.append_assoc, List.append_assoc, hrest, read_of_digit hbefore hsign hd, ← hrest,
      dropMark_digits hmark hdigits hafter, readDigits_digits hdigits hafter hshort]
    rfl

theorem Spells.read_eq_ok (h : Spells base text value) : read base text = .ok value := by
  have hread : read base ([] ++ (text ++ [])) = .ok value := h.read_append nofun nofun
  rwa [List.append_nil] at hread

/-- What is read as digits are digits, with padding behind them. -/
theorem exists_grouped_of_readDigits {n : Nat} (h : readDigits base text cs = .ok n) :
    ∃ digits after values, cs = digits ++ after ∧ Grouped base digits values ∧ IsPadding after ∧
      (base = .ten → values.length ≤ Decimal.digitLimit) ∧
      n = Nat.ofDigits base.radix values.reverse := by
  obtain ⟨hgrouped, hshort, hne, hafter, rfl⟩ := readDigits_eq_ok_iff.1 h
  have hdigits := grouped_of_isGrouped hgrouped (fun c hc => List.mem_takeWhile_imp hc)
    (fun hnil => hne (by rw [hnil, List.filterMap_nil]))
  exact ⟨_, _, _, List.takeWhile_append_dropWhile.symm, hdigits, hafter, hshort, ofDigits_eq ..⟩

/-- What is read is a numeral with padding around it. -/
theorem exists_spells_of_read (h : read base text = .ok value) :
    ∃ before numeral after, text = before ++ (numeral ++ after) ∧ IsPadding before ∧
      IsPadding after ∧ Spells base numeral value := by
  rw [read_eq, map_eq_ok_iff] at h
  obtain ⟨n, hn, rfl⟩ := h
  obtain ⟨digits, after, values, hrest, hdigits, hafter, hshort, rfl⟩ :=
    exists_grouped_of_readDigits hn
  obtain ⟨sign, hsigned, hsign⟩ :=
    WordFile.exists_isSign_of_splitSign (text.dropWhile isPadding)
  obtain ⟨mark, hmarked, hmark⟩ :=
    exists_isMark base (splitSign (text.dropWhile isPadding)).2
  refine ⟨text.takeWhile isPadding, sign ++ (mark ++ digits), after, ?_,
    fun c hc => List.mem_takeWhile_imp hc, hafter, .intro hsign hmark hdigits hshort⟩
  rw [List.append_assoc, List.append_assoc, ← hrest, ← hmarked, ← hsigned,
    List.takeWhile_append_dropWhile]

/-! ### Decimal numerals that are refused -/

theorem read_ten_of_digit (hsign : WordFile.IsSign sign factor) (hd : digit? .ten c = some d)
    (rest : List Char) :
    read .ten (sign ++ c :: rest) =
      (readDigits .ten (sign ++ c :: rest) (c :: rest)).map fun n : Nat => factor * n := by
  have hbefore : IsPadding [] := nofun
  exact read_of_digit hbefore hsign (digit?_sixteen hd) rest

/-- Too many digits are told by their number. -/
theorem read_of_tooLong (hsign : WordFile.IsSign sign factor) (hdigits : Grouped .ten digits values)
    (hlong : Decimal.digitLimit < values.length) :
    read .ten (sign ++ digits) = .error (.tooLong values.length) := by
  obtain ⟨c, d, rest, hcons, hd⟩ := hdigits.exists_cons
  have hread := readDigits_append (sign ++ digits) [] hdigits.inRun_of_mem nofun
  rw [List.append_nil, hdigits.isGrouped_eq, hdigits.filterMap_eq] at hread
  rw [hcons, read_ten_of_digit hsign hd, ← hcons, hread]
  simp [hlong, Except.map]

/-- Behind a digit there may be no letter. -/
theorem read_of_letter {zero letter : Char} (hsign : WordFile.IsSign sign factor)
    (hzero : digit? .ten zero = some d) (hletter : letter = 'x' ∨ letter = 'X') (rest : List Char) :
    read .ten (sign ++ zero :: letter :: rest) =
      .error (.malformed .ten (sign ++ zero :: letter :: rest)) := by
  have hrun : ∀ c ∈ [zero], inRun .ten c = true := (Grouped.last hzero).inRun_of_mem
  have hend : inRun .ten letter = false ∧ isPadding letter = false := by
    rcases hletter with rfl | rfl <;> decide +kernel
  have hread := readDigits_append (sign ++ zero :: letter :: rest) (letter :: rest) hrun
    fun c hc => by cases hc; exact hend.1
  rw [List.singleton_append, (Grouped.last hzero).isGrouped_eq, (Grouped.last hzero).filterMap_eq]
    at hread
  rw [read_ten_of_digit hsign hzero, hread]
  simp [hend.2, Decimal.digitLimit, Except.map]

/-! ### The texts that are read -/

/-- Just the numerals are read, with any padding around them. -/
theorem read_eq_ok_iff :
    read base text = .ok value ↔
      ∃ before numeral after, text = before ++ (numeral ++ after) ∧ IsPadding before ∧
        IsPadding after ∧ Spells base numeral value := by
  constructor
  · exact exists_spells_of_read
  · rintro ⟨before, numeral, after, rfl, hbefore, hafter, h⟩
    exact h.read_append hbefore hafter

end WordMachine.Numeral
