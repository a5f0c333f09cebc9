import WordMachine.CommandLine.Argument
import WordMachine.Proofs.Numeral.Spelling

set_option autoImplicit false

/-! # Integers as arguments

`Gives` says how an argument gives an integer: as a decimal numeral, in hexadecimal digits after
`0x`, or as a numeral of base sixteen after `$`, with any blanks around it. Just these texts are
read, each as the integer that it gives (`readInteger_eq_ok_iff`). The decimal text of an integer
gives it, unless it has too many digits (`gives_text`). -/

namespace WordMachine.CommandLine

open Text (IsBlanks IsTrimmed)

/-- An integer without blanks around it, and its value. -/
inductive SpellsInteger : List Char → Int → Prop where
  | decimal {spelling : List Char} {value : Int} (h : Numeral.Spells .ten spelling value) :
    SpellsInteger spelling value
  | marked {letter : Char} {underscore digits : List Char} {values : List Nat}
    (hletter : letter = 'x' ∨ letter = 'X') (hunderscore : underscore = [] ∨ underscore = ['_'])
    (hdigits : Numeral.Grouped .sixteen digits values) :
    SpellsInteger ('0' :: letter :: (underscore ++ digits)) (Nat.ofDigits 16 values.reverse : Nat)
  | dollar {before numeral : List Char} {value : Int} (hbefore : Numeral.IsPadding before)
    (h : Numeral.Spells .sixteen numeral value) : SpellsInteger ('$' :: (before ++ numeral)) value

/-- A text that gives an integer: one of its spellings, with any blanks around it. -/
def Gives (text : List Char) (value : Int) : Prop :=
  ∃ before spelling after, text = before ++ (spelling ++ after) ∧ IsBlanks before ∧
    IsBlanks after ∧ SpellsInteger spelling value

variable {text spelling before after sign digits : List Char} {value other factor : Int}
  {values : List Nat} {letter : Char}

/-! ## Spellings -/

theorem spells_marked {underscore : List Char} (hletter : letter = 'x' ∨ letter = 'X')
    (hunderscore : underscore = [] ∨ underscore = ['_'])
    (hdigits : Numeral.Grouped .sixteen digits values) :
    Numeral.Spells .sixteen ('0' :: letter :: (underscore ++ digits))
      (Nat.ofDigits 16 values.reverse : Nat) := by
  have hmark : Numeral.IsMark .sixteen ('0' :: letter :: underscore) := by
    rcases hunderscore with rfl | rfl
    · exact .present rfl hletter
    · exact .underscore rfl hletter
  have hspells : Numeral.Spells .sixteen ([] ++ (('0' :: letter :: underscore) ++ digits))
      (1 * (Nat.ofDigits 16 values.reverse : Nat)) := .intro .absent hmark hdigits nofun
  rwa [Int.one_mul] at hspells

theorem SpellsInteger.ne_nil (h : SpellsInteger spelling value) : spelling ≠ [] := by
  cases h with
  | decimal h => exact h.ne_nil
  | marked | dollar => exact List.cons_ne_nil _ _

theorem SpellsInteger.isTrimmed (h : SpellsInteger spelling value) : IsTrimmed spelling := by
  cases h with
  | decimal h => exact Text.isTrimmed_of_forall h.not_isBlank
  | marked hletter hunderscore hdigits =>
    exact Text.isTrimmed_of_forall (spells_marked hletter hunderscore hdigits).not_isBlank
  | @dollar before numeral _ hbefore h =>
    -- There may be padding behind the `$`, but the numeral ends with a digit.
    refine ⟨fun c hc => ?_, fun c hc => ?_⟩
    · cases hc
      decide
    · rw [← List.cons_append, List.getLast?_append_of_ne_nil _ h.ne_nil] at hc
      exact h.not_isBlank c (List.mem_of_mem_getLast? hc)

/-- A decimal number begins neither with `$` nor with `0x`. -/
theorem not_marked_of_grouped (hsign : WordFile.IsSign sign factor)
    (hdigits : Numeral.Grouped .ten digits values) :
    (sign ++ digits).head? ≠ some '$' ∧ Numeral.isMarked (sign ++ digits) = false := by
  have hno : ∀ c ∈ sign ++ digits, c ≠ '$' ∧ c ≠ 'x' ∧ c ≠ 'X' := by
    refine List.forall_mem_append.2 ⟨?_, hdigits.forall_mem (fun c d hd => ?_) (by decide)⟩
    · cases hsign with
      | absent => exact nofun
      | plus | minus => exact List.forall_mem_singleton.2 (by decide)
    · refine ⟨?_, ?_, ?_⟩ <;> rintro rfl <;> cases hd
  refine ⟨fun hhead => (hno '$' (List.mem_of_mem_head? hhead)).1 rfl, ?_⟩
  by_contra hmarked
  obtain ⟨mark, rest, heq, hmark⟩ := WordFile.isMarked_iff.1 (Bool.eq_true_of_not_eq_false hmarked)
  have hletter := hno mark (by rw [heq]; simp)
  exact hmark.elim hletter.2.1 hletter.2.2

theorem not_marked_of_spells (h : Numeral.Spells .ten spelling value) :
    spelling.head? ≠ some '$' ∧ Numeral.isMarked spelling = false := by
  obtain ⟨hsign, hmark, hdigits, -⟩ := h
  cases hmark
  exact not_marked_of_grouped hsign hdigits

/-! ## Reading -/

theorem readInteger_of_dollar {numeral : List Char} (h : Text.trim text = '$' :: numeral) :
    readInteger text = Numeral.read .sixteen numeral := by
  simp only [readInteger, h]

theorem readInteger_of_no_dollar (h : (Text.trim text).head? ≠ some '$') :
    readInteger text =
      Numeral.read (if Numeral.isMarked (Text.trim text) then .sixteen else .ten)
        (Text.trim text) := by
  unfold readInteger
  split
  · next heq =>
    rw [heq] at h
    exact absurd rfl h
  · rfl

theorem readInteger_of_plain (htrim : IsTrimmed text)
    (h : text.head? ≠ some '$' ∧ Numeral.isMarked text = false) :
    readInteger text = Numeral.read .ten text := by
  rw [readInteger_of_no_dollar (by rw [htrim.trim_eq]; exact h.1), htrim.trim_eq, h.2]
  rfl

/-- A text is read by the spelling that is left without the blanks around it. -/
theorem SpellsInteger.readInteger_eq (h : SpellsInteger spelling value)
    (htrim : Text.trim text = spelling) : readInteger text = .ok value := by
  cases h with
  | decimal h =>
    obtain ⟨hdollar, hmarked⟩ := not_marked_of_spells h
    rw [readInteger_of_no_dollar (by rwa [htrim]), htrim, hmarked]
    exact h.read_eq_ok
  | @marked letter underscore digits values hletter hunderscore hdigits =>
    have hmarked : Numeral.isMarked ('0' :: letter :: (underscore ++ digits)) = true :=
      WordFile.isMarked_iff.2 ⟨_, _, rfl, hletter⟩
    rw [readInteger_of_no_dollar (by rw [htrim]; simp), htrim, hmarked]
    exact (spells_marked hletter hunderscore hdigits).read_eq_ok
  | @dollar before numeral _ hbefore h =>
    have hread : Numeral.read .sixteen (before ++ (numeral ++ [])) = .ok value :=
      h.read_append hbefore nofun
    rw [List.append_nil] at hread
    rw [readInteger_of_dollar htrim, hread]

/-- Behind `0x` there are digits, perhaps after an underscore, and padding. -/
theorem exists_marked_of_read {rest : List Char} (hletter : letter = 'x' ∨ letter = 'X')
    (h : Numeral.read .sixteen ('0' :: letter :: rest) = .ok value) :
    ∃ spelling after, '0' :: letter :: rest = spelling ++ after ∧ Numeral.IsPadding after ∧
      SpellsInteger spelling value := by
  have hpadding : ('0' :: letter :: rest).dropWhile Numeral.isPadding = '0' :: letter :: rest :=
    Text.dropWhile_eq_self fun c hc => by cases hc; decide
  obtain ⟨underscore, hrest, hunderscore⟩ :=
    Numeral.exists_underscore (rfl : Text.decimalDigit? '0' = some 0) hletter rest
  rw [Numeral.read_eq, hpadding, map_eq_ok_iff] at h
  obtain ⟨n, hn, rfl⟩ := h
  obtain ⟨digits, after, values, heq, hdigits, hafter, -, rfl⟩ :=
    Numeral.exists_grouped_of_readDigits hn
  have hdigits' : Numeral.dropMark .sixteen ('0' :: letter :: rest) = digits ++ after := heq
  refine ⟨'0' :: letter :: (underscore ++ digits), after, ?_, hafter, ?_⟩
  · rw [List.cons_append, List.cons_append, List.append_assoc, ← hdigits', ← hrest]
  · have hvalue := SpellsInteger.marked hletter hunderscore hdigits
    rwa [← Int.one_mul (Nat.ofDigits 16 values.reverse : Nat)] at hvalue

/-- Just the texts that give an integer are read. -/
theorem readInteger_eq_ok_iff : readInteger text = .ok value ↔ Gives text value := by
  constructor
  · intro h
    obtain ⟨before, after, htext, hbefore, hafter⟩ := Text.exists_trim text
    -- Padding that is left behind the numeral counts among the blanks.
    have hgives : ∀ spelling padding, Text.trim text = spelling ++ padding →
        Numeral.IsPadding padding → SpellsInteger spelling value → Gives text value := by
      intro spelling padding htrim hpadding hspells
      refine ⟨before, spelling, padding ++ after, ?_, hbefore, hpadding.isBlanks.append hafter,
        hspells⟩
      rw [← List.append_assoc spelling, ← htrim]
      exact htext
    by_cases hdollar : (Text.trim text).head? = some '$'
    · obtain ⟨numeral, htrim⟩ := List.head?_eq_some_iff.1 hdollar
      rw [readInteger_of_dollar htrim] at h
      obtain ⟨padding, digits, rest, rfl, hpadding, hrest, hdigits⟩ := Numeral.read_eq_ok_iff.1 h
      refine hgives ('$' :: (padding ++ digits)) rest ?_ hrest (.dollar hpadding hdigits)
      rw [htrim, List.cons_append, List.append_assoc]
    · rw [readInteger_of_no_dollar hdollar] at h
      cases hmarked : Numeral.isMarked (Text.trim text) with
      | true =>
        rw [hmarked] at h
        obtain ⟨letter, rest, htrim, hletter⟩ := WordFile.isMarked_iff.1 hmarked
        rw [htrim] at h
        obtain ⟨spelling, padding, heq, hpadding, hspells⟩ := exists_marked_of_read hletter h
        exact hgives spelling padding (htrim.trans heq) hpadding hspells
      | false =>
        rw [hmarked] at h
        obtain ⟨padding, numeral, rest, htrim, hpadding, hrest, hspells⟩ :=
          Numeral.read_eq_ok_iff.1 h
        refine ⟨before ++ padding, numeral, rest ++ after, ?_, hbefore.append hpadding.isBlanks,
          hrest.isBlanks.append hafter, .decimal hspells⟩
        rw [htext, htrim]
        simp only [List.append_assoc]
  · rintro ⟨before, spelling, after, rfl, hbefore, hafter, hspells⟩
    exact hspells.readInteger_eq (Text.trim_append hbefore hafter hspells.ne_nil hspells.isTrimmed)

theorem SpellsInteger.gives (h : SpellsInteger spelling value) : Gives spelling value :=
  ⟨[], spelling, [], (List.append_nil spelling).symm, nofun, nofun, h⟩

/-- A text gives one integer at most. -/
theorem Gives.unique (h : Gives text value) (hother : Gives text other) : value = other :=
  Except.ok.inj ((readInteger_eq_ok_iff.2 h).symm.trans (readInteger_eq_ok_iff.2 hother))

/-! ## The decimal text of an integer -/

/-- The digits that a number is written with have the number as their value. -/
theorem exists_digits (n : Nat) :
    ∃ values, List.Forall₂ WordFile.IsDecimalDigit (Decimal.digits n) values ∧ values ≠ [] ∧
      Nat.ofDigits 10 values.reverse = n := by
  have hdigit : ∀ d < 10, Text.decimalDigit? d.digitChar = some d := by decide
  induction n using Nat.strongRecOn with
  | ind n ih =>
    rw [Decimal.digits, Nat.toDigits_eq_if (by decide)]
    split
    · next hlt => exact ⟨[n], .cons (hdigit n hlt) .nil, by simp, by simp⟩
    · obtain ⟨values, hvalues, -, hn⟩ := ih (n / 10) (by omega)
      have hlast : List.Forall₂ WordFile.IsDecimalDigit [(n % 10).digitChar] [n % 10] :=
        .cons (hdigit _ (by omega)) .nil
      refine ⟨values ++ [n % 10], List.rel_append hvalues hlast, by simp, ?_⟩
      rw [List.reverse_append, List.reverse_singleton, List.singleton_append, Nat.ofDigits_cons,
        hn]
      exact Nat.mod_add_div n 10

theorem isSign_sign (v : Int) : WordFile.IsSign (Decimal.sign v) (if v < 0 then -1 else 1) := by
  rw [Decimal.sign]
  split
  · exact .minus
  · exact .absent

/-- An integer that can be written in decimal is given by its decimal text. -/
theorem gives_text (h : Decimal.isWritable value = true) :
    Gives (Decimal.text value).toList value := by
  obtain ⟨values, hvalues, hne, hn⟩ := exists_digits value.natAbs
  have hdigits := Numeral.grouped_of_decimal hvalues hne
  have hshort : values.length ≤ Decimal.digitLimit := by
    rw [← hvalues.length_eq]
    exact of_decide_eq_true h
  have hspells : Numeral.Spells .ten (Decimal.sign value ++ ([] ++ Decimal.digits value.natAbs))
      ((if value < 0 then -1 else 1) * (Nat.ofDigits 10 values.reverse : Nat)) :=
    .intro (isSign_sign value) .absent hdigits fun _ => hshort
  have hvalue : (if value < 0 then -1 else 1) * ((value.natAbs : Nat) : Int) = value := by
    split <;> omega
  rw [hn, hvalue, List.nil_append, ← Decimal.paddedChars_zero] at hspells
  rw [Decimal.text, Decimal.padded, String.toList_ofList]
  exact (SpellsInteger.decimal hspells).gives

end WordMachine.CommandLine
