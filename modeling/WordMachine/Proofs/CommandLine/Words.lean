import WordMachine.Proofs.CommandLine.Integers
import WordMachine.Proofs.WordFile.Layout

set_option autoImplicit false

/-! # Words as arguments

Word files and arguments are read by readers of their own, which take different texts: a word file
takes a sign in front of `0x`, an argument takes `$`, underscores and a zero of any script. On what
both take they agree (`readInteger_agrees`). A word means the same as an argument, unless it is
hexadecimal with a sign; and a text that both take is blanks around a single word. -/

namespace WordMachine.CommandLine

open Text (IsBlanks IsTrimmed)
open WordFile (IsTokenChar IsSign SpellsUnsigned IsGap allTokens)

/-- A hexadecimal word with a sign in front. -/
def IsSignedHexadecimal (token : List Char) : Prop :=
  ∃ sign factor unsigned values, sign ≠ [] ∧ token = sign ++ unsigned ∧ IsSign sign factor ∧
    SpellsUnsigned .sixteen unsigned values

variable {text token sign unsigned digits spelling before after : List Char} {factor value : Int}
  {values : List Nat} {words : List Int}

/-! ## Characters -/

theorem isTokenChar_of_digit? {base : Base} {c : Char} {d : Nat}
    (h : Numeral.digit? base c = some d) : IsTokenChar c := by
  have hno : ∀ e ∈ [',', '#'], c ≠ e := by
    have hnone : ∀ e ∈ [',', '#'], Numeral.digit? .sixteen e = none :=
      List.all_iff_forall_prop.1 (by decide +kernel)
    rintro e he rfl
    cases (Numeral.digit?_sixteen h).symm.trans (hnone c he)
  refine ⟨?_, hno '#' (by decide)⟩
  rw [WordFile.separates, Numeral.not_isBlank_of_digit? h, decide_eq_false (hno ',' (by decide))]
  rfl

theorem isTokenChar_of_spells {base : Base} (h : Numeral.Spells base text value) :
    ∀ c ∈ text, IsTokenChar c := by
  refine h.forall_mem (fun c d hd => isTokenChar_of_digit? hd) ?_
  have hall : ∀ c ∈ Numeral.marks, WordFile.separates c = false ∧ c ≠ '#' :=
    List.all_iff_forall_prop.1 (by decide)
  exact hall

theorem isGap_of_isBlanks (h : IsBlanks text) : IsGap text :=
  fun c hc => Bool.or_eq_true_iff.2 (Or.inr (h c hc))

theorem isTrimmed_token (h : ∀ c ∈ token, IsTokenChar c) : IsTrimmed token :=
  Text.isTrimmed_of_forall fun c hc => (Bool.or_eq_false_iff.1 (h c hc).1).2

/-! ## Words -/

/-- A decimal word is a decimal numeral. -/
theorem spellsInteger_of_decimal (hsign : IsSign sign factor)
    (h : SpellsUnsigned .ten unsigned values) (hshort : values.length ≤ Decimal.digitLimit) :
    SpellsInteger (sign ++ unsigned) (factor * (Nat.ofDigits 10 values.reverse : Nat)) := by
  cases h with
  | decimal hdigits hne =>
    exact .decimal (.intro hsign .absent (Numeral.grouped_of_decimal hdigits hne) fun _ => hshort)

theorem digit?_of_isHexDigit {c : Char} {d : Nat} (h : WordFile.IsHexDigit c d) :
    Numeral.digit? .sixteen c = some d := by
  have hall : ∀ d < 16, Numeral.digit? .sixteen d.digitChar = some d ∧
      Numeral.digit? .sixteen d.digitChar.toUpper = some d := by decide +kernel
  obtain ⟨hlt, rfl | rfl⟩ := h
  · exact (hall d hlt).1
  · exact (hall d hlt).2

/-- A hexadecimal word without a sign is one of the spellings of an argument. -/
theorem spellsInteger_of_hexadecimal (h : SpellsUnsigned .sixteen unsigned values) :
    SpellsInteger unsigned (Nat.ofDigits 16 values.reverse : Nat) := by
  cases h with
  | @hexadecimal mark digits _ hmark hdigits hne =>
    have hgrouped : Numeral.Grouped .sixteen digits values :=
      Numeral.grouped_of_forall₂ (fun _ _ hd => digit?_of_isHexDigit hd) hdigits hne
    exact .marked hmark (Or.inl rfl) hgrouped

/-- A hexadecimal word with a sign is no decimal number. -/
theorem readInteger_of_signed (h : IsSignedHexadecimal token)
    (htoken : ∀ c ∈ token, IsTokenChar c) :
    readInteger token = .error (.malformed .ten token) := by
  obtain ⟨sign, factor, unsigned, values, hne, rfl, hsign, hunsigned⟩ := h
  cases hunsigned with
  | hexadecimal hmark hdigits _ =>
    rw [readInteger_of_plain (isTrimmed_token htoken), Numeral.read_of_letter hsign rfl hmark]
    cases hsign with
    | absent => exact absurd rfl hne
    | plus | minus => exact ⟨by simp, rfl⟩

/-- Too many digits are refused in an argument as well. -/
theorem readInteger_of_tooLong (h : WordFile.Spells token factor .ten values)
    (htoken : ∀ c ∈ token, IsTokenChar c) (hlong : Decimal.digitLimit < values.length) :
    readInteger token = .error (.tooLong values.length) := by
  obtain ⟨sign, unsigned, rfl, hsign, hunsigned⟩ := h
  cases hunsigned with
  | decimal hdigits hne =>
    have hgrouped := Numeral.grouped_of_decimal hdigits hne
    rw [readInteger_of_plain (isTrimmed_token htoken) (not_marked_of_grouped hsign hgrouped),
      Numeral.read_of_tooLong hsign hgrouped hlong]

/-- A word is given by the same spelling, unless it is hexadecimal with a sign. -/
theorem spellsInteger_of_word (h : WordFile.SpellsInteger token value) :
    IsSignedHexadecimal token ∨ SpellsInteger token value := by
  obtain ⟨factor, base, values, ⟨sign, unsigned, rfl, hsign, hunsigned⟩, hshort, rfl⟩ := h
  cases base with
  | ten => exact Or.inr (spellsInteger_of_decimal hsign hunsigned (hshort rfl))
  | sixteen =>
    cases hsign with
    | absent =>
      have hspells := spellsInteger_of_hexadecimal hunsigned
      rw [← Int.one_mul (Nat.ofDigits 16 values.reverse : Nat)] at hspells
      exact Or.inr hspells
    | plus => exact Or.inl ⟨['+'], 1, unsigned, values, nofun, rfl, .plus, hunsigned⟩
    | minus => exact Or.inl ⟨['-'], -1, unsigned, values, nofun, rfl, .minus, hunsigned⟩

/-! ## Texts of one token -/

theorem allTokens_of_spelling (hne : spelling ≠ []) (hspelling : ∀ c ∈ spelling, IsTokenChar c)
    (hbefore : IsGap before) (hafter : IsGap after) :
    allTokens (before ++ (spelling ++ after)) = [spelling] := by
  have hend : allTokens (after ++ []) = allTokens [] := WordFile.allTokens_gap hafter []
  rw [List.append_nil] at hend
  rw [WordFile.allTokens_gap hbefore, WordFile.allTokens_token hne hspelling, hend]
  · rfl
  · exact fun c hc => hafter c (List.mem_of_mem_head? hc)

/-- A token that is read as the only one. -/
theorem spellsInteger_of_parse (htoken : ∀ c ∈ token, IsTokenChar c)
    (h : WordFile.parse token = .ok [value]) : WordFile.SpellsInteger token value := by
  have hne : token ≠ [] := by
    rintro rfl
    cases h
  have hspells := WordFile.forall₂_of_parse h
  have hone : allTokens ([] ++ (token ++ [])) = [token] :=
    allTokens_of_spelling hne htoken nofun nofun
  rw [List.nil_append, List.append_nil] at hone
  rw [hone] at hspells
  exact (List.forall₂_cons.1 hspells).1

/-- No word begins with `$`. -/
theorem not_spellsInteger_dollar (rest : List Char) (value : Int) :
    ¬WordFile.SpellsInteger ('$' :: rest) value := by
  rintro ⟨factor, base, values, ⟨sign, unsigned, heq, hsign, hunsigned⟩, -, -⟩
  cases hsign with
  | plus | minus => cases heq
  | absent =>
    cases hunsigned with
    | hexadecimal => cases heq
    | decimal hdigits _ =>
      cases heq
      obtain ⟨digit, _, hdigit, -, -⟩ := List.forall₂_cons_left_iff.1 hdigits
      cases hdigit

/-- The token that a `$` begins ends where padding follows. -/
theorem exists_dollar_token {padding numeral : List Char} (hpadding : Numeral.IsPadding padding)
    (hnumeral : ∀ c ∈ numeral, IsTokenChar c) (hafter : IsGap after) :
    ∃ rest, '$' :: rest ∈ allTokens ('$' :: (padding ++ (numeral ++ after))) := by
  have hdollar : IsTokenChar '$' := ⟨by decide, by decide⟩
  cases padding with
  | nil =>
    have htokens : allTokens ('$' :: numeral ++ after) = ('$' :: numeral) :: allTokens after :=
      WordFile.allTokens_token (List.cons_ne_nil _ _) (List.forall_mem_cons.2 ⟨hdollar, hnumeral⟩)
        fun c hc => hafter c (List.mem_of_mem_head? hc)
    rw [List.nil_append, ← List.cons_append, htokens]
    exact ⟨numeral, List.mem_cons_self⟩
  | cons c padding =>
    have htokens : allTokens (['$'] ++ (c :: padding ++ (numeral ++ after))) =
        ['$'] :: allTokens (c :: padding ++ (numeral ++ after)) :=
      WordFile.allTokens_token (List.cons_ne_nil _ _) (List.forall_mem_singleton.2 hdollar)
        fun d hd => by cases hd; exact isGap_of_isBlanks hpadding.isBlanks c List.mem_cons_self
    rw [← List.singleton_append, htokens]
    exact ⟨[], List.mem_cons_self⟩

/-- An argument is a token, or it begins with `$`. -/
theorem SpellsInteger.token_or_dollar (h : SpellsInteger spelling value) :
    (∀ c ∈ spelling, IsTokenChar c) ∨
      ∃ padding numeral, spelling = '$' :: (padding ++ numeral) ∧ Numeral.IsPadding padding ∧
        ∀ c ∈ numeral, IsTokenChar c := by
  cases h with
  | decimal hspells => exact Or.inl (isTokenChar_of_spells hspells)
  | marked hletter hunderscore hdigits =>
    exact Or.inl (isTokenChar_of_spells (spells_marked hletter hunderscore hdigits))
  | dollar hpadding hspells => exact Or.inr ⟨_, _, rfl, hpadding, isTokenChar_of_spells hspells⟩

/-- A text that is read as an argument and as a word file has one word, the argument. -/
theorem words_of_gives (hgives : Gives text value) (h : WordFile.parse text = .ok words) :
    words = [value] := by
  obtain ⟨before, spelling, after, rfl, hbefore, hafter, hspelling⟩ := hgives
  have hwords := WordFile.forall₂_of_parse h
  rcases hspelling.token_or_dollar with hchars | ⟨padding, numeral, rfl, hpadding, hchars⟩
  · rw [allTokens_of_spelling hspelling.ne_nil hchars (isGap_of_isBlanks hbefore)
      (isGap_of_isBlanks hafter), List.forall₂_cons_left_iff] at hwords
    obtain ⟨word, rest, hword, hrest, rfl⟩ := hwords
    rw [List.forall₂_nil_left_iff.1 hrest]
    rcases spellsInteger_of_word hword with hsigned | hsame
    · have hread := readInteger_of_signed hsigned hchars
      rw [readInteger_eq_ok_iff.2 hspelling.gives] at hread
      cases hread
    · rw [hsame.gives.unique hspelling.gives]
  · obtain ⟨rest, hmem⟩ := exists_dollar_token hpadding hchars (isGap_of_isBlanks hafter)
    rw [WordFile.allTokens_gap (isGap_of_isBlanks hbefore), List.cons_append,
      List.append_assoc] at hwords
    obtain ⟨i, hi, htoken⟩ := List.getElem_of_mem hmem
    have hword := hwords.get hi (hwords.length_eq ▸ hi)
    rw [List.get_eq_getElem, htoken] at hword
    exact absurd hword (not_spellsInteger_dollar rest _)

/-! ## Both readers -/

theorem isToken_of_spells {base : Base} (h : WordFile.Spells token factor base values) :
    token ≠ [] ∧ ∀ c ∈ token, IsTokenChar c := by
  obtain ⟨sign, unsigned, rfl, hsign, hunsigned⟩ := h
  obtain ⟨hne, hchars⟩ := WordFile.isTokenChar_of_spellsUnsigned hunsigned
  exact ⟨List.append_ne_nil_of_right_ne_nil _ hne,
    List.forall_mem_append.2 ⟨WordFile.isTokenChar_of_isSign hsign, hchars⟩⟩

theorem parse_of_tooLong (h : WordFile.Spells token factor .ten values)
    (hlong : Decimal.digitLimit < values.length) :
    WordFile.parse token = .error (.numeral (.tooLong values.length)) := by
  obtain ⟨hne, hchars⟩ := isToken_of_spells h
  rw [WordFile.parse_token hne hchars, WordFile.readToken_eq_iff.2 (.tooLong h hlong)]
  rfl

/-- A token that is a word is read as an argument with the same value, unless it is hexadecimal with
    a sign, which an argument must not be. A decimal token with too many digits is refused for them
    by both. And of all texts, tokens or not, those that both read are a single word with the same
    value. -/
theorem readInteger_agrees :
    (∀ (token : List Char) (value : Int), (∀ c ∈ token, IsTokenChar c) →
      WordFile.parse token = .ok [value] →
        (¬IsSignedHexadecimal token → readInteger token = .ok value) ∧
        (IsSignedHexadecimal token → readInteger token = .error (.malformed .ten token))) ∧
    (∀ (token : List Char) (factor : Int) (values : List Nat),
      WordFile.Spells token factor .ten values → Decimal.digitLimit < values.length →
        WordFile.parse token = .error (.numeral (.tooLong values.length)) ∧
          readInteger token = .error (.tooLong values.length)) ∧
    ∀ (text : List Char) (words : List Int) (value : Int), WordFile.parse text = .ok words →
      readInteger text = .ok value → words = [value] := by
  refine ⟨fun token value htoken h => ⟨fun hno => ?_, fun hsigned => ?_⟩,
    fun token factor values h hlong => ⟨?_, ?_⟩, fun text words value h hread => ?_⟩
  · have hspells := (spellsInteger_of_word (spellsInteger_of_parse htoken h)).resolve_left hno
    exact readInteger_eq_ok_iff.2 hspells.gives
  · exact readInteger_of_signed hsigned htoken
  · exact parse_of_tooLong h hlong
  · exact readInteger_of_tooLong h (isToken_of_spells h).2 hlong
  · exact words_of_gives (readInteger_eq_ok_iff.1 hread) h

/-- A hexadecimal token without and with a sign, one digit more than may be read, and digits of
    another script with blanks around them. -/
theorem readInteger_agrees_in_other_digits :
    let plain := ['0', 'X', '0', 'f', 'F']
    readInteger plain = .ok 255 ∧
      readInteger ('-' :: plain) = .error (.malformed .ten ('-' :: plain)) ∧
      readInteger (List.replicate 4301 '1') = .error (.tooLong 4301) ∧
      ∀ value, readInteger "\t-٠٣\u2028".toList = .ok value → [-3] = [value] := by
  intro plain
  obtain ⟨htokens, hlong, htexts⟩ := readInteger_agrees
  have hchars : ∀ c ∈ '-' :: plain, WordFile.separates c = false ∧ c ≠ '#' :=
    List.all_iff_forall_prop.1 (by decide)
  have hplain : ¬IsSignedHexadecimal plain := by
    rintro ⟨sign, factor, unsigned, values, hne, heq, hsign, -⟩
    cases hsign with
    | absent => exact hne rfl
    | plus =>
      have hhead : some '0' = some '+' := congrArg List.head? heq
      cases hhead
    | minus =>
      have hhead : some '0' = some '-' := congrArg List.head? heq
      cases hhead
  have hsigned : IsSignedHexadecimal ('-' :: plain) :=
    ⟨['-'], -1, plain, [0, 15, 15], nofun, rfl, .minus, WordFile.digits?_eq_some_iff.1 (by decide)⟩
  refine ⟨(htokens plain 255 (fun c hc => hchars c (List.mem_cons_of_mem _ hc)) (by decide)).1
    hplain, (htokens _ (-255) hchars (by decide)).2 hsigned, ?_, fun value hread => ?_⟩
  · have hones := (hlong _ 1 _ (WordFile.spells_replicate (n := 4301) (by decide)) ?_).2
    · rwa [List.length_replicate] at hones
    · rw [List.length_replicate]
      decide
  · exact htexts _ _ value (by decide +kernel) hread

end WordMachine.CommandLine
