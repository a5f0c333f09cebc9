import WordMachine.Proofs.Program.Files
import WordMachine.Proofs.WordFile.Refusals

set_option autoImplicit false

/-! # Writing a word file

`Renders` says how a list of integers can be written: each integer in any of its spellings,
separators around them and at least one between two of them, and comments at the ends of lines. A
word file that is written in one of these ways is read as the integers in it, and loads like them
(`parse_of_renders`).

Line numbers do not matter to a text that can be read. So what is looked at are the tokens of all
lines (`allTokens`). A comment at the end of a line leaves them as they are
(`Commented.allTokens_eq`), a separator adds nothing to them, and a word is one of them
(`forall₂_allTokens`). -/

namespace WordMachine.WordFile

/-! ## What is written -/

/-- A spelling of an integer: decimal with few enough digits, or hexadecimal. -/
def SpellsInteger (token : List Char) (value : Int) : Prop :=
  ∃ factor base values, Spells token factor base values ∧
    (base = .ten → values.length ≤ Decimal.digitLimit) ∧
    value = factor * (Nat.ofDigits base.radix values.reverse : Nat)

/-- A text of commas, blanks and line breaks. -/
def IsGap (gap : List Char) : Prop := ∀ c ∈ gap, separates c = true

instance (gap : List Char) : Decidable (IsGap gap) := List.decidableBAll _ gap

/-- Integers, each followed by a gap, which is not empty if there is another integer behind it. -/
inductive WordsLaid : List Int → List Char → Prop where
  | nil : WordsLaid [] []
  | cons {value : Int} {values : List Int} {token gap rest : List Char}
    (htoken : SpellsInteger token value) (hgap : IsGap gap) (hbetween : values ≠ [] → gap ≠ [])
    (hrest : WordsLaid values rest) : WordsLaid (value :: values) (token ++ (gap ++ rest))

/-- A mark and characters that end no line. -/
def IsComment (comment : List Char) : Prop :=
  ∃ text, comment = '#' :: text ∧ ∀ c ∈ text, Text.isLineBreak c = false

/-- The second text is the first with comments at the ends of some of its lines. -/
inductive Commented : List Char → List Char → Prop where
  | nil : Commented [] []
  | atEnd {comment : List Char} (hcomment : IsComment comment) : Commented [] comment
  | keep {cs ds : List Char} (c : Char) (h : Commented cs ds) : Commented (c :: cs) (c :: ds)
  | atBreak {comment cs ds : List Char} {c : Char} (hcomment : IsComment comment)
    (hc : Text.isLineBreak c = true) (h : Commented cs ds) :
    Commented (c :: cs) (comment ++ c :: ds)

/-- A way of writing integers: a gap, the integers with gaps between and behind them, and comments
    at the ends of lines. -/
def Renders (values : List Int) (text : List Char) : Prop :=
  ∃ gap words, IsGap gap ∧ WordsLaid values words ∧ Commented (gap ++ words) text

/-! ## The tokens of all lines -/

/-- The tokens of a text, line after line. -/
def allTokens (text : List Char) : List (List Char) := (Text.lines text).flatMap tokens

variable {c : Char} {start cs ds token rest : List Char}

theorem allTokens_eq (cs : List Char) :
    allTokens cs = tokens (firstLine cs) ++ (laterLines cs).flatMap tokens := by
  rw [allTokens, firstLine, laterLines]
  cases Text.lines cs <;> rfl

theorem allTokens_append (h : ∀ c ∈ start, Text.isLineBreak c = false) (cs : List Char) :
    allTokens (start ++ cs) =
      tokens (start ++ firstLine cs) ++ (laterLines cs).flatMap tokens := by
  obtain ⟨hfirst, hlater⟩ := firstLine_append h cs
  rw [allTokens_eq, hfirst, hlater]

/-- A single line. -/
theorem allTokens_line (h : ∀ c ∈ start, Text.isLineBreak c = false) :
    allTokens start = tokens start := by
  have hline : allTokens (start ++ []) = tokens (start ++ []) ++ [] := allTokens_append h []
  rwa [List.append_nil, List.append_nil] at hline

theorem allTokens_break (hc : Text.isLineBreak c = true) (cs : List Char) :
    allTokens (c :: cs) = allTokens cs := by
  rw [allTokens, lines_break hc, List.flatMap_cons, tokens_nil, List.nil_append, afterBreak]
  split
  · next h =>
    -- The line feed of a pair ends an empty line, which has no tokens.
    obtain ⟨rest, rfl⟩ := List.head?_eq_some_iff.1 h.2
    have hfeed : Text.lines ('\n' :: rest) = [] :: Text.lines rest :=
      Text.lines_cons_of_break (by decide) (by simp)
    rw [allTokens, hfeed]
    rfl
  · rfl

theorem allTokens_append_break (h : ∀ c ∈ start, Text.isLineBreak c = false)
    (hc : Text.isLineBreak c = true) (cs : List Char) :
    allTokens (start ++ c :: cs) = tokens start ++ allTokens cs := by
  have hempty : firstLine (c :: cs) = [] := by rw [firstLine, lines_break hc, List.headD_cons]
  have hrest : allTokens (c :: cs) = (laterLines (c :: cs)).flatMap tokens := by
    rw [allTokens_eq, hempty, tokens_nil, List.nil_append]
  rw [allTokens_append h, hempty, List.append_nil, ← hrest, allTokens_break hc]

/-! ### Comments -/

theorem IsComment.not_isLineBreak {comment : List Char} (h : IsComment comment) :
    ∀ c ∈ comment, Text.isLineBreak c = false := by
  obtain ⟨text, rfl, htext⟩ := h
  intro c hc
  rcases List.mem_cons.1 hc with rfl | hc
  · decide
  · exact htext c hc

theorem IsComment.tokens_append {comment : List Char} (h : IsComment comment) (start : List Char) :
    tokens (start ++ comment) = tokens start := by
  obtain ⟨text, rfl, -⟩ := h
  have hcut : (start ++ '#' :: text).takeWhile (· ≠ '#') = start.takeWhile (· ≠ '#') := by
    induction start with
    | nil => rfl
    | cons c start ih => rw [List.cons_append, List.takeWhile_cons, List.takeWhile_cons, ih]
  rw [tokens, tokens, hcut]

theorem Commented.append_left (start : List Char) (h : Commented cs ds) :
    Commented (start ++ cs) (start ++ ds) := by
  induction start with
  | nil => exact h
  | cons c start ih => exact .keep c ih

/-- Comments at the ends of lines change none of the tokens, whatever the text before them is. -/
theorem Commented.allTokens_append_eq (h : Commented cs ds)
    (hstart : ∀ c ∈ start, Text.isLineBreak c = false) :
    allTokens (start ++ ds) = allTokens (start ++ cs) := by
  -- The induction goes on behind the beginning of a line, which is kept in `start`.
  induction h generalizing start with
  | nil => rfl
  | atEnd hcomment =>
    have hall := List.forall_mem_append.2 ⟨hstart, hcomment.not_isLineBreak⟩
    rw [allTokens_line hall, hcomment.tokens_append, List.append_nil, allTokens_line hstart]
  | @keep cs ds c h ih =>
    cases hc : Text.isLineBreak c with
    | true =>
      have hrest : allTokens ([] ++ ds) = allTokens ([] ++ cs) := ih nofun
      rw [allTokens_append_break hstart hc, allTokens_append_break hstart hc]
      exact congrArg _ hrest
    | false =>
      have hall : ∀ d ∈ start ++ [c], Text.isLineBreak d = false :=
        List.forall_mem_append.2 ⟨hstart, by simpa using hc⟩
      have hrest := ih hall
      rwa [List.append_assoc, List.append_assoc] at hrest
  | @atBreak comment cs ds c hcomment hc h ih =>
    have hall := List.forall_mem_append.2 ⟨hstart, hcomment.not_isLineBreak⟩
    have hrest : allTokens ([] ++ ds) = allTokens ([] ++ cs) := ih nofun
    rw [← List.append_assoc, allTokens_append_break hall hc, allTokens_append_break hstart hc,
      hcomment.tokens_append]
    exact congrArg _ hrest

/-! ### Separators and words -/

theorem allTokens_of_separates (hc : separates c = true) (cs : List Char) :
    allTokens (c :: cs) = allTokens cs := by
  cases hline : Text.isLineBreak c with
  | true => exact allTokens_break hline cs
  | false =>
    obtain ⟨hfirst, hlater⟩ := firstLine_cons hline cs
    rw [allTokens_eq, hfirst, hlater, tokens_of_separates hc, ← allTokens_eq]

theorem allTokens_gap {gap : List Char} (h : IsGap gap) (cs : List Char) :
    allTokens (gap ++ cs) = allTokens cs := by
  induction gap with
  | nil => rfl
  | cons c gap ih =>
    rw [List.cons_append, allTokens_of_separates (h c List.mem_cons_self),
      ih fun d hd => h d (List.mem_cons_of_mem c hd)]

/-- The first line of a text begins as the text does, unless it is empty. -/
theorem head?_of_head?_firstLine (h : (firstLine cs).head? = some c) : cs.head? = some c := by
  cases cs with
  | nil => cases h
  | cons d cs =>
    cases hd : Text.isLineBreak d with
    | true =>
      rw [firstLine, lines_break hd] at h
      cases h
    | false => rwa [(firstLine_cons hd cs).1] at h

/-- A word that a separator or the end follows is the next token. -/
theorem allTokens_token (hne : token ≠ []) (htoken : ∀ c ∈ token, IsTokenChar c)
    (hrest : ∀ c ∈ rest.head?, separates c = true) :
    allTokens (token ++ rest) = token :: allTokens rest := by
  have hend : ∀ c ∈ (firstLine rest).head?, ¬IsTokenChar c := by
    intro c hc hchar
    have hsep := hrest c (head?_of_head?_firstLine hc)
    cases hchar.1.symm.trans hsep
  rw [allTokens_append fun c hc => (htoken c hc).not_isLineBreak, tokens_append hne htoken hend,
    List.cons_append, ← allTokens_eq]

/-! ## The characters of a spelling -/

theorem isTokenChar_of_isSign {sign : List Char} {factor : Int} (h : IsSign sign factor) :
    ∀ c ∈ sign, IsTokenChar c := by
  intro c hc
  cases h with
  | absent => cases hc
  | plus | minus =>
    obtain rfl := List.mem_singleton.1 hc
    exact ⟨by decide, by decide⟩

theorem isTokenChar_of_isHexDigit {value : Nat} (h : IsHexDigit c value) : IsTokenChar c := by
  have hall : ∀ n < 16, (separates (Nat.digitChar n) = false ∧ Nat.digitChar n ≠ '#') ∧
      separates (Nat.digitChar n).toUpper = false ∧ (Nat.digitChar n).toUpper ≠ '#' := by
    decide
  obtain ⟨hlt, rfl | rfl⟩ := h
  · exact (hall value hlt).1
  · exact (hall value hlt).2

/-- No decimal digit of any script is a blank, a comma or the mark of a comment. -/
theorem isTokenChar_of_isDecimalDigit {value : Nat} (h : IsDecimalDigit c value) :
    IsTokenChar c := by
  obtain ⟨first, hfind, -⟩ := Option.map_eq_some_iff.1 h
  have hmem := List.mem_of_find?_eq_some hfind
  have hrange := List.find?_some hfind
  simp only [Bool.and_eq_true, decide_eq_true_eq] at hrange
  have hblank : ∀ z ∈ Text.decimalZeros, ∀ k < 10,
      Text.blanks.any (fun range => range.1 ≤ z + k && z + k ≤ range.2) = false ∧
        z + k ≠ ','.toNat ∧ z + k ≠ '#'.toNat := by
    decide
  obtain ⟨k, hk⟩ := Nat.exists_eq_add_of_le hrange.1
  obtain ⟨hno, hcomma, hmark⟩ := hblank first hmem k (by omega)
  rw [← hk] at hno hcomma hmark
  refine ⟨?_, fun heq => hmark (congrArg Char.toNat heq)⟩
  rw [separates, Bool.or_eq_false_iff, decide_eq_false_iff_not]
  exact ⟨fun heq => hcomma (congrArg Char.toNat heq), hno⟩

theorem isTokenChar_of_spellsUnsigned {base : Base} {values : List Nat} {text : List Char}
    (h : SpellsUnsigned base text values) : text ≠ [] ∧ ∀ c ∈ text, IsTokenChar c := by
  cases h with
  | @hexadecimal mark digits _ hmark hdigits hne =>
    have hchars := (List.forall₂_and_left _ _).1
      (hdigits.imp fun _ _ hdigit => ⟨isTokenChar_of_isHexDigit hdigit, hdigit⟩)
    have hx : IsTokenChar mark := by
      rcases hmark with rfl | rfl <;> exact ⟨by decide, by decide⟩
    have hzero : IsTokenChar '0' := ⟨by decide, by decide⟩
    exact ⟨List.cons_ne_nil _ _, List.forall_mem_cons.2 ⟨hzero, List.forall_mem_cons.2
      ⟨hx, hchars.1⟩⟩⟩
  | decimal hdigits hne =>
    have hchars := (List.forall₂_and_left _ _).1
      (hdigits.imp fun _ _ hdigit => ⟨isTokenChar_of_isDecimalDigit hdigit, hdigit⟩)
    refine ⟨?_, hchars.1⟩
    rintro rfl
    exact hne (List.forall₂_nil_left_iff.1 hdigits)

theorem SpellsInteger.isToken {value : Int} (h : SpellsInteger token value) :
    token ≠ [] ∧ ∀ c ∈ token, IsTokenChar c := by
  obtain ⟨factor, base, values, ⟨sign, unsigned, rfl, hsign, hunsigned⟩, -, -⟩ := h
  obtain ⟨hne, hall⟩ := isTokenChar_of_spellsUnsigned hunsigned
  exact ⟨List.append_ne_nil_of_right_ne_nil _ hne,
    List.forall_mem_append.2 ⟨isTokenChar_of_isSign hsign, hall⟩⟩

theorem SpellsInteger.readToken_eq {value : Int} (h : SpellsInteger token value) (line : Nat) :
    readToken line token = .ok value := by
  obtain ⟨factor, base, values, hspells, hshort, rfl⟩ := h
  exact readToken_eq_iff.2 (.value hspells hshort)

/-! ## Words that are written -/

theorem eq_nil_of_wordsLaid_nil {words : List Char} (h : WordsLaid [] words) : words = [] := by
  cases h
  rfl

theorem WordsLaid.forall₂_allTokens {values : List Int} {words : List Char} (h : WordsLaid values words) :
    List.Forall₂ SpellsInteger (allTokens words) values := by
  induction h with
  | nil => exact .nil
  | @cons value values token gap rest htoken hgap hbetween hrest ih =>
    obtain ⟨hne, hchars⟩ := htoken.isToken
    have hnext : ∀ c ∈ (gap ++ rest).head?, separates c = true := by
      intro c hc
      cases gap with
      | nil =>
        -- Without a gap there is no other integer.
        have hvalues : values = [] := by
          by_contra hno
          exact hbetween hno rfl
        subst hvalues
        rw [eq_nil_of_wordsLaid_nil hrest] at hc
        cases hc
      | cons d gap =>
        cases hc
        exact hgap c List.mem_cons_self
    rw [allTokens_token hne hchars hnext, allTokens_gap hgap]
    exact .cons htoken ih

theorem Renders.forall₂_allTokens {values : List Int} {text : List Char}
    (h : Renders values text) : List.Forall₂ SpellsInteger (allTokens text) values := by
  obtain ⟨gap, words, hgap, hwords, hcommented⟩ := h
  have hcomments : allTokens ([] ++ text) = allTokens ([] ++ (gap ++ words)) :=
    hcommented.allTokens_append_eq nofun
  rw [List.nil_append, List.nil_append] at hcomments
  rw [hcomments, allTokens_gap hgap]
  exact hwords.forall₂_allTokens

/-! ## Reading what is written -/

theorem map_snd_locatedFrom (line : Nat) (texts : List (List Char)) :
    (locatedFrom line texts).map Prod.snd = texts.flatMap tokens := by
  induction texts generalizing line with
  | nil => rfl
  | cons text rest ih =>
    rw [locatedFrom, List.map_append, ih, List.map_map, List.flatMap_cons]
    congr 1
    exact List.map_id _

theorem mapM_eq_ok_of_forall₂ {ε α β : Type} {f : α → Except ε β} {l : List α} {values : List β}
    (h : List.Forall₂ (fun a value => f a = .ok value) l values) : l.mapM f = .ok values := by
  induction h with
  | nil => rfl
  | cons hfirst _ ih =>
    rw [List.mapM_cons, hfirst, ih]
    rfl

/-- A text whose tokens spell integers is read as these, whatever lines they stand in. -/
theorem parse_of_forall₂ {values : List Int} {text : List Char}
    (h : List.Forall₂ SpellsInteger (allTokens text) values) : parse text = .ok values := by
  rw [allTokens, ← map_snd_locatedFrom 1, List.forall₂_map_left_iff] at h
  rw [parse_eq_mapM]
  exact mapM_eq_ok_of_forall₂ (h.imp fun t _ hspells => hspells.readToken_eq t.1)

theorem forall₂_of_mapM_eq_ok {ε α β : Type} {f : α → Except ε β} {l : List α} {values : List β}
    (h : l.mapM f = .ok values) : List.Forall₂ (fun a value => f a = .ok value) l values := by
  induction l generalizing values with
  | nil =>
    cases h
    exact .nil
  | cons first rest ih =>
    rw [List.mapM_cons] at h
    cases hfirst : f first with
    | error error => rw [hfirst] at h; cases h
    | ok value =>
      cases hrest : rest.mapM f with
      | error error => rw [hfirst, hrest] at h; cases h
      | ok later =>
        rw [hfirst, hrest] at h
        cases h
        exact .cons hfirst (ih hrest)

theorem spellsInteger_of_readToken {line : Nat} {value : Int}
    (h : readToken line token = .ok value) : SpellsInteger token value := by
  cases readToken_eq_iff.1 h with
  | value hspells hshort => exact ⟨_, _, _, hspells, hshort, rfl⟩

/-- Of a text that is read, each token spells the integer in its place. -/
theorem forall₂_of_parse {values : List Int} {text : List Char} (h : parse text = .ok values) :
    List.Forall₂ SpellsInteger (allTokens text) values := by
  rw [parse_eq_mapM] at h
  rw [allTokens, ← map_snd_locatedFrom 1, List.forall₂_map_left_iff]
  exact (forall₂_of_mapM_eq_ok h).imp fun t value hread => spellsInteger_of_readToken hread

/-- What is written can be read. However integers are written as a word file, in any spelling of
    each, with any separators around them and with comments at the ends of any lines, the word file
    is read as these integers; and loading its text answers what loading the integers answers, and
    leaves the same emulator. -/
theorem parse_of_renders (values : List Int) (text : List Char) (h : Renders values text) :
    parse text = .ok values ∧
      ∀ e : Emulator, (Operation.load (.text (String.ofList text))).perform e =
        (Operation.load (.words values)).perform e := by
  have hparse := parse_of_forall₂ h.forall₂_allTokens
  refine ⟨hparse, fun e => Operation.perform_load_congr ?_ e⟩
  show parse (String.ofList text).toList = .ok values
  rw [String.toList_ofList, hparse]

/-- A comment of its own line, a hexadecimal word and a decimal one with a comma between them, and a
    comment right behind the last word. -/
theorem parse_of_renders_commented :
    let text := "#1\n+0x1F,-07#2\r\n".toList
    Renders [31, -7] text ∧ parse text = .ok [31, -7] := by
  intro text
  have hhex : SpellsInteger "+0x1F".toList 31 :=
    ⟨1, .sixteen, [1, 15], ⟨['+'], "0x1F".toList, rfl, .plus, .hexadecimal (Or.inl rfl)
      (.cons ⟨by decide, Or.inl rfl⟩ (.cons ⟨by decide, Or.inr rfl⟩ .nil)) (by decide)⟩,
      nofun, rfl⟩
  have hdecimal : SpellsInteger "-07".toList (-7) :=
    ⟨-1, .ten, [0, 7], ⟨['-'], "07".toList, rfl, .minus, .decimal (.cons rfl (.cons rfl .nil))
      (by decide)⟩, by decide, rfl⟩
  have hlast : WordsLaid [-7] "-07\r\n".toList :=
    @WordsLaid.cons _ _ _ ['\r', '\n'] _ hdecimal (by decide) (by decide) .nil
  have hwords : WordsLaid [31, -7] "+0x1F,-07\r\n".toList :=
    @WordsLaid.cons _ _ _ [','] _ hhex (by decide) (by decide) hlast
  have hrenders : Renders [31, -7] text := by
    have hfirst : IsComment ['#', '1'] := ⟨['1'], rfl, List.forall_mem_singleton.2 rfl⟩
    have hsecond : IsComment ['#', '2'] := ⟨['2'], rfl, List.forall_mem_singleton.2 rfl⟩
    have hend : Commented "\r\n".toList "#2\r\n".toList :=
      .atBreak hsecond rfl (.keep '\n' .nil)
    have hbegin : Commented "\n+0x1F,-07\r\n".toList text :=
      .atBreak hfirst rfl (hend.append_left "+0x1F,-07".toList)
    exact ⟨['\n'], _, by decide, hwords, hbegin⟩
  exact ⟨hrenders, (parse_of_renders _ _ hrenders).1⟩

end WordMachine.WordFile
