import WordMachine.Proofs.Outcome
import WordMachine.Proofs.WordFile.Scanner

set_option autoImplicit false

/-! # The first token that is refused

To read a word file is to read its tokens in their order (`parse_eq_mapM`), so an error comes from
the first token that cannot be read (`parse_eq_error_iff`). Such a token is no word, which is
reported with the token and its line, or a decimal number with too many digits, which is reported
with neither (`parse_cases`). So not every text that is refused is refused with a line and a token
(`not_parse_format`). -/

namespace WordMachine.WordFile

/-! ## The tokens of a text -/

/-- The tokens of some lines, each with the number of its line; the first line has the given
    number. -/
def locatedFrom (line : Nat) : List (List Char) → List (Nat × List Char)
  | [] => []
  | text :: rest => (tokens text).map (line, ·) ++ locatedFrom (line + 1) rest

/-- The tokens of a text, each with the number of its line. -/
def located (text : List Char) : List (Nat × List Char) := locatedFrom 1 (Text.lines text)

variable {line : Nat} {token text : List Char} {error : Error}

theorem le_of_mem_locatedFrom {texts : List (List Char)} {first : Nat}
    (h : (line, token) ∈ locatedFrom first texts) : first ≤ line := by
  induction texts generalizing first with
  | nil => cases h
  | cons text rest ih =>
    rw [locatedFrom, List.mem_append, List.mem_map] at h
    rcases h with ⟨_, -, heq⟩ | h
    · exact Nat.le_of_eq (congrArg Prod.fst heq)
    · exact Nat.le_of_succ_le (ih h)

theorem readTokens_eq_mapM (line : Nat) (tokens : List (List Char)) :
    readTokens line tokens = tokens.mapM (readToken line) := by
  induction tokens with
  | nil => rfl
  | cons token rest ih =>
    rw [readTokens, ih, List.mapM_cons]
    cases readToken line token <;> rfl

theorem parseLines_eq_mapM (line : Nat) (texts : List (List Char)) :
    parseLines line texts = (locatedFrom line texts).mapM fun t => readToken t.1 t.2 := by
  induction texts generalizing line with
  | nil => rfl
  | cons text rest ih =>
    have hfirst : ((tokens text).map (line, ·)).mapM (fun t => readToken t.1 t.2) =
        readTokens line (tokens text) := by
      rw [List.mapM_map, readTokens_eq_mapM]
      rfl
    rw [parseLines_cons, locatedFrom, List.mapM_append, hfirst, ih]
    rfl

/-- A word file is read token by token. -/
theorem parse_eq_mapM (text : List Char) :
    parse text = (located text).mapM fun t => readToken t.1 t.2 :=
  parseLines_eq_mapM 1 (Text.lines text)

/-! ## The first refusal -/

/-- The token of the line is refused with the error, and no token before it is. -/
structure FirstRefusal (text : List Char) (line : Nat) (token : List Char) (error : Error) :
    Prop where
  first : ∃ before after, located text = before ++ (line, token) :: after ∧
    ∀ t ∈ before, ∃ value, readToken t.1 t.2 = .ok value
  refused : readToken line token = .error error

/-- The error of a word file is that of the first token that is refused. -/
theorem parse_eq_error_iff :
    parse text = .error error ↔ ∃ line token, FirstRefusal text line token error := by
  rw [parse_eq_mapM, mapM_eq_error_iff]
  constructor
  · rintro ⟨before, ⟨line, token⟩, after, hsplit, hbefore, hrefused⟩
    exact ⟨line, token, ⟨before, after, hsplit, hbefore⟩, hrefused⟩
  · rintro ⟨line, token, ⟨before, after, hsplit, hbefore⟩, hrefused⟩
    exact ⟨before, (line, token), after, hsplit, hbefore, hrefused⟩

theorem FirstRefusal.one_le (h : FirstRefusal text line token error) : 1 ≤ line := by
  obtain ⟨before, after, hsplit, -⟩ := h.first
  have hmem : (line, token) ∈ located text := by rw [hsplit]; simp
  exact le_of_mem_locatedFrom hmem

/-- A text is read, or it is refused with the line and the token of its first refusal, or this token
    is a decimal number with too many digits and only their number is told. -/
theorem parse_cases (text : List Char) :
    (∃ words, parse text = .ok words) ∨
      ∃ line token, 1 ≤ line ∧
        ((parse text = .error (.format (.notAWord line token)) ∧
            FirstRefusal text line token (.format (.notAWord line token)) ∧
            ∀ factor base values, ¬Spells token factor base values) ∨
          ∃ factor values, parse text = .error (.numeral (.tooLong values.length)) ∧
            FirstRefusal text line token (.numeral (.tooLong values.length)) ∧
            Spells token factor .ten values ∧ Decimal.digitLimit < values.length) := by
  cases hparse : parse text with
  | ok words => exact Or.inl ⟨words, rfl⟩
  | error error =>
    obtain ⟨line, token, hfirst⟩ := parse_eq_error_iff.1 hparse
    refine Or.inr ⟨line, token, hfirst.one_le, ?_⟩
    cases readToken_eq_iff.1 hfirst.refused with
    | notAWord hno => exact Or.inl ⟨rfl, hfirst, hno⟩
    | tooLong hspells hlong => exact Or.inr ⟨_, _, rfl, hfirst, hspells, hlong⟩

/-! ## Too many digits -/

/-- A text that is one token. -/
theorem parse_token (hne : token ≠ []) (htoken : ∀ c ∈ token, IsTokenChar c) :
    parse token = (readToken 1 token).map fun value => [value] := by
  have hvalid : (Mode.token token).Valid := ⟨hne, htoken⟩
  have hline : parse token = readTokens 1 (tokens token) := hvalid.parseLines_pending 1
  rw [hline, tokens_of_tokenChars hne htoken, readTokens_cons, readTokens, andThen_nil]

theorem spells_replicate {n : Nat} (h : 0 < n) :
    Spells (List.replicate n '1') 1 .ten (List.replicate n 1) := by
  have hdigits : List.Forall₂ IsDecimalDigit (List.replicate n '1') (List.replicate n 1) := by
    refine List.forall₂_iff_get.2 ⟨by simp, fun i _ _ => ?_⟩
    simp only [List.get_eq_getElem, List.getElem_replicate, IsDecimalDigit]
    decide
  have hne : List.replicate n 1 ≠ [] := fun hnil => by
    rw [List.replicate_eq_nil_iff] at hnil
    omega
  exact ⟨[], _, rfl, .absent, .decimal hdigits hne⟩

/-- A text of nothing but digits is too long to be read if it has too many of them. -/
theorem parse_replicate {n : Nat} (h : Decimal.digitLimit < n) :
    parse (List.replicate n '1') = .error (.numeral (.tooLong n)) := by
  have hpos : 0 < n := Nat.zero_lt_of_lt h
  have hne : List.replicate n '1' ≠ [] := fun hnil => by
    rw [List.replicate_eq_nil_iff] at hnil
    omega
  have htoken : ∀ c ∈ List.replicate n '1', IsTokenChar c := by
    intro c hc
    obtain ⟨-, rfl⟩ := List.mem_replicate.1 hc
    exact ⟨by decide, by decide⟩
  have hlength : Decimal.digitLimit < (List.replicate n 1).length := by
    rwa [List.length_replicate]
  have hlong : Judged 1 (List.replicate n '1') _ := .tooLong (spells_replicate hpos) hlength
  rw [parse_token hne htoken, readToken_eq_iff.2 hlong, List.length_replicate]
  rfl

/-- So it does not hold of every text that it is read, or refused with a line and a token. -/
theorem not_parse_format :
    ¬ ∀ text : List Char, (∃ words, parse text = .ok words) ∨
      ∃ line token, 1 ≤ line ∧ parse text = .error (.format (.notAWord line token)) := by
  intro hclaim
  have hparse : parse (List.replicate 4301 '1') = .error (.numeral (.tooLong 4301)) :=
    parse_replicate (by decide)
  rcases hclaim (List.replicate 4301 '1') with ⟨words, h⟩ | ⟨line, token, -, h⟩
  · rw [hparse] at h
    cases h
  · rw [hparse] at h
    cases h

end WordMachine.WordFile
