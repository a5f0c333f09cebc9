import WordMachine.Proofs.Outcome
import WordMachine.WordFile

set_option autoImplicit false

/-! # Every token counts

A word file that is read has no token that could not be: if `parse` succeeds, then every token of
every line is a word (`exists_readToken_of_parse`), wherever in the text it stands. -/

namespace WordMachine.WordFile

variable {line : Nat} {words : List Int}

theorem exists_readToken_of_readTokens {tokens : List (List Char)}
    (h : readTokens line tokens = .ok words) {token : List Char} (hmem : token ∈ tokens) :
    ∃ value, readToken line token = .ok value := by
  induction tokens generalizing words with
  | nil => cases hmem
  | cons first rest ih =>
    rw [readTokens] at h
    split at h
    · cases h
    · next value hfirst =>
      obtain ⟨values, hrest, -⟩ := map_eq_ok_iff.1 h
      rcases List.mem_cons.1 hmem with rfl | hmem
      · exact ⟨value, hfirst⟩
      · exact ih hrest hmem

theorem exists_readTokens_of_parseLines {texts : List (List Char)}
    (h : parseLines line texts = .ok words) {n : Nat} {text : List Char}
    (hn : texts[n]? = some text) : ∃ values, readTokens (line + n) (tokens text) = .ok values := by
  induction texts generalizing line words n with
  | nil => cases hn
  | cons first rest ih =>
    rw [parseLines] at h
    split at h
    · cases h
    · next values hfirst =>
      obtain ⟨later, hrest, -⟩ := map_eq_ok_iff.1 h
      cases n with
      | zero => cases hn; exact ⟨values, hfirst⟩
      | succ n =>
        have hshift : line + (n + 1) = line + 1 + n := by omega
        rw [hshift]
        exact ih hrest hn

/-- The tokens of a word file that is read are all words. -/
theorem exists_readToken_of_parse {text : List Char} (h : parse text = .ok words) {n : Nat}
    {line token : List Char} (hn : (Text.lines text)[n]? = some line) (hmem : token ∈ tokens line) :
    ∃ value, readToken (n + 1) token = .ok value := by
  obtain ⟨values, hvalues⟩ := exists_readTokens_of_parseLines h hn
  rw [Nat.add_comm]
  exact exists_readToken_of_readTokens hvalues hmem

end WordMachine.WordFile
