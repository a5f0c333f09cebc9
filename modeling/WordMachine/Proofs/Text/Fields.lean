import WordMachine.Text.Blank

set_option autoImplicit false

/-! # Fields one separator at a time

A separator in front of a text adds no field (`fields_cons_of_separates`), and a piece without
separators that a separator or the end follows is a field of its own (`fields_append`). So pieces
with a separator between them are the fields again (`fields_intercalate`). -/

namespace WordMachine.Text

variable {separates : Char → Bool} {c d : Char} {cs piece rest : List Char}

theorem fields_cons_of_separates (hc : separates c = true) :
    fields separates (c :: cs) = fields separates cs := by
  cases cs with
  | nil => simp [fields, hc]
  | cons d cs => rw [fields, if_pos hc]

/-- The last character of a field. -/
theorem fields_cons_of_separates_next (hc : separates c = false)
    (hrest : ∀ d ∈ rest.head?, separates d = true) :
    fields separates (c :: rest) = [c] :: fields separates rest := by
  cases rest with
  | nil => simp [fields, hc]
  | cons d rest =>
    have hd : separates d = true := hrest d rfl
    rw [fields, if_neg (by simp [hc]), if_pos hd]

/-- A character of a field that is not its last. -/
theorem fields_cons_cons (hc : separates c = false) (hd : separates d = false) :
    fields separates (c :: d :: cs) = consFirst c (fields separates (d :: cs)) := by
  rw [fields, if_neg (by simp [hc]), if_neg (by simp [hd])]

theorem fields_append (hne : piece ≠ []) (hpiece : ∀ c ∈ piece, separates c = false)
    (hrest : ∀ d ∈ rest.head?, separates d = true) :
    fields separates (piece ++ rest) = piece :: fields separates rest := by
  induction piece with
  | nil => exact absurd rfl hne
  | cons c piece ih =>
    have hc : separates c = false := hpiece c (by simp)
    cases piece with
    | nil => exact fields_cons_of_separates_next hc hrest
    | cons d piece =>
      have hd : separates d = false := hpiece d (by simp)
      have htail := ih (by simp) fun e he => hpiece e (List.mem_cons_of_mem c he)
      rw [List.cons_append] at htail
      rw [List.cons_append, List.cons_append, fields_cons_cons hc hd, htail, consFirst]

/-- A piece without separators is the only field of itself. -/
theorem fields_piece (hne : piece ≠ []) (hpiece : ∀ c ∈ piece, separates c = false) :
    fields separates piece = [piece] := by
  have h : fields separates (piece ++ []) = piece :: fields separates [] :=
    fields_append hne hpiece nofun
  rwa [List.append_nil] at h

theorem fields_replicate_append (hc : separates c = true) (n : Nat) (cs : List Char) :
    fields separates (List.replicate n c ++ cs) = fields separates cs := by
  induction n with
  | zero => rfl
  | succ n ih => rw [List.replicate_succ, List.cons_append, fields_cons_of_separates hc, ih]

/-- A piece without separators is a field also if more than one of them follow. -/
theorem fields_append_separators (hne : piece ≠ []) (hpiece : ∀ d ∈ piece, separates d = false)
    (hc : separates c = true) (n : Nat) :
    fields separates (piece ++ (List.replicate n c ++ c :: rest)) =
      piece :: fields separates rest := by
  have hhead : ∀ d ∈ (List.replicate n c ++ c :: rest).head?, separates d = true := by
    intro d hd
    cases n <;> cases hd <;> exact hc
  rw [fields_append hne hpiece hhead, fields_replicate_append hc, fields_cons_of_separates hc]

theorem fields_intercalate (hc : separates c = true) {pieces : List (List Char)}
    (h : ∀ piece ∈ pieces, piece ≠ [] ∧ ∀ d ∈ piece, separates d = false) :
    fields separates ([c].intercalate pieces) = pieces := by
  induction pieces with
  | nil => rfl
  | cons piece pieces ih =>
    obtain ⟨hne, hpiece⟩ := h piece List.mem_cons_self
    have hrest := ih fun other hother => h other (List.mem_cons_of_mem _ hother)
    cases pieces with
    | nil => rw [List.intercalate_singleton, fields_piece hne hpiece]
    | cons next pieces =>
      have hbreak : ∀ d ∈ (c :: [c].intercalate (next :: pieces)).head?, separates d = true := by
        intro d hd
        cases hd
        exact hc
      rw [List.intercalate_cons_cons, List.append_assoc, List.singleton_append,
        fields_append hne hpiece hbreak, fields_cons_of_separates hc, hrest]

end WordMachine.Text
