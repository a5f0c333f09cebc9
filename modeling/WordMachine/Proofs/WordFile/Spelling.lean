import Mathlib.Data.List.Forall2
import WordMachine.Proofs.Numeral
import WordMachine.WordFile

set_option autoImplicit false

/-! # The spelling of a word

`Spells` says how a word is written: an optional sign, and then either `0x` with ASCII hexadecimal
digits or decimal digits of any script, at least one of them. `Judged` says what is made of a token
because of its spelling, and `readToken` makes just that of it (`readToken_eq_iff`): a token that
spells a word is read by its value, unless it is decimal with too many digits, and any other is
refused. -/

namespace WordMachine.WordFile

/-! ## Spellings -/

/-- An optional sign, and the factor that it stands for. -/
inductive IsSign : List Char → Int → Prop where
  | absent : IsSign [] 1
  | plus : IsSign ['+'] 1
  | minus : IsSign ['-'] (-1)

/-- An ASCII hexadecimal digit, in either case, and its value. -/
def IsHexDigit (c : Char) (value : Nat) : Prop :=
  value < 16 ∧ (c = value.digitChar ∨ c = value.digitChar.toUpper)

/-- A decimal digit of any script, and its value. -/
def IsDecimalDigit (c : Char) (value : Nat) : Prop := Text.decimalDigit? c = some value

/-- An unsigned number in a base, and the values of its digits. -/
inductive SpellsUnsigned : Base → List Char → List Nat → Prop where
  | hexadecimal {mark : Char} {digits : List Char} {values : List Nat}
    (hmark : mark = 'x' ∨ mark = 'X') (hdigits : List.Forall₂ IsHexDigit digits values)
    (hne : values ≠ []) : SpellsUnsigned .sixteen ('0' :: mark :: digits) values
  | decimal {digits : List Char} {values : List Nat}
    (hdigits : List.Forall₂ IsDecimalDigit digits values) (hne : values ≠ []) :
    SpellsUnsigned .ten digits values

/-- A token that is an optional sign and a number in a base, with the factor of the sign and the
    values of the digits. -/
def Spells (token : List Char) (factor : Int) (base : Base) (values : List Nat) : Prop :=
  ∃ sign unsigned, token = sign ++ unsigned ∧ IsSign sign factor ∧
    SpellsUnsigned base unsigned values

/-- What is made of a token in the given line: its value, if it spells a word that is not too long;
    the limit of decimal digits, if it spells one that is; and else the refusal of the token. -/
inductive Judged (line : Nat) (token : List Char) : Except Error Int → Prop where
  | value {factor : Int} {base : Base} {values : List Nat} (h : Spells token factor base values)
    (hshort : base = .ten → values.length ≤ Decimal.digitLimit) :
    Judged line token (.ok (factor * (Nat.ofDigits base.radix values.reverse : Nat)))
  | tooLong {factor : Int} {values : List Nat} (h : Spells token factor .ten values)
    (hlong : Decimal.digitLimit < values.length) :
    Judged line token (.error (.numeral (.tooLong values.length)))
  | notAWord (h : ∀ factor base values, ¬Spells token factor base values) :
    Judged line token (.error (.format (.notAWord line token)))

/-! ## Digits -/

theorem toNat_lt_of_hexDigit? {c : Char} {value : Nat} (h : hexDigit? c = some value) :
    c.toNat < 128 := by
  have hle : ∀ last : Char, c ≤ last → c.toNat ≤ last.toNat := fun last hlast => hlast
  unfold hexDigit? Text.hexLetter? at h
  split at h
  · next hc => have := hle '9' hc.2; simp at this; omega
  · split at h
    · next hc => have := hle 'f' hc.2; simp at this; omega
    · split at h
      · next hc => have := hle 'F' hc.2; simp at this; omega
      · cases h

theorem hexDigit?_eq_some_iff {c : Char} {value : Nat} :
    hexDigit? c = some value ↔ IsHexDigit c value := by
  constructor
  · intro h
    have hall : ∀ n < 128, ∀ value ∈ hexDigit? (Char.ofNat n), value < 16 ∧
        (Char.ofNat n = value.digitChar ∨ Char.ofNat n = value.digitChar.toUpper) := by
      decide
    have hc := hall c.toNat (toNat_lt_of_hexDigit? h)
    rw [Char.ofNat_toNat] at hc
    exact hc value h
  · rintro ⟨hlt, hc⟩
    have hall : ∀ value < 16, hexDigit? value.digitChar = some value ∧
        hexDigit? value.digitChar.toUpper = some value := by
      decide
    rcases hc with rfl | rfl
    · exact (hall value hlt).1
    · exact (hall value hlt).2

theorem mapM_eq_some_iff {α β : Type} {f : α → Option β} {l : List α} {values : List β} :
    l.mapM f = some values ↔ List.Forall₂ (fun a b => f a = some b) l values := by
  induction l generalizing values with
  | nil => simp [eq_comm]
  | cons a l ih =>
    rw [List.mapM_cons, List.forall₂_cons_left_iff]
    constructor
    · intro h
      obtain ⟨b, hb, h⟩ := Option.bind_eq_some_iff.1 h
      obtain ⟨rest, hrest, h⟩ := Option.bind_eq_some_iff.1 h
      cases h
      exact ⟨b, rest, hb, ih.1 hrest, rfl⟩
    · rintro ⟨b, rest, hb, hrest, rfl⟩
      simp [hb, ih.2 hrest]

/-! ## Unsigned numbers -/

variable {base : Base} {values : List Nat} {text : List Char}

theorem isMarked_iff :
    Numeral.isMarked text = true ↔
      ∃ mark digits, text = '0' :: mark :: digits ∧ (mark = 'x' ∨ mark = 'X') := by
  unfold Numeral.isMarked
  split
  · simp
  · next hno =>
    simp only [Bool.false_eq_true, false_iff]
    rintro ⟨mark, digits, rfl, -⟩
    exact hno mark digits rfl

theorem digits?_of_marked (h : Numeral.isMarked text = true) :
    digits? text = some (base, values) ↔
      base = .sixteen ∧ values ≠ [] ∧ (text.drop 2).mapM hexDigit? = some values := by
  simp only [digits?, h, if_true]
  cases (text.drop 2).mapM hexDigit? with
  | none => simp
  | some digits => cases digits <;> grind

theorem digits?_of_not_marked (h : Numeral.isMarked text = false) :
    digits? text = some (base, values) ↔
      base = .ten ∧ values ≠ [] ∧ text.mapM Text.decimalDigit? = some values := by
  simp only [digits?, h, Bool.false_eq_true, if_false]
  cases text.mapM Text.decimalDigit? with
  | none => simp
  | some digits => cases digits <;> grind

/-- A mark is no decimal number. -/
theorem not_marked_of_decimal {digits : List Char}
    (h : List.Forall₂ IsDecimalDigit digits values) : Numeral.isMarked digits = false := by
  by_contra hmarked
  obtain ⟨mark, rest, rfl, hmark⟩ := isMarked_iff.1 (Bool.eq_true_of_not_eq_false hmarked)
  obtain ⟨_, _, -, hrest, -⟩ := List.forall₂_cons_left_iff.1 h
  obtain ⟨value, _, hdigit, -, -⟩ := List.forall₂_cons_left_iff.1 hrest
  rcases hmark with rfl | rfl <;> cases hdigit

theorem digits?_eq_some_iff :
    digits? text = some (base, values) ↔ SpellsUnsigned base text values := by
  constructor
  · intro h
    cases hmarked : Numeral.isMarked text with
    | true =>
      obtain ⟨rfl, hne, hdigits⟩ := (digits?_of_marked hmarked).1 h
      obtain ⟨mark, digits, rfl, hmark⟩ := isMarked_iff.1 hmarked
      have hall := mapM_eq_some_iff.1 hdigits
      exact .hexadecimal hmark (hall.imp fun _ _ => hexDigit?_eq_some_iff.1) hne
    | false =>
      obtain ⟨rfl, hne, hdigits⟩ := (digits?_of_not_marked hmarked).1 h
      exact .decimal (mapM_eq_some_iff.1 hdigits) hne
  · intro h
    cases h with
    | @hexadecimal mark digits _ hmark hdigits hne =>
      have hmarked := isMarked_iff.2 ⟨mark, digits, rfl, hmark⟩
      have hall := hdigits.imp fun _ _ => hexDigit?_eq_some_iff.2
      exact (digits?_of_marked hmarked).2 ⟨rfl, hne, mapM_eq_some_iff.2 hall⟩
    | decimal hdigits hne =>
      have hmarked := not_marked_of_decimal hdigits
      exact (digits?_of_not_marked hmarked).2 ⟨rfl, hne, mapM_eq_some_iff.2 hdigits⟩

/-! ## Signs -/

/-- The factor of the sign that is split off. -/
def signFactor (negative : Bool) : Int := if negative then -1 else 1

theorem exists_isSign_of_splitSign (token : List Char) :
    ∃ sign, token = sign ++ (Numeral.splitSign token).2 ∧
      IsSign sign (signFactor (Numeral.splitSign token).1) := by
  unfold Numeral.splitSign
  split
  · exact ⟨['-'], rfl, .minus⟩
  · exact ⟨['+'], rfl, .plus⟩
  · exact ⟨[], rfl, .absent⟩

/-- An unsigned number begins with no sign. -/
theorem splitSign_of_spellsUnsigned (h : SpellsUnsigned base text values) :
    Numeral.splitSign text = (false, text) := by
  cases h with
  | hexadecimal hmark hdigits hne => rfl
  | decimal hdigits hne =>
    unfold Numeral.splitSign
    split
    · obtain ⟨value, _, hdigit, -, -⟩ := List.forall₂_cons_left_iff.1 hdigits
      cases hdigit
    · obtain ⟨value, _, hdigit, -, -⟩ := List.forall₂_cons_left_iff.1 hdigits
      cases hdigit
    · rfl

theorem splitSign_append {sign : List Char} {factor : Int} (hsign : IsSign sign factor)
    (h : SpellsUnsigned base text values) :
    ∃ negative, Numeral.splitSign (sign ++ text) = (negative, text) ∧
      factor = signFactor negative := by
  cases hsign with
  | absent => exact ⟨false, splitSign_of_spellsUnsigned h, rfl⟩
  | plus => exact ⟨false, rfl, rfl⟩
  | minus => exact ⟨true, rfl, rfl⟩

/-! ## Tokens -/

variable {token : List Char} {factor : Int} {line : Nat} {result : Except Error Int}

theorem spells_iff :
    Spells token factor base values ↔
      digits? (Numeral.splitSign token).2 = some (base, values) ∧
        factor = signFactor (Numeral.splitSign token).1 := by
  constructor
  · rintro ⟨sign, unsigned, rfl, hsign, h⟩
    obtain ⟨negative, hsplit, rfl⟩ := splitSign_append hsign h
    rw [hsplit]
    exact ⟨digits?_eq_some_iff.2 h, rfl⟩
  · rintro ⟨h, rfl⟩
    obtain ⟨sign, htoken, hsign⟩ := exists_isSign_of_splitSign token
    exact ⟨sign, _, htoken, hsign, digits?_eq_some_iff.1 h⟩

theorem readToken_of_digits (h : digits? (Numeral.splitSign token).2 = some (base, values)) :
    readToken line token =
      if base = .ten ∧ Decimal.digitLimit < values.length then
        .error (.numeral (.tooLong values.length))
      else
        .ok (signFactor (Numeral.splitSign token).1 *
          (Nat.ofDigits base.radix values.reverse : Nat)) := by
  simp only [readToken, h, Numeral.ofDigits_eq]
  congr 2
  cases (Numeral.splitSign token).1 <;> simp [signFactor]

theorem readToken_of_no_digits (h : digits? (Numeral.splitSign token).2 = none) :
    readToken line token = .error (.format (.notAWord line token)) := by
  simp only [readToken, h]

/-- A token is read as it is judged by its spelling. -/
theorem readToken_eq_iff : readToken line token = result ↔ Judged line token result := by
  constructor
  · rintro rfl
    cases h : digits? (Numeral.splitSign token).2 with
    | none =>
      rw [readToken_of_no_digits h]
      refine .notAWord fun factor base values hspells => ?_
      rw [(spells_iff.1 hspells).1] at h
      cases h
    | some digits =>
      obtain ⟨base, values⟩ := digits
      have hspells := spells_iff.2 ⟨h, rfl⟩
      rw [readToken_of_digits h]
      split
      · next hlong =>
        obtain ⟨rfl, hlong⟩ := hlong
        exact .tooLong hspells hlong
      · next hshort => exact .value hspells fun hbase => by grind
  · intro h
    cases h with
    | value hspells hshort =>
      obtain ⟨hdigits, rfl⟩ := spells_iff.1 hspells
      rw [readToken_of_digits hdigits, if_neg fun hlong => absurd (hshort hlong.1) (by omega)]
    | tooLong hspells hlong =>
      obtain ⟨hdigits, rfl⟩ := spells_iff.1 hspells
      rw [readToken_of_digits hdigits, if_pos ⟨rfl, hlong⟩]
    | notAWord hno =>
      cases hdigits : digits? (Numeral.splitSign token).2 with
      | none => exact readToken_of_no_digits hdigits
      | some digits => exact absurd (spells_iff.2 ⟨hdigits, rfl⟩) (hno _ _ _)

end WordMachine.WordFile
