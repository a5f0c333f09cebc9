import WordMachine.Json
import WordMachine.Proofs.Decimal
import WordMachine.WordFile

set_option autoImplicit false

/-! # JSON can be read back

`Json.parse?` reads JSON texts: blanks may stand between all parts, a text ends at the first
quotation mark that is not escaped, and an integer has no needless zeros. What has no place among
the values of `Json` is not read. Nothing of the writing of values is used for it.

Whatever value is written, `parse?` reads it back (`parse?_write`). The proof follows the writing:
one lemma for texts, one for integers, one for parts between brackets (`readBetween_bracketed`), and
an induction on the value that puts them together. -/

namespace WordMachine.Json

/-! ## The reader -/

/-- Whether the character may stand between the parts of a JSON text. -/
def isBlank (c : Char) : Bool := c = ' ' || c = '\t' || c = '\n' || c = '\r'

/-- The text without the blanks in front. -/
def skip (cs : List Char) : List Char := cs.dropWhile isBlank

/-- Whether the character may stand in an integer. -/
def inInteger (c : Char) : Bool := c = '-' || c.isDigit

/-- Reads an integer. -/
def readInteger (cs : List Char) : Option (Int × List Char) :=
  let numeral := cs.takeWhile inInteger
  match numeral.dropWhile (· = '-') with
  | '0' :: _ :: _ => none
  | _ => (Decimal.read? numeral).map fun value => (value, cs.dropWhile inInteger)

/-- The character that a backslash and a letter stand for. -/
def escapedBy? (letter : Char) : Option Char :=
  match letter with
  | '"' | '\\' | '/' => some letter
  | 'b' => some '\x08'
  | 'f' => some '\x0c'
  | 'n' => some '\n'
  | 'r' => some '\r'
  | 't' => some '\t'
  | _ => none

/-- The character whose code these hexadecimal digits are. -/
def coded? (digits : List Char) : Option Char :=
  match digits.mapM WordFile.hexDigit? with
  | none => none
  | some values =>
    let code := Numeral.ofDigits .sixteen values
    if code.isValidChar then some (Char.ofNat code) else none

/-- Reads a text behind its first quotation mark. -/
def readText : List Char → Option (List Char × List Char)
  | [] => none
  | '"' :: rest => some ([], rest)
  | '\\' :: 'u' :: a :: b :: c :: d :: rest =>
    match coded? [a, b, c, d] with
    | none => none
    | some char => (readText rest).map fun (cs, rest) => (char :: cs, rest)
  | '\\' :: letter :: rest =>
    match escapedBy? letter with
    | none => none
    | some char => (readText rest).map fun (cs, rest) => (char :: cs, rest)
  | char :: rest =>
    if char = '\\' ∨ char.toNat < 0x20 then none
    else (readText rest).map fun (cs, rest) => (char :: cs, rest)

/-- Reads parts with commas between them, at most so many, and the bracket behind them. -/
def readParts {α : Type} (readPart : List Char → Option (α × List Char)) (closing : Char) :
    Nat → List Char → Option (List α × List Char)
  | 0, _ => none
  | limit + 1, cs =>
    match readPart cs with
    | none => none
    | some (part, rest) =>
      match skip rest with
      | [] => none
      | c :: rest =>
        if c = closing then some ([part], rest)
        else if c = ',' then
          (readParts readPart closing limit rest).map fun (parts, rest) => (part :: parts, rest)
        else none

/-- Reads parts behind an opening bracket, of which there may be none. -/
def readBetween {α : Type} (readPart : List Char → Option (α × List Char)) (closing : Char)
    (cs : List Char) : Option (List α × List Char) :=
  match readParts readPart closing cs.length cs, skip cs with
  | some found, _ => some found
  | none, c :: rest => if c = closing then some ([], rest) else none
  | none, [] => none

/-- Reads a field, the value of it with the given reader. -/
def readField (readValue : List Char → Option (Json × List Char)) (cs : List Char) :
    Option ((String × Json) × List Char) :=
  match skip cs with
  | '"' :: rest =>
    match readText rest with
    | none => none
    | some (key, rest) =>
      match skip rest with
      | ':' :: rest => (readValue rest).map fun (value, rest) => ((String.ofList key, value), rest)
      | _ => none
  | _ => none

/-- Reads a value that is nested no deeper than so many levels. -/
def readValue : Nat → List Char → Option (Json × List Char)
  | 0, _ => none
  | depth + 1, cs =>
    match skip cs with
    | '"' :: rest => (readText rest).map fun (cs, rest) => (.text (String.ofList cs), rest)
    | '[' :: rest =>
      (readBetween (readValue depth) ']' rest).map fun (items, rest) => (.list items, rest)
    | '\x7b' :: rest =>
      (readBetween (readField (readValue depth)) '\x7d' rest).map fun (fields, rest) =>
        (.object fields, rest)
    | rest => (readInteger rest).map fun (value, rest) => (.integer value, rest)

/-- Reads a JSON text, which has one value. No text is nested deeper than it is long. -/
def parse? (text : String) : Option Json :=
  match readValue text.length text.toList with
  | none => none
  | some (value, rest) => if skip rest = [] then some value else none

/-! ## Blanks -/

theorem skip_append {gap : List Char} (hgap : gap.all isBlank = true) (cs : List Char) :
    skip (gap ++ cs) = skip cs :=
  List.dropWhile_append_of_pos fun c hc => List.all_eq_true.1 hgap c hc

theorem skip_cons {c : Char} (hc : isBlank c = false) (cs : List Char) : skip (c :: cs) = c :: cs :=
  List.dropWhile_cons_of_neg (by simp [hc])

theorem all_isBlank_newLine (level : Nat) : (newLine level).toList.all isBlank = true := by
  have hnewline : isBlank '\n' = true := rfl
  have hspace : isBlank ' ' = true := rfl
  simp [newLine, hnewline, hspace]

/-! ## Integers -/

/-- No integer goes on at the beginning of the text. -/
def Ends (rest : List Char) : Prop := ∀ c ∈ rest.head?, inInteger c = false

variable {rest : List Char}

theorem ends_cons {c : Char} (hc : inInteger c = false) : Ends (c :: rest) := by
  intro d hd
  cases hd
  exact hc

theorem inInteger_of_isBlank {c : Char} (h : isBlank c = true) : inInteger c = false := by
  simp only [isBlank, Bool.or_eq_true, decide_eq_true_eq] at h
  rcases h with ((rfl | rfl) | rfl) | rfl <;> rfl

theorem inInteger_of_mem_paddedChars {v : Int} {c : Char} (h : c ∈ Decimal.paddedChars 0 v) :
    inInteger c = true := by
  rcases Decimal.eq_minus_or_isDigit_of_mem h with rfl | hdigit
  · rfl
  · rw [inInteger, hdigit, Bool.or_true]

theorem takeWhile_inInteger (v : Int) (hrest : Ends rest) :
    (Decimal.paddedChars 0 v ++ rest).takeWhile inInteger = Decimal.paddedChars 0 v ∧
      (Decimal.paddedChars 0 v ++ rest).dropWhile inInteger = rest := by
  have hall : ∀ c ∈ Decimal.paddedChars 0 v, inInteger c = true :=
    fun c => inInteger_of_mem_paddedChars
  rw [List.takeWhile_append_of_pos hall, List.dropWhile_append_of_pos hall]
  cases rest with
  | nil => exact ⟨List.append_nil _, rfl⟩
  | cons c rest =>
    have hc : inInteger c = false := hrest c rfl
    rw [List.takeWhile_cons_of_neg (by simp [hc]), List.dropWhile_cons_of_neg (by simp [hc])]
    exact ⟨List.append_nil _, rfl⟩

/-- Behind the sign of a plain number there is no needless zero. -/
theorem dropWhile_minus_paddedChars (v : Int) :
    (Decimal.paddedChars 0 v).dropWhile (· = '-') = Decimal.digits v.natAbs := by
  have hdigits : (Decimal.digits v.natAbs).dropWhile (· = '-') = Decimal.digits v.natAbs := by
    cases hhead : Decimal.digits v.natAbs with
    | nil => rfl
    | cons c cs =>
      have hdigit : c.isDigit = true :=
        Decimal.isDigit_of_mem_digits (by rw [hhead]; exact List.mem_cons_self)
      refine List.dropWhile_cons_of_neg (by simp only [decide_eq_true_eq]; rintro rfl; cases hdigit)
  rw [Decimal.paddedChars_zero, Decimal.sign]
  split
  · rw [List.singleton_append, List.dropWhile_cons_of_pos (by decide), hdigits]
  · rw [List.nil_append, hdigits]

theorem readInteger_paddedChars (v : Int) (hrest : Ends rest) :
    readInteger (Decimal.paddedChars 0 v ++ rest) = some (v, rest) := by
  obtain ⟨htake, hdrop⟩ := takeWhile_inInteger v hrest
  simp only [readInteger, htake, hdrop, dropWhile_minus_paddedChars]
  split
  · next c cs hzero =>
    have hnatAbs : v.natAbs = 0 := Decimal.eq_zero_of_head_digits (by rw [hzero]; rfl)
    rw [hnatAbs] at hzero
    cases hzero
  · rw [Decimal.read?_paddedChars, Option.map_some]

/-! ## Texts -/

theorem coded?_hexDigits {code : Nat} (h : code < 0x20) :
    coded? (Text.hexDigits 4 code) = some (Char.ofNat code) := by
  have hall : ∀ code < 0x20, coded? (Text.hexDigits 4 code) = some (Char.ofNat code) := by decide
  exact hall code h

theorem readText_escaped (c : Char) (rest : List Char) :
    readText (escaped c ++ rest) = (readText rest).map fun (cs, rest) => (c :: cs, rest) := by
  unfold escaped
  split
  · next h =>
    rcases h with rfl | rfl <;> rfl
  · next h =>
    rw [not_or] at h
    split
    · next hlow =>
      have hcoded := coded?_hexDigits hlow
      rw [Char.ofNat_toNat] at hcoded
      have hlength : (Text.hexDigits 4 c.toNat).length = 4 := by
        have hall : ∀ code < 0x20, (Text.hexDigits 4 code).length = 4 := by decide
        exact hall _ hlow
      match hdigits : Text.hexDigits 4 c.toNat, hlength with
      | [x, y, z, w], _ =>
        rw [hdigits] at hcoded
        simp only [List.cons_append, List.nil_append, readText, hcoded]
    · next hhigh =>
      rw [List.singleton_append, readText, if_neg (by simp [h.2, hhigh])]
      · exact h.1
      · exact fun _ _ _ _ _ hback => absurd hback h.2
      · exact fun _ _ hback => absurd hback h.2

theorem readText_flatMap_escaped (cs rest : List Char) :
    readText (cs.flatMap escaped ++ '"' :: rest) = some (cs, rest) := by
  induction cs with
  | nil => rfl
  | cons c cs ih =>
    rw [List.flatMap_cons, List.append_assoc, readText_escaped, ih]
    rfl

theorem toList_writeText (s : String) :
    (writeText s).toList = '"' :: (s.toList.flatMap escaped ++ ['"']) := by
  simp [writeText]

/-! ## Parts between brackets -/

section

variable {α : Type} {readPart : List Char → Option (α × List Char)} {shown : α → List Char}
  {closing : Char} {gap last : List Char} {part : α} {parts : List α}

/-- Such parts are read behind such a gap, whatever follows them. -/
def PartsRead (readPart : List Char → Option (α × List Char)) (shown : α → List Char)
    (gap : List Char) (parts : List α) : Prop :=
  ∀ part ∈ parts, ∀ rest, Ends rest → readPart (gap ++ (shown part ++ rest)) = some (part, rest)

theorem ends_gap (hgap : gap.all isBlank = true) (hrest : Ends rest) : Ends (gap ++ rest) := by
  intro c hc
  cases gap with
  | nil => exact hrest c hc
  | cons d gap =>
    cases hc
    exact inInteger_of_isBlank (List.all_eq_true.1 hgap c List.mem_cons_self)

/-- The bracket behind the last part. -/
theorem readParts_last (hlast : last.all isBlank = true) (hblank : isBlank closing = false)
    {cs : List Char} (h : readPart cs = some (part, last ++ closing :: rest)) (limit : Nat) :
    readParts readPart closing (limit + 1) cs = some ([part], rest) := by
  simp only [readParts, h, skip_append hlast, skip_cons hblank, if_true]

/-- The comma behind any other part. -/
theorem readParts_comma (hcomma : ',' ≠ closing) {cs : List Char}
    (h : readPart cs = some (part, ',' :: rest)) (limit : Nat) :
    readParts readPart closing (limit + 1) cs =
      (readParts readPart closing limit rest).map fun (parts, rest) => (part :: parts, rest) := by
  simp only [readParts, h, skip_cons (show isBlank ',' = false from rfl), if_neg hcomma, if_true]

theorem readParts_intercalate (hcomma : ',' ≠ closing) (hblank : isBlank closing = false)
    (hinteger : inInteger closing = false) (hlast : last.all isBlank = true)
    (h : PartsRead readPart shown gap parts) (hne : parts ≠ []) {limit : Nat}
    (hlimit : parts.length ≤ limit) :
    readParts readPart closing limit
        (gap ++ ((',' :: gap).intercalate (parts.map shown) ++ (last ++ closing :: rest))) =
      some (parts, rest) := by
  induction parts generalizing limit with
  | nil => exact absurd rfl hne
  | cons part parts ih =>
    obtain ⟨limit, rfl⟩ := Nat.exists_eq_add_one.2 (Nat.lt_of_lt_of_le (Nat.succ_pos _) hlimit)
    have hpart := h part List.mem_cons_self
    cases parts with
    | nil =>
      rw [List.map_singleton, List.intercalate_singleton]
      exact readParts_last hlast hblank (hpart _ (ends_gap hlast (ends_cons hinteger))) limit
    | cons next parts =>
      have hrest := ih (fun other hother => h other (List.mem_cons_of_mem _ hother))
        (List.cons_ne_nil _ _) (Nat.le_of_succ_le_succ hlimit)
      rw [List.map_cons, List.map_cons, List.intercalate_cons_cons, ← List.map_cons,
        List.append_assoc, List.append_assoc, List.cons_append,
        readParts_comma hcomma (hpart _ (ends_cons rfl)), hrest, Option.map_some]

theorem length_le_length_intercalate (separator : List Char) {items : List (List Char)}
    {item : List Char} (h : item ∈ items) :
    item.length ≤ (separator.intercalate items).length := by
  induction items with
  | nil => cases h
  | cons first items ih =>
    cases items with
    | nil =>
      have hlength : item.length = (separator.intercalate [first]).length := by
        rw [List.intercalate_singleton, List.mem_singleton.1 h]
      exact Nat.le_of_eq hlength
    | cons next items =>
      rw [List.intercalate_cons_cons, List.length_append, List.length_append]
      rcases List.mem_cons.1 h with rfl | hmem
      · omega
      · have hrest := ih hmem
        omega

theorem length_le_intercalate (c : Char) (separator : List Char) (items : List (List Char)) :
    items.length ≤ ((c :: separator).intercalate items).length + 1 := by
  induction items with
  | nil => exact Nat.zero_le _
  | cons first items ih =>
    cases items with
    | nil => exact Nat.le_add_left _ _
    | cons next items =>
      simp only [List.intercalate_cons_cons, List.length_append, List.length_cons] at ih ⊢
      omega

/-- What is between brackets as they are written. -/
def between (shown : α → List Char) (gap last : List Char) (parts : List α) : List Char :=
  if parts = [] then [] else gap ++ ((',' :: gap).intercalate (parts.map shown) ++ last)

theorem readBetween_between (hcomma : ',' ≠ closing) (hblank : isBlank closing = false)
    (hinteger : inInteger closing = false) (hnone : ∀ rest, readPart (closing :: rest) = none)
    (hlast : last.all isBlank = true) (h : PartsRead readPart shown gap parts) :
    readBetween readPart closing (between shown gap last parts ++ closing :: rest) =
      some (parts, rest) := by
  by_cases hne : parts = []
  · subst hne
    simp only [between, if_true, List.nil_append, readBetween, List.length_cons, readParts, hnone,
      skip_cons hblank]
  · have hlength := length_le_intercalate ',' gap (parts.map shown)
    rw [List.length_map] at hlength
    have hparts : ∀ limit, parts.length ≤ limit →
        readParts readPart closing limit (between shown gap last parts ++ closing :: rest) =
          some (parts, rest) := by
      intro limit hlimit
      rw [between, if_neg hne, List.append_assoc, List.append_assoc]
      exact readParts_intercalate hcomma hblank hinteger hlast h hne hlimit
    have hlimit : parts.length ≤ (between shown gap last parts ++ closing :: rest).length := by
      simp only [between, if_neg hne, List.length_append, List.length_cons]
      omega
    rw [readBetween, hparts _ hlimit]

/-- Every part is shorter than what it stands between. -/
theorem length_le_length_between (shown : α → List Char) (gap last : List Char)
    (h : part ∈ parts) : (shown part).length ≤ (between shown gap last parts).length := by
  have hmem : shown part ∈ parts.map shown := List.mem_map_of_mem h
  have hitem := length_le_length_intercalate (',' :: gap) hmem
  rw [between, if_neg (List.ne_nil_of_mem h), List.length_append, List.length_append]
  omega

end

/-! ## Values -/

/-- A field as it is written at a level. -/
def writeField (level : Nat) (field : String × Json) : String :=
  writeText field.1 ++ ": " ++ write level field.2

theorem writeItems_eq (level : Nat) (items : List Json) :
    writeItems level items = items.map (write level) := by
  induction items with
  | nil => rfl
  | cons item items ih => rw [writeItems, ih, List.map_cons]

theorem writeFields_eq (level : Nat) (fields : List (String × Json)) :
    writeFields level fields = fields.map (writeField level) := by
  induction fields with
  | nil => rfl
  | cons field fields ih => rw [writeFields, ih, List.map_cons, writeField]

theorem toList_bracketed {α : Type} (opening closing : String) (level : Nat) (shown : α → String)
    (parts : List α) :
    (bracketed opening closing level (parts.map shown)).toList =
      opening.toList ++ (between (fun part => (shown part).toList) (newLine (level + 1)).toList
        (newLine level).toList parts ++ closing.toList) := by
  by_cases hne : parts = []
  · subst hne
    simp [bracketed, between]
  · have hcomma : (",").toList = [','] := rfl
    simp only [bracketed, between, List.map_eq_nil_iff, if_neg hne, String.toList_append,
      String.toList_intercalate, List.map_map, hcomma, List.singleton_append, List.append_assoc]
    rfl

theorem toList_write_list (level : Nat) (items : List Json) :
    (write level (.list items)).toList =
      '[' :: (between (fun item => (write (level + 1) item).toList) (newLine (level + 1)).toList
        (newLine level).toList items ++ [']']) := by
  rw [write, writeItems_eq, toList_bracketed]
  rfl

theorem toList_write_object (level : Nat) (fields : List (String × Json)) :
    (write level (.object fields)).toList =
      '\x7b' :: (between (fun field => (writeField (level + 1) field).toList)
        (newLine (level + 1)).toList (newLine level).toList fields ++ ['\x7d']) := by
  rw [write, writeFields_eq, toList_bracketed]
  rfl

theorem readValue_gap {gap : List Char} (hgap : gap.all isBlank = true) (depth : Nat)
    (cs : List Char) : readValue depth (gap ++ cs) = readValue depth cs := by
  cases depth with
  | zero => rfl
  | succ depth => rw [readValue, readValue, skip_append hgap]

theorem readValue_bracket (depth : Nat) (rest : List Char) :
    readValue depth (']' :: rest) = none := by
  cases depth with
  | zero => rfl
  | succ depth => rfl

theorem readValue_integer (depth : Nat) (v : Int) (hrest : Ends rest) :
    readValue (depth + 1) (Decimal.paddedChars 0 v ++ rest) = some (.integer v, rest) := by
  have hread := readInteger_paddedChars v hrest
  cases hchars : Decimal.paddedChars 0 v with
  | nil => exact absurd hchars Decimal.paddedChars_ne_nil
  | cons c cs =>
    have hc : inInteger c = true :=
      inInteger_of_mem_paddedChars (by rw [hchars]; exact List.mem_cons_self)
    have hblank : isBlank c = false := by
      refine Bool.eq_false_iff.2 fun hblank => ?_
      rw [inInteger_of_isBlank hblank] at hc
      cases hc
    rw [hchars, List.cons_append] at hread
    rw [List.cons_append, readValue, skip_cons hblank]
    -- A digit or a minus sign opens neither a text nor a list nor an object.
    split
    · next heq => cases heq; cases hc
    · next heq => cases heq; cases hc
    · next heq => cases heq; cases hc
    · rw [hread, Option.map_some]

theorem readField_gap {gap : List Char} (hgap : gap.all isBlank = true)
    (readValue : List Char → Option (Json × List Char)) (cs : List Char) :
    readField readValue (gap ++ cs) = readField readValue cs := by
  rw [readField, readField, skip_append hgap]

theorem readField_writeField {depth level : Nat} {field : String × Json}
    (h : readValue depth ((write level field.2).toList ++ rest) = some (field.2, rest)) :
    readField (readValue depth) ((writeField level field).toList ++ rest) = some (field, rest) := by
  obtain ⟨key, value⟩ := field
  have hfield : (writeField level (key, value)).toList ++ rest =
      '"' :: (key.toList.flatMap escaped ++ '"' :: ':' :: ([' '] ++ (write level value).toList ++
        rest)) := by
    simp [writeField, toList_writeText]
  rw [hfield]
  have hvalue : readValue depth ([' '] ++ (write level value).toList ++ rest) =
      some (value, rest) := by
    rw [List.append_assoc, readValue_gap rfl]
    exact h
  simp only [readField, skip_cons (show isBlank '"' = false from rfl), readText_flatMap_escaped,
    skip_cons (show isBlank ':' = false from rfl), hvalue, Option.map_some, String.ofList_toList]

/-- What is written of the value at the level is read back, with so many levels allowed. -/
def ReadBack (depth level : Nat) (value : Json) : Prop :=
  ∀ rest, Ends rest → readValue depth ((write level value).toList ++ rest) = some (value, rest)

theorem readBack_integer (depth level : Nat) (v : Int) :
    ReadBack (depth + 1) level (.integer v) := by
  intro rest hrest
  rw [write, Decimal.toList_text]
  exact readValue_integer depth v hrest

theorem readBack_text (depth level : Nat) (s : String) : ReadBack (depth + 1) level (.text s) := by
  intro rest _
  rw [write, toList_writeText, List.cons_append, List.append_assoc, List.singleton_append,
    readValue, skip_cons (show isBlank '"' = false from rfl)]
  simp only [readText_flatMap_escaped, Option.map_some, String.ofList_toList]

theorem readBack_list {depth level : Nat} {items : List Json}
    (h : ∀ item ∈ items, ReadBack depth (level + 1) item) :
    ReadBack (depth + 1) level (.list items) := by
  intro rest _
  have hitems : PartsRead (readValue depth) (fun item => (write (level + 1) item).toList)
      (newLine (level + 1)).toList items := by
    intro item hmem rest hrest
    rw [readValue_gap (all_isBlank_newLine _)]
    exact h item hmem rest hrest
  have hbetween : readBetween (readValue depth) ']' (_ ++ ']' :: rest) = some (items, rest) :=
    readBetween_between (by decide) rfl rfl (readValue_bracket depth) (all_isBlank_newLine level)
      hitems
  rw [toList_write_list, List.cons_append, List.append_assoc, List.singleton_append, readValue,
    skip_cons (show isBlank '[' = false from rfl)]
  simp only [hbetween, Option.map_some]

theorem readBack_object {depth level : Nat} {fields : List (String × Json)}
    (h : ∀ field ∈ fields, ReadBack depth (level + 1) field.2) :
    ReadBack (depth + 1) level (.object fields) := by
  intro rest _
  have hfields : PartsRead (readField (readValue depth))
      (fun field => (writeField (level + 1) field).toList) (newLine (level + 1)).toList fields := by
    intro field hmem rest hrest
    rw [readField_gap (all_isBlank_newLine _)]
    exact readField_writeField (h field hmem rest hrest)
  have hbetween : readBetween (readField (readValue depth)) '\x7d' (_ ++ '\x7d' :: rest) =
      some (fields, rest) :=
    readBetween_between (by decide) rfl rfl (fun _ => rfl) (all_isBlank_newLine level) hfields
  rw [toList_write_object, List.cons_append, List.append_assoc, List.singleton_append, readValue,
    skip_cons (show isBlank '\x7b' = false from rfl)]
  simp only [hbetween, Option.map_some]

theorem length_write_pos (level : Nat) (value : Json) : 0 < (write level value).toList.length := by
  cases value with
  | integer v =>
    rw [write, Decimal.toList_text]
    exact List.length_pos_iff.2 Decimal.paddedChars_ne_nil
  | text s => rw [write, toList_writeText]; exact Nat.succ_pos _
  | list items => rw [toList_write_list]; exact Nat.succ_pos _
  | object fields => rw [toList_write_object]; exact Nat.succ_pos _

theorem length_write_item {level : Nat} {item : Json} {items : List Json} (h : item ∈ items) :
    (write (level + 1) item).toList.length < (write level (.list items)).toList.length := by
  have hle := length_le_length_between (fun item => (write (level + 1) item).toList)
    (newLine (level + 1)).toList (newLine level).toList h
  rw [toList_write_list, List.length_cons, List.length_append]
  omega

theorem length_write_field {level : Nat} {field : String × Json} {fields : List (String × Json)}
    (h : field ∈ fields) :
    (write (level + 1) field.2).toList.length < (write level (.object fields)).toList.length := by
  have hle := length_le_length_between (fun field => (writeField (level + 1) field).toList)
    (newLine (level + 1)).toList (newLine level).toList h
  have hfield : (writeField (level + 1) field).toList.length =
      (writeText field.1 ++ ": ").toList.length + (write (level + 1) field.2).toList.length := by
    rw [writeField, String.toList_append, List.length_append]
  rw [toList_write_object, List.length_cons, List.length_append]
  omega

/-- As many levels as characters are enough. -/
theorem readBack_write (value : Json) (level depth : Nat)
    (hdepth : (write level value).toList.length ≤ depth) : ReadBack depth level value := by
  induction depth generalizing value level with
  | zero => exact absurd hdepth (Nat.not_le_of_lt (length_write_pos level value))
  | succ depth ih =>
    cases value with
    | integer v => exact readBack_integer depth level v
    | text s => exact readBack_text depth level s
    | list items =>
      have hitems : ∀ item ∈ items, ReadBack depth (level + 1) item := fun item hmem =>
        ih item (level + 1) (Nat.le_of_lt_succ (Nat.lt_of_lt_of_le (length_write_item hmem) hdepth))
      exact readBack_list hitems
    | object fields =>
      have hfields : ∀ field ∈ fields, ReadBack depth (level + 1) field.2 := fun field hmem =>
        ih field.2 (level + 1)
          (Nat.le_of_lt_succ (Nat.lt_of_lt_of_le (length_write_field hmem) hdepth))
      exact readBack_object hfields

/-- A value that is written is read back, with a line break behind it or without. -/
theorem parse?_write (value : Json) {gap : String} (hgap : gap.toList.all isBlank = true) :
    parse? (write 0 value ++ gap) = some value := by
  have hends : Ends gap.toList :=
    fun c hc => inInteger_of_isBlank (List.all_eq_true.1 hgap c (List.mem_of_head? hc))
  have hdepth : (write 0 value).toList.length ≤ (write 0 value ++ gap).length := by
    rw [String.length_append, String.length_toList]
    exact Nat.le_add_right _ _
  have hskip : skip gap.toList = [] := by
    have h := skip_append hgap []
    rwa [List.append_nil] at h
  rw [parse?, String.toList_append, readBack_write value 0 _ hdepth _ hends]
  exact if_pos hskip

end WordMachine.Json
