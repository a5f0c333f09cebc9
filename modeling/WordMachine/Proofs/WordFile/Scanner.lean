import WordMachine.Proofs.Text.Fields
import WordMachine.Proofs.Text.Lines
import WordMachine.Proofs.WordFile.Spelling

set_option autoImplicit false

/-! # Reading a word file in one pass

`parse` takes a text apart into lines, the lines into fields, and reads the fields. A `Scanner` does
the same in one pass: it looks at each character once and knows only whether it is between tokens,
inside one, or inside a comment, the number of the line, and the words so far. `parse_eq_scan` says
that both find the same words or the same first error.

What joins the two is the text that is still pending (`Mode.pending`): the token that has begun, or
a `#` in place of a comment. At any point of the pass, what is left to be found is what `parse`
finds in the pending text and the rest (`Scanner.agrees`). -/

namespace WordMachine.WordFile

/-! ## The scanner -/

/-- Where a scanner is in a text. -/
inductive Mode where
  | between
  /-- Inside a token of which these characters have been seen. -/
  | token (seen : List Char)
  | comment
  deriving DecidableEq, Repr

/-- A scanner between two characters of a text. -/
structure Scanner where
  mode : Mode := .between
  /-- The number of the line, counted from one. -/
  line : Nat := 1
  /-- Whether the last character was a carriage return, to whose line break a line feed belongs. -/
  afterReturn : Bool := false
  words : List Int := []
  deriving DecidableEq, Repr

/-- Whether a line ends at the character. -/
def endsLine (c : Char) : Bool :=
  c ∈ ['\n', '\r', '\x0b', '\x0c', '\x1c', '\x1d', '\x1e', '\u0085', '\u2028', '\u2029']

/-- Whether a token ends at the character, within its line. -/
def endsToken (c : Char) : Bool := c = ',' || Text.isBlank c

/-- The characters of the token that a scanner is inside. -/
def Mode.seen : Mode → List Char
  | .token seen => seen
  | _ => []

namespace Scanner

/-- Goes on in another mode. A token that the scanner was inside is read. -/
def enter (s : Scanner) (next : Mode) : Except Error Scanner :=
  match s.mode with
  | .token seen => (readToken s.line seen).map fun value =>
    { s with mode := next, words := s.words ++ [value] }
  | _ => .ok { s with mode := next }

/-- Looks at a character. -/
def step (s : Scanner) (c : Char) : Except Error Scanner :=
  if endsLine c then
    if s.afterReturn ∧ c = '\n' then .ok { s with afterReturn := false }
    else (s.enter .between).map fun s => { s with line := s.line + 1, afterReturn := c = '\r' }
  else
    let s := { s with afterReturn := false }
    if s.mode = .comment then .ok s
    else if c = '#' then s.enter .comment
    else if endsToken c then s.enter .between
    else .ok { s with mode := .token (s.mode.seen ++ [c]) }

/-- The words that were found when the text has ended. -/
def finish (s : Scanner) : Except Error (List Int) := (s.enter .between).map words

/-- Looks at all characters of a text. -/
def run (s : Scanner) (text : List Char) : Except Error (List Int) :=
  (text.foldlM step s).bind finish

end Scanner

/-- The words of a word file, found in one pass. -/
def scan (text : List Char) : Except Error (List Int) := Scanner.run {} text

/-! ## Characters -/

variable {c : Char} {cs : List Char}

theorem endsLine_eq (c : Char) : endsLine c = Text.isLineBreak c := by
  rw [Bool.eq_iff_iff, Text.isLineBreak_iff, endsLine, decide_eq_true_iff]

/-- A character of a token: it ends neither token nor line and begins no comment. -/
def IsTokenChar (c : Char) : Prop := separates c = false ∧ c ≠ '#'

theorem isBlank_of_isLineBreak (h : Text.isLineBreak c = true) : Text.isBlank c = true := by
  have hall : ['\n', '\r', '\x0b', '\x0c', '\x1c', '\x1d', '\x1e', '\u0085', '\u2028',
      '\u2029'].all Text.isBlank = true := by decide
  exact List.all_eq_true.1 hall c (Text.isLineBreak_iff.1 h)

theorem IsTokenChar.not_isLineBreak (h : IsTokenChar c) : Text.isLineBreak c = false := by
  by_contra hbreak
  have hblank := isBlank_of_isLineBreak (Bool.eq_true_of_not_eq_false hbreak)
  have hno := h.1
  simp [separates, hblank] at hno

/-! ## Tokens of a line -/

theorem tokens_nil : tokens [] = [] := rfl

theorem tokens_comment (cs : List Char) : tokens ('#' :: cs) = [] := by
  simp [tokens, Text.fields]

theorem tokens_of_separates (h : separates c = true) : tokens (c :: cs) = tokens cs := by
  have hne : c ≠ '#' := by
    rintro rfl
    cases h
  simp only [tokens, List.takeWhile_cons, hne, ne_eq, not_false_eq_true, decide_true, if_true]
  exact Text.fields_cons_of_separates h

/-- A token that is followed by the end of the line, a separator or a comment. -/
theorem tokens_append {seen rest : List Char} (hne : seen ≠ []) (hseen : ∀ c ∈ seen, IsTokenChar c)
    (hrest : ∀ c ∈ rest.head?, ¬IsTokenChar c) : tokens (seen ++ rest) = seen :: tokens rest := by
  have hmark : ∀ c ∈ seen, decide (c ≠ '#') = true := fun c hc => by simp [(hseen c hc).2]
  rw [tokens, tokens, List.takeWhile_append_of_pos hmark]
  refine Text.fields_append hne (fun c hc => (hseen c hc).1) ?_
  intro d hd
  cases rest with
  | nil => cases hd
  | cons e rest =>
    by_cases he : e = '#'
    · simp [he] at hd
    · have hde : e = d := by simpa [he] using hd
      subst hde
      have hno := hrest e rfl
      simp only [IsTokenChar, not_and, not_not] at hno
      by_contra hsep
      exact he (hno (Bool.eq_false_of_not_eq_true hsep))

/-- A line of one token. -/
theorem tokens_of_tokenChars {seen : List Char} (hne : seen ≠ [])
    (hseen : ∀ c ∈ seen, IsTokenChar c) : tokens seen = [seen] := by
  have hall : tokens (seen ++ []) = seen :: tokens [] := tokens_append hne hseen (by simp)
  rwa [List.append_nil, tokens_nil] at hall

/-! ## Words one after the other -/

/-- The words that one part of a text gives and then those of the next part, or the first error. -/
def andThen (first second : Except Error (List Int)) : Except Error (List Int) :=
  first.bind fun words => second.map (words ++ ·)

@[simp] theorem nil_andThen (second : Except Error (List Int)) :
    andThen (.ok []) second = second := by
  cases second <;> rfl

@[simp] theorem andThen_nil (first : Except Error (List Int)) : andThen first (.ok []) = first := by
  cases first with
  | error e => rfl
  | ok words => exact congrArg Except.ok (List.append_nil words)

theorem andThen_assoc (first second third : Except Error (List Int)) :
    andThen (andThen first second) third = andThen first (andThen second third) := by
  cases first with
  | error e => rfl
  | ok words =>
    cases second with
    | error e => rfl
    | ok more =>
      cases third with
      | error e => rfl
      | ok rest => exact congrArg Except.ok (List.append_assoc words more rest)

variable {line : Nat} {rest : List Char}

theorem readTokens_cons (line : Nat) (token : List Char) (tokens : List (List Char)) :
    readTokens line (token :: tokens) =
      andThen ((readToken line token).map fun value => [value]) (readTokens line tokens) := by
  rw [readTokens]
  cases readToken line token <;> rfl

theorem readTokens_append (line : Nat) (first second : List (List Char)) :
    readTokens line (first ++ second) =
      andThen (readTokens line first) (readTokens line second) := by
  induction first with
  | nil => exact (nil_andThen _).symm
  | cons token first ih =>
    rw [List.cons_append, readTokens_cons, readTokens_cons, ih, andThen_assoc]

theorem parseLines_cons (line : Nat) (first : List Char) (later : List (List Char)) :
    parseLines line (first :: later) =
      andThen (readTokens line (tokens first)) (parseLines (line + 1) later) := by
  rw [parseLines]
  cases readTokens line (tokens first) <;> rfl

/-! ## The first line of a text -/

/-- The first line of a text; it is empty if the text is. -/
def firstLine (cs : List Char) : List Char := (Text.lines cs).headD []

/-- The lines after the first. -/
def laterLines (cs : List Char) : List (List Char) := (Text.lines cs).tail

theorem parseLines_lines (line : Nat) (cs : List Char) :
    parseLines line (Text.lines cs) =
      andThen (readTokens line (tokens (firstLine cs)))
        (parseLines (line + 1) (laterLines cs)) := by
  rw [firstLine, laterLines]
  cases Text.lines cs with
  | nil => rfl
  | cons first later => exact parseLines_cons line first later

/-- Characters that end no line belong to the first one. -/
theorem firstLine_append {start : List Char} (h : ∀ c ∈ start, Text.isLineBreak c = false)
    (cs : List Char) :
    firstLine (start ++ cs) = start ++ firstLine cs ∧
      laterLines (start ++ cs) = laterLines cs := by
  induction start with
  | nil => exact ⟨rfl, rfl⟩
  | cons c start ih =>
    have hc : Text.isLineBreak c = false := h c (by simp)
    obtain ⟨hfirst, hlater⟩ := ih fun d hd => h d (List.mem_cons_of_mem c hd)
    rw [List.cons_append, List.cons_append, ← hfirst, ← hlater]
    rw [firstLine, laterLines, firstLine, laterLines, Text.lines_cons_of_not_break hc]
    cases Text.lines (start ++ cs) <;> exact ⟨rfl, rfl⟩

theorem firstLine_cons (hc : Text.isLineBreak c = false) (cs : List Char) :
    firstLine (c :: cs) = c :: firstLine cs ∧ laterLines (c :: cs) = laterLines cs := by
  have hall : ∀ d ∈ [c], Text.isLineBreak d = false := by simpa using hc
  exact firstLine_append hall cs

/-- A comment has no words, however long it is. -/
theorem parseLines_comment (line : Nat) (cs : List Char) :
    parseLines line (Text.lines ('#' :: cs)) = parseLines (line + 1) (laterLines cs) := by
  obtain ⟨hfirst, hlater⟩ := firstLine_cons (by decide : Text.isLineBreak '#' = false) cs
  rw [parseLines_lines, hfirst, hlater, tokens_comment, readTokens, nil_andThen]

/-- A separator within a line changes nothing of what is behind it. -/
theorem parseLines_separator (hline : Text.isLineBreak c = false) (hc : separates c = true)
    (line : Nat) (cs : List Char) :
    parseLines line (Text.lines (c :: cs)) = parseLines line (Text.lines cs) := by
  obtain ⟨hfirst, hlater⟩ := firstLine_cons hline cs
  rw [parseLines_lines, parseLines_lines line cs, hfirst, hlater, tokens_of_separates hc]

/-- What remains behind a line break that begins with `c`. -/
def afterBreak (c : Char) (cs : List Char) : List Char :=
  if c = '\r' ∧ cs.head? = some '\n' then cs.tail else cs

theorem lines_break (hc : Text.isLineBreak c = true) (cs : List Char) :
    Text.lines (c :: cs) = [] :: Text.lines (afterBreak c cs) := by
  unfold afterBreak
  split
  · next h =>
    obtain ⟨rfl, hfeed⟩ := h
    obtain ⟨cs, rfl⟩ := List.head?_eq_some_iff.1 hfeed
    exact Text.lines_return_feed cs
  · next h => exact Text.lines_cons_of_break hc h

/-! ## Pending text -/

/-- A text that stands for where a scanner is: the token that has begun, or the mark of a
    comment. -/
def Mode.pending : Mode → List Char
  | .between => []
  | .token seen => seen
  | .comment => ['#']

/-- A token that a scanner is inside has begun and consists of its characters. -/
def Mode.Valid : Mode → Prop
  | .token seen => seen ≠ [] ∧ ∀ c ∈ seen, IsTokenChar c
  | _ => True

variable {mode : Mode}

theorem Mode.Valid.not_isLineBreak (h : mode.Valid) :
    ∀ c ∈ mode.pending, Text.isLineBreak c = false := by
  intro c hc
  cases mode with
  | between => cases hc
  | token seen => exact (h.2 c hc).not_isLineBreak
  | comment =>
    obtain rfl : c = '#' := by simpa [pending] using hc
    decide

theorem Mode.seen_eq_pending (hmode : mode ≠ .comment) : mode.seen = mode.pending := by
  cases mode with
  | comment => exact absurd rfl hmode
  | between | token seen => rfl

theorem Mode.Valid.push (h : mode.Valid) (hmode : mode ≠ .comment) (hc : IsTokenChar c) :
    (Mode.token (mode.seen ++ [c])).Valid := by
  refine ⟨by simp, fun d hd => ?_⟩
  rcases List.mem_append.1 hd with hd | hd
  · cases mode with
    | between => cases hd
    | token seen => exact h.2 d hd
    | comment => exact absurd rfl hmode
  · obtain rfl : d = c := by simpa using hd
    exact hc

/-- What ends a token ends the one that is pending; a comment goes on. -/
theorem Mode.Valid.tokens_append (h : mode.Valid) (hmode : mode ≠ .comment)
    (hrest : ∀ c ∈ rest.head?, ¬IsTokenChar c) :
    tokens (mode.pending ++ rest) = tokens mode.pending ++ tokens rest := by
  cases mode with
  | between => rfl
  | token seen =>
    show tokens (seen ++ rest) = tokens seen ++ tokens rest
    rw [WordFile.tokens_append h.1 h.2 hrest, tokens_of_tokenChars h.1 h.2, List.singleton_append]
  | comment => exact absurd rfl hmode

/-- A character of the line that ends the pending token. -/
theorem Mode.Valid.parseLines_end (h : mode.Valid) (hmode : mode ≠ .comment)
    (hend : ¬IsTokenChar c) (hline : Text.isLineBreak c = false) (line : Nat) (cs : List Char) :
    parseLines line (Text.lines (mode.pending ++ c :: cs)) =
      andThen (readTokens line (tokens mode.pending))
        (parseLines line (Text.lines (c :: cs))) := by
  obtain ⟨hfirst, hlater⟩ := firstLine_append h.not_isLineBreak (c :: cs)
  obtain ⟨hhead, -⟩ := firstLine_cons hline cs
  have htokens : tokens (mode.pending ++ firstLine (c :: cs)) =
      tokens mode.pending ++ tokens (firstLine (c :: cs)) :=
    h.tokens_append hmode (by simpa [hhead] using hend)
  rw [parseLines_lines, parseLines_lines line (c :: cs), hfirst, hlater, htokens,
    readTokens_append, andThen_assoc]

/-- A line break ends the pending token and the line. -/
theorem Mode.Valid.parseLines_break (h : mode.Valid) (hline : Text.isLineBreak c = true)
    (line : Nat) (cs : List Char) :
    parseLines line (Text.lines (mode.pending ++ c :: cs)) =
      andThen (readTokens line (tokens mode.pending))
        (parseLines (line + 1) (Text.lines (afterBreak c cs))) := by
  obtain ⟨hfirst, hlater⟩ := firstLine_append h.not_isLineBreak (c :: cs)
  have hlines := lines_break hline cs
  have hempty : firstLine (c :: cs) = [] := by rw [firstLine, hlines, List.headD_cons]
  have hrest : laterLines (c :: cs) = Text.lines (afterBreak c cs) := by
    rw [laterLines, hlines, List.tail_cons]
  rw [parseLines_lines, hfirst, hlater, hempty, hrest, List.append_nil]

/-- The words of the pending text alone. -/
theorem Mode.Valid.parseLines_pending (h : mode.Valid) (line : Nat) :
    parseLines line (Text.lines mode.pending) = readTokens line (tokens mode.pending) := by
  obtain ⟨hfirst, hlater⟩ := firstLine_append h.not_isLineBreak []
  rw [List.append_nil] at hfirst hlater
  have hempty : firstLine [] = [] := rfl
  have hnone : laterLines [] = [] := rfl
  rw [parseLines_lines, hfirst, hlater, hempty, hnone, List.append_nil, parseLines, andThen_nil]

/-! ## The pass -/

namespace Scanner

variable {s : Scanner}

theorem enter_eq (h : s.mode.Valid) (next : Mode) :
    s.enter next = (readTokens s.line (tokens s.mode.pending)).map fun words =>
      { s with mode := next, words := s.words ++ words } := by
  obtain ⟨mode, line, afterReturn, words⟩ := s
  cases mode with
  | between => simp [enter, Mode.pending, tokens_nil, readTokens, Except.map]
  | comment => simp [enter, Mode.pending, tokens_comment, readTokens, Except.map]
  | token seen =>
    show Except.map _ (readToken line seen) = Except.map _ (readTokens line (tokens seen))
    rw [tokens_of_tokenChars h.1 h.2, readTokens_cons]
    cases readToken line seen <;> rfl

/-- Entering a mode and going on: the words of the pending token come first. -/
theorem enter_bind (h : s.mode.Valid) (next : Mode) (go : Scanner → Except Error (List Int))
    {found : Except Error (List Int)}
    (hgo : ∀ words, go { s with mode := next, words := s.words ++ words } =
      andThen (.ok (s.words ++ words)) found) :
    (s.enter next).bind go =
      andThen (.ok s.words) (andThen (readTokens s.line (tokens s.mode.pending)) found) := by
  rw [enter_eq h, ← andThen_assoc]
  cases readTokens s.line (tokens s.mode.pending) with
  | error e => rfl
  | ok words => exact hgo words

theorem run_nil (s : Scanner) : s.run [] = s.finish := rfl

theorem run_cons (s : Scanner) (c : Char) (cs : List Char) :
    s.run (c :: cs) = (s.step c).bind (·.run cs) := by
  show ((s.step c).bind fun s => cs.foldlM step s).bind finish = _
  cases s.step c <;> rfl

/-- The text that a scanner has still to see: a line feed right behind a carriage return belongs to
    the line break that was seen already. -/
def remaining (s : Scanner) (cs : List Char) : List Char :=
  if s.afterReturn ∧ cs.head? = some '\n' then cs.tail else cs

theorem remaining_of_not_afterReturn (h : s.afterReturn = false) (cs : List Char) :
    s.remaining cs = cs := by
  simp [remaining, h]

theorem remaining_cons (h : ¬(s.afterReturn = true ∧ c = '\n')) (cs : List Char) :
    s.remaining (c :: cs) = c :: cs := by
  simp only [remaining, List.head?_cons, Option.some.injEq, if_neg h]

/-- What a scanner finds from here on, in the text that it has still to see. -/
def found (s : Scanner) (cs : List Char) : Except Error (List Int) :=
  parseLines s.line (Text.lines (s.mode.pending ++ s.remaining cs))

/-! ### The ways in which a character is looked at -/

theorem step_of_line_feed (hfeed : s.afterReturn = true ∧ c = '\n') :
    s.step c = .ok { s with afterReturn := false } := by
  have hc : endsLine c = true := by
    rw [hfeed.2]
    decide
  rw [step, if_pos hc, if_pos hfeed]

theorem step_of_endsLine (hc : endsLine c = true) (hfeed : ¬(s.afterReturn = true ∧ c = '\n')) :
    s.step c = (s.enter .between).map fun s =>
      { s with line := s.line + 1, afterReturn := c = '\r' } := by
  rw [step, if_pos hc, if_neg hfeed]

theorem step_of_comment (hc : endsLine c = false) (hmode : s.mode = .comment) :
    s.step c = .ok { s with afterReturn := false } := by
  rw [step, if_neg (by simp [hc])]
  exact if_pos hmode

theorem step_of_mark (hmode : s.mode ≠ .comment) :
    s.step '#' = { s with afterReturn := false }.enter .comment := by
  rw [step, if_neg (by decide)]
  exact (if_neg hmode).trans (if_pos rfl)

theorem step_of_endsToken (hc : endsLine c = false) (hmode : s.mode ≠ .comment) (hmark : c ≠ '#')
    (hsep : endsToken c = true) : s.step c = { s with afterReturn := false }.enter .between := by
  rw [step, if_neg (by simp [hc])]
  exact (if_neg hmode).trans ((if_neg hmark).trans (if_pos hsep))

theorem step_of_tokenChar (hmode : s.mode ≠ .comment) (hc : IsTokenChar c) :
    s.step c = .ok { s with afterReturn := false, mode := .token (s.mode.seen ++ [c]) } := by
  have hline : endsLine c = false := (endsLine_eq c).trans hc.not_isLineBreak
  have hsep : ¬endsToken c = true := by
    rw [Bool.not_eq_true]
    exact hc.1
  rw [step, if_neg (by simp [hline])]
  exact (if_neg hmode).trans ((if_neg hc.2).trans (if_neg hsep))

/-! ### What is found from a character on -/

/-- From wherever a scanner is, it finds in the text what `parse` finds in what is pending and the
    text. -/
def Agrees (cs : List Char) : Prop :=
  ∀ s : Scanner, s.mode.Valid → s.run cs = andThen (.ok s.words) (s.found cs)

theorem run_cons_of_endsLine (hc : endsLine c = true) (h : s.mode.Valid) (ih : Agrees cs) :
    s.run (c :: cs) = andThen (.ok s.words) (s.found (c :: cs)) := by
  rw [run_cons]
  by_cases hfeed : s.afterReturn = true ∧ c = '\n'
  · have hrest : s.remaining (c :: cs) = cs := by
      simp only [remaining, List.head?_cons, Option.some.injEq, if_pos hfeed, List.tail_cons]
    rw [step_of_line_feed hfeed, found, hrest]
    exact ih { s with afterReturn := false } h
  · have hline : Text.isLineBreak c = true := by rwa [← endsLine_eq]
    rw [step_of_endsLine hc hfeed, found, remaining_cons hfeed, h.parseLines_break hline]
    let go : Scanner → Except Error (List Int) :=
      fun s => run { s with line := s.line + 1, afterReturn := c = '\r' } cs
    refine Eq.trans ?_ (enter_bind h .between go fun words => ?_)
    · cases s.enter .between <;> rfl
    · refine Eq.trans (ih _ ?_) ?_
      · trivial
      · simp [found, Mode.pending, remaining, afterBreak]

/-- A character with which the scanner enters another mode within the line. -/
theorem run_cons_of_enter (next : Mode) (hline : Text.isLineBreak c = false)
    (hmode : s.mode ≠ .comment) (hend : ¬IsTokenChar c) (h : s.mode.Valid) (hnext : next.Valid)
    (hstep : s.step c = { s with afterReturn := false }.enter next)
    (hlines : parseLines s.line (Text.lines (c :: cs)) =
      parseLines s.line (Text.lines (next.pending ++ cs))) (ih : Agrees cs) :
    s.run (c :: cs) = andThen (.ok s.words) (s.found (c :: cs)) := by
  have hfeed : ¬(s.afterReturn = true ∧ c = '\n') := by
    rintro ⟨-, rfl⟩
    cases hline
  rw [run_cons, hstep, found, remaining_cons hfeed, h.parseLines_end hmode hend hline, hlines]
  exact enter_bind (s := { s with afterReturn := false }) h next (·.run cs) fun words =>
    ih _ hnext

theorem run_cons_of_comment (hline : Text.isLineBreak c = false) (hmode : s.mode = .comment)
    (h : s.mode.Valid) (ih : Agrees cs) :
    s.run (c :: cs) = andThen (.ok s.words) (s.found (c :: cs)) := by
  have hfeed : ¬(s.afterReturn = true ∧ c = '\n') := by
    rintro ⟨-, rfl⟩
    cases hline
  have hpending : s.mode.pending = ['#'] := by rw [hmode, Mode.pending]
  obtain ⟨-, hlater⟩ := firstLine_cons hline cs
  rw [run_cons, step_of_comment ((endsLine_eq c).trans hline) hmode, found, remaining_cons hfeed,
    hpending]
  refine Eq.trans (ih { s with afterReturn := false } h) ?_
  rw [found, remaining_of_not_afterReturn rfl, hpending]
  show andThen _ (parseLines s.line (Text.lines ('#' :: cs))) =
    andThen _ (parseLines s.line (Text.lines ('#' :: c :: cs)))
  rw [parseLines_comment, parseLines_comment, hlater]

theorem run_cons_of_tokenChar (hmode : s.mode ≠ .comment) (hc : IsTokenChar c) (h : s.mode.Valid)
    (ih : Agrees cs) :
    s.run (c :: cs) = andThen (.ok s.words) (s.found (c :: cs)) := by
  have hfeed : ¬(s.afterReturn = true ∧ c = '\n') := by
    rintro ⟨-, rfl⟩
    cases hc.1
  rw [run_cons, step_of_tokenChar hmode hc, found, remaining_cons hfeed]
  show run _ cs = _
  rw [ih _ (h.push hmode hc), found, remaining_of_not_afterReturn rfl, Mode.seen_eq_pending hmode]
  simp [Mode.pending]

theorem agrees (cs : List Char) : Agrees cs := by
  induction cs with
  | nil =>
    intro s h
    have hnone : s.remaining [] = [] := by simp [remaining]
    rw [run_nil, finish, enter_eq h, found, hnone, List.append_nil, h.parseLines_pending]
    cases readTokens s.line (tokens s.mode.pending) <;> rfl
  | cons c cs ih =>
    intro s h
    cases hc : endsLine c with
    | true => exact run_cons_of_endsLine hc h ih
    | false =>
      have hline : Text.isLineBreak c = false := (endsLine_eq c).symm.trans hc
      by_cases hmode : s.mode = .comment
      · exact run_cons_of_comment hline hmode h ih
      by_cases hmark : c = '#'
      · subst hmark
        exact run_cons_of_enter .comment hline hmode (fun hno => hno.2 rfl) h trivial
          (step_of_mark hmode) rfl ih
      by_cases hsep : endsToken c = true
      · have hend : ¬IsTokenChar c := fun hno => absurd (hno.1.symm.trans hsep) Bool.noConfusion
        exact run_cons_of_enter .between hline hmode hend h trivial
          (step_of_endsToken hc hmode hmark hsep) (parseLines_separator hline hsep s.line cs) ih
      · have hchar : IsTokenChar c := ⟨Bool.eq_false_of_not_eq_true hsep, hmark⟩
        exact run_cons_of_tokenChar hmode hchar h ih

end Scanner

/-- A word file is read as by one pass over its characters, in which each token is judged by its
    spelling when it ends. -/
theorem parse_eq_scan (text : List Char) :
    parse text = scan text ∧
      ∀ line token result, readToken line token = result ↔ Judged line token result := by
  refine ⟨?_, fun line token result => readToken_eq_iff⟩
  have hrun := Scanner.agrees text {} trivial
  rw [nil_andThen] at hrun
  rw [scan, hrun]
  rfl

example : scan "+1,-0x1F#2\r\n٣ 007".toList = .ok [1, -31, 3, 7] := by decide

example : scan "1 # 2\r\n\n3x".toList = .error (.format (.notAWord 3 "3x".toList)) := by decide

end WordMachine.WordFile
