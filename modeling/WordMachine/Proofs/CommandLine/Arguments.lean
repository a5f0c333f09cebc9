import Mathlib.Data.List.Nodup
import WordMachine.CommandLine.Options
import WordMachine.Proofs.CommandLine.Pairs

set_option autoImplicit false

/-! # The forms of arguments

What an argument is before any option is carried out depends on nothing but the argument. `Calls`
says which texts call an option, in full or cut short, `IsOperand` which arguments are no options
although they may begin with a dash, and `HasForm` puts the forms together: an operand, an option
by itself, an option with a text joined to it by `=`, and a short option with others joined to it.
These are the forms that arguments are told apart by (`ofArgument_eq_ok_iff`). An argument of no
form is unknown, or it is the beginning of several names and of none in full. -/

namespace WordMachine.CommandLine

/-! ## The forms -/

/-- The text calls the option: by one of its names, or by the beginning of its long name that is
    the beginning of no other option's. -/
def Calls (text : String) (s : Switch) : Prop :=
  text ∈ s.names ∨
    "--".toList <+: text.toList ∧
      ∀ t : Switch, (∃ name ∈ t.names, text.toList <+: name.toList) ↔ t = s

/-- The argument begins with a short name, or it begins with two dashes and what stands in front of
    its first `=` is the beginning of a name. -/
def BeginsName (argument : String) : Prop :=
  ∃ s : Switch,
    (∃ c, String.ofList ['-', c] ∈ s.names ∧ ['-', c] <+: argument.toList) ∨
      "--".toList <+: argument.toList ∧
        ∃ name ∈ s.names, argument.toList.takeWhile (· ≠ '=') <+: name.toList

/-- A text of decimal digits, of any script. -/
def IsDigits (cs : List Char) : Prop := ∀ c ∈ cs, ∃ value, WordFile.IsDecimalDigit c value

/-- The digits of a number, or those around its point; behind the point there are some. -/
def IsUnsigned (cs : List Char) : Prop :=
  cs ≠ [] ∧ IsDigits cs ∨
    ∃ whole fraction, cs = whole ++ '.' :: fraction ∧ IsDigits whole ∧ fraction ≠ [] ∧
      IsDigits fraction

/-- A negative number, with or without a line feed behind it. -/
def IsNegative (argument : List Char) : Prop :=
  ∃ number ending, argument = '-' :: (number ++ ending) ∧ IsUnsigned number ∧
    (ending = [] ∨ ending = ['\n'])

/-- The argument is no option: it does not begin with a dash or is nothing else, or it begins no
    name and is a negative number or has a space in it. -/
def IsOperand (argument : String) : Prop :=
  argument.toList.head? ≠ some '-' ∨ argument = "-" ∨
    ¬BeginsName argument ∧ (IsNegative argument.toList ∨ ' ' ∈ argument.toList)

/-- The form of an argument by itself. -/
inductive HasForm : String → Token → Prop where
  | operand {text : String} (h : IsOperand text) : HasForm text (.operand text)
  | option {name : String} {s : Switch} (h : Calls name s) :
    HasForm name (.option s (isShort name) none)
  /-- An option and a text joined to it. -/
  | joined {name : String} {s : Switch} (h : Calls name s) (text : String) :
    HasForm (name ++ "=" ++ text) (.option s (isShort name) (some text))
  /-- The letter of a short option and other characters that follow it. -/
  | letters {c d : Char} {s : Switch} (h : String.ofList ['-', c] ∈ s.names) (hd : d ≠ '=')
    (rest : List Char) :
    HasForm (String.ofList ('-' :: c :: d :: rest))
      (.option s true (some (String.ofList (d :: rest))))

/-! ## Names -/

variable {argument start name text : String} {s t : Switch} {token : Token} {cs : List Char}
  {c d : Char}

theorem mem_spellings_iff : (name, s) ∈ Switch.spellings ↔ name ∈ s.names := by
  cases s <;> simp [Switch.spellings, Switch.all, Switch.names]

theorem named?_eq_some_iff : Switch.named? name = some s ↔ name ∈ s.names := by
  constructor
  · intro h
    obtain ⟨before, after, hall, -⟩ := List.lookup_eq_some_iff.1 h
    exact mem_spellings_iff.1 (by simp [hall])
  · intro h
    cases s <;> simp only [Switch.names, List.mem_cons, List.not_mem_nil, or_false] at h <;>
      rcases h with rfl | rfl <;> rfl

theorem named?_eq_none_iff : Switch.named? name = none ↔ ∀ s : Switch, name ∉ s.names := by
  simp only [Option.eq_none_iff_forall_ne_some, ne_eq, named?_eq_some_iff]

theorem isPrefixOf_iff : start.isPrefixOf name = true ↔ start.toList <+: name.toList :=
  String.startsWith_string_iff

/-- No name has an `=` in it. -/
theorem not_mem_of_mem_names (h : name ∈ s.names) : '=' ∉ name.toList := by
  have hall : ∀ name ∈ s.names, '=' ∉ name.toList := by cases s <;> decide
  exact hall name h

/-- A name is a dash and a letter, or it is long. -/
theorem short_or_long (h : name ∈ s.names) :
    (∃ c, name = String.ofList ['-', c]) ∨ "--".toList <+: name.toList := by
  have hall : ∀ name ∈ s.names, name = "-h" ∨ name = "-v" ∨ name = "-q" ∨
      "--".toList <+: name.toList := by cases s <;> decide
  rcases hall name h with rfl | rfl | rfl | hlong
  · exact Or.inl ⟨'h', rfl⟩
  · exact Or.inl ⟨'v', rfl⟩
  · exact Or.inl ⟨'q', rfl⟩
  · exact Or.inr hlong

/-- Two dashes alone are no name. -/
theorem ne_dash_of_mem_names (h : String.ofList ['-', c] ∈ s.names) : c ≠ '-' := by
  rintro rfl
  revert h
  cases s <;> decide

/-- An option has but one long name. -/
theorem eq_of_long {other : String} (h : name ∈ s.names) (hother : other ∈ s.names)
    (hlong : "--".toList <+: name.toList) (hlongOther : "--".toList <+: other.toList) :
    name = other := by
  have hall : ∀ name ∈ s.names, ∀ other ∈ s.names, "--".toList <+: name.toList →
      "--".toList <+: other.toList → name = other := by cases s <;> decide
  exact hall name h other hother hlong hlongOther

theorem isShort_eq_false (h : "--".toList <+: name.toList) : isShort name = false := by
  rw [isShort, isPrefixOf_iff.2 h]
  rfl

/-! ## Names that are cut short -/

/-- The names that begin with a text, each with its option. -/
def candidates (start : String) : List (String × Switch) :=
  Switch.spellings.filter fun (name, _) => start.isPrefixOf name

theorem mem_candidates_iff :
    (name, s) ∈ candidates start ↔ name ∈ s.names ∧ start.toList <+: name.toList := by
  simp [candidates, mem_spellings_iff, isPrefixOf_iff]

theorem candidates_eq_nil_iff :
    candidates start = [] ↔ ¬∃ s : Switch, ∃ name ∈ s.names, start.toList <+: name.toList := by
  simp only [List.eq_nil_iff_forall_not_mem, Prod.forall, mem_candidates_iff, not_exists, not_and]
  exact forall_comm

theorem candidates_eq_singleton_iff (hlong : "--".toList <+: start.toList) :
    (∃ full, candidates start = [(full, s)]) ↔
      ∀ t : Switch, (∃ name ∈ t.names, start.toList <+: name.toList) ↔ t = s := by
  constructor
  · rintro ⟨full, hall⟩ t
    constructor
    · rintro ⟨name, hname, hbegins⟩
      have hmem := mem_candidates_iff.2 ⟨hname, hbegins⟩
      rw [hall, List.mem_singleton] at hmem
      exact (Prod.mk.inj hmem).2
    · rintro rfl
      have hmem : (full, t) ∈ candidates start := by simp [hall]
      exact ⟨full, mem_candidates_iff.1 hmem⟩
  · intro h
    obtain ⟨full, hfull, hbegins⟩ := (h s).2 rfl
    have hnodup : (candidates start).Nodup := List.Nodup.filter _ (by decide)
    refine ⟨full, List.perm_singleton.1 ?_⟩
    refine (List.perm_ext_iff_of_nodup hnodup (List.nodup_singleton _)).2 fun ⟨name, t⟩ => ?_
    rw [mem_candidates_iff, List.mem_singleton]
    constructor
    · rintro ⟨hname, hother⟩
      obtain rfl : t = s := (h t).1 ⟨name, hname, hother⟩
      rw [eq_of_long hname hfull (hlong.trans hother) (hlong.trans hbegins)]
    · rintro ⟨⟩
      exact ⟨hfull, hbegins⟩

theorem cutShort_eq_ok_iff (hlong : "--".toList <+: start.toList) {joined : Option String} :
    cutShort argument start joined = .ok token ↔
      (∃ s, (∀ t : Switch, (∃ name ∈ t.names, start.toList <+: name.toList) ↔ t = s) ∧
        token = .option s false joined) ∨
      (¬∃ s : Switch, ∃ name ∈ s.names, start.toList <+: name.toList) ∧
        token = unnamed argument := by
  rw [← candidates_eq_nil_iff]
  simp only [← candidates_eq_singleton_iff hlong]
  unfold cutShort
  split
  · next hnil =>
    have hnone : candidates start = [] := hnil
    simp [hnone, eq_comm]
  · next full s hone =>
    have hsingle : candidates start = [(full, s)] := hone
    simp [hsingle, eq_comm]
  · next hnil hone =>
    simp only [reduceCtorEq, false_iff, not_or, not_exists, not_and]
    exact ⟨fun s ⟨full, h⟩ => absurd h (hone full s), fun h => absurd h hnil⟩

/-! ## Negative numbers -/

theorem allDecimal_iff : allDecimal cs = true ↔ IsDigits cs := by
  simp only [allDecimal, List.all_eq_true, IsDigits, WordFile.IsDecimalDigit,
    Option.isSome_iff_exists]

theorem not_mem_of_isDigits (h : IsDigits cs) (hc : Text.decimalDigit? c = none) : c ∉ cs := by
  intro hmem
  obtain ⟨value, hvalue⟩ := h c hmem
  cases hvalue.symm.trans hc

theorem newline_not_mem_of_isUnsigned (h : IsUnsigned cs) : '\n' ∉ cs := by
  rcases h with ⟨-, hdigits⟩ | ⟨whole, fraction, rfl, hwhole, -, hfraction⟩
  · exact not_mem_of_isDigits hdigits (by decide +kernel)
  · have hno : Text.decimalDigit? '\n' = none := by decide +kernel
    simp [not_mem_of_isDigits hwhole hno, not_mem_of_isDigits hfraction hno]

/-- What is left without a line feed at the end is judged by its first point. -/
theorem isNumber_iff_of_stripped {stripped : List Char}
    (h : (if cs.getLast? = some '\n' then cs.dropLast else cs) = stripped) :
    isNumber cs = true ↔ IsUnsigned stripped := by
  have hpoint : Text.decimalDigit? '.' = none := by decide +kernel
  unfold isNumber
  simp only [h]
  rcases splitAtFirst_cases '.' stripped with ⟨hno, hsplit⟩ | ⟨whole, fraction, htext, -, hsplit⟩
  · simp only [hsplit, Bool.and_eq_true, decide_eq_true_eq, allDecimal_iff, IsUnsigned]
    refine (or_iff_left ?_).symm
    rintro ⟨whole, fraction, rfl, -⟩
    simp at hno
  · simp only [hsplit, Bool.and_eq_true, decide_eq_true_eq, allDecimal_iff]
    constructor
    · rintro ⟨⟨hwhole, hne⟩, hfraction⟩
      exact Or.inr ⟨whole, fraction, htext, hwhole, hne, hfraction⟩
    · rintro (⟨-, hdigits⟩ | ⟨other, rest, hother, hwhole, hne, hfraction⟩)
      · exact absurd (by simp [htext]) (not_mem_of_isDigits hdigits hpoint)
      · rw [hother, splitAtFirst_append (not_mem_of_isDigits hwhole hpoint)] at hsplit
        cases hsplit
        exact ⟨⟨hwhole, hne⟩, hfraction⟩

theorem isNumber_iff :
    isNumber cs = true ↔
      ∃ number ending, cs = number ++ ending ∧ IsUnsigned number ∧
        (ending = [] ∨ ending = ['\n']) := by
  constructor
  · intro h
    by_cases hlast : cs.getLast? = some '\n'
    · have hend : cs.dropLast ++ ['\n'] = cs := List.dropLast_append_getLast? '\n' hlast
      exact ⟨cs.dropLast, ['\n'], hend.symm, (isNumber_iff_of_stripped (if_pos hlast)).1 h,
        Or.inr rfl⟩
    · exact ⟨cs, [], (List.append_nil cs).symm, (isNumber_iff_of_stripped (if_neg hlast)).1 h,
        Or.inl rfl⟩
  · rintro ⟨number, ending, rfl, hnumber, rfl | rfl⟩
    · have hlast : (number ++ []).getLast? ≠ some '\n' := by
        rw [List.append_nil]
        exact fun hlast => newline_not_mem_of_isUnsigned hnumber (List.mem_of_getLast? hlast)
      refine (isNumber_iff_of_stripped (if_neg hlast)).2 ?_
      rwa [List.append_nil]
    · refine (isNumber_iff_of_stripped (if_pos ?_)).2 ?_
      · simp
      · simpa using hnumber

/-- An argument without a name is judged by the characters in it. -/
theorem unnamed_eq_operand_iff (h : argument.toList = '-' :: cs) :
    unnamed argument = .operand text ↔
      argument = text ∧ (IsNegative argument.toList ∨ ' ' ∈ argument.toList) := by
  have hnegative : isNumber (argument.toList.drop 1) = true ↔ IsNegative argument.toList := by
    simp [h, isNumber_iff, IsNegative]
  have hjudged : (isNumber (argument.toList.drop 1) || decide (' ' ∈ argument.toList)) = true ↔
      IsNegative argument.toList ∨ ' ' ∈ argument.toList := by
    rw [Bool.or_eq_true, hnegative, decide_eq_true_eq]
  rw [unnamed]
  by_cases hnumber : IsNegative argument.toList ∨ ' ' ∈ argument.toList
  · rw [if_pos (hjudged.2 hnumber), Token.operand.injEq, and_iff_left hnumber]
  · rw [if_neg (mt hjudged.1 hnumber)]
    simp [hnumber]

/-! ## The part of an argument in front of an equals sign -/

/-- What stands in front of the first `=` of an argument, and what stands behind it. -/
inductive Parts : String → String → Option String → Prop where
  | whole {start : String} (h : '=' ∉ start.toList) : Parts start start none
  | joined {start : String} (h : '=' ∉ start.toList) (text : String) :
    Parts (start ++ "=" ++ text) start (some text)

variable {joined : Option String} {second : Char} {rest : List Char}

theorem exists_parts (argument : String) : ∃ start joined, Parts argument start joined := by
  rcases splitAtFirst_cases '=' argument.toList with ⟨hno, -⟩ | ⟨first, text, htext, hfirst, -⟩
  · exact ⟨argument, none, .whole hno⟩
  · have hargument : argument = String.ofList first ++ "=" ++ String.ofList text := by
      rw [← String.toList_inj, htext]
      simp
    rw [hargument]
    exact ⟨_, _, .joined (by simpa using hfirst) _⟩

theorem Parts.hasForm (h : Parts argument start joined) (hcalls : Calls start s) :
    HasForm argument (.option s (isShort start) joined) := by
  cases h with
  | whole hno => exact .option hcalls
  | joined hno text => exact .joined hcalls text

theorem Parts.takeWhile_eq (h : Parts argument start joined) :
    argument.toList.takeWhile (· ≠ '=') = start.toList := by
  have hall : '=' ∉ start.toList → ∀ c ∈ start.toList, decide (c ≠ '=') = true := by
    intro hno c hc
    exact decide_eq_true fun heq => hno (heq ▸ hc)
  cases h with
  | whole hno => exact List.takeWhile_eq_self_iff.2 (hall hno)
  | joined hno text =>
    rw [String.toList_append, String.toList_append, List.append_assoc,
      List.takeWhile_append_of_pos (hall hno)]
    simp

theorem Parts.begins (h : Parts argument start joined) : start.toList <+: argument.toList := by
  rw [← h.takeWhile_eq]
  exact List.takeWhile_prefix _

theorem Parts.long (h : Parts argument start joined)
    (hlist : argument.toList = '-' :: '-' :: rest) : "--".toList <+: start.toList := by
  rw [← h.takeWhile_eq, hlist]
  simp

theorem Parts.ofArgument_eq (h : Parts argument start joined)
    (hlist : argument.toList = '-' :: second :: rest) :
    Token.ofArgument argument =
      (Switch.named? start).elim
        (if second = '-' then cutShort argument start joined
          else (Switch.named? (String.ofList ['-', second])).elim (.ok (unnamed argument)) fun s =>
            .ok (.option s true (some (String.ofList rest))))
        fun s => .ok (.option s (isShort start) joined) := by
  cases h with
  | whole hno =>
    have hsplit := splitAtFirst_of_not_mem hno
    simp only [Token.ofArgument, hlist]
    rw [← hlist, hsplit]
    simp only [String.ofList_toList, Option.map_none]
    cases Switch.named? argument with
    | some s => rfl
    | none =>
      cases Switch.named? (String.ofList ['-', second]) <;> rfl
  | joined hno text =>
    have hsplit : splitAtFirst '=' (start ++ "=" ++ text).toList =
        (start.toList, some text.toList) := by
      have happend := splitAtFirst_append hno text.toList
      simpa using happend
    have hnone : Switch.named? (start ++ "=" ++ text) = none :=
      named?_eq_none_iff.2 fun s hname => not_mem_of_mem_names hname (by simp)
    simp only [Token.ofArgument, hlist]
    rw [← hlist, hsplit, hnone]
    simp only [String.ofList_toList, Option.map_some]
    cases Switch.named? start with
    | some s => rfl
    | none =>
      cases Switch.named? (String.ofList ['-', second]) <;> rfl

/-! ## Arguments that begin a name -/

/-- An argument whose part in front of an `=` is a name begins it. -/
theorem Parts.beginsName (h : Parts argument start joined) (hname : start ∈ s.names) :
    BeginsName argument := by
  have hbegins := h.begins
  rcases short_or_long hname with ⟨c, rfl⟩ | hlong
  · rw [String.toList_ofList] at hbegins
    exact ⟨s, Or.inl ⟨c, hname, hbegins⟩⟩
  · refine ⟨s, Or.inr ⟨hlong.trans hbegins, start, hname, ?_⟩⟩
    simp only [h.takeWhile_eq, List.prefix_rfl]

theorem Parts.beginsName_iff_of_long (h : Parts argument start joined)
    (hlist : argument.toList = '-' :: '-' :: rest) :
    BeginsName argument ↔ ∃ s : Switch, ∃ name ∈ s.names, start.toList <+: name.toList := by
  rw [← h.takeWhile_eq]
  constructor
  · rintro ⟨s, ⟨c, hname, hbegins⟩ | ⟨-, hname⟩⟩
    · have hdash : c = '-' := by simpa [hlist] using hbegins
      exact absurd hdash (ne_dash_of_mem_names hname)
    · exact ⟨s, hname⟩
  · rintro ⟨s, hname⟩
    exact ⟨s, Or.inr ⟨by simp [hlist], hname⟩⟩

theorem beginsName_iff_of_short (hlist : argument.toList = '-' :: second :: rest)
    (hsecond : second ≠ '-') :
    BeginsName argument ↔ ∃ s : Switch, String.ofList ['-', second] ∈ s.names := by
  constructor
  · rintro ⟨s, ⟨c, hname, hbegins⟩ | ⟨hlong, -⟩⟩
    · obtain rfl : c = second := by simpa [hlist] using hbegins
      exact ⟨s, hname⟩
    · have hdash : '-' = second := by simpa [hlist] using hlong
      exact absurd hdash.symm hsecond
  · rintro ⟨s, hname⟩
    exact ⟨s, Or.inl ⟨second, hname, by simp [hlist]⟩⟩

/-! ## Arguments that call an option -/

theorem Calls.not_mem (h : Calls start s) : '=' ∉ start.toList := by
  rcases h with hname | ⟨-, honly⟩
  · exact not_mem_of_mem_names hname
  · obtain ⟨name, hname, hbegins⟩ := (honly s).2 rfl
    exact fun hmem => not_mem_of_mem_names hname (hbegins.subset hmem)

theorem Calls.exists_cons (h : Calls start s) :
    ∃ second rest, start.toList = '-' :: second :: rest := by
  have hlong : "--".toList <+: start.toList → ∃ second rest, start.toList = '-' :: second :: rest :=
    fun ⟨rest, hrest⟩ => ⟨'-', rest, hrest.symm⟩
  rcases h with hname | ⟨hdashes, -⟩
  · rcases short_or_long hname with ⟨c, rfl⟩ | hdashes
    · exact ⟨c, [], String.toList_ofList⟩
    · exact hlong hdashes
  · exact hlong hdashes

theorem Parts.ofArgument_of_calls (h : Parts argument start joined) (hcalls : Calls start s) :
    Token.ofArgument argument = .ok (.option s (isShort start) joined) := by
  obtain ⟨second, tail, hstart⟩ := hcalls.exists_cons
  obtain ⟨more, hmore⟩ := h.begins
  have hlist : argument.toList = '-' :: second :: (tail ++ more) := by rw [← hmore, hstart]; rfl
  rw [h.ofArgument_eq hlist]
  cases hnamed : Switch.named? start with
  | some t =>
    have hname := named?_eq_some_iff.1 hnamed
    rcases hcalls with hother | ⟨-, honly⟩
    · rw [named?_eq_some_iff.2 hother] at hnamed
      cases hnamed
      rfl
    · rw [(honly t).1 ⟨start, hname, List.prefix_rfl⟩]
      rfl
  | none =>
    rcases hcalls with hname | ⟨hlong, honly⟩
    · exact absurd hname (named?_eq_none_iff.1 hnamed s)
    · have hdash : second = '-' := by
        rw [hstart] at hlong
        simpa [eq_comm] using hlong
      rw [Option.elim_none, if_pos hdash, isShort_eq_false hlong]
      exact (cutShort_eq_ok_iff hlong).2 (Or.inl ⟨s, honly, rfl⟩)

/-! ## Telling the forms apart -/

theorem ofArgument_of_plain (h : argument.toList.head? ≠ some '-' ∨ argument = "-") :
    Token.ofArgument argument = .ok (.operand argument) := by
  unfold Token.ofArgument
  split
  · rfl
  · rfl
  · next second rest hlist =>
    rcases h with hhead | rfl
    · exact absurd (by rw [hlist]; rfl) hhead
    · cases hlist
  · rfl

/-- Any other argument is a dash and more. -/
theorem exists_cons_of_not_plain (h : ¬(argument.toList.head? ≠ some '-' ∨ argument = "-")) :
    ∃ second rest, argument.toList = '-' :: second :: rest := by
  rw [not_or, not_not] at h
  obtain ⟨tail, hlist⟩ : ∃ tail, argument.toList = '-' :: tail := List.head?_eq_some_iff.1 h.1
  cases tail with
  | nil => exact absurd (String.toList_inj.1 hlist) h.2
  | cons second rest => exact ⟨second, rest, hlist⟩

/-- An argument that begins no name has a form only if it is judged to be an operand. -/
theorem hasForm_of_unnamed (hlist : argument.toList = '-' :: cs) (hno : ¬BeginsName argument)
    (hknown : ∀ text, token ≠ .unknown text) (h : token = unnamed argument) :
    HasForm argument token := by
  have hoperand : unnamed argument = .operand argument := by
    unfold unnamed at h ⊢
    split
    · rfl
    · next hunknown =>
      rw [if_neg hunknown] at h
      exact absurd h (hknown argument)
  rw [h, hoperand]
  exact .operand (Or.inr (Or.inr ⟨hno, ((unnamed_eq_operand_iff hlist).1 hoperand).2⟩))

theorem Parts.toList_start (h : Parts argument start joined)
    (hlist : argument.toList = '-' :: second :: rest) (hsecond : second ≠ '=') :
    start.toList = '-' :: second :: rest.takeWhile (· ≠ '=') := by
  rw [← h.takeWhile_eq, hlist]
  simp [hsecond]

theorem ne_equals_of_mem_names (h : String.ofList ['-', c] ∈ s.names) : c ≠ '=' := by
  rintro rfl
  exact not_mem_of_mem_names h (by simp)

/-- A short option is not all of an argument if what stands in front of an `=` is no name. -/
theorem Parts.exists_letter (h : Parts argument start joined)
    (hlist : argument.toList = '-' :: second :: rest) (hnone : Switch.named? start = none)
    (hname : String.ofList ['-', second] ∈ s.names) :
    ∃ d later, rest = d :: later ∧ d ≠ '=' := by
  have hstart := h.toList_start hlist (ne_equals_of_mem_names hname)
  cases hmore : rest.takeWhile (· ≠ '=') with
  | nil =>
    rw [hmore] at hstart
    rw [← hstart, String.ofList_toList] at hname
    exact absurd hname (named?_eq_none_iff.1 hnone s)
  | cons d later =>
    obtain ⟨tail, htail⟩ := List.takeWhile_prefix (l := rest) (· ≠ '=')
    have hd : d ∈ rest.takeWhile (· ≠ '=') := by
      rw [hmore]
      exact List.mem_cons_self
    have hne := List.mem_takeWhile_imp (p := fun c => decide (c ≠ '=')) hd
    rw [hmore] at htail
    exact ⟨d, later ++ tail, htail.symm, of_decide_eq_true hne⟩

/-- What is longer than a short option and begins with it is no name. -/
theorem Parts.named?_eq_none (h : Parts argument start joined)
    (hlist : argument.toList = '-' :: c :: d :: rest) (hname : String.ofList ['-', c] ∈ s.names)
    (hd : d ≠ '=') : Switch.named? start = none := by
  have hstart := h.toList_start hlist (ne_equals_of_mem_names hname)
  refine named?_eq_none_iff.2 fun t ht => ?_
  rcases short_or_long ht with ⟨e, rfl⟩ | hlong
  · simp [hd] at hstart
  · rw [hstart] at hlong
    have hdash : '-' = c := by simpa using hlong
    exact ne_dash_of_mem_names hname hdash.symm

/-- An argument that is told to be an operand or an option has that form. -/
theorem hasForm_of_ofArgument (hknown : ∀ text, token ≠ .unknown text)
    (h : Token.ofArgument argument = .ok token) : HasForm argument token := by
  by_cases hplain : argument.toList.head? ≠ some '-' ∨ argument = "-"
  · rw [ofArgument_of_plain hplain] at h
    cases h
    exact .operand (hplain.imp_right Or.inl)
  obtain ⟨second, rest, hlist⟩ := exists_cons_of_not_plain hplain
  obtain ⟨start, joined, hparts⟩ := exists_parts argument
  rw [hparts.ofArgument_eq hlist] at h
  cases hnamed : Switch.named? start with
  | some s =>
    rw [hnamed] at h
    cases h
    exact hparts.hasForm (Or.inl (named?_eq_some_iff.1 hnamed))
  | none =>
    rw [hnamed, Option.elim_none] at h
    split at h
    · next hsecond =>
      subst hsecond
      have hlong := hparts.long hlist
      rcases (cutShort_eq_ok_iff hlong).1 h with ⟨s, honly, rfl⟩ | ⟨hno, hunnamed⟩
      · have hform := hparts.hasForm (Or.inr ⟨hlong, honly⟩)
        rwa [isShort_eq_false hlong] at hform
      · rw [← hparts.beginsName_iff_of_long hlist] at hno
        exact hasForm_of_unnamed hlist hno hknown hunnamed
    · next hsecond =>
      cases hletter : Switch.named? (String.ofList ['-', second]) with
      | some s =>
        rw [hletter] at h
        cases h
        have hname := named?_eq_some_iff.1 hletter
        obtain ⟨d, later, rfl, hd⟩ := hparts.exists_letter hlist hnamed hname
        rw [← String.ofList_toList (s := argument), hlist]
        exact .letters hname hd later
      | none =>
        rw [hletter] at h
        cases h
        refine hasForm_of_unnamed hlist ?_ hknown rfl
        rw [beginsName_iff_of_short hlist hsecond, not_exists]
        exact named?_eq_none_iff.1 hletter

theorem ofArgument_of_unnamed (hno : ¬BeginsName argument)
    (hjudged : IsNegative argument.toList ∨ ' ' ∈ argument.toList) :
    Token.ofArgument argument = .ok (.operand argument) := by
  by_cases hplain : argument.toList.head? ≠ some '-' ∨ argument = "-"
  · exact ofArgument_of_plain hplain
  obtain ⟨second, rest, hlist⟩ := exists_cons_of_not_plain hplain
  obtain ⟨start, joined, hparts⟩ := exists_parts argument
  have hunnamed := (unnamed_eq_operand_iff hlist).2 ⟨rfl, hjudged⟩
  have hnone : Switch.named? start = none :=
    named?_eq_none_iff.2 fun s hname => hno (hparts.beginsName hname)
  rw [hparts.ofArgument_eq hlist, hnone, Option.elim_none]
  split
  · next hsecond =>
    subst hsecond
    have hlong := hparts.long hlist
    rw [hparts.beginsName_iff_of_long hlist] at hno
    exact (cutShort_eq_ok_iff hlong).2 (Or.inr ⟨hno, hunnamed.symm⟩)
  · next hsecond =>
    rw [beginsName_iff_of_short hlist hsecond, not_exists] at hno
    rw [named?_eq_none_iff.2 hno, Option.elim_none, hunnamed]

theorem HasForm.ofArgument_eq (h : HasForm argument token) :
    Token.ofArgument argument = .ok token := by
  cases h with
  | operand h =>
    rcases h with hhead | hdash | ⟨hno, hjudged⟩
    · exact ofArgument_of_plain (Or.inl hhead)
    · exact ofArgument_of_plain (Or.inr hdash)
    · exact ofArgument_of_unnamed hno hjudged
  | option h => exact (Parts.whole h.not_mem).ofArgument_of_calls h
  | joined h text => exact (Parts.joined h.not_mem text).ofArgument_of_calls h
  | @letters c d s h hd rest =>
    obtain ⟨start, joined, hparts⟩ := exists_parts (String.ofList ('-' :: c :: d :: rest))
    have hlist := String.toList_ofList (l := '-' :: c :: d :: rest)
    rw [hparts.ofArgument_eq hlist, hparts.named?_eq_none hlist h hd, Option.elim_none,
      if_neg (ne_dash_of_mem_names h), named?_eq_some_iff.2 h]
    rfl

/-- An argument is told to be an operand or an option just if it has that form. -/
theorem ofArgument_eq_ok_iff (hknown : ∀ text, token ≠ .unknown text) :
    Token.ofArgument argument = .ok token ↔ HasForm argument token :=
  ⟨hasForm_of_ofArgument hknown, HasForm.ofArgument_eq⟩

end WordMachine.CommandLine
