import WordMachine.Proofs.CommandLine.Settings

set_option autoImplicit false

/-! # Arguments are accepted by the rules

Reading goes through the forms of the arguments from left to right. It follows the rules of `Asks`:
if no argument is left over, there is a rule for each branch that was taken (`asks_of_through`); and
what is asked for by the rules is read, as long as there is no second program
(`exists_readable_of_asks`). So arguments are accepted if they ask for one program, and the options
are those for all that they ask for (`Options.parse_eq_ok_iff`). -/

namespace WordMachine.CommandLine

variable {o : Options} {s : Switch} {x : Setting} {xs settings : List Setting} {text : String}
  {r last : Reading} {arguments : List String} {all : List Token}

/-! ## From left to right -/

/-- An operand has its place if there was no program so far. -/
theorem of_extras_withOperand (h : (r.withOperand text).extras = []) :
    r.extras = [] ∧ r.hasProgram = false ∧
      r.withOperand text =
        { options := r.options.put (.program text), hasProgram := true, extras := [] } := by
  unfold Reading.withOperand at h ⊢
  split at h
  · simp at h
  · next hnone =>
    rw [if_neg hnone]
    exact ⟨h, Bool.eq_false_of_not_eq_true hnone, by rw [h]; rfl⟩

/-- Arguments without a place are never forgotten. -/
theorem extras_of_through (h : r.through all = .ok last) (hlast : last.extras = []) :
    r.extras = [] := by
  fun_induction Reading.through r all with
  | case1 r =>
    cases h
    exact hlast
  | case2 _ _ _ _ ih | case4 _ _ _ _ ih | case7 _ _ _ ih | case8 _ _ _ ih =>
    have hextras := ih h
    simp at hextras
  | case3 r text _ _ ih | case5 r text _ _ ih | case6 r text _ _ ih =>
    exact (of_extras_withOperand (ih h)).1
  | case9 r s short joined _ _ _ ih => exact ih h
  | case11 r s _ text _ _ _ _ ih => exact ih h
  | case13 r s _ _ _ _ _ _ ih => exact ih h
  | case15 r s _ _ _ _ _ ih => exact ih h
  | case10 | case12 | case14 | case16 => cases h

/-- The mark that ends the options has no other form. -/
theorem HasForm.ne_end {argument : String} {token : Token} (h : HasForm argument token) :
    argument ≠ "--" := by
  rintro rfl
  have hambiguous : (Token.ofArgument "--").isOk = false := by decide +kernel
  rw [h.ofArgument_eq] at hambiguous
  cases hambiguous

theorem tokens_of_hasForm {argument : String} {token : Token} (h : HasForm argument token)
    (rest : List String) : tokens (argument :: rest) = (tokens rest).map (token :: ·) := by
  rw [tokens, if_neg h.ne_end, h.ofArgument_eq]

theorem exists_of_tokens {token : Token} (h : tokens arguments = .ok (token :: all))
    (hknown : ∀ text, token ≠ .unknown text) (hend : token ≠ .endOfOptions) :
    ∃ argument rest, arguments = argument :: rest ∧ HasForm argument token ∧
      tokens rest = .ok all := by
  cases arguments with
  | nil => cases h
  | cons argument rest =>
    rw [tokens] at h
    split at h
    · cases h
      exact absurd rfl hend
    split at h
    · cases h
    · next other hother =>
      obtain ⟨others, hrest, hcons⟩ := map_eq_ok_iff.1 h
      cases hcons
      exact ⟨argument, rest, rfl, (ofArgument_eq_ok_iff hknown).1 hother, hrest⟩

theorem exists_of_tokens_end (h : tokens arguments = .ok (.endOfOptions :: all)) :
    ∃ rest, arguments = "--" :: rest ∧ all = rest.map .operand := by
  cases arguments with
  | nil => cases h
  | cons argument rest =>
    rw [tokens] at h
    split at h
    · next hend =>
      cases h
      exact ⟨rest, by rw [hend], rfl⟩
    split at h
    · cases h
    · next other hother =>
      obtain ⟨others, -, hcons⟩ := map_eq_ok_iff.1 h
      cases hcons
      have hform : HasForm argument .endOfOptions := (ofArgument_eq_ok_iff (by simp)).1 hother
      cases hform

theorem eq_nil_of_tokens (h : tokens arguments = .ok []) : arguments = [] := by
  cases arguments with
  | nil => rfl
  | cons argument rest =>
    rw [tokens] at h
    split at h
    · cases h
    split at h
    · cases h
    · obtain ⟨others, -, hcons⟩ := map_eq_ok_iff.1 h
      cases hcons

/-- There is a place for no operand behind the program. -/
theorem eq_nil_of_through_operands {rest : List String} (hprogram : r.hasProgram = true)
    (h : r.through (rest.map .operand) = .ok last) (hlast : last.extras = []) :
    rest = [] ∧ last = r := by
  cases rest with
  | nil =>
    cases h
    exact ⟨rfl, rfl⟩
  | cons text rest =>
    have hthrough : (r.withOperand text).through (rest.map .operand) = .ok last := by
      cases rest <;> exact h
    have hfree := (of_extras_withOperand (extras_of_through hthrough hlast)).2.1
    cases hprogram.symm.trans hfree

theorem Means.program?_eq_none {given : Given} (h : Means s given x) : x.program? = none := by
  cases h <;> rfl

theorem programs_of_means {switches : List Switch}
    (h : List.Forall₂ (fun t x => Means t .alone x) switches xs) :
    xs.filterMap Setting.program? = [] := by
  induction h with
  | nil => rfl
  | cons hx _ ih => rw [List.filterMap_cons_none hx.program?_eq_none, ih]

/-- The number of programs so far. -/
def Reading.programs (r : Reading) : Nat := if r.hasProgram then 1 else 0

/-- The settings lead from one reading to another. -/
structure Reading.Leads (r : Reading) (settings : List Setting) (last : Reading) : Prop where
  options : last.options = settings.foldl Options.put r.options
  programs : (settings.filterMap Setting.program?).length + r.programs = last.programs

namespace Reading.Leads

theorem nil (r : Reading) : r.Leads [] r := ⟨rfl, Nat.zero_add _⟩

theorem program (hfree : r.hasProgram = false) {extras : List String}
    (h : Reading.Leads ⟨r.options.put (.program text), true, extras⟩ settings last) :
    r.Leads (.program text :: settings) last where
  options := h.options
  programs := by
    rw [← h.programs]
    simp [Reading.programs, hfree, Setting.program?]

theorem cons {given : Given} (hx : Means s given x)
    (h : Reading.Leads { r with options := r.options.put x } settings last) :
    r.Leads (x :: settings) last where
  options := h.options
  programs := by
    rw [List.filterMap_cons_none hx.program?_eq_none]
    exact h.programs

theorem append {switches : List Switch}
    (hxs : List.Forall₂ (fun t x => Means t .alone x) switches xs)
    (h : Reading.Leads { r with options := xs.foldl Options.put r.options } settings last) :
    r.Leads (xs ++ settings) last := by
  induction hxs generalizing r with
  | nil => exact h
  | cons hx _ ih => exact cons hx (ih h)

end Reading.Leads

/-- Reading without arguments left over follows the rules. -/
theorem asks_of_through (hall : tokens arguments = .ok all) (h : r.through all = .ok last)
    (hlast : last.extras = []) : ∃ settings, Asks arguments settings ∧ r.Leads settings last := by
  fun_induction Reading.through r all generalizing arguments with
  | case1 r =>
    cases h
    rw [eq_nil_of_tokens hall]
    exact ⟨[], .nil, .nil _⟩
  -- Arguments without a place would be left over.
  | case2 r | case4 r | case7 r | case8 r =>
    have hextras := extras_of_through h hlast
    simp at hextras
  | case3 r text rest hprogram ih =>
    obtain ⟨argument, after, rfl, hform, hafter⟩ := exists_of_tokens hall (by simp) (by simp)
    obtain ⟨operands, rfl, rfl⟩ := exists_of_tokens_end hafter
    obtain ⟨-, hfree, hoperand⟩ := of_extras_withOperand (extras_of_through h hlast)
    rw [hoperand] at h
    obtain ⟨rfl, rfl⟩ := eq_nil_of_through_operands rfl h hlast
    obtain ⟨h⟩ := hform
    exact ⟨_, .ended (.operand h), .program hfree (.nil _)⟩
  | case5 r text rest hprogram ih =>
    obtain ⟨operands, rfl, hoperands⟩ := exists_of_tokens_end hall
    obtain ⟨-, hfree, hoperand⟩ := of_extras_withOperand (extras_of_through h hlast)
    rw [hoperand] at h
    cases operands with
    | nil => cases hoperands
    | cons other operands =>
      cases hoperands
      obtain ⟨rfl, rfl⟩ := eq_nil_of_through_operands rfl h hlast
      exact ⟨_, .marked text, .program hfree (.nil _)⟩
  | case6 r text rest hnext ih =>
    obtain ⟨argument, after, rfl, hform, hafter⟩ := exists_of_tokens hall (by simp) (by simp)
    obtain ⟨-, hfree, hoperand⟩ := of_extras_withOperand (extras_of_through h hlast)
    obtain ⟨settings, hasks, hleads⟩ := ih hafter h
    rw [hoperand] at hleads
    obtain ⟨h⟩ := hform
    exact ⟨_, .program (.operand h) hasks, .program hfree hleads⟩
  | case9 r s short joined rest o hjoined ih =>
    obtain ⟨argument, after, rfl, hform, hafter⟩ := exists_of_tokens hall (by simp) (by simp)
    obtain ⟨settings, hasks, hleads⟩ := ih hafter h
    rcases withJoined_eq_ok_iff.1 hjoined with ⟨htext, x, hx, rfl⟩ | ⟨rfl, x, hx, rfl⟩ |
      ⟨rfl, hne, switches, xs, hletters, hxs, rfl⟩
    · exact ⟨_, .joined hform htext hx hasks, .cons hx hleads⟩
    · exact ⟨_, .empty hform hx hasks, .cons hx hleads⟩
    · exact ⟨_, .bundle hform hne hletters hxs hasks, .append hxs hleads⟩
  | case11 r s short text rest hvalue o hread ih =>
    obtain ⟨argument, after, rfl, hform, hafter⟩ := exists_of_tokens hall (by simp) (by simp)
    obtain ⟨value, after, rfl, htext, hafter⟩ := exists_of_tokens hafter (by simp) (by simp)
    obtain ⟨settings, hasks, hleads⟩ := ih hafter h
    obtain ⟨x, hx, rfl⟩ := withValue_eq_ok_iff.1 hread
    obtain ⟨htext⟩ := htext
    exact ⟨_, .value hform (.operand htext) hx hasks, .cons hx hleads⟩
  | case13 r s short text rest hvalue o hflag ih | case15 r s short rest hnext o hflag ih =>
    obtain ⟨argument, after, rfl, hform, hafter⟩ := exists_of_tokens hall (by simp) (by simp)
    obtain ⟨settings, hasks, hleads⟩ := ih hafter h
    obtain ⟨x, hx, rfl⟩ := withFlag_eq_ok_iff.1 hflag
    exact ⟨_, .alone hform hx hasks, .cons hx hleads⟩
  | case10 | case12 | case14 | case16 => cases h

/-! ## By the rules -/

section

variable {given : Given} {short : Bool} {more : List Token}

theorem through_operand (hnext : all.head? ≠ some .endOfOptions) :
    r.through (.operand text :: all) = (r.withOperand text).through all := by
  cases all with
  | nil => rfl
  | cons token all => cases token <;> first | rfl | exact absurd rfl hnext

theorem through_value (hx : Means s (.value text) x) :
    r.through (.option s short none :: .operand text :: all) =
      Reading.through { r with options := r.options.put x } all := by
  rw [Reading.through, if_pos (hx.takesValue_eq.2 nofun), withValue_eq_ok_iff.2 ⟨x, hx, rfl⟩]

theorem through_alone (hx : Means s .alone x) :
    r.through (.option s short none :: all) =
      Reading.through { r with options := r.options.put x } all := by
  have hflag : r.options.withFlag s = .ok (r.options.put x) := withFlag_eq_ok_iff.2 ⟨x, hx, rfl⟩
  have hvalue : ¬s.takesValue = true := fun hvalue => hx.takesValue_eq.1 hvalue rfl
  cases all with
  | nil => simp only [Reading.through, hflag]
  | cons token all => cases token <;> simp [Reading.through, hflag, hvalue]

theorem through_joined {new : Options} (h : r.options.withJoined s short text = .ok new) :
    r.through (.option s short (some text) :: all) =
      Reading.through { r with options := new } all := by
  rw [Reading.through, h]

/-- The tokens can be read from anywhere as these settings, as long as there is no second
    program. -/
def Readable (all : List Token) (settings : List Setting) : Prop :=
  ∀ r : Reading, r.extras = [] →
    (settings.filterMap Setting.program?).length + r.programs ≤ 1 →
      ∃ last, r.through all = .ok last ∧ last.extras = [] ∧ r.Leads settings last

theorem Readable.program (h : Readable all settings)
    (hthrough : ∀ r : Reading, r.hasProgram = false → settings.filterMap Setting.program? = [] →
      r.through more = Reading.through ⟨r.options.put (.program text), true, r.extras⟩ all) :
    Readable more (.program text :: settings) := by
  intro r hextras hcount
  rw [List.filterMap_cons_some (by rfl), List.length_cons] at hcount
  have hnone : settings.filterMap Setting.program? = [] := List.length_eq_zero_iff.1 (by omega)
  have hfree : r.hasProgram = false := by
    by_contra hprogram
    rw [Reading.programs, if_pos (Bool.eq_true_of_not_eq_false hprogram)] at hcount
    omega
  have hone : (settings.filterMap Setting.program?).length + 1 ≤ 1 := by simp [hnone]
  obtain ⟨last, hlast, hextras, hleads⟩ :=
    h ⟨r.options.put (.program text), true, r.extras⟩ hextras hone
  exact ⟨last, (hthrough r hfree hnone).trans hlast, hextras, .program hfree hleads⟩

theorem Readable.cons (hx : Means s given x) (h : Readable all settings)
    (hthrough : ∀ r : Reading, r.through more =
      Reading.through { r with options := r.options.put x } all) :
    Readable more (x :: settings) := by
  intro r hextras hcount
  rw [List.filterMap_cons_none hx.program?_eq_none] at hcount
  obtain ⟨last, hlast, hnone, hleads⟩ := h { r with options := r.options.put x } hextras hcount
  exact ⟨last, (hthrough r).trans hlast, hnone, .cons hx hleads⟩

theorem Readable.append {switches : List Switch}
    (hxs : List.Forall₂ (fun t x => Means t .alone x) switches xs) (h : Readable all settings)
    (hthrough : ∀ r : Reading, r.through more =
      Reading.through { r with options := xs.foldl Options.put r.options } all) :
    Readable more (xs ++ settings) := by
  intro r hextras hcount
  rw [List.filterMap_append, programs_of_means hxs, List.nil_append] at hcount
  obtain ⟨last, hlast, hextras, hleads⟩ :=
    h { r with options := xs.foldl Options.put r.options } hextras hcount
  exact ⟨last, (hthrough r).trans hlast, hextras, .append hxs hleads⟩

end

/-- What is asked for by the rules has tokens that can be read as it. -/
theorem exists_readable_of_asks (h : Asks arguments settings) :
    ∃ all, tokens arguments = .ok all ∧ Readable all settings ∧
      (all.head? = some .endOfOptions → settings.filterMap Setting.program? ≠ []) := by
  have hnil : Readable [] [] := fun r hextras _ => ⟨r, rfl, hextras, .nil r⟩
  have hcons : ∀ {argument token rest all}, HasForm argument token → tokens rest = .ok all →
      tokens (argument :: rest) = .ok (token :: all) := by
    intro argument token rest all hform hall
    rw [tokens_of_hasForm hform, hall]
    rfl
  induction h with
  | nil => exact ⟨[], rfl, hnil, by simp⟩
  | program hform later ih =>
    obtain ⟨all, hall, hread, hend⟩ := ih
    refine ⟨_, hcons hform hall, hread.program fun r hfree hnone => ?_, by simp⟩
    rw [through_operand fun hnext => hend hnext hnone, Reading.withOperand, hfree]
    rfl
  | marked text =>
    refine ⟨[.endOfOptions, .operand text], rfl, hnil.program fun r hfree _ => ?_,
      by simp [Setting.program?]⟩
    simp [Reading.through, Reading.withOperand, hfree, Options.put]
  | ended hform =>
    refine ⟨_, hcons hform rfl, hnil.program fun r hfree _ => ?_, by simp⟩
    simp [Reading.through, Reading.withOperand, hfree, Options.put]
  | value hname htext hx later ih =>
    obtain ⟨all, hall, hread, -⟩ := ih
    exact ⟨_, hcons hname (hcons htext hall), hread.cons hx fun r => through_value hx, by simp⟩
  | joined hform htext hx later ih =>
    obtain ⟨all, hall, hread, -⟩ := ih
    refine ⟨_, hcons hform hall, hread.cons hx fun r => through_joined ?_, by simp⟩
    exact withJoined_eq_ok_iff.2 (Or.inl ⟨htext, _, hx, rfl⟩)
  | empty hform hx later ih =>
    obtain ⟨all, hall, hread, -⟩ := ih
    refine ⟨_, hcons hform hall, hread.cons hx fun r => through_joined ?_, by simp⟩
    exact withJoined_eq_ok_iff.2 (Or.inr (Or.inl ⟨rfl, _, hx, rfl⟩))
  | alone hform hx later ih =>
    obtain ⟨all, hall, hread, -⟩ := ih
    exact ⟨_, hcons hform hall, hread.cons hx fun r => through_alone hx, by simp⟩
  | bundle hform hne hletters hxs later ih =>
    obtain ⟨all, hall, hread, -⟩ := ih
    refine ⟨_, hcons hform hall, hread.append hxs fun r => through_joined ?_, by simp⟩
    exact withJoined_eq_ok_iff.2 (Or.inr (Or.inr ⟨rfl, hne, _, _, hletters, hxs, rfl⟩))

/-- Arguments are accepted if they ask for one program, and then the options are those that they
    ask for. -/
theorem Options.parse_eq_ok_iff : Options.parse arguments = .ok o ↔ o.AskedBy arguments := by
  constructor
  · intro h
    unfold Options.parse at h
    split at h
    · cases h
    next all hall =>
    split at h
    · cases h
    next last hlast =>
    split at h
    · cases h
    next hprogram =>
    split at h
    · cases h
    next hextras =>
    cases h
    obtain ⟨settings, hasks, hoptions, hcount⟩ :=
      asks_of_through hall hlast (not_not.1 hextras)
    have hone : (settings.filterMap Setting.program?).length = 1 := by
      rw [Bool.not_eq_true', Bool.not_eq_false] at hprogram
      simpa [Reading.programs, hprogram] using hcount
    obtain ⟨program, hsingle⟩ := List.length_eq_one_iff.1 hone
    rw [foldl_put, hsingle] at hoptions
    refine ⟨settings, hasks, ?_, ?_⟩
    · rw [hsingle, hoptions]
      rfl
    · rw [hoptions]
      rfl
  · rintro ⟨settings, hasks, hsingle, hoptions⟩
    obtain ⟨all, hall, hread, -⟩ := exists_readable_of_asks hasks
    obtain ⟨last, hlast, hextras, hlead, hcount⟩ :=
      hread {} rfl (by simp [hsingle, Reading.programs])
    have hprogram : last.hasProgram = true := by
      by_contra hno
      simp [hsingle, Reading.programs, hno] at hcount
    have hlastOptions : last.options = o := by
      rw [hlead, foldl_put, hsingle]
      exact hoptions.symm
    simp [Options.parse, hall, hlast, hprogram, hextras, hlastOptions]

example : Options.parse ["--set", "1=2", "-vq", "p", "--set=0x3=-4"] = .ok
    { program := "p", pokes := [some (1, 2), some (3, -4)], verbose := true, quiet := true } := by
  decide

end WordMachine.CommandLine
