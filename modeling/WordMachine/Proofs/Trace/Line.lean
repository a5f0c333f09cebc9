import WordMachine.Proofs.Decimal
import WordMachine.Proofs.Text.Fields
import WordMachine.Trace

set_option autoImplicit false

/-! # Lines of a trace can be read back

A line of a trace shows an entry in fields with blanks between them: the location, the mnemonic, the
operand if there is one, a bar, and the registers. No field has a blank in it, so they can be told
apart however wide they are (`TraceEntry.fields_text`), and each can be read back. Entries with the
same line are therefore the same in all that a line shows (`TraceEntry.text_eq_text_iff`). No line
has a newline in it, so the lines of a trace can be told apart too (`splitOn_traceText`). -/

namespace WordMachine

open Text Decimal

/-! ## Fields -/

/-- Whether the character is a space. -/
def Text.isSpace (c : Char) : Bool := c = ' '

/-- A number with a label in front of it. -/
def Decimal.labelled (label : String) (width : Nat) (v : Int) : List Char :=
  label.toList ++ paddedChars width v

/-- The fields of an instruction's text. -/
def Instruction.words (i : Instruction) : List (List Char) :=
  i.opcode.name.toList :: i.address.toList.map (paddedChars 4)

/-- The fields of the registers, as a line of a trace shows them. -/
def Readings.words (r : Readings) : List (List Char) :=
  [labelled "A=" 0 r.accumulator, labelled "X=" 0 r.extension, labelled "CMP=" 0 r.comparison,
    labelled "LOC=" 4 r.location]

/-- The fields of a line of a trace. -/
def TraceEntry.words (e : TraceEntry) : List (List Char) :=
  (paddedChars 4 e.location ++ [':']) :: (e.instruction.words ++ ['|'] :: e.after.words)

variable {c : Char} {rest : List Char} {label : String} {width : Nat} {v w : Int}

theorem not_mem_labelled (hminus : c ≠ '-') (hdigit : c.isDigit = false)
    (hlabel : c ∉ label.toList) : c ∉ labelled label width v := by
  rw [labelled, List.mem_append, not_or]
  exact ⟨hlabel, not_mem_paddedChars hminus hdigit⟩

theorem labelled_ne_nil : labelled label width v ≠ [] :=
  List.append_ne_nil_of_right_ne_nil _ paddedChars_ne_nil

theorem labelled_inj (h : labelled label width v = labelled label width w) : v = w :=
  paddedChars_injective (List.append_cancel_left h)

theorem Opcode.space_not_mem_name (op : Opcode) : ' ' ∉ op.name.toList := by cases op <;> decide

theorem Opcode.name_ne_nil (op : Opcode) : op.name.toList ≠ [] := by cases op <;> decide

theorem Opcode.name_inj {op op' : Opcode} (h : op.name = op'.name) : op = op' := by
  cases op <;> cases op' <;> first | rfl | exact absurd h (by decide)

theorem isSpace_of_not_mem {word : List Char} (h : ' ' ∉ word) : ∀ d ∈ word, isSpace d = false := by
  intro d hd
  refine decide_eq_false ?_
  rintro rfl
  exact h hd

/-- A field ends at the spaces behind it. -/
theorem fields_word {word : List Char} (hne : word ≠ []) (hword : ' ' ∉ word) (spaces : Nat) :
    fields isSpace (word ++ (List.replicate spaces ' ' ++ ' ' :: rest)) =
      word :: fields isSpace rest :=
  fields_append_separators hne (isSpace_of_not_mem hword) (by decide) spaces

theorem fields_last_word {word : List Char} (hne : word ≠ []) (hword : ' ' ∉ word) :
    fields isSpace word = [word] :=
  fields_piece hne (isSpace_of_not_mem hword)

theorem Instruction.toList_text (op : Opcode) (a : Int) :
    (text ⟨op, some a⟩).toList =
      op.name.toList ++ (List.replicate (4 - op.name.length) ' ' ++ ' ' :: paddedChars 4 a) := by
  simp [text, padRight, padded, toString]

theorem Readings.toList_summary (r : Readings) :
    r.summary.toList =
      labelled "A=" 0 r.accumulator ++ (List.replicate 0 ' ' ++ ' ' ::
        (labelled "X=" 0 r.extension ++ (List.replicate 0 ' ' ++ ' ' ::
          (labelled "CMP=" 0 r.comparison ++ (List.replicate 0 ' ' ++ ' ' ::
            labelled "LOC=" 4 r.location))))) := by
  simp [summary, labelled, padded, Decimal.text, toString]

theorem TraceEntry.toList_text (e : TraceEntry) :
    e.text.toList =
      (paddedChars 4 e.location ++ [':']) ++ (List.replicate 0 ' ' ++ ' ' ::
        (e.instruction.text.toList ++
          (List.replicate (instructionWidth - e.instruction.text.length) ' ' ++ ' ' ::
            (['|'] ++ (List.replicate 0 ' ' ++ ' ' :: e.after.summary.toList))))) := by
  simp [text, textWith, padRight, padded, toString]

theorem Instruction.fields_text (i : Instruction) (spaces : Nat) :
    fields isSpace (i.text.toList ++ (List.replicate spaces ' ' ++ ' ' :: rest)) =
      i.words ++ fields isSpace rest := by
  obtain ⟨op, address⟩ := i
  cases address with
  | none => exact fields_word op.name_ne_nil op.space_not_mem_name spaces
  | some a =>
    have hoperand : ' ' ∉ paddedChars 4 a := not_mem_paddedChars (by decide) (by decide)
    rw [toList_text, List.append_assoc, List.append_assoc, List.cons_append,
      fields_word op.name_ne_nil op.space_not_mem_name, fields_word paddedChars_ne_nil hoperand]
    rfl

theorem Readings.fields_summary (r : Readings) : fields isSpace r.summary.toList = r.words := by
  have hfield : ∀ (label : String) (width : Nat) (v : Int), ' ' ∉ label.toList →
      ' ' ∉ labelled label width v :=
    fun _ _ _ => not_mem_labelled (by decide) (by decide)
  rw [toList_summary, fields_word labelled_ne_nil (hfield "A=" _ _ (by decide)),
    fields_word labelled_ne_nil (hfield "X=" _ _ (by decide)),
    fields_word labelled_ne_nil (hfield "CMP=" _ _ (by decide)),
    fields_last_word labelled_ne_nil (hfield "LOC=" _ _ (by decide))]
  rfl

/-- The fields of a line are what it shows, for numbers of any width. -/
theorem TraceEntry.fields_text (e : TraceEntry) : fields isSpace e.text.toList = e.words := by
  have hlocation : ' ' ∉ paddedChars 4 e.location ++ [':'] := by
    rw [List.mem_append, not_or]
    exact ⟨not_mem_paddedChars (by decide) (by decide), by decide⟩
  rw [toList_text, fields_word (by simp) hlocation, Instruction.fields_text,
    fields_word (by simp) (by decide), Readings.fields_summary]
  rfl

/-! ## What a line shows -/

/-- The entries are the same in all that a line shows of them. -/
structure TraceEntry.ShownAlike (d e : TraceEntry) : Prop where
  location : d.location = e.location
  instruction : d.instruction = e.instruction
  accumulator : d.after.accumulator = e.after.accumulator
  extension : d.after.extension = e.after.extension
  comparison : d.after.comparison = e.after.comparison
  next : d.after.location = e.after.location

theorem Instruction.words_append_inj {i j : Instruction} {rest rest' : List (List Char)}
    (hlength : rest.length = rest'.length) (h : i.words ++ rest = j.words ++ rest') :
    i = j ∧ rest = rest' := by
  obtain ⟨hwords, hrest⟩ := List.append_inj' h hlength
  refine ⟨?_, hrest⟩
  obtain ⟨op, address⟩ := i
  obtain ⟨op', address'⟩ := j
  obtain ⟨hname, haddress⟩ := List.cons.inj hwords
  have hop : op = op' := Opcode.name_inj (String.toList_inj.1 hname)
  have hoperand : address = address' := by
    cases address with
    | none => cases address' with
      | none => rfl
      | some b => cases haddress
    | some a => cases address' with
      | none => cases haddress
      | some b => rw [paddedChars_injective (List.cons.inj haddress).1]
  rw [hop, hoperand]

/-- A line tells all that it shows: the location, the instruction with its operand, and the
    registers but for the index registers. -/
theorem TraceEntry.text_eq_text_iff {d e : TraceEntry} : d.text = e.text ↔ d.ShownAlike e := by
  constructor
  · intro h
    have hwords : d.words = e.words := by rw [← fields_text, h, fields_text]
    obtain ⟨hlocation, hrest⟩ := List.cons.inj hwords
    have hlength : (['|'] :: d.after.words).length = (['|'] :: e.after.words).length := rfl
    obtain ⟨hinstruction, hafter⟩ := Instruction.words_append_inj hlength hrest
    obtain ⟨-, hregisters⟩ := List.cons.inj hafter
    simp only [Readings.words, List.cons.injEq, and_true] at hregisters
    obtain ⟨haccumulator, hextension, hcomparison, hnext⟩ := hregisters
    refine ⟨?_, hinstruction, labelled_inj haccumulator, labelled_inj hextension,
      labelled_inj hcomparison, labelled_inj hnext⟩
    exact Int.ofNat_inj.1 (paddedChars_injective (List.append_cancel_right hlocation))
  · rintro ⟨hlocation, hinstruction, haccumulator, hextension, hcomparison, hnext⟩
    rw [text, text, textWith, textWith, Readings.summary, Readings.summary, hlocation, hinstruction,
      haccumulator, hextension, hcomparison, hnext]

/-! ## The lines of a trace -/

theorem newline_not_mem_paddedChars : '\n' ∉ paddedChars width v :=
  not_mem_paddedChars (by decide) (by decide)

theorem Instruction.newline_not_mem_text (i : Instruction) : '\n' ∉ i.text.toList := by
  obtain ⟨op, address⟩ := i
  have hname : '\n' ∉ op.name.toList := by cases op <;> decide
  cases address with
  | none => exact hname
  | some a => simp [toList_text, hname, newline_not_mem_paddedChars]

theorem TraceEntry.newline_not_mem_text (e : TraceEntry) : '\n' ∉ e.text.toList := by
  simp [toList_text, Readings.toList_summary, labelled, newline_not_mem_paddedChars,
    e.instruction.newline_not_mem_text]

/-- At its newlines the text of a trace comes apart into one line for each entry. -/
theorem splitOn_traceText {trace : Array TraceEntry} (h : trace ≠ #[]) :
    (traceText trace).toList.splitOn '\n' = trace.toList.map fun e => e.text.toList := by
  rw [traceText, String.toList_intercalate, List.map_map]
  refine List.splitOn_intercalate '\n' (fun line hline => ?_) (by simpa using h)
  obtain ⟨e, -, rfl⟩ := List.mem_map.1 hline
  exact e.newline_not_mem_text

end WordMachine
