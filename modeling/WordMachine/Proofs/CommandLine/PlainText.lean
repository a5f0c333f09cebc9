import WordMachine.CommandLine.Argument
import WordMachine.CommandLine.Report
import WordMachine.Proofs.Memory.Ranges
import WordMachine.Proofs.Trace.Line

set_option autoImplicit false

/-! # Plain reports can be read back

A line of a plain report is a name and integers with a colon between them. `readPlain?` reads such
lines and takes the registers and the cells from them: the registers by their names, and the cells
of a row by the address that the row is labelled with. `readShown?` reads any plain report, with
cells or without, and also why the run stopped and after how many instructions, if the first line
tells it. Nothing of the printing is used for either.

What is printed is read back line by line (`readLine_labelled`, `readLine_row`), and the rows of the
cells list all of them once (`Memory.flatMap_dumpRows`), so a report shows what it was made of
(`readPlain?_text`, `readShown?_text`). -/

namespace WordMachine.CommandLine

open Text Decimal

/-! ## The reader -/

/-- The name in front of the first colon of a line, and the integers behind it. -/
def readLine (line : List Char) : Option (String × List Int) :=
  match splitAtFirst ':' line with
  | (_, none) => none
  | (name, some rest) =>
    ((fields isSpace rest).mapM read?).map fun values => (String.ofList name, values)

/-- What is shown by the lines of a text that have a name and integers. -/
def readLines (text : List Char) : List (String × List Int) :=
  (text.splitOn '\n').filterMap readLine

/-- The integers of a row with their addresses. -/
def readRow (row : String × List Int) : Option (List (Int × Int)) :=
  (read? row.1.toList).map fun label => Memory.addressed label row.2

/-- Reads a plain report: the registers, and the integers in the cells with their addresses. -/
def readPlain? (text : String) : Option (Readings × List (Int × Int)) :=
  match readLines text.toList with
  | ("Registers", []) :: ("A", [a]) :: ("X", [x]) :: ("Comparison", [comparison]) ::
      ("Location", [location]) :: ("I1", [i1]) :: ("I2", [i2]) :: ("I3", [i3]) :: ("I4", [i4]) ::
      ("I5", [i5]) :: ("I6", [i6]) :: ("Memory", []) :: rows =>
    (rows.mapM readRow).map fun cells =>
      (⟨a, x, #v[i1, i2, i3, i4, i5, i6], comparison, location⟩, cells.flatten)
  | _ => none

/-- What a plain report shows. -/
structure Shown where
  /-- Why the run stopped and after how many instructions, if that is told. -/
  stop : Option (String × Int)
  registers : Readings
  /-- The integers in the cells with their addresses, if any are listed. -/
  cells : Option (List (Int × Int))

/-- Why a run stopped and after how many instructions, if the line tells that. -/
def readStop? (line : List Char) : Option (String × Int) :=
  match fields isSpace line with
  | [stopped, reason, after, count, steps] =>
    if [stopped, after, steps] = ["Stopped:".toList, "after".toList, "steps".toList] then
      (read? count).map fun n => (String.ofList reason, n)
    else none
  | _ => none

/-- Reads the lines behind the registers: the cells, if there is anything. -/
def readCells? : List (String × List Int) → Option (Option (List (Int × Int)))
  | [] => some none
  | ("Memory", []) :: rows => (rows.mapM readRow).map fun cells => some cells.flatten
  | _ => none

/-- Reads any plain report. -/
def readShown? (text : String) : Option Shown :=
  match readLines text.toList with
  | ("Registers", []) :: ("A", [a]) :: ("X", [x]) :: ("Comparison", [comparison]) ::
      ("Location", [location]) :: ("I1", [i1]) :: ("I2", [i2]) :: ("I3", [i3]) :: ("I4", [i4]) ::
      ("I5", [i5]) :: ("I6", [i6]) :: rest =>
    (readCells? rest).map fun cells =>
      ⟨(text.toList.splitOn '\n').head?.bind readStop?,
        ⟨a, x, #v[i1, i2, i3, i4, i5, i6], comparison, location⟩, cells⟩
  | _ => none

/-! ## Lists of what is read back -/

section

variable {α β γ : Type} {read : β → Option γ} {write : α → β} {value : α → γ} {xs : List α}

theorem filterMap_of_read (h : ∀ x ∈ xs, read (write x) = some (value x)) :
    (xs.map write).filterMap read = xs.map value := by
  induction xs with
  | nil => rfl
  | cons x xs ih =>
    rw [List.map_cons, List.filterMap_cons, h x List.mem_cons_self,
      ih fun y hy => h y (List.mem_cons_of_mem _ hy), List.map_cons]

theorem mapM_of_read (h : ∀ x ∈ xs, read (write x) = some (value x)) :
    (xs.map write).mapM read = some (xs.map value) := by
  induction xs with
  | nil => rfl
  | cons x xs ih =>
    rw [List.map_cons, List.mapM_cons, h x List.mem_cons_self,
      ih fun y hy => h y (List.mem_cons_of_mem _ hy)]
    rfl

end

/-! ## Single lines -/

variable {rest line : List Char} {label name : String} {width : Nat} {v : Int}

theorem splitAtFirst_append {separator : Char} {before : List Char} (h : separator ∉ before)
    (rest : List Char) :
    splitAtFirst separator (before ++ separator :: rest) = (before, some rest) := by
  induction before with
  | nil => rw [List.nil_append, splitAtFirst, if_pos rfl]
  | cons c before ih =>
    rw [List.mem_cons, not_or] at h
    rw [List.cons_append, splitAtFirst, if_neg (Ne.symm h.1), ih h.2]

theorem readLine_of_colon (hname : ':' ∉ name.toList) (rest : List Char) :
    readLine (name.toList ++ ':' :: rest) =
      ((fields isSpace rest).mapM read?).map fun values => (name, values) := by
  simp only [readLine, splitAtFirst_append hname, String.ofList_toList]

/-- The fields behind a space are the numbers again. -/
theorem mapM_fields_paddedChars (width : Nat) (values : List Int) :
    (fields isSpace (' ' :: [' '].intercalate (values.map (paddedChars width)))).mapM read? =
      some values := by
  have hpieces : ∀ piece ∈ values.map (paddedChars width),
      piece ≠ [] ∧ ∀ d ∈ piece, isSpace d = false := by
    intro piece hpiece
    obtain ⟨v, -, rfl⟩ := List.mem_map.1 hpiece
    exact ⟨paddedChars_ne_nil, isSpace_of_not_mem (not_mem_paddedChars (by decide) (by decide))⟩
  have hread : (values.map (paddedChars width)).mapM read? = some (values.map id) :=
    mapM_of_read fun v _ => read?_paddedChars width v
  rw [fields_cons_of_separates (by decide), fields_intercalate (by decide) hpieces, hread,
    List.map_id]

theorem readLine_row (hname : ':' ∉ name.toList) (width : Nat) (values : List Int) :
    readLine (name.toList ++ ':' :: ' ' :: [' '].intercalate (values.map (paddedChars width))) =
      some (name, values) := by
  rw [readLine_of_colon hname, mapM_fields_paddedChars, Option.map_some]

theorem readLine_labelled (hlabel : label.toList = name.toList ++ [':', ' '])
    (hname : ':' ∉ name.toList) (width : Nat) (v : Int) :
    readLine (labelled label width v) = some (name, [v]) := by
  have hline : labelled label width v =
      name.toList ++ ':' :: ' ' :: [' '].intercalate ([v].map (paddedChars width)) := by
    rw [labelled, hlabel, List.map_singleton, List.intercalate_singleton, List.append_assoc]
    rfl
  rw [hline, readLine_row hname]

/-! ## Several lines -/

theorem readLines_append (cs ds : List Char) :
    readLines (cs ++ '\n' :: ds) = readLines cs ++ readLines ds := by
  rw [readLines, List.splitOn_append_cons_self, List.filterMap_append]
  rfl

theorem readLines_line (h : '\n' ∉ line) : readLines line = (readLine line).toList := by
  rw [readLines, List.splitOn_eq_singleton h, List.filterMap_cons]
  cases readLine line <;> rfl

theorem readLines_intercalate {lines : List (List Char)} (h : ∀ line ∈ lines, '\n' ∉ line) :
    readLines (['\n'].intercalate lines) = lines.filterMap readLine := by
  cases lines with
  | nil => rfl
  | cons line lines =>
    rw [readLines, List.splitOn_intercalate '\n' h (List.cons_ne_nil line lines)]

/-! ## The registers -/

/-- A line with a name and a number that is padded to a width. -/
def entryLine (entry : String × Nat × Int) : List Char :=
  labelled (entry.1 ++ ": ") entry.2.1 entry.2.2

/-- The name of an index register. -/
def indexName (i : Nat) : String := s!"I{text (i + 1)}"

/-- The entries of a display, in the order of their lines. -/
def registerEntries (r : Readings) : List (String × Nat × Int) :=
  [("A", 5, r.accumulator), ("X", 5, r.extension), ("Comparison", 0, r.comparison),
    ("Location", 0, r.location)] ++
  r.index.toList.mapIdx fun i v => (indexName i, 5, v)

theorem toList_display (r : Readings) :
    r.display.toList =
      ['\n'].intercalate ("Registers:".toList :: (registerEntries r).map entryLine) := by
  have hnewline : "\n".toList = ['\n'] := rfl
  have hentry : ∀ (i : Nat) (v : Int),
      s!"I{text (i + 1)}: {padded 5 v}".toList = entryLine (indexName i, 5, v) := by
    intro i v
    simp [entryLine, indexName, labelled, toString]
  have hindex : (r.index.toList.mapIdx fun i v => s!"I{text (i + 1)}: {padded 5 v}").map
      String.toList = (r.index.toList.mapIdx fun i v => (indexName i, 5, v)).map entryLine := by
    refine List.ext_getElem? fun i => ?_
    simp only [List.getElem?_map, List.getElem?_mapIdx, Option.map_map, Function.comp_def, hentry]
  rw [Readings.display, String.toList_intercalate, hnewline, Readings.displayLines,
    registerEntries, List.map_append, hindex, List.map_append]
  simp [entryLine, labelled, toString]

/-- No name of a register ends a line or has a colon in it. -/
theorem name_of_mem_registerEntries {r : Readings} {entry : String × Nat × Int}
    (h : entry ∈ registerEntries r) : '\n' ∉ entry.1.toList ∧ ':' ∉ entry.1.toList := by
  rcases List.mem_append.1 h with hfixed | hindex
  · have hall : ∀ name ∈ ["A", "X", "Comparison", "Location"],
        '\n' ∉ name.toList ∧ ':' ∉ name.toList := by decide
    exact hall entry.1 (List.mem_map_of_mem (f := Prod.fst) hfixed)
  · obtain ⟨i, -, rfl⟩ := List.mem_mapIdx.1 hindex
    have hname : ∀ c : Char, c ≠ 'I' → c ≠ '-' → c.isDigit = false →
        c ∉ (indexName i).toList := by
      intro c hletter hminus hdigit
      simp [indexName, toString, hletter, not_mem_paddedChars hminus hdigit]
    exact ⟨hname '\n' (by decide) (by decide) (by decide),
      hname ':' (by decide) (by decide) (by decide)⟩

theorem newline_not_mem_entryLine {entry : String × Nat × Int} (h : '\n' ∉ entry.1.toList) :
    '\n' ∉ entryLine entry := by
  refine not_mem_labelled (by decide) (by decide) ?_
  rw [String.toList_append, List.mem_append, not_or]
  exact ⟨h, by decide⟩

theorem readLine_entryLine {entry : String × Nat × Int} (h : ':' ∉ entry.1.toList) :
    readLine (entryLine entry) = some (entry.1, [entry.2.2]) :=
  readLine_labelled (String.toList_append ..) h entry.2.1 entry.2.2

theorem readLines_display (r : Readings) :
    readLines r.display.toList =
      ("Registers", []) :: (registerEntries r).map fun entry => (entry.1, [entry.2.2]) := by
  have hlines : ∀ line ∈ "Registers:".toList :: (registerEntries r).map entryLine,
      '\n' ∉ line := by
    intro line hline
    rcases List.mem_cons.1 hline with rfl | hentry
    · decide
    · obtain ⟨entry, hmem, rfl⟩ := List.mem_map.1 hentry
      exact newline_not_mem_entryLine (name_of_mem_registerEntries hmem).1
  have hheading : readLine "Registers:".toList = some ("Registers", []) := by decide
  rw [toList_display, readLines_intercalate hlines, List.filterMap_cons, hheading,
    filterMap_of_read fun entry hentry =>
      readLine_entryLine (name_of_mem_registerEntries hentry).2]

theorem exists_entries (index : Vector Int indexCount) :
    ∃ i1 i2 i3 i4 i5 i6, index = #v[i1, i2, i3, i4, i5, i6] ∧
      index.toList = [i1, i2, i3, i4, i5, i6] := by
  have hindex : index = #v[index[0], index[1], index[2], index[3], index[4], index[5]] := by
    refine Vector.ext fun i hi => ?_
    have hall : i = 0 ∨ i = 1 ∨ i = 2 ∨ i = 3 ∨ i = 4 ∨ i = 5 := by
      simp only [indexCount] at hi
      omega
    rcases hall with rfl | rfl | rfl | rfl | rfl | rfl <;> rfl
  exact ⟨_, _, _, _, _, _, hindex, congrArg Vector.toList hindex⟩

theorem map_registerEntries {r : Readings} {i1 i2 i3 i4 i5 i6 : Int}
    (h : r.index.toList = [i1, i2, i3, i4, i5, i6]) :
    ((registerEntries r).map fun entry => (entry.1, [entry.2.2])) =
      [("A", [r.accumulator]), ("X", [r.extension]), ("Comparison", [r.comparison]),
        ("Location", [r.location]), ("I1", [i1]), ("I2", [i2]), ("I3", [i3]), ("I4", [i4]),
        ("I5", [i5]), ("I6", [i6])] := by
  have hnames : [indexName 0, indexName 1, indexName 2, indexName 3, indexName 4, indexName 5] =
      ["I1", "I2", "I3", "I4", "I5", "I6"] := by decide
  simp only [List.cons.injEq, and_true] at hnames
  simp only [registerEntries, h, List.mapIdx_cons, List.mapIdx_nil, Nat.zero_add, Nat.reduceAdd,
    hnames, List.cons_append, List.nil_append, List.map_cons, List.map_nil]

/-! ## The cells -/

theorem toList_rowText (row : DumpRow) :
    row.text.toList =
      (padded 4 row.label).toList ++
        ':' :: ' ' :: [' '].intercalate ((row.cells.map Int32.toInt).map (paddedChars 5)) := by
  have hspace : " ".toList = [' '] := rfl
  have hcells : (row.cells.map fun word => padded 5 word.toInt).map String.toList =
      (row.cells.map Int32.toInt).map (paddedChars 5) := by
    simp only [List.map_map, Function.comp_def, toList_padded]
  rw [DumpRow.text, String.toList_append, String.toList_intercalate, hspace, hcells]
  simp [toString]

theorem readLine_rowText (row : DumpRow) :
    readLine row.text.toList = some (padded 4 row.label, row.cells.map Int32.toInt) := by
  have hcolon : ':' ∉ (padded 4 row.label).toList := by
    rw [toList_padded]
    exact not_mem_paddedChars (by decide) (by decide)
  rw [toList_rowText, readLine_row hcolon]

theorem not_mem_intercalate {c : Char} {separator : List Char} {pieces : List (List Char)}
    (hseparator : c ∉ separator) (h : ∀ piece ∈ pieces, c ∉ piece) :
    c ∉ separator.intercalate pieces := by
  induction pieces with
  | nil => exact List.not_mem_nil
  | cons piece pieces ih =>
    have hpiece : c ∉ piece := h piece List.mem_cons_self
    have hrest := ih fun other hother => h other (List.mem_cons_of_mem _ hother)
    cases pieces with
    | nil => rwa [List.intercalate_singleton]
    | cons next pieces =>
      rw [List.intercalate_cons_cons]
      simp only [List.mem_append, hpiece, hseparator, hrest, or_self, not_false_eq_true]

theorem newline_not_mem_rowText (row : DumpRow) : '\n' ∉ row.text.toList := by
  have hcells : '\n' ∉ [' '].intercalate ((row.cells.map Int32.toInt).map (paddedChars 5)) := by
    refine not_mem_intercalate (by decide) fun piece hpiece => ?_
    obtain ⟨v, -, rfl⟩ := List.mem_map.1 hpiece
    exact newline_not_mem_paddedChars
  rw [toList_rowText, toList_padded]
  simp [newline_not_mem_paddedChars, hcells, -List.map_map]

theorem toList_dumpText (m : Memory) (start stop : Nat) :
    (m.dumpText start stop).toList =
      ['\n'].intercalate ((m.dumpRows start stop).map fun row => row.text.toList) := by
  have hnewline : "\n".toList = ['\n'] := rfl
  rw [Memory.dumpText, String.toList_intercalate, hnewline, List.map_map]
  rfl

theorem newline_not_mem_of_mem_dump (m : Memory) (start stop : Nat) :
    ∀ line ∈ (m.dumpRows start stop).map fun row => row.text.toList, '\n' ∉ line := by
  intro line hline
  obtain ⟨row, -, rfl⟩ := List.mem_map.1 hline
  exact newline_not_mem_rowText row

theorem readLines_dumpText (m : Memory) (start stop : Nat) :
    readLines (m.dumpText start stop).toList =
      (m.dumpRows start stop).map fun row => (padded 4 row.label, row.cells.map Int32.toInt) := by
  rw [toList_dumpText, readLines_intercalate (newline_not_mem_of_mem_dump m start stop),
    filterMap_of_read fun row _ => readLine_rowText row]

theorem mapM_readRow (rows : List DumpRow) :
    (rows.map fun row => (padded 4 row.label, row.cells.map Int32.toInt)).mapM readRow =
      some (rows.map fun row => Memory.addressed row.label (row.cells.map Int32.toInt)) := by
  refine mapM_of_read fun row _ => ?_
  rw [readRow, toList_padded, read?_paddedChars, Option.map_some]

/-! ## A whole report -/

/-- The line about the end of a run. -/
def stoppedLine (reason : StopReason) (steps : Nat) : String :=
  s!"Stopped: {reason.name} after {text steps} steps"

variable {r : Report} {first last : Nat}

theorem toList_stoppedLine (reason : StopReason) (steps : Nat) :
    (stoppedLine reason steps).toList =
      "Stopped".toList ++ ':' :: ' ' :: (reason.name.toList ++
        ' ' :: ("after ".toList ++ paddedChars 0 steps ++ " steps".toList)) := by
  simp [stoppedLine, toString]

theorem newline_not_mem_stoppedLine (reason : StopReason) (steps : Nat) :
    '\n' ∉ (stoppedLine reason steps).toList := by
  have hname : '\n' ∉ reason.name.toList := by cases reason <;> decide
  simp [toList_stoppedLine, hname, newline_not_mem_paddedChars]

/-- No number stands in front in the line about the end of a run. -/
theorem readLine_stoppedLine (reason : StopReason) (steps : Nat) :
    readLine (stoppedLine reason steps).toList = none := by
  have hname : reason.name.toList ≠ [] ∧ ' ' ∉ reason.name.toList ∧
      read? reason.name.toList = none := by
    cases reason <;> decide
  obtain ⟨hne, hspace, hread⟩ := hname
  have hbreak : ∀ rest : List Char, ∀ d ∈ (' ' :: rest).head?, isSpace d = true := by
    intro rest d hd
    cases hd
    decide
  rw [toList_stoppedLine, readLine_of_colon (by decide), fields_cons_of_separates (by decide),
    fields_append hne (isSpace_of_not_mem hspace) (hbreak _), List.mapM_cons, hread]
  rfl

/-- The pieces of the line about the end of a run. -/
theorem fields_stoppedLine (reason : StopReason) (steps : Nat) :
    fields isSpace (stoppedLine reason steps).toList =
      ["Stopped:".toList, reason.name.toList, "after".toList, paddedChars 0 steps,
        "steps".toList] := by
  have hname : reason.name.toList ≠ [] ∧ ' ' ∉ reason.name.toList := by cases reason <;> decide
  have hline : (stoppedLine reason steps).toList = [' '].intercalate
      ["Stopped:".toList, reason.name.toList, "after".toList, paddedChars 0 steps,
        "steps".toList] := by
    simp [stoppedLine, toString]
  rw [hline]
  refine fields_intercalate (by decide) fun piece hpiece => ?_
  simp only [List.mem_cons, List.not_mem_nil, or_false] at hpiece
  rcases hpiece with rfl | rfl | rfl | rfl | rfl
  · exact ⟨by decide, isSpace_of_not_mem (by decide)⟩
  · exact ⟨hname.1, isSpace_of_not_mem hname.2⟩
  · exact ⟨by decide, isSpace_of_not_mem (by decide)⟩
  · exact ⟨paddedChars_ne_nil, isSpace_of_not_mem (not_mem_paddedChars (by decide) (by decide))⟩
  · exact ⟨by decide, isSpace_of_not_mem (by decide)⟩

theorem readStop?_stoppedLine (reason : StopReason) (steps : Nat) :
    readStop? (stoppedLine reason steps).toList = some (reason.name, (steps : Int)) := by
  simp only [readStop?, fields_stoppedLine, if_true, read?_paddedChars, Option.map_some,
    String.ofList_toList]

/-- What a plain report says of the cells. -/
def Report.cellsText (r : Report) : String :=
  r.dump.elim "" fun range =>
    "Memory:\n" ++ (r.memory.dumpText range.1 (range.2 + 1) ++ "\n")

/-- A report: the line about the end of the run, if it stopped, the registers, and the cells. -/
theorem text_eq (r : Report) :
    r.text = (r.stop.elim "" fun reason => stoppedLine reason r.steps ++ "\n") ++
      (r.registers.display ++ ("\n" ++ r.cellsText)) := by
  rcases hdump : r.dump with _ | ⟨first, last⟩ <;> cases hstop : r.stop <;>
    simp [Report.text, Report.cellsText, hdump, hstop, stoppedLine, String.append_assoc, toString]

theorem text_of_dump (h : r.dump = some (first, last)) :
    r.text = (r.stop.elim "" fun reason => stoppedLine reason r.steps ++ "\n") ++
      (r.registers.display ++ ("\n" ++
        ("Memory:\n" ++ (r.memory.dumpText first (last + 1) ++ "\n")))) := by
  rw [text_eq, Report.cellsText, h, Option.elim_some]

/-- The cells are listed line by line, under a heading. -/
theorem readLines_cellsText (r : Report) :
    readLines r.cellsText.toList = r.dump.elim [] fun range =>
      ("Memory", []) :: (r.memory.dumpRows range.1 (range.2 + 1)).map fun row =>
        (padded 4 row.label, row.cells.map Int32.toInt) := by
  have hheading : "Memory:\n".toList = "Memory:".toList ++ ['\n'] := rfl
  have hlabel : readLines "Memory:".toList = [("Memory", [])] := by decide
  have hnewline : "\n".toList = ['\n'] := rfl
  have hnothing : readLines [] = [] := rfl
  cases hdump : r.dump with
  | none =>
    simp only [Report.cellsText, hdump, Option.elim_none]
    exact hnothing
  | some range =>
    simp only [Report.cellsText, hdump, Option.elim_some, String.toList_append, hheading, hnewline,
      List.append_assoc, List.singleton_append, readLines_append, hlabel, hnothing, List.append_nil,
      readLines_dumpText]

/-- The line about the end of a run is passed over, as no number stands in front in it. -/
theorem readLines_text (r : Report) :
    readLines r.text.toList =
      readLines r.registers.display.toList ++ readLines r.cellsText.toList := by
  have hnewline : "\n".toList = ['\n'] := rfl
  have hrest : ∀ rest : List Char,
      readLines ((r.stop.elim "" fun reason => stoppedLine reason r.steps ++ "\n").toList ++ rest) =
        readLines rest := by
    intro rest
    cases r.stop with
    | none => rfl
    | some reason =>
      rw [Option.elim_some, String.toList_append, hnewline, List.append_assoc,
        List.singleton_append, readLines_append,
        readLines_line (newline_not_mem_stoppedLine reason r.steps), readLine_stoppedLine]
      rfl
  simp only [text_eq, String.toList_append, hnewline, List.singleton_append, hrest,
    readLines_append]

/-- A line that another one follows is the first. -/
theorem head?_splitOn (h : '\n' ∉ line) (rest : List Char) :
    ((line ++ '\n' :: rest).splitOn '\n').head? = some line := by
  rw [List.splitOn_append_cons_self, List.splitOn_eq_singleton h]
  rfl

/-- The first line tells why the run stopped, if it stopped. -/
theorem readStop?_text (r : Report) :
    (r.text.toList.splitOn '\n').head?.bind readStop? =
      r.stop.map fun reason => (reason.name, (r.steps : Int)) := by
  have hnewline : "\n".toList = ['\n'] := rfl
  have hheading : readStop? "Registers:".toList = none := by decide
  cases hstop : r.stop with
  | none =>
    rw [text_eq, hstop, Option.elim_none, String.empty_append, String.toList_append,
      toList_display, registerEntries, List.cons_append, List.map_cons, List.intercalate_cons_cons,
      List.append_assoc, List.append_assoc, List.singleton_append, head?_splitOn (by decide),
      Option.bind_some, hheading]
    rfl
  | some reason =>
    rw [text_eq, hstop, Option.elim_some, String.toList_append, String.toList_append, hnewline,
      List.append_assoc, List.singleton_append,
      head?_splitOn (newline_not_mem_stoppedLine reason r.steps), Option.bind_some,
      readStop?_stoppedLine]
    rfl

/-- The rows that list a range of cells show all of them. -/
theorem flatten_rows {m : Memory} (hle : first ≤ last) (hlast : last < m.size) :
    ((m.dumpRows first (last + 1)).map fun row =>
      Memory.addressed row.label (row.cells.map Int32.toInt)).flatten =
        Memory.addressed first (m.values first (last + 1)) := by
  rw [← List.flatMap_def, Memory.flatMap_dumpRows (by omega) hlast]

/-- A plain report shows the registers, and the cells of its range with their addresses. -/
theorem readPlain?_text (h : r.dump = some (first, last)) (hle : first ≤ last)
    (hlast : last < r.memory.size) :
    readPlain? r.text =
      some (r.registers, Memory.addressed first (r.memory.values first (last + 1))) := by
  rw [readPlain?, readLines_text, readLines_display, readLines_cellsText, h, Option.elim_some,
    ← flatten_rows hle hlast]
  obtain ⟨i1, i2, i3, i4, i5, i6, hindex, hlist⟩ := exists_entries r.registers.index
  rw [map_registerEntries hlist]
  simp only [List.cons_append, List.nil_append, mapM_readRow, Option.map_some, ← hindex]

theorem readCells?_cellsText (hrange : ∀ range ∈ r.dump, range.1 ≤ range.2 ∧
    range.2 < r.memory.size) :
    readCells? (readLines r.cellsText.toList) = some (r.dump.map fun range =>
      Memory.addressed range.1 (r.memory.values range.1 (range.2 + 1))) := by
  rw [readLines_cellsText]
  cases hdump : r.dump with
  | none => rfl
  | some range =>
    obtain ⟨hle, hlast⟩ := hrange range hdump
    simp only [Option.elim_some, readCells?, mapM_readRow, Option.map_some,
      flatten_rows hle hlast]

/-- Any plain report shows why the run stopped and after how many instructions, if it did, the
    registers, and the cells of its range with their addresses, if it has one. -/
theorem readShown?_text (hrange : ∀ range ∈ r.dump, range.1 ≤ range.2 ∧
    range.2 < r.memory.size) :
    readShown? r.text =
      some ⟨r.stop.map fun reason => (reason.name, (r.steps : Int)), r.registers,
        r.dump.map fun range =>
          Memory.addressed range.1 (r.memory.values range.1 (range.2 + 1))⟩ := by
  rw [readShown?, readLines_text, readLines_display, readStop?_text]
  obtain ⟨i1, i2, i3, i4, i5, i6, hindex, hlist⟩ := exists_entries r.registers.index
  rw [map_registerEntries hlist]
  simp only [List.cons_append, List.nil_append, readCells?_cellsText hrange, Option.map_some,
    ← hindex]

end WordMachine.CommandLine
