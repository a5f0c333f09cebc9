import WordMachine.Proofs.Session.Operations
import WordMachine.Proofs.Text.Lines
import WordMachine.Proofs.Text.Utf8

set_option autoImplicit false

/-! # Programs in files

A program that is loaded from a file is decoded first, and its newlines are unified. Neither is
seen afterwards: unified newlines leave the lines of a text as they are, so the file and its text
have the same words or the same first error (`perform_load_file`). Bytes that are no text are
refused with the offset at which their text ends. -/

namespace WordMachine

variable {path : String} {bytes : ByteArray} {chars : List Char}

theorem WordFile.parse_unifyNewlines (text : List Char) :
    parse (Text.unifyNewlines text) = parse text := by
  rw [parse, parse, Text.lines_unifyNewlines]

namespace Program

theorem read_file_of_text (h : Text.Utf8.decode bytes = .ok chars) :
    (Program.file path (.ok bytes)).read = (Program.text (String.ofList chars)).read := by
  simp only [read, wordsOfBytes, h, String.toList_ofList]
  exact WordFile.parse_unifyNewlines chars

theorem read_file_of_malformed {malformed : Text.Utf8.Malformed}
    (h : Text.Utf8.decode bytes = .error malformed) :
    (Program.file path (.ok bytes)).read = .error (.format (.notText path malformed)) := by
  simp only [read, wordsOfBytes, h]

end Program

/-- Programs that are read alike are loaded alike. -/
theorem Operation.perform_load_congr {first second : Program} (h : first.read = second.read)
    (e : Emulator) : (Operation.load first).perform e = (Operation.load second).perform e := by
  have hload : e.load first = e.load second := by rw [Emulator.load, Emulator.load, h]
  rw [perform, perform, hload]

theorem Operation.perform_load_of_unread {program : Program} {error : Error}
    (h : program.read = .error error) (e : Emulator) :
    (Operation.load program).perform e = some (.error error, e) := by
  rw [perform, Emulator.load_of_unread h]

/-- Loading a file and loading its text agree. Let the longest encoding of characters be taken with
    which the bytes of the file begin. If it is all of them, then loading the file answers what
    loading these characters answers, and leaves the same emulator. If not, the file is refused with
    the offset at which it ends, without a line or a token, and the emulator is as before. -/
theorem Operation.perform_load_file (path : String) (bytes : ByteArray) (e : Emulator) :
    ∃ chars, Text.Utf8.Longest bytes chars ∧
      (bytes = chars.utf8Encode →
        (Operation.load (.file path (.ok bytes))).perform e =
          (Operation.load (.text (String.ofList chars))).perform e) ∧
      (bytes ≠ chars.utf8Encode →
        ∃ flaw : Text.Utf8.Flaw,
          let offset := chars.utf8Encode.size
          let error := FormatError.notText path ⟨flaw, offset⟩
          (Operation.load (.file path (.ok bytes))).perform e = some (.error (.format error), e) ∧
            error.line = 0 ∧ error.token = "" ∧ error.message =
              s!"{path}: not a text word file ({flaw.text} at byte {Decimal.text offset})") := by
  obtain ⟨chars, hlongest, hall, hrest⟩ := Text.Utf8.exists_decode bytes
  refine ⟨chars, hlongest, fun h => ?_, fun h => ?_⟩
  · exact perform_load_congr (Program.read_file_of_text (hall h)) e
  · obtain ⟨flaw, hdecode⟩ := hrest h
    have hread : (Program.file path (.ok bytes)).read = _ := Program.read_file_of_malformed hdecode
    exact ⟨flaw, perform_load_of_unread hread e, rfl, rfl, rfl⟩

end WordMachine
