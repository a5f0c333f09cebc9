import WordMachine.Text.Line
import WordMachine.WordFile

set_option autoImplicit false

/-! # Programs

A program comes as a list of words, as the text of a word file, or as a word file that was read.
The bytes of a file are UTF-8; a byte order mark is kept, and carriage returns are taken as line
feeds. -/

namespace WordMachine

/-- Where the words of a program come from. -/
inductive Program where
  | words (words : List Int)
  | text (text : String)
  /-- The file by this path, and what came of reading it. -/
  | file (path : String) (contents : Except FileError ByteArray)

namespace Program

/-- The words in the bytes of the file by this path. -/
def wordsOfBytes (path : String) (bytes : ByteArray) : Except Error (List Int) :=
  match Text.Utf8.decode bytes with
  | .ok chars => WordFile.parse (Text.unifyNewlines chars)
  | .error malformed => .error (.format (.notText path malformed))

/-- The words of the program. -/
def read : Program → Except Error (List Int)
  | .words ws => .ok ws
  | .text t => WordFile.parse t.toList
  | .file path (.ok bytes) => wordsOfBytes path bytes
  | .file _ (.error e) => .error (.file e)

end Program

end WordMachine
