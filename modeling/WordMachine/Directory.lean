import WordMachine.Program

set_option autoImplicit false

/-! # Directories

A directory holds files by name. A path is a root and names below it; empty names and the name
`.` lead nowhere and are left out. Paths are followed from the directory itself. What surrounds
the directory is known only to consist of directories. -/

namespace WordMachine

/-- A path: the slashes it begins with, and the names below. -/
structure Path where
  root : String := ""
  names : List String := []
  deriving DecidableEq, Repr

namespace Path

/-- The root of a path: two slashes are a root of their own, any other number is one. -/
def rootOf : List Char → String
  | '/' :: '/' :: '/' :: _ => "/"
  | '/' :: '/' :: _ => "//"
  | '/' :: _ => "/"
  | _ => ""

/-- The path that a text stands for. -/
def ofString (text : String) : Path where
  root := rootOf text.toList
  names := ((Text.fields (· = '/') text.toList).map String.ofList).filter (· ≠ ".")

/-- The path as text; a path without root and names is the directory itself. -/
def text (p : Path) : String :=
  let text := p.root ++ "/".intercalate p.names
  if text = "" then "." else text

end Path

/-- A directory: its files by name. -/
structure Directory where
  files : List (String × ByteArray) := []

namespace Directory

/-- Where a path has led so far. -/
inductive Place where
  /-- The directory itself. -/
  | here
  /-- A directory around it. -/
  | outside
  | file (contents : ByteArray)

/-- The most bytes that a file name may have. -/
def nameLimit : Nat := 255

/-- The most bytes that a path may have. -/
def pathLimit : Nat := 4095

/-- Follows names from a place; `path` is what an error shows. -/
def follow (d : Directory) (path : String) : Place → List String → Except FileError Place
  | place, [] => .ok place
  | .file _, _ :: _ => .error (.notADirectory path)
  | place, name :: names =>
    if name = ".." then d.follow path .outside names
    else if nameLimit < name.utf8ByteSize then .error (.nameTooLong path)
    else
      match place, d.files.lookup name with
      | .here, some contents => d.follow path (.file contents) names
      | _, _ => .error (.notFound path)

/-- The contents of the file by this path. -/
def read (d : Directory) (path : Path) : Except FileError ByteArray :=
  let text := path.text
  if '\x00' ∈ text.toList then .error .nullCharacter
  else if pathLimit < text.utf8ByteSize then .error (.nameTooLong text)
  else
    match d.follow text (if path.root = "" then .here else .outside) path.names with
    | .error e => .error e
    | .ok (.file contents) => .ok contents
    | .ok _ => .error (.isADirectory text)

/-- The program in the file by this path. -/
def program (d : Directory) (path : String) : Program :=
  let path := Path.ofString path
  .file path.text (d.read path)

end Directory

end WordMachine
