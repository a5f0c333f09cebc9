import WordMachine.Proofs.WordFile.Scanner

set_option autoImplicit false

/-! # Word files one behind the other

A line feed between two word files keeps them apart, however the first one ends: a comment, a token
or a line that is open there ends at the line feed, and a carriage return there makes one line break
with it. So the two are read one after the other (`parse_append_feed`), and only the numbers of the
lines go on: an error in the second file is reported so many lines further down as the first file
has (`parseLines_add`). -/

namespace WordMachine

/-- The error as it is reported from so many lines further down. -/
def Error.below (lines : Nat) : Error → Error
  | .format (.notAWord line token) => .format (.notAWord (line + lines) token)
  | e => e

namespace WordFile

/-! ## Lines with other numbers -/

theorem andThen_mapError (first second : Except Error (List Int)) (f : Error → Error) :
    (andThen first second).mapError f = andThen (first.mapError f) (second.mapError f) := by
  cases first with
  | error e => rfl
  | ok words => cases second <;> rfl

theorem readToken_add (line lines : Nat) (token : List Char) :
    readToken (line + lines) token = (readToken line token).mapError (Error.below lines) := by
  simp only [readToken]
  split
  · rfl
  · split <;> rfl

theorem readTokens_add (line lines : Nat) (tokens : List (List Char)) :
    readTokens (line + lines) tokens = (readTokens line tokens).mapError (Error.below lines) := by
  induction tokens with
  | nil => rfl
  | cons token rest ih =>
    rw [readTokens_cons, readTokens_cons, andThen_mapError, ih, readToken_add]
    cases readToken line token <;> rfl

theorem parseLines_add (line lines : Nat) (texts : List (List Char)) :
    parseLines (line + lines) texts = (parseLines line texts).mapError (Error.below lines) := by
  induction texts generalizing line with
  | nil => rfl
  | cons text rest ih =>
    rw [parseLines_cons, parseLines_cons, andThen_mapError, readTokens_add, ← ih (line + 1),
      Nat.add_right_comm]

/-! ## Lines behind other lines -/

theorem parseLines_append (line : Nat) (first second : List (List Char)) :
    parseLines line (first ++ second) =
      andThen (parseLines line first) (parseLines (line + first.length) second) := by
  induction first generalizing line with
  | nil => exact (nil_andThen _).symm
  | cons text first ih =>
    rw [List.cons_append, parseLines_cons, parseLines_cons, ih, andThen_assoc, List.length_cons,
      Nat.add_right_comm, Nat.add_assoc]

/-- A line feed behind a text adds no words to it. -/
theorem parseLines_concat_feed (line : Nat) (cs : List Char) :
    parseLines line (Text.lines (cs ++ ['\n'])) = parseLines line (Text.lines cs) := by
  have hempty : ∀ n, parseLines n [[]] = .ok [] := fun _ => rfl
  rcases Text.lines_concat_feed cs with h | h
  · rw [h]
  · rw [h, parseLines_append, hempty, andThen_nil]

theorem parse_append_feed_eq_andThen (cs ds : List Char) :
    parse (cs ++ '\n' :: ds) =
      andThen (parse cs)
        ((parse ds).mapError (Error.below (Text.lines (cs ++ ['\n'])).length)) := by
  rw [parse, parse, parse, Text.lines_append_feed, parseLines_append, parseLines_concat_feed,
    parseLines_add]

/-- Two word files with a line feed between them. If both can be read, their words are read one
    after the other. If the first cannot, its error is the error of both. If only the second cannot,
    because a token is no word, that token is reported, in a line that is counted on from the lines
    of the first file with its line feed; any other error of the second file stays as it is. -/
theorem parse_append_feed (cs ds : List Char) :
    parse (cs ++ '\n' :: ds) =
      match parse cs, parse ds with
      | .ok words, .ok more => .ok (words ++ more)
      | .error e, _ => .error e
      | .ok _, .error (.format (.notAWord line token)) =>
        .error (.format (.notAWord (line + (Text.lines (cs ++ ['\n'])).length) token))
      | .ok _, .error e => .error e := by
  rw [parse_append_feed_eq_andThen]
  cases parse cs with
  | error e => rfl
  | ok words =>
    cases parse ds with
    | ok more => rfl
    | error e =>
      cases e with
      | format f => cases f <;> rfl
      | _ => rfl

/-- A comment with a carriage return behind it is one line with the line feed. -/
example : parse ("1 #,\r".toList ++ '\n' :: "2 x".toList) =
    .error (.format (.notAWord 2 "x".toList)) := by decide

end WordFile

end WordMachine
