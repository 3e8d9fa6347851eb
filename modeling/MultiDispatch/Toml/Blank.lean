/-!
# Blanks, line ends and comments

What may stand between the parts of a TOML document. A reader takes the text that is left and
answers with what it read and the text after it.

## Main definitions

* `Reader`: a partial function from a text to a result and the rest of the text.
* `skipBlanks`: blanks within a line.
* `lineEnd`: the end of a line, an optional comment before it included.
* `skipFill`: blanks, line ends and comments, as they may stand between the items of an array.
-/

namespace MultiDispatch.Toml

/-- What reads a text: the result and the text left over, or nothing if the text does not fit. -/
abbrev Reader (α : Type) := List Char → Option (α × List Char)

/-- Read one given character. -/
def expect (c : Char) : List Char → Option (List Char)
  | [] => none
  | d :: rest => if d = c then some rest else none

/-- A character that separates within a line. -/
def isSpace (c : Char) : Bool :=
  c == ' ' || c == '\t'

/-- A character beyond ASCII. -/
def isForeign (c : Char) : Bool :=
  0x80 ≤ c.toNat

/-- A character that may stand in a comment: the tab, visible ASCII and everything beyond it. -/
def isCommentChar (c : Char) : Bool :=
  c == '\t' || (0x20 ≤ c.toNat && c.toNat ≤ 0x7e) || isForeign c

/-- The text after the blanks within a line. -/
def skipBlanks (s : List Char) : List Char :=
  s.dropWhile isSpace

/-- Read a line break: a line feed, with or without a carriage return before it. -/
def lineBreak : List Char → Option (List Char)
  | '\n' :: rest => some rest
  | '\r' :: '\n' :: rest => some rest
  | _ => none

/-- The text after a comment, if there is one. -/
def skipComment : List Char → List Char
  | '#' :: rest => rest.dropWhile isCommentChar
  | s => s

/-- Read up to the end of the line: blanks, a comment, and then a line break or the end. -/
def lineEnd (s : List Char) : Option (List Char) :=
  match skipComment (skipBlanks s) with
  | [] => some []
  | rest => lineBreak rest

/-- Skip blanks, line breaks and comments; the flag says that a comment is being skipped. -/
def skipFillFrom : Bool → List Char → List Char
  | _, [] => []
  | _, '\n' :: rest => skipFillFrom false rest
  | _, '\r' :: '\n' :: rest => skipFillFrom false rest
  | true, c :: rest => if isCommentChar c then skipFillFrom true rest else c :: rest
  | false, c :: rest =>
    if isSpace c then skipFillFrom false rest
    else if c = '#' then skipFillFrom true rest
    else c :: rest

/-- The text after blanks, line breaks and comments. -/
def skipFill (s : List Char) : List Char :=
  skipFillFrom false s

end MultiDispatch.Toml
